import P2PChat.RootRuns

namespace P2PChat

/-- The server is there and its clients are served. -/
def RootPoint.serves : RootPoint → Bool
  | .startInput | .poll | .noteTerminate | .closeHandle | .setRestarting | .wait | .sleep => true
  | _ => false

/-- The clients of the last server are destroyed, and the next server is not yet there. -/
def RootPoint.ends : RootPoint → Bool
  | .destroyClients | .stopAuthenticator | .joinAuthenticator | .deleteServer | .endTicks | .joinTicks => true
  | .clearServer | .testStop | .clearRestart | .create | .returned => true
  | _ => false

theorem RootPoint.serves_ends {point : RootPoint} (h : point.serves = true) : point.ends = false := by
  cases point
  case startInput | poll | noteTerminate | closeHandle | setRestarting | wait | sleep => rfl
  all_goals cases h

/-- The tick thread is in a round. -/
def ServerTickPoint.ticks : ServerTickPoint → Bool
  | .swap | .commands _ | .clients | .testRestarting | .clearRestarting | .setEvent => true
  | _ => false

/-- How far the authenticator's thread is from giving the lock back. -/
def ExecutePoint.toUnlock : ExecutePoint → Nat
  | .take | .unlock => 1
  | .decide => 2
  | .testSize => 3
  | .testTerminate => 4
  | _ => 0

/-- How far it is from its end when it is asked to end. -/
def ExecutePoint.toEnd : ExecutePoint → Nat
  | .decide => 1
  | .testTerminate => 2
  | .lock | .relock => 3
  | .process _ | .wait => 4
  | .take | .unlock => 5
  | .testSize => 6
  | _ => 0

namespace Root

variable {outcome : RootPoint → Bool} {s s₁ t : Root} {a : RootAct} {P Q : Root → Prop} {point : RootPoint}

section Leads

/-- Only the threads of the program itself go on, and each system call comes out as is given. -/
def own (outcome : RootPoint → Bool) (s : Root) (a : RootAct) : Prop :=
  a = .main (outcome s.main) ∨ a = .ticker none ∨ a = .authenticator

/-- The threads can go on to such a state. -/
def Leads (outcome : RootPoint → Bool) (s : Root) (P : Root → Prop) : Prop :=
  ∃ t, rootMachine.Reach (own outcome) s t ∧ P t

theorem Leads.here (h : P s) : Leads outcome s P := ⟨s, .start, h⟩

theorem Leads.mono (hsub : ∀ t, P t → Q t) (h : Leads outcome s P) : Leads outcome s Q := by
  obtain ⟨t, hreach, ht⟩ := h
  exact ⟨t, hreach, hsub t ht⟩

theorem Leads.trans (h : Leads outcome s P) (hnext : ∀ t, P t → Leads outcome t Q) : Leads outcome s Q := by
  obtain ⟨t, hreach, ht⟩ := h
  obtain ⟨u, hreach', hu⟩ := hnext t ht
  exact ⟨u, hreach.trans hreach', hu⟩

theorem Leads.step (hown : own outcome s a) (hstep : s.step a = .ok s₁) (h : Leads outcome s₁ P) :
    Leads outcome s P := by
  have henabled : rootMachine.enabled s a := fun hblocked => by cases hstep.symm.trans hblocked
  obtain ⟨t, hreach, ht⟩ := h
  exact ⟨t, (Machine.Reach.next .start henabled hown hstep).trans hreach, ht⟩

theorem Leads.ordered (hs : s.Ordered) (h : Leads outcome s P) : Leads outcome s fun t => t.Ordered ∧ P t := by
  obtain ⟨t, hreach, ht⟩ := h
  exact ⟨t, hreach, reach_ordered hreach hs, ht⟩

/-- No server is created, and nobody takes back a request to stop. -/
structure Carried (s t : Root) : Prop where
  servers : t.servers = s.servers
  shouldStop : s.shouldStop = true → t.shouldStop = true
  terminate : s.terminateEventRaised = true → t.terminateEventRaised = true

theorem Carried.trans {u : Root} (h : Carried s t) (h' : Carried t u) : Carried s u :=
  ⟨h'.servers.trans h.servers, h'.shouldStop ∘ h.shouldStop, h'.terminate ∘ h.terminate⟩

/-- The main thread has come to that place. -/
structure Arrived (s : Root) (point : RootPoint) (t : Root) : Prop where
  main : t.main = point
  carried : Carried s t

theorem Leads.arrived (hcarried : Carried s s₁) (h : Leads outcome s₁ (Arrived s₁ point)) :
    Leads outcome s₁ (Arrived s point) :=
  h.mono fun _ ht => ⟨ht.main, hcarried.trans ht.carried⟩

theorem Leads.main (hstep : s.mainStep (outcome s.main) = .ok s₁) (hcarried : Carried s s₁)
    (h : Leads outcome s₁ (Arrived s₁ point)) : Leads outcome s (Arrived s point) :=
  .step (.inl rfl) hstep (h.arrived hcarried)

theorem Leads.ticker (hstep : s.tickerStep none = .ok s₁) (hcarried : Carried s s₁)
    (h : Leads outcome s₁ (Arrived s₁ point)) : Leads outcome s (Arrived s point) :=
  .step (.inr (.inl rfl)) hstep (h.arrived hcarried)

theorem Leads.authenticator (hstep : s.authenticatorStep = .ok s₁) (h : Leads outcome s₁ P) :
    Leads outcome s P :=
  .step (.inr (.inr rfl)) hstep h

end Leads

section Unlocking

variable {q q' : AuthenticatorQueue}

/-- Who holds the lock never waits, and gives it back. -/
theorem held_step (hs : q.Sound) (hholds : q.execute.holds = true) :
    ∃ q', q.executeStep = some q' ∧
      (q'.cs = none ∨ q'.cs = q.cs ∧ q'.execute.holds = true ∧ q'.execute.toUnlock < q.execute.toUnlock) := by
  cases hat : q.execute with
  | testTerminate =>
    by_cases hend : q.shouldTerminate = true
    · exact ⟨{ q with execute := .decide }, by simp only [AuthenticatorQueue.executeStep, hat, hend, if_true],
        .inr ⟨rfl, rfl, by simp [ExecutePoint.toUnlock]⟩⟩
    · exact ⟨{ q with execute := .testSize }, by simp only [AuthenticatorQueue.executeStep, hat, hend]; rfl,
        .inr ⟨rfl, rfl, by simp [ExecutePoint.toUnlock]⟩⟩
  | testSize =>
    by_cases hempty : q.queue.length = 0
    · exact ⟨{ q with execute := .unlock }, by simp only [AuthenticatorQueue.executeStep, hat, hempty, if_true],
        .inr ⟨rfl, rfl, by simp [ExecutePoint.toUnlock]⟩⟩
    · exact ⟨{ q with execute := .decide }, by simp only [AuthenticatorQueue.executeStep, hat, hempty, if_false],
        .inr ⟨rfl, rfl, by simp [ExecutePoint.toUnlock]⟩⟩
  | unlock =>
    exact ⟨{ q with cs := none, execute := .wait },
      by simp only [AuthenticatorQueue.executeStep, hat], .inl rfl⟩
  | decide =>
    by_cases hend : q.shouldTerminate = true
    · exact ⟨{ q with cs := none, execute := .returned },
        by simp only [AuthenticatorQueue.executeStep, hat, hend, if_true], .inl rfl⟩
    · exact ⟨{ q with execute := .take }, by simp only [AuthenticatorQueue.executeStep, hat, hend]; rfl,
        .inr ⟨rfl, rfl, by simp [ExecutePoint.toUnlock]⟩⟩
  | take =>
    obtain ⟨front, queue, hqueue⟩ := List.exists_cons_of_ne_nil (hs.take hat)
    exact ⟨{ q with queue := queue, taken := q.taken ++ [front], cs := none, execute := .process front },
      by simp only [AuthenticatorQueue.executeStep, hat, hqueue], .inl rfl⟩
  | absent => rw [hat] at hholds; cases hholds
  | lock => rw [hat] at hholds; cases hholds
  | wait => rw [hat] at hholds; cases hholds
  | sleep => rw [hat] at hholds; cases hholds
  | relock => rw [hat] at hholds; cases hholds
  | process user => rw [hat] at hholds; cases hholds
  | returned => rw [hat] at hholds; cases hholds

/-- When it is asked to end and nobody is in its way, the authenticator's thread comes closer to its end with
every step, and it never sleeps. -/
theorem ending_step (hs : q.Sound) (hcallers : ∀ t, q.callers t = .outside) (howner : q.owner = .join)
    (hend : q.shouldTerminate = true) (hthere : q.execute ≠ .absent) (hends : q.execute ≠ .returned) :
    ∃ q', q.executeStep = some q' ∧ q'.execute.toEnd < q.execute.toEnd := by
  have hfree : q.execute.holds = false → q.cs = none := fun hexecute => by
    cases hcs : q.cs with
    | none => rfl
    | some holder =>
      cases holder with
      | caller t =>
        have hholds := (hs.caller_holds t).mpr hcs
        rw [hcallers t] at hholds
        cases hholds
      | execute => exact absurd hcs (hs.cs_ne hexecute)
  have hset : q.execute.waits = true → q.queueNonempty.shouldContinue = true := fun hwaits =>
    (hs.stop_set (.inl hwaits) hend).resolve_right fun h => by cases h.symm.trans howner
  cases hat : q.execute with
  | absent => exact absurd hat hthere
  | returned => exact absurd hat hends
  | lock =>
    exact ⟨{ q with cs := some .execute, execute := .testTerminate },
      by simp only [AuthenticatorQueue.executeStep, hat, hfree (by rw [hat]; rfl), if_true],
      by simp [ExecutePoint.toEnd]⟩
  | relock =>
    exact ⟨{ q with cs := some .execute, execute := .testTerminate },
      by simp only [AuthenticatorQueue.executeStep, hat, hfree (by rw [hat]; rfl), if_true],
      by simp [ExecutePoint.toEnd]⟩
  | testTerminate =>
    exact ⟨{ q with execute := .decide }, by simp only [AuthenticatorQueue.executeStep, hat, hend, if_true],
      by simp [ExecutePoint.toEnd]⟩
  | testSize =>
    by_cases hempty : q.queue.length = 0
    · exact ⟨{ q with execute := .unlock }, by simp only [AuthenticatorQueue.executeStep, hat, hempty, if_true],
        by simp [ExecutePoint.toEnd]⟩
    · exact ⟨{ q with execute := .decide }, by simp only [AuthenticatorQueue.executeStep, hat, hempty, if_false],
        by simp [ExecutePoint.toEnd]⟩
  | unlock =>
    exact ⟨{ q with cs := none, execute := .wait },
      by simp only [AuthenticatorQueue.executeStep, hat], by simp [ExecutePoint.toEnd]⟩
  | wait =>
    exact ⟨{ q with queueNonempty := { q.queueNonempty with shouldContinue := false }, execute := .relock },
      by simp only [AuthenticatorQueue.executeStep, hat, CEvent.wait_of_set (hset (by rw [hat]; rfl))],
      by simp [ExecutePoint.toEnd]⟩
  | sleep =>
    obtain ⟨t, ht⟩ | hnotify := hs.asleep hat (hset (by rw [hat]; rfl))
    · cases (hcallers t).symm.trans ht
    · cases howner.symm.trans hnotify
  | decide =>
    exact ⟨{ q with cs := none, execute := .returned },
      by simp only [AuthenticatorQueue.executeStep, hat, hend, if_true], by simp [ExecutePoint.toEnd]⟩
  | take =>
    obtain ⟨front, queue, hqueue⟩ := List.exists_cons_of_ne_nil (hs.take hat)
    exact ⟨{ q with queue := queue, taken := q.taken ++ [front], cs := none, execute := .process front },
      by simp only [AuthenticatorQueue.executeStep, hat, hqueue], by simp [ExecutePoint.toEnd]⟩
  | process user =>
    exact ⟨{ q with execute := .lock }, by simp only [AuthenticatorQueue.executeStep, hat],
      by simp [ExecutePoint.toEnd]⟩

end Unlocking

section Waiting

/-- The main thread waits for the tick thread. -/
def Waits (s : Root) : Prop := s.main = .wait ∨ s.main = .sleep

theorem Ordered.waits (hs : s.Ordered) (hwaits : s.Waits) : s.server = .live ∧ s.Answering := by
  have hphase := hs.phase
  unfold Phase at hphase
  rcases hwaits with hmain | hmain <;> simp only [hmain] at hphase
  · exact hphase
  · exact ⟨hphase.1, hphase.2.1⟩

/-- A step of the tick thread on its live server. -/
theorem ticker_on (hlive : s.server = .live) (hthere : s.ticker ≠ .absent) (hends : s.ticker ≠ .ended)
    {request : Option User} : s.tickerStep request = s.tick request := by
  have hgone := serverGone_of_live hlive
  simp only [tickerStep, hthere, hends, hgone, or_self, if_false, Bool.false_eq_true]

/-- A command changes at most the flags of the root while there is a server. -/
theorem executeConsoleCommand_live (hlive : s.server = .live) (command : AString) :
    ∃ stop restart, s.executeConsoleCommand command = .ok { s with shouldStop := stop, restart := restart } ∧
      (s.shouldStop = true → stop = true) := by
  have hgone := serverGone_of_live hlive
  unfold executeConsoleCommand
  split
  next => exact ⟨true, s.restart, rfl, fun _ => rfl⟩
  next =>
    split
    next => exact ⟨s.shouldStop, true, rfl, id⟩
    next =>
      rw [hgone]
      exact ⟨s.shouldStop, s.restart, rfl, id⟩

theorem lead_set (hmain : s.main = .wait) (hset : s.restartEvent.shouldContinue = true) :
    Leads outcome s (Arrived s .destroyClients) := by
  have hstep : s.mainStep (outcome s.main) =
      .ok { s with restartEvent := { s.restartEvent with shouldContinue := false }, main := .destroyClients } := by
    unfold mainStep
    simp only [hmain, CEvent.wait_of_set hset]
  exact .main hstep ⟨rfl, id, id⟩ (.here ⟨rfl, rfl, id, id⟩)

theorem lead_notify (hlive : s.server = .live) (hwaits : s.Waits) (hset : s.restartEvent.shouldContinue = true)
    (hat : s.ticker = .notify) : Leads outcome s (Arrived s .destroyClients) := by
  have hstep : s.tickerStep none =
      .ok { s with main := if s.main = .sleep then .wait else s.main, ticker := .assign false } := by
    rw [ticker_on hlive (by rw [hat]; decide) (by rw [hat]; decide)]
    simp only [tick, hat, notifyRestartEvent, hlive, if_true]
  refine .ticker hstep ⟨rfl, id, id⟩ (lead_set ?_ hset)
  rcases hwaits with hmain | hmain
  · simp only [hmain, reduceCtorEq, if_false]
  · simp only [hmain, if_true]

theorem lead_setEvent (hlive : s.server = .live) (hwaits : s.Waits) (hat : s.ticker = .setEvent) :
    Leads outcome s (Arrived s .destroyClients) := by
  have hstep : s.tickerStep none = .ok { s with restartEvent := s.restartEvent.set, ticker := .notify } := by
    rw [ticker_on hlive (by rw [hat]; decide) (by rw [hat]; decide)]
    simp only [tick, hat, setRestartEvent, hlive, if_true]
  exact .ticker hstep ⟨rfl, id, id⟩ (lead_notify hlive hwaits rfl rfl)

theorem lead_clearRestarting (hlive : s.server = .live) (hwaits : s.Waits) (hat : s.ticker = .clearRestarting) :
    Leads outcome s (Arrived s .destroyClients) := by
  have hstep : s.tickerStep none = .ok { s with restarting := false, ticker := .setEvent } := by
    rw [ticker_on hlive (by rw [hat]; decide) (by rw [hat]; decide)]
    simp only [tick, hat]
  exact .ticker hstep ⟨rfl, id, id⟩ (lead_setEvent hlive hwaits rfl)

theorem lead_testRestarting (hlive : s.server = .live) (hwaits : s.Waits) (hasked : s.restarting = true)
    (hat : s.ticker = .testRestarting) : Leads outcome s (Arrived s .destroyClients) := by
  have hstep : s.tickerStep none = .ok { s with ticker := .clearRestarting } := by
    rw [ticker_on hlive (by rw [hat]; decide) (by rw [hat]; decide)]
    simp only [tick, hat, hasked, if_true]
  exact .ticker hstep ⟨rfl, id, id⟩ (lead_clearRestarting hlive hwaits rfl)

theorem lead_clients (hlive : s.server = .live) (hwaits : s.Waits) (hasked : s.restarting = true)
    (hat : s.ticker = .clients) (hcall : s.authenticator.callers 0 = .outside) :
    Leads outcome s (Arrived s .destroyClients) := by
  have hstep : s.tickerStep none = .ok { s with ticker := .testRestarting } := by
    rw [ticker_on hlive (by rw [hat]; decide) (by rw [hat]; decide)]
    simp only [tick, hat, tickClients, hcall, if_true]
  exact .ticker hstep ⟨rfl, id, id⟩ (lead_testRestarting hlive hwaits hasked rfl)

/-- A step of a call of the tick thread. -/
theorem call_on (hlive : s.server = .live) (hat : s.ticker = .clients) {q : AuthenticatorQueue}
    (hcall : s.authenticator.callers 0 ≠ .outside) (hq : s.authenticator.callerStep 0 = some q) :
    s.tickerStep none = .ok { s with authenticator := q } := by
  rw [ticker_on hlive (by rw [hat]; decide) (by rw [hat]; decide)]
  simp only [tick, hat, tickClients, hcall, if_false, onAuthenticator, hq]

/-- A call comes to its end, from its last step to its first. -/
theorem lead_unlock (hlive : s.server = .live) (hwaits : s.Waits) (hasked : s.restarting = true)
    (hat : s.ticker = .clients) (hcall : s.authenticator.callers 0 = .unlock) :
    Leads outcome s (Arrived s .destroyClients) := by
  have hq : s.authenticator.callerStep 0 = some ({ s.authenticator with cs := none }.moveTo 0 .outside) := by
    simp only [AuthenticatorQueue.callerStep, hcall]
  refine .ticker (call_on hlive hat (by rw [hcall]; decide) hq) ⟨rfl, id, id⟩ ?_
  exact lead_clients hlive hwaits hasked hat AuthenticatorQueue.moveTo_self

theorem lead_callNotify (hlive : s.server = .live) (hwaits : s.Waits) (hasked : s.restarting = true)
    (hat : s.ticker = .clients) (hcall : s.authenticator.callers 0 = .notify) :
    Leads outcome s (Arrived s .destroyClients) := by
  have hq : s.authenticator.callerStep 0 = some (s.authenticator.notifyOne.moveTo 0 .unlock) := by
    simp only [AuthenticatorQueue.callerStep, hcall]
  refine .ticker (call_on hlive hat (by rw [hcall]; decide) hq) ⟨rfl, id, id⟩ ?_
  exact lead_unlock hlive hwaits hasked hat AuthenticatorQueue.moveTo_self

theorem lead_callSet (hlive : s.server = .live) (hwaits : s.Waits) (hasked : s.restarting = true)
    (hat : s.ticker = .clients) (hcall : s.authenticator.callers 0 = .set) :
    Leads outcome s (Arrived s .destroyClients) := by
  have hq : s.authenticator.callerStep 0 =
      some ({ s.authenticator with queueNonempty := s.authenticator.queueNonempty.set }.moveTo 0 .notify) := by
    simp only [AuthenticatorQueue.callerStep, hcall]
  refine .ticker (call_on hlive hat (by rw [hcall]; decide) hq) ⟨rfl, id, id⟩ ?_
  exact lead_callNotify hlive hwaits hasked hat AuthenticatorQueue.moveTo_self

theorem lead_push (hlive : s.server = .live) (hwaits : s.Waits) (hasked : s.restarting = true)
    (hat : s.ticker = .clients) {user : User} (hcall : s.authenticator.callers 0 = .push user) :
    Leads outcome s (Arrived s .destroyClients) := by
  have hq : s.authenticator.callerStep 0 = some ({ s.authenticator with
      queue := s.authenticator.queue ++ [user], pushed := s.authenticator.pushed ++ [user] }.moveTo 0 .set) := by
    simp only [AuthenticatorQueue.callerStep, hcall]
  refine .ticker (call_on hlive hat (by rw [hcall]; intro h; cases h) hq) ⟨rfl, id, id⟩ ?_
  exact lead_callSet hlive hwaits hasked hat AuthenticatorQueue.moveTo_self

theorem lead_lock (hlive : s.server = .live) (hwaits : s.Waits) (hasked : s.restarting = true)
    (hat : s.ticker = .clients) {user : User} (hcall : s.authenticator.callers 0 = .lock user)
    (hfree : s.authenticator.cs = none) : Leads outcome s (Arrived s .destroyClients) := by
  have hq : s.authenticator.callerStep 0 =
      some ({ s.authenticator with cs := some (.caller 0) }.moveTo 0 (.push user)) := by
    simp only [AuthenticatorQueue.callerStep, hcall, hfree, if_true]
  refine .ticker (call_on hlive hat (by rw [hcall]; intro h; cases h) hq) ⟨rfl, id, id⟩ ?_
  exact lead_push hlive hwaits hasked hat AuthenticatorQueue.moveTo_self

/-- While the authenticator's thread has the lock, it is that thread that goes on. -/
theorem lead_held (hs : s.Ordered) (hlive : s.server = .live) (hwaits : s.Waits) (hasked : s.restarting = true)
    (hat : s.ticker = .clients) {user : User} (hcall : s.authenticator.callers 0 = .lock user) :
    Leads outcome s (Arrived s .destroyClients) := by
  induction hn : s.authenticator.execute.toUnlock using Nat.strong_induction_on generalizing s with
  | _ n ih =>
    by_cases hholds : s.authenticator.execute.holds = true
    · obtain ⟨q, hq, hless⟩ := held_step hs.calls.sound hholds
      have hstep : s.authenticatorStep = .ok { s with authenticator := q } := by
        unfold authenticatorStep
        split
        next hprocess =>
          rw [hprocess] at hholds
          cases hholds
        next => simp only [onAuthenticator, hq]
      have hs' : ({ s with authenticator := q } : Root).Ordered := step_ordered (a := .authenticator) hs hstep
      have hcall' : q.callers 0 = .lock user := by rw [(executeStep_frame hq).callers]; exact hcall
      refine .authenticator hstep (.arrived ⟨rfl, id, id⟩ ?_)
      rcases hless with hfree | ⟨_, _, hless⟩
      · exact lead_lock hlive hwaits hasked hat hcall' hfree
      · exact ih _ (hn ▸ hless) hs' hlive hwaits hasked hat hcall' rfl
    · -- nobody else can hold it: the only call is that of the tick thread, which does not have it yet
      refine lead_lock hlive hwaits hasked hat hcall ?_
      cases hcs : s.authenticator.cs with
      | none => rfl
      | some holder =>
        cases holder with
        | execute => exact absurd (hs.calls.sound.execute_holds.mpr hcs) hholds
        | caller t =>
          have hheld := (hs.calls.sound.caller_holds t).mpr hcs
          have ht : t = 0 := (hs.calls.callers t fun hout => by rw [hout] at hheld; cases hheld).1
          rw [ht, hcall] at hheld
          cases hheld

theorem lead_tickClients (hs : s.Ordered) (hwaits : s.Waits) (hasked : s.restarting = true)
    (hat : s.ticker = .clients) : Leads outcome s (Arrived s .destroyClients) := by
  have hlive := (hs.waits hwaits).1
  cases hcall : s.authenticator.callers 0 with
  | outside => exact lead_clients hlive hwaits hasked hat hcall
  | lock user => exact lead_held hs hlive hwaits hasked hat hcall
  | push user => exact lead_push hlive hwaits hasked hat hcall
  | set => exact lead_callSet hlive hwaits hasked hat hcall
  | notify => exact lead_callNotify hlive hwaits hasked hat hcall
  | unlock => exact lead_unlock hlive hwaits hasked hat hcall

theorem lead_commands (hs : s.Ordered) (hwaits : s.Waits) (hasked : s.restarting = true) {todo : List AString}
    (hat : s.ticker = .commands todo) : Leads outcome s (Arrived s .destroyClients) := by
  induction todo generalizing s with
  | nil =>
    have hstep : s.tickerStep none = .ok { s with ticker := .clients } := by
      rw [ticker_on (hs.waits hwaits).1 (by rw [hat]; decide) (by rw [hat]; decide)]
      simp only [tick, hat]
    exact .ticker hstep ⟨rfl, id, id⟩ (lead_tickClients (step_ordered (a := .ticker none) hs hstep) hwaits hasked rfl)
  | cons command todo ih =>
    have hlive := (hs.waits hwaits).1
    obtain ⟨stop, restart, hexecute, hstop⟩ := executeConsoleCommand_live hlive command
    have hstep : s.tickerStep none =
        .ok { s with shouldStop := stop, restart := restart, ticker := .commands todo } := by
      rw [ticker_on hlive (by rw [hat]; intro h; cases h) (by rw [hat]; intro h; cases h)]
      simp only [tick, hat, hexecute]
      rfl
    exact .ticker hstep ⟨rfl, hstop, id⟩ (ih (step_ordered (a := .ticker none) hs hstep) hwaits hasked rfl)

theorem lead_swap (hs : s.Ordered) (hwaits : s.Waits) (hasked : s.restarting = true) (hat : s.ticker = .swap) :
    Leads outcome s (Arrived s .destroyClients) := by
  have hstep : s.tickerStep none =
      .ok { s with pendingCommands := [], ticker := .commands s.pendingCommands } := by
    rw [ticker_on (hs.waits hwaits).1 (by rw [hat]; decide) (by rw [hat]; decide)]
    simp only [tick, hat]
  exact .ticker hstep ⟨rfl, id, id⟩ (lead_commands (step_ordered (a := .ticker none) hs hstep) hwaits hasked rfl)

theorem lead_testTerminate (hs : s.Ordered) (hwaits : s.Waits) (hasked : s.restarting = true)
    (hgo : s.tickShouldTerminate = false) (hat : s.ticker = .testTerminate) :
    Leads outcome s (Arrived s .destroyClients) := by
  have hstep : s.tickerStep none = .ok { s with ticker := .swap } := by
    rw [ticker_on (hs.waits hwaits).1 (by rw [hat]; decide) (by rw [hat]; decide)]
    simp only [tick, hat, hgo, Bool.false_eq_true, if_false]
  exact .ticker hstep ⟨rfl, id, id⟩ (lead_swap (step_ordered (a := .ticker none) hs hstep) hwaits hasked rfl)

theorem lead_pause (hs : s.Ordered) (hwaits : s.Waits) (hasked : s.restarting = true)
    (hgo : s.tickShouldTerminate = false) (hat : s.ticker = .pause) :
    Leads outcome s (Arrived s .destroyClients) := by
  have hstep : s.tickerStep none = .ok { s with ticker := .testTerminate } := by
    rw [ticker_on (hs.waits hwaits).1 (by rw [hat]; decide) (by rw [hat]; decide)]
    simp only [tick, hat]
  exact .ticker hstep ⟨rfl, id, id⟩
    (lead_testTerminate (step_ordered (a := .ticker none) hs hstep) hwaits hasked hgo rfl)

theorem lead_assign (hs : s.Ordered) (hwaits : s.Waits) (hasked : s.restarting = true)
    (hat : s.ticker = .assign true) : Leads outcome s (Arrived s .destroyClients) := by
  have hstep : s.tickerStep none = .ok { s with tickShouldTerminate := false, ticker := .pause } := by
    rw [ticker_on (hs.waits hwaits).1 (by rw [hat]; decide) (by rw [hat]; decide)]
    simp only [tick, hat]
    rfl
  exact .ticker hstep ⟨rfl, id, id⟩ (lead_pause (step_ordered (a := .ticker none) hs hstep) hwaits hasked rfl rfl)

theorem lead_works (hs : s.Ordered) (hwaits : s.Waits) (hasked : s.restarting = true)
    (hgo : s.tickShouldTerminate = false) (hworks : s.ticker.works = true) :
    Leads outcome s (Arrived s .destroyClients) := by
  have hlive := (hs.waits hwaits).1
  cases hat : s.ticker with
  | testTerminate => exact lead_testTerminate hs hwaits hasked hgo hat
  | swap => exact lead_swap hs hwaits hasked hat
  | commands todo => exact lead_commands hs hwaits hasked hat
  | clients => exact lead_tickClients hs hwaits hasked hat
  | testRestarting => exact lead_testRestarting hlive hwaits hasked hat
  | pause => exact lead_pause hs hwaits hasked hgo hat
  | assign goOn =>
    cases goOn with
    | true => exact lead_assign hs hwaits hasked hat
    | false => rw [hat] at hworks; cases hworks
  | absent => rw [hat] at hworks; cases hworks
  | clearRestarting => rw [hat] at hworks; cases hworks
  | setEvent => rw [hat] at hworks; cases hworks
  | notify => rw [hat] at hworks; cases hworks
  | ended => rw [hat] at hworks; cases hworks

/-- `Shutdown` is answered. -/
theorem lead_waits (hs : s.Ordered) (hwaits : s.Waits) : Leads outcome s (Arrived s .destroyClients) := by
  obtain ⟨hlive, hanswering⟩ := hs.waits hwaits
  cases hanswering with
  | working hworks hasked _ hgo => exact lead_works hs hwaits hasked hgo hworks
  | clearing hat _ _ => exact lead_clearRestarting hlive hwaits hat
  | setting hat _ _ => exact lead_setEvent hlive hwaits hat
  | answered hset _ =>
    rcases hwaits with hmain | hmain
    · exact lead_set hmain hset
    · have hphase := hs.phase
      unfold Phase at hphase
      simp only [hmain] at hphase
      exact lead_notify hlive (.inr hmain) hset (hphase.2.2 hset)

end Waiting

section Ending

/-- The tick thread is at its end. -/
def Quiet (s : Root) : Prop := s.ticker = .absent ∨ s.ticker = .ended

/-- What the last steps of the tick thread change. -/
structure Quieted (s t : Root) : Prop where
  quiet : t.Quiet
  main : t.main = s.main
  server : t.server = s.server
  carried : Carried s t

/-- A step of the tick thread on a server that is not gone. -/
theorem ticker_last (hserver : s.serverGone = false) (hthere : s.ticker ≠ .absent) (hends : s.ticker ≠ .ended)
    {request : Option User} : s.tickerStep request = s.tick request := by
  simp only [tickerStep, hthere, hends, hserver, or_self, if_false, Bool.false_eq_true]

theorem lead_quieted (hstep : s.tickerStep none = .ok s₁) (hmain : s₁.main = s.main) (hserver : s₁.server = s.server)
    (hcarried : Carried s s₁) (h : Leads outcome s₁ (Quieted s₁)) : Leads outcome s (Quieted s) :=
  .step (.inr (.inl rfl)) hstep (h.mono fun _ ht =>
    ⟨ht.quiet, ht.main.trans hmain, ht.server.trans hserver, hcarried.trans ht.carried⟩)

theorem lead_lastTest (hserver : s.serverGone = false) (hend : s.tickShouldTerminate = true)
    (hat : s.ticker = .testTerminate) : Leads outcome s (Quieted s) := by
  have hstep : s.tickerStep none = .ok { s with ticker := .ended } := by
    rw [ticker_last hserver (by rw [hat]; decide) (by rw [hat]; decide)]
    simp only [tick, hat, hend, if_true]
  exact lead_quieted hstep rfl rfl ⟨rfl, id, id⟩ (.here ⟨.inr rfl, rfl, rfl, rfl, id, id⟩)

theorem lead_lastPause (hserver : s.serverGone = false) (hend : s.tickShouldTerminate = true)
    (hat : s.ticker = .pause) : Leads outcome s (Quieted s) := by
  have hstep : s.tickerStep none = .ok { s with ticker := .testTerminate } := by
    rw [ticker_last hserver (by rw [hat]; decide) (by rw [hat]; decide)]
    simp only [tick, hat]
  exact lead_quieted hstep rfl rfl ⟨rfl, id, id⟩ (lead_lastTest hserver hend rfl)

theorem lead_lastAssign (hserver : s.serverGone = false) (hat : s.ticker = .assign false) :
    Leads outcome s (Quieted s) := by
  have hstep : s.tickerStep none = .ok { s with tickShouldTerminate := true, ticker := .pause } := by
    rw [ticker_last hserver (by rw [hat]; decide) (by rw [hat]; decide)]
    simp only [tick, hat]
    rfl
  exact lead_quieted hstep rfl rfl ⟨rfl, id, id⟩ (lead_lastPause hserver rfl rfl)

/-- After its last round the tick thread comes to its end, if it does not find the event destroyed. -/
theorem lead_quiet (hserver : s.serverGone = false) (hpast : s.Past) (hawake : s.main ≠ .sleep)
    (hnotify : s.ticker = .notify → s.server = .live) : Leads outcome s (Quieted s) := by
  rcases hpast with habsent | hleaving
  · exact .here ⟨.inl habsent, rfl, rfl, rfl, id, id⟩
  · cases hleaving with
    | notify hat =>
      have hstep : s.tickerStep none =
          .ok { s with main := if s.main = .sleep then .wait else s.main, ticker := .assign false } := by
        rw [ticker_last hserver (by rw [hat]; decide) (by rw [hat]; decide)]
        simp only [tick, hat, notifyRestartEvent, hnotify hat, if_true]
      exact lead_quieted hstep (if_neg hawake) rfl ⟨rfl, id, id⟩ (lead_lastAssign hserver rfl)
    | assign hat => exact lead_lastAssign hserver hat
    | pause hat hend => exact lead_lastPause hserver hend hat
    | testTerminate hat hend => exact lead_lastTest hserver hend hat
    | ended hat => exact .here ⟨.inr hat, rfl, rfl, rfl, id, id⟩

theorem lead_clearServer (hmain : s.main = .clearServer) : Leads outcome s (Arrived s .testStop) := by
  have hstep : s.mainStep (outcome s.main) = .ok { s with server := .null, main := .testStop } := by
    simp only [mainStep, hmain]
  exact .main hstep ⟨rfl, id, id⟩ (.here ⟨rfl, rfl, id, id⟩)

theorem lead_joined (hmain : s.main = .joinTicks) (hquiet : s.Quiet) : Leads outcome s (Arrived s .testStop) := by
  have hstep : s.mainStep (outcome s.main) =
      .ok { s with ticker := .absent, server := .dangling, main := .clearServer } := by
    have hquiet : s.ticker = .absent ∨ s.ticker = .ended := hquiet
    simp only [mainStep, hmain, hquiet, if_true]
  exact .main hstep ⟨rfl, id, id⟩ (lead_clearServer rfl)

theorem lead_joinTicks (hs : s.Ordered) (hmain : s.main = .joinTicks) (hnotify : s.ticker ≠ .notify) :
    Leads outcome s (Arrived s .testStop) := by
  have hphase := hs.phase
  simp only [Phase, hmain] at hphase
  obtain ⟨hdying, hpast, _⟩ := hphase
  have hquiet : Leads outcome s (Quieted s) :=
    lead_quiet (serverGone_of_dying hdying) hpast (by rw [hmain]; decide) fun hat => absurd hat hnotify
  exact hquiet.trans fun t ht => (lead_joined (ht.main.trans hmain) ht.quiet).arrived ht.carried

theorem lead_endTicks (hs : s.Ordered) (hmain : s.main = .endTicks) (hnotify : s.ticker ≠ .notify) :
    Leads outcome s (Arrived s .testStop) := by
  have hstep : s.mainStep (outcome s.main) = .ok { s with tickShouldTerminate := true, main := .joinTicks } := by
    simp only [mainStep, hmain]
  have hs' := step_ordered (a := .main (outcome s.main)) hs hstep
  exact .main hstep ⟨rfl, id, id⟩ (lead_joinTicks hs' rfl hnotify)

/-- The tick thread goes first, so that it does not come too late to notify. -/
theorem lead_deleteServer (hs : s.Ordered) (hmain : s.main = .deleteServer) :
    Leads outcome s (Arrived s .testStop) := by
  have hphase := hs.phase
  simp only [Phase, hmain] at hphase
  obtain ⟨hlive, hpast, _⟩ := hphase
  have hgone := serverGone_of_live hlive
  have hquiet : Leads outcome s (Quieted s) :=
    lead_quiet hgone hpast (by rw [hmain]; decide) fun _ => hlive
  refine (hquiet.ordered hs).trans fun t hboth => Leads.arrived hboth.2.carried ?_
  obtain ⟨hordered, ht⟩ := hboth
  have hmain' := ht.main.trans hmain
  have hstep : t.mainStep (outcome t.main) = .ok { t with server := .dying, main := .endTicks } := by
    simp only [mainStep, hmain']
  have hs' := step_ordered (a := .main (outcome t.main)) hordered hstep
  refine .main hstep ⟨rfl, id, id⟩ (lead_endTicks hs' rfl ?_)
  change t.ticker ≠ .notify
  rcases ht.quiet with hat | hat
  · rw [hat]; decide
  · rw [hat]; decide

end Ending

section Joining

theorem Ordered.joining (hs : s.Ordered) (hmain : s.main = .joinAuthenticator) :
    s.server = .live ∧ (∀ t, s.authenticator.callers t = .outside) ∧ s.authenticator.shouldTerminate = true ∧
      s.authenticator.owner ≠ .outside := by
  have hphase := hs.phase
  simp only [Phase, hmain] at hphase
  exact ⟨hphase.1, hphase.2.no_calls hs.calls, hs.calls.stopping hmain,
    fun howner => absurd hmain (hs.calls.owner.mp howner)⟩

/-- The authenticator's thread comes to its end, and is joined. -/
theorem lead_join (hs : s.Ordered) (hmain : s.main = .joinAuthenticator) (howner : s.authenticator.owner = .join) :
    Leads outcome s (Arrived s .testStop) := by
  induction hn : s.authenticator.execute.toEnd using Nat.strong_induction_on generalizing s with
  | _ n ih =>
    obtain ⟨hlive, hcallers, hend, _⟩ := hs.joining hmain
    by_cases hover : s.authenticator.execute = .absent ∨ s.authenticator.execute = .returned
    · have hstep : s.mainStep (outcome s.main) = .ok { s with
          authenticator := { s.authenticator with execute := .absent, owner := .outside }, main := .deleteServer } := by
        simp only [mainStep, hmain, joinAuthenticator, AuthenticatorQueue.ownerStep, howner, hover, if_true]
      have hs' := step_ordered (a := .main (outcome s.main)) hs hstep
      exact .main hstep ⟨rfl, id, id⟩ (lead_deleteServer hs' rfl)
    · obtain ⟨q, hq, hless⟩ := ending_step hs.calls.sound hcallers howner hend (fun hat => hover (.inl hat))
        (fun hat => hover (.inr hat))
      have hstep : s.authenticatorStep = .ok { s with authenticator := q } := by
        unfold authenticatorStep
        split
        next => simp only [hlive, if_true, onAuthenticator, hq]
        next => simp only [onAuthenticator, hq]
      have hs' := step_ordered (a := .authenticator) hs hstep
      have howner' : q.owner = .join := (executeStep_frame hq).owner.trans howner
      exact .authenticator hstep (.arrived ⟨rfl, id, id⟩ (ih _ (hn ▸ hless) hs' hmain howner' rfl))

theorem lead_joinNotify (hs : s.Ordered) (hmain : s.main = .joinAuthenticator)
    (howner : s.authenticator.owner = .notify) : Leads outcome s (Arrived s .testStop) := by
  have hstep : s.mainStep (outcome s.main) = .ok { s with
      authenticator := { s.authenticator.notifyOne with owner := .join }, main := .joinAuthenticator } := by
    simp only [mainStep, hmain, joinAuthenticator, AuthenticatorQueue.ownerStep, howner, reduceCtorEq, if_false]
  have hs' := step_ordered (a := .main (outcome s.main)) hs hstep
  exact .main hstep ⟨rfl, id, id⟩ (lead_join hs' rfl rfl)

theorem lead_joinAuthenticator (hs : s.Ordered) (hmain : s.main = .joinAuthenticator) :
    Leads outcome s (Arrived s .testStop) := by
  cases howner : s.authenticator.owner with
  | outside => exact absurd howner (hs.joining hmain).2.2.2
  | join => exact lead_join hs hmain howner
  | notify => exact lead_joinNotify hs hmain howner
  | set =>
    have hstep : s.mainStep (outcome s.main) = .ok { s with
        authenticator :=
          { s.authenticator with queueNonempty := s.authenticator.queueNonempty.set, owner := .notify }
        main := .joinAuthenticator } := by
      simp only [mainStep, hmain, joinAuthenticator, AuthenticatorQueue.ownerStep, howner, reduceCtorEq, if_false]
    have hs' := step_ordered (a := .main (outcome s.main)) hs hstep
    exact .main hstep ⟨rfl, id, id⟩ (lead_joinNotify hs' rfl rfl)

theorem lead_stopAuthenticator (hs : s.Ordered) (hmain : s.main = .stopAuthenticator) :
    Leads outcome s (Arrived s .testStop) := by
  have howner : s.authenticator.owner = .outside := hs.calls.owner.mpr (by rw [hmain]; decide)
  have hstep : s.mainStep (outcome s.main) = .ok { s with
      authenticator := { s.authenticator with shouldTerminate := true, owner := .set }
      main := .joinAuthenticator } := by
    simp only [mainStep, hmain, onAuthenticator, AuthenticatorQueue.stop, howner, if_true]
    rfl
  have hs' := step_ordered (a := .main (outcome s.main)) hs hstep
  exact .main hstep ⟨rfl, id, id⟩ (lead_joinAuthenticator hs' rfl)

theorem lead_destroyClients (hs : s.Ordered) (hmain : s.main = .destroyClients) :
    Leads outcome s (Arrived s .testStop) := by
  have hstep : s.mainStep (outcome s.main) = .ok { s with main := .stopAuthenticator } := by
    simp only [mainStep, hmain]
  have hs' := step_ordered (a := .main (outcome s.main)) hs hstep
  exact .main hstep ⟨rfl, id, id⟩ (lead_stopAuthenticator hs' rfl)

theorem lead_wait (hs : s.Ordered) (hwaits : s.Waits) : Leads outcome s (Arrived s .testStop) :=
  ((lead_waits hs hwaits).ordered hs).trans fun _ ht =>
    (lead_destroyClients ht.1 ht.2.main).arrived ht.2.carried

theorem lead_setRestarting (hs : s.Ordered) (hmain : s.main = .setRestarting) :
    Leads outcome s (Arrived s .testStop) := by
  have hstep : s.mainStep (outcome s.main) = .ok { s with restarting := true, main := .wait } := by
    simp only [mainStep, hmain]
  have hs' := step_ordered (a := .main (outcome s.main)) hs hstep
  exact .main hstep ⟨rfl, id, id⟩ (lead_wait hs' (.inl rfl))

theorem lead_closeHandle (hs : s.Ordered) (hmain : s.main = .closeHandle) : Leads outcome s (Arrived s .testStop) := by
  have hphase := hs.phase
  simp only [Phase, hmain] at hphase
  have hstep : s.mainStep (outcome s.main) = .ok { s with listening := false, main := .setRestarting } := by
    simp only [mainStep, hmain, hphase.2.2.2, if_true]
  have hs' := step_ordered (a := .main (outcome s.main)) hs hstep
  exact .main hstep ⟨rfl, id, id⟩ (lead_setRestarting hs' rfl)

end Joining

section Stopping

/-- Somebody has asked the program to stop. -/
def Asked (s : Root) : Prop := s.shouldStop = true ∨ s.terminateEventRaised = true

/-- The main thread is at the test that ends the program, with so many servers more. -/
structure Stopped (s : Root) (more : Nat) (t : Root) : Prop where
  main : t.main = .testStop
  shouldStop : t.shouldStop = true
  servers : t.servers = s.servers + more

theorem Arrived.stopped (h : Arrived s .testStop t) (hstop : s.shouldStop = true) : Stopped s 0 t :=
  ⟨h.main, h.carried.shouldStop hstop, h.carried.servers⟩

/-- Nothing has happened to the server count and to what was asked. -/
theorem Leads.stopped {more : Nat} (hstep : s.mainStep (outcome s.main) = .ok s₁)
    (hservers : s₁.servers = s.servers) (h : Leads outcome s₁ (Stopped s₁ more)) :
    Leads outcome s (Stopped s more) :=
  .step (.inl rfl) hstep (h.mono fun _ ht => ⟨ht.main, ht.shouldStop, by rw [ht.servers, hservers]⟩)

theorem lead_giveUp (hs : s.Ordered) (hmain : s.main = .giveUp) : Leads outcome s (Stopped s 0) := by
  have hstep : s.mainStep (outcome s.main) = .ok { s with shouldStop := true, main := .stopAuthenticator } := by
    simp only [mainStep, hmain]
  have hs' := step_ordered (a := .main (outcome s.main)) hs hstep
  exact .stopped hstep rfl ((lead_stopAuthenticator hs' rfl).mono fun _ ht => ht.stopped rfl)

theorem lead_noteTerminate (hs : s.Ordered) (hmain : s.main = .noteTerminate) (hasked : s.Asked) :
    Leads outcome s (Stopped s 0) := by
  have hstep : s.mainStep (outcome s.main) = .ok { s with shouldStop := true, main := .closeHandle } := by
    have hboth : (s.shouldStop || s.terminateEventRaised) = true := by
      rw [Bool.or_eq_true]
      exact hasked
    simp only [mainStep, hmain, hboth]
  have hs' := step_ordered (a := .main (outcome s.main)) hs hstep
  exact .stopped hstep rfl ((lead_closeHandle hs' rfl).mono fun _ ht => ht.stopped rfl)

theorem lead_poll (hs : s.Ordered) (hmain : s.main = .poll) (hasked : s.Asked) : Leads outcome s (Stopped s 0) := by
  have hstep : s.mainStep (outcome s.main) = .ok { s with main := .noteTerminate } := by
    have hany : (s.shouldStop || s.restart || s.terminateEventRaised) = true := by
      rcases hasked with hstop | hterminate
      · rw [hstop]
        rfl
      · rw [hterminate, Bool.or_true]
    simp only [mainStep, hmain, hany, if_true]
  have hs' := step_ordered (a := .main (outcome s.main)) hs hstep
  exact .stopped hstep rfl (lead_noteTerminate hs' rfl hasked)

theorem lead_startInput (hs : s.Ordered) (hmain : s.main = .startInput) (hasked : s.Asked) :
    Leads outcome s (Stopped s 0) := by
  have hstep : s.mainStep (outcome s.main) = .ok { s with
      inputs := if outcome .startInput then Function.update s.inputs s.servers .testStop else s.inputs
      main := .poll } := by
    simp only [mainStep, hmain]
  have hs' := step_ordered (a := .main (outcome s.main)) hs hstep
  exact .stopped hstep rfl (lead_poll hs' rfl hasked)

theorem lead_startTicks (hs : s.Ordered) (hmain : s.main = .startTicks) (hasked : s.Asked) :
    Leads outcome s (Stopped s 0) := by
  have hphase := hs.phase
  simp only [Phase, hmain] at hphase
  by_cases hok : outcome .startTicks = true
  · have hstep : s.mainStep (outcome s.main) = .ok { s with ticker := .testTerminate, main := .startInput } := by
      simp only [mainStep, hmain, hok, hphase.2.1, if_true]
    have hs' := step_ordered (a := .main (outcome s.main)) hs hstep
    exact .stopped hstep rfl (lead_startInput hs' rfl hasked)
  · have hstep : s.mainStep (outcome s.main) = .ok { s with main := .giveUp } := by
      simp only [mainStep, hmain, hok, if_false, Bool.false_eq_true]
    have hs' := step_ordered (a := .main (outcome s.main)) hs hstep
    exact .stopped hstep rfl (lead_giveUp hs' rfl)

theorem lead_listen (hs : s.Ordered) (hmain : s.main = .listen) (hasked : s.Asked) :
    Leads outcome s (Stopped s 0) := by
  by_cases hok : outcome .listen = true
  · have hstep : s.mainStep (outcome s.main) = .ok { s with listening := true, main := .startTicks } := by
      simp only [mainStep, hmain, hok, if_true]
    have hs' := step_ordered (a := .main (outcome s.main)) hs hstep
    exact .stopped hstep rfl (lead_startTicks hs' rfl hasked)
  · have hstep : s.mainStep (outcome s.main) = .ok { s with main := .giveUp } := by
      simp only [mainStep, hmain, hok, if_false, Bool.false_eq_true]
    have hs' := step_ordered (a := .main (outcome s.main)) hs hstep
    exact .stopped hstep rfl (lead_giveUp hs' rfl)

theorem lead_startAuthenticator (hs : s.Ordered) (hmain : s.main = .startAuthenticator) (hasked : s.Asked) :
    Leads outcome s (Stopped s 0) := by
  have hphase := hs.phase
  simp only [Phase, hmain] at hphase
  have howner : s.authenticator.owner = .outside := hs.calls.owner.mpr (by rw [hmain]; decide)
  by_cases hok : outcome .startAuthenticator = true
  · have hstep : s.mainStep (outcome s.main) = .ok { s with
        authenticator := { s.authenticator with shouldTerminate := false, execute := .lock }, main := .listen } := by
      simp only [mainStep, hmain, hok, startAuthenticator, AuthenticatorQueue.start, howner, hphase.2.1.execute,
        and_self, if_true]
    have hs' := step_ordered (a := .main (outcome s.main)) hs hstep
    exact .stopped hstep rfl (lead_listen hs' rfl hasked)
  · have hstep : s.mainStep (outcome s.main) = .ok { s with
        authenticator := { s.authenticator with shouldTerminate := false }, main := .listen } := by
      simp only [mainStep, hmain, hok, startAuthenticator, if_false, Bool.false_eq_true]
    have hs' := step_ordered (a := .main (outcome s.main)) hs hstep
    exact .stopped hstep rfl (lead_listen hs' rfl hasked)

theorem lead_initServer (hs : s.Ordered) (hmain : s.main = .initServer) (hasked : s.Asked) :
    Leads outcome s (Stopped s 0) := by
  have hphase := hs.phase
  simp only [Phase, hmain] at hphase
  have hstep : s.mainStep (outcome s.main) = .ok { s with isConnected := true, main := .startAuthenticator } := by
    simp only [mainStep, hmain, hphase.2.2.2, if_false, Bool.false_eq_true]
  have hs' := step_ordered (a := .main (outcome s.main)) hs hstep
  exact .stopped hstep rfl (lead_startAuthenticator hs' rfl hasked)

/-- One server more is created. -/
theorem lead_create (hs : s.Ordered) (hmain : s.main = .create) (hasked : s.Asked) :
    Leads outcome s (Stopped s 1) := by
  have hstep : s.mainStep (outcome s.main) = .ok { s.createServer with main := .initServer } := by
    simp only [mainStep, hmain]
  have hs' := step_ordered (a := .main (outcome s.main)) hs hstep
  exact .step (.inl rfl) hstep ((lead_initServer hs' rfl hasked).mono fun _ ht =>
    ⟨ht.main, ht.shouldStop, ht.servers⟩)

theorem lead_clearRestart (hs : s.Ordered) (hmain : s.main = .clearRestart) (hasked : s.Asked) :
    Leads outcome s (Stopped s 1) := by
  have hstep : s.mainStep (outcome s.main) = .ok { s with restart := false, main := .create } := by
    simp only [mainStep, hmain]
  have hs' := step_ordered (a := .main (outcome s.main)) hs hstep
  exact .stopped hstep rfl (lead_create hs' rfl hasked)

theorem lead_testStop (hs : s.Ordered) (hmain : s.main = .testStop) (hasked : s.Asked) :
    Leads outcome s fun t => Stopped s 0 t ∨ Stopped s 1 t := by
  by_cases hstop : s.shouldStop = true
  · exact .here (.inl ⟨hmain, hstop, rfl⟩)
  · have hstep : s.mainStep (outcome s.main) = .ok { s with main := .clearRestart } := by
      simp only [mainStep, hmain, hstop, if_false, Bool.false_eq_true]
    have hs' := step_ordered (a := .main (outcome s.main)) hs hstep
    have hmore : Leads outcome s (Stopped s 1) := .stopped hstep rfl (lead_clearRestart hs' rfl hasked)
    exact hmore.mono fun _ => .inr

/-- From where the end of a server has begun. -/
theorem lead_over (hs : s.Ordered) (hasked : s.Asked) (h : Leads outcome s (Arrived s .testStop)) :
    Leads outcome s fun t => Stopped s 0 t ∨ Stopped s 1 t := by
  refine (h.ordered hs).trans fun t ht => ?_
  have hasked' : t.Asked := hasked.imp ht.2.carried.shouldStop ht.2.carried.terminate
  refine (lead_testStop ht.1 ht.2.main hasked').mono fun u hu => ?_
  have hservers := ht.2.carried.servers
  exact hu.imp (fun hu => ⟨hu.main, hu.shouldStop, by rw [hu.servers, hservers]⟩)
    fun hu => ⟨hu.main, hu.shouldStop, by rw [hu.servers, hservers]⟩

/-- The tick thread is not about to notify through an event that is destroyed. -/
def InTime (s : Root) : Prop := s.ticker = .notify → s.server ≠ .dying

theorem InTime.not_notify (h : s.InTime) (hdying : s.server = .dying) : s.ticker ≠ .notify :=
  fun hat => h hat hdying

/-- From any place of the main thread, if the request to stop does not come before `Start` clears the flag, and the
log file is opened. -/
theorem lead_stopped (hs : s.Ordered) (hintime : s.InTime) (hreturned : s.main ≠ .returned)
    (hlog : s.main = .begin → outcome .begin = true)
    (hasked : s.shouldStop = true ∧ s.main ≠ .begin ∨ s.terminateEventRaised = true) :
    Leads outcome s fun t => Stopped s 0 t ∨ Stopped s 1 t := by
  have hrequest : s.Asked := hasked.imp_left And.left
  have hphase := hs.phase
  unfold Phase at hphase
  cases hmain : s.main <;> simp only [hmain] at hphase
  case begin =>
    have hterminate := hasked.resolve_left fun h => h.2 hmain
    have hstep : s.mainStep (outcome s.main) = .ok { s with shouldStop := false, main := .testStop } := by
      simp only [mainStep, hmain, hlog hmain, if_true]
    have hs' := step_ordered (a := .main (outcome s.main)) hs hstep
    refine .step (.inl rfl) hstep ((lead_testStop hs' rfl (.inr hterminate)).mono fun t ht => ?_)
    exact ht.imp (fun ht => ⟨ht.main, ht.shouldStop, ht.servers⟩) fun ht => ⟨ht.main, ht.shouldStop, ht.servers⟩
  case testStop => exact lead_testStop hs hmain hrequest
  case clearRestart => exact (lead_clearRestart hs hmain hrequest).mono fun _ => .inr
  case create => exact (lead_create hs hmain hrequest).mono fun _ => .inr
  case initServer => exact (lead_initServer hs hmain hrequest).mono fun _ => .inl
  case startAuthenticator => exact (lead_startAuthenticator hs hmain hrequest).mono fun _ => .inl
  case listen => exact (lead_listen hs hmain hrequest).mono fun _ => .inl
  case startTicks => exact (lead_startTicks hs hmain hrequest).mono fun _ => .inl
  case startInput => exact (lead_startInput hs hmain hrequest).mono fun _ => .inl
  case poll => exact (lead_poll hs hmain hrequest).mono fun _ => .inl
  case noteTerminate => exact (lead_noteTerminate hs hmain hrequest).mono fun _ => .inl
  case giveUp => exact (lead_giveUp hs hmain).mono fun _ => .inl
  case closeHandle => exact lead_over hs hrequest (lead_closeHandle hs hmain)
  case setRestarting => exact lead_over hs hrequest (lead_setRestarting hs hmain)
  case wait => exact lead_over hs hrequest (lead_wait hs (.inl hmain))
  case sleep => exact lead_over hs hrequest (lead_wait hs (.inr hmain))
  case destroyClients => exact lead_over hs hrequest (lead_destroyClients hs hmain)
  case stopAuthenticator => exact lead_over hs hrequest (lead_stopAuthenticator hs hmain)
  case joinAuthenticator => exact lead_over hs hrequest (lead_joinAuthenticator hs hmain)
  case deleteServer => exact lead_over hs hrequest (lead_deleteServer hs hmain)
  case endTicks => exact lead_over hs hrequest (lead_endTicks hs hmain (hintime.not_notify hphase.1))
  case joinTicks => exact lead_over hs hrequest (lead_joinTicks hs hmain (hintime.not_notify hphase.1))
  case clearServer => exact lead_over hs hrequest (lead_clearServer hmain)
  case returned => exact absurd hmain hreturned

/-- The program has ended, and no thread of a server is left. -/
structure Over (t : Root) : Prop where
  main : t.main = .returned
  server : t.server = .null
  ticker : t.ticker = .absent
  execute : t.authenticator.execute = .absent

theorem Ordered.over (hs : s.Ordered) (hmain : s.main = .returned) : s.Over := by
  have hphase := hs.phase
  simp only [Phase, hmain] at hphase
  exact ⟨hmain, hphase.1, hphase.2.ticker, hphase.2.execute⟩

theorem lead_returned {more : Nat} (ht : t.Ordered) (h : Stopped s more t) :
    Leads outcome t fun u => u.Over ∧ u.servers = s.servers + more := by
  have hstep : t.mainStep (outcome t.main) = .ok { t with main := .returned } := by
    simp only [mainStep, h.main, h.shouldStop, if_true]
  have hs' := step_ordered (a := .main (outcome t.main)) ht hstep
  exact .step (.inl rfl) hstep (.here ⟨hs'.over rfl, h.servers⟩)

/-- Without its log file the program ends at once. -/
theorem lead_unlogged (hs : s.Ordered) (hmain : s.main = .begin) (hlog : outcome .begin = false) :
    Leads outcome s fun t => t.Over ∧ t.servers = s.servers := by
  have hstep : s.mainStep (outcome s.main) = .ok { s with main := .returned } := by
    simp only [mainStep, hmain, hlog, Bool.false_eq_true, if_false]
  have hs' := step_ordered (a := .main (outcome s.main)) hs hstep
  exact .step (.inl rfl) hstep (.here ⟨hs'.over rfl, rfl⟩)

/-- A request to stop is never lost once the program runs, wherever its threads are and however its system
calls come out: its own threads can always go on until it has ended, with no server and none of their threads
left, and they create at most one server more. -/
theorem stop_honoured {runAsService : Bool} (h : rootMachine.Reachable (initial runAsService) s)
    (hasked : s.shouldStop = true ∧ s.main ≠ .begin ∨ s.terminateEventRaised = true) (hintime : s.InTime)
    (outcome : RootPoint → Bool) :
    ∃ t, rootMachine.Reach (own outcome) s t ∧ t.Over ∧ t.servers ≤ s.servers + 1 := by
  have hs : s.Ordered := reach_ordered h (initial_ordered runAsService)
  by_cases hmain : s.main = .returned
  · exact ⟨s, .start, hs.over hmain, Nat.le_succ _⟩
  by_cases hunlogged : s.main = .begin ∧ outcome .begin = false
  · have hleads : Leads outcome s fun t => t.Over ∧ t.servers = s.servers := lead_unlogged hs hunlogged.1 hunlogged.2
    obtain ⟨t, hreach, hover, hservers⟩ := hleads
    exact ⟨t, hreach, hover, by omega⟩
  · have hlog : s.main = .begin → outcome .begin = true := by
      intro hbegin
      by_contra hfails
      exact hunlogged ⟨hbegin, Bool.eq_false_iff.mpr hfails⟩
    have hleads : Leads outcome s fun t => Stopped s 0 t ∨ Stopped s 1 t :=
      lead_stopped hs hintime hmain hlog hasked
    obtain ⟨t, hreach, ht, hstopped⟩ := hleads.ordered hs
    have hend : ∃ more, more ≤ 1 ∧ Stopped s more t :=
      hstopped.elim (fun h => ⟨0, Nat.zero_le _, h⟩) fun h => ⟨1, Nat.le_refl _, h⟩
    obtain ⟨more, hmore, hstopped⟩ := hend
    have hend : Leads outcome t fun u => u.Over ∧ u.servers = s.servers + more := lead_returned ht hstopped
    obtain ⟨u, hreach', hover, hservers⟩ := hend
    exact ⟨u, hreach.trans hreach', hover, by omega⟩

/-- A signal comes, and the main thread sleeps in `Shutdown`. -/
theorem asleep_reachable : ∃ s, rootMachine.Reachable (initial false) s ∧ s.main = .sleep ∧
    s.terminateEventRaised = true ∧ s.ticker = .testTerminate := by
  have hrun : (rootMachine.replay goesOn (startActs ++ [.terminate] ++ shutdownActs ++ [.main true])
      (initial false)).map (fun s => decide (s.main = .sleep ∧ s.terminateEventRaised = true ∧
        s.ticker = .testTerminate)) = some true := by
    decide +kernel
  obtain ⟨s, hs, hend⟩ := Option.map_eq_some_iff.mp hrun
  exact ⟨s, replay_reachable hs, of_decide_eq_true hend⟩

theorem stop_honoured_asleep :
    ∃ s t, rootMachine.Reachable (initial false) s ∧ s.main = .sleep ∧
      rootMachine.Reach (own fun _ => true) s t ∧ t.Over := by
  obtain ⟨s, hs, hmain, hterminate, hat⟩ := asleep_reachable
  have hintime : s.InTime := fun hnotify => by cases hat.symm.trans hnotify
  obtain ⟨t, hreach, hover, _⟩ := stop_honoured hs (.inr hterminate) hintime fun _ => true
  exact ⟨s, t, hs, hmain, hreach, hover⟩

/-- A round of the tick thread needs a main thread that waits for it, and a server. -/
theorem Ordered.serves (hs : s.Ordered) (hticks : s.ticker.ticks = true) : s.main.serves = true ∧ s.server = .live := by
  have hphase := hs.phase
  unfold Phase at hphase
  have hpast : ¬s.Past := by
    intro hpast
    rcases hpast with habsent | hleaving
    · rw [habsent] at hticks
      cases hticks
    · cases hleaving with
      | notify hat => rw [hat] at hticks; cases hticks
      | assign hat => rw [hat] at hticks; cases hticks
      | pause hat _ => rw [hat] at hticks; cases hticks
      | testTerminate hat _ => rw [hat] at hticks; cases hticks
      | ended hat => rw [hat] at hticks; cases hticks
  cases hmain : s.main <;> simp only [hmain] at hphase
  case startInput | poll | noteTerminate | closeHandle | setRestarting | wait | sleep => exact ⟨rfl, hphase.1⟩
  case destroyClients | stopAuthenticator | joinAuthenticator => exact absurd hphase.2 hpast
  case deleteServer | endTicks | joinTicks => exact absurd hphase.2.1 hpast
  case giveUp => exact absurd (.inl hphase.2) hpast
  case listen | startTicks => exact absurd (.inl hphase.2.1) hpast
  case initServer | startAuthenticator => exact absurd (.inl hphase.2.1.ticker) hpast
  all_goals exact absurd (.inl hphase.2.ticker) hpast

/-- A new server has been created since, or the main thread is still behind the service of the last one. -/
structure Behind (n : Nat) (s : Root) : Prop where
  servers : n ≤ s.servers
  main : s.servers = n → s.main.ends = true

theorem Behind.of_same {n : Nat} (h : s.Behind n) (hservers : t.servers = s.servers)
    (hmain : s.main.ends = true → t.main.ends = true) : t.Behind n where
  servers := by rw [hservers]; exact h.servers
  main hsame := hmain (h.main (hservers.symm.trans hsame))

theorem Behind.mainStep {n : Nat} {ok : Bool} (hs : s.Behind n) (h : s.mainStep ok = .ok t) : t.Behind n := by
  have hback : t.servers = s.servers → t.main.ends = true → t.Behind n := fun hservers hends =>
    hs.of_same hservers fun _ => hends
  unfold Root.mainStep at h
  cases hmain : s.main <;> simp only [hmain] at h
  case sleep | returned => cases h
  case begin =>
    split at h
    next => cases h; exact hback rfl rfl
    next => cases h; exact hback rfl rfl
  case testStop =>
    cases h
    exact hback rfl (by split <;> rfl)
  case clearRestart | destroyClients | deleteServer | endTicks | clearServer =>
    cases h
    exact hback rfl rfl
  case create =>
    -- the next server
    cases h
    have hservers := hs.servers
    refine ⟨Nat.le_succ_of_le hservers, fun hsame => ?_⟩
    change s.servers + 1 = n at hsame
    omega
  case stopAuthenticator =>
    rcases hstop : s.onAuthenticator AuthenticatorQueue.stop with fault | u
    · rw [hstop] at h
      cases h
    · rw [hstop] at h
      obtain ⟨q, _, hu⟩ := onAuthenticator_ok hstop
      cases h
      rw [hu]
      exact hs.of_same rfl fun _ => rfl
  case joinAuthenticator =>
    unfold joinAuthenticator at h
    split at h
    next =>
      cases h
      exact hback rfl (by split <;> rfl)
    next => cases h
  case joinTicks =>
    split at h
    next => cases h; exact hback rfl rfl
    next => cases h
  all_goals
    -- these places are before the end of a service
    have hbefore : s.main.ends = true → t.main.ends = true := by
      intro hends
      rw [hmain] at hends
      cases hends
    refine hs.of_same ?_ hbefore
  case initServer | listen | wait =>
    split at h
    next => cases h; rfl
    next => cases h; rfl
  case startAuthenticator =>
    unfold startAuthenticator at h
    split at h
    next =>
      split at h
      next => cases h; rfl
      next => cases h
    next => cases h; rfl
  case startTicks =>
    split at h
    next =>
      split at h
      next => cases h; rfl
      next => cases h
    next => cases h; rfl
  case closeHandle =>
    split at h
    next => cases h; rfl
    next => cases h
  all_goals
    cases h
    rfl

/-- The tick thread moves the main thread only where it wakes it. -/
theorem tick_main {request : Option User} (h : s.tick request = .ok t) :
    t.servers = s.servers ∧ (t.main = s.main ∨ s.main = .sleep) := by
  unfold tick at h
  split at h
  next => cases h
  next => cases h; exact ⟨rfl, .inl rfl⟩
  next => cases h; exact ⟨rfl, .inl rfl⟩
  next => cases h; exact ⟨rfl, .inl rfl⟩
  next command todo _ =>
    rcases hexecute : s.executeConsoleCommand command with fault | u
    · rw [hexecute] at h
      cases h
    · rw [hexecute] at h
      cases h
      rw [executeConsoleCommand_ok hexecute]
      exact ⟨rfl, .inl rfl⟩
  next =>
    unfold tickClients at h
    split at h
    next =>
      split at h
      next => cases h; exact ⟨rfl, .inl rfl⟩
      next =>
        obtain ⟨q, _, hq⟩ := onAuthenticator_ok h
        rw [hq]
        exact ⟨rfl, .inl rfl⟩
    next =>
      obtain ⟨q, _, hq⟩ := onAuthenticator_ok h
      rw [hq]
      exact ⟨rfl, .inl rfl⟩
  next => cases h; exact ⟨rfl, .inl rfl⟩
  next => cases h; exact ⟨rfl, .inl rfl⟩
  next =>
    unfold setRestartEvent at h
    split at h
    next => cases h; exact ⟨rfl, .inl rfl⟩
    next => cases h
  next =>
    unfold notifyRestartEvent at h
    split at h
    next =>
      cases h
      by_cases hsleep : s.main = .sleep
      · exact ⟨rfl, .inr hsleep⟩
      · exact ⟨rfl, .inl (if_neg hsleep)⟩
    next => cases h
  next => cases h; exact ⟨rfl, .inl rfl⟩
  next => cases h; exact ⟨rfl, .inl rfl⟩
  next => cases h

theorem inputStep_servers {i : Nat} {line : AString} {good : Bool} (h : s.inputStep i line good = .ok t) :
    t.servers = s.servers := by
  unfold inputStep at h
  split at h
  next => cases h
  next => cases h; rfl
  next => cases h; rfl
  next => cases h; rfl
  next => cases h; rfl
  next command _ =>
    rcases hexecute : s.executeConsoleCommand command with fault | u
    · rw [hexecute] at h
      cases h
    · rw [hexecute] at h
      cases h
      rw [executeConsoleCommand_ok hexecute]
      rfl
  next => cases h; rfl
  next => cases h; rfl
  next => cases h

theorem Behind.step {n : Nat} (hs : s.Behind n) (h : s.step a = .ok t) : t.Behind n := by
  have hsleep : s.main = .sleep → s.main.ends = true → t.main.ends = true := by
    intro hmain hends
    rw [hmain] at hends
    cases hends
  cases a with
  | main ok => exact hs.mainStep h
  | ticker request =>
    obtain ⟨hservers, hmain⟩ := tick_main (tickerStep_ok h).1
    refine hs.of_same hservers ?_
    rcases hmain with hmain | hasleep
    · rw [hmain]
      exact id
    · exact hsleep hasleep
  | authenticator =>
    obtain ⟨q, _, hq⟩ := authenticatorStep_ok h
    rw [hq]
    exact hs.of_same rfl id
  | input i line good =>
    refine hs.of_same (inputStep_servers h) ?_
    rw [(inputStep_aside h).1.main]
    exact id
  | spurious =>
    simp only [Root.step, spurious] at h
    split at h
    next hasleep => cases h; exact hs.of_same rfl (hsleep hasleep)
    next => cases h
  | spuriousAuthenticator =>
    obtain ⟨q, _, hq⟩ := onAuthenticator_ok h
    rw [hq]
    exact hs.of_same rfl id
  | terminate => cases h; exact hs.of_same rfl id
  | serviceStop => cases h; exact hs.of_same rfl id
  | queueBuiltIn command =>
    cases h
    unfold queueBuiltIn
    split
    next => exact hs.of_same rfl id
    next =>
      split
      next => exact hs.of_same rfl id
      next => exact hs
  | queue command => cases h; exact hs.of_same rfl id

/-- Behind the service of a server, no round runs for it. -/
theorem Behind.idle {n : Nat} (hs : s.Behind n) (hordered : s.Ordered) (hsame : s.servers = n) :
    s.ticker.ticks = false := by
  rw [Bool.eq_false_iff]
  intro hticks
  have hends := RootPoint.serves_ends (hordered.serves hticks).1
  rw [hs.main hsame] at hends
  cases hends

/-- The tick thread is in a round only while `Start` or `Shutdown` waits for it and its server is there; the
main thread does not sleep through the event; and while it waits, the threads can always go on until it stops
waiting. From there on, in whatever way they go on, no round runs until the next server is there: no client is
served after `Shutdown` has destroyed them all. -/
theorem shutdown_answered {runAsService : Bool} (h : rootMachine.Reachable (initial runAsService) s) :
    (s.ticker.ticks = true → s.main.serves = true ∧ s.server = .live) ∧
      (s.main = .sleep → s.restartEvent.shouldContinue = true → s.ticker = .notify) ∧
      (s.Waits → ∀ outcome, ∃ t, rootMachine.Reach (own outcome) s t ∧ t.main = .destroyClients ∧
        t.servers = s.servers ∧
        ∀ u, rootMachine.Reachable t u → u.servers = t.servers → u.ticker.ticks = false) := by
  have hs : s.Ordered := reach_ordered h (initial_ordered runAsService)
  refine ⟨hs.serves, fun hmain hset => ?_, fun hwaits outcome => ?_⟩
  · have hphase := hs.phase
    simp only [Phase, hmain] at hphase
    exact hphase.2.2 hset
  · have hleads : Leads outcome s (Arrived s .destroyClients) := lead_waits hs hwaits
    obtain ⟨t, hreach, hordered, ht⟩ := hleads.ordered hs
    refine ⟨t, hreach, ht.main, ht.carried.servers, fun u hlater hsame => ?_⟩
    have hstart : t.Behind t.servers := ⟨Nat.le_refl _, fun _ => by rw [ht.main]; rfl⟩
    have hbehind : u.Behind t.servers := hlater.invariant hstart fun _ _ _ _ hs _ _ hstep => hs.step hstep
    exact hbehind.idle (reach_ordered hlater hordered) hsame

theorem shutdown_answered_asleep :
    ∃ s t, rootMachine.Reachable (initial false) s ∧ s.main = .sleep ∧
      rootMachine.Reach (own fun _ => false) s t ∧ t.main = .destroyClients ∧
      ∀ u, rootMachine.Reachable t u → u.servers = t.servers → u.ticker.ticks = false := by
  obtain ⟨s, hs, hmain, _, _⟩ := asleep_reachable
  obtain ⟨t, hreach, ht, _, hnever⟩ := (shutdown_answered hs).2.2 (.inr hmain) fun _ => false
  exact ⟨s, t, hs, hmain, hreach, ht, hnever⟩

end Stopping

end Root

end P2PChat

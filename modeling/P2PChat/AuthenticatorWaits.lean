import P2PChat.AuthenticatorQueue

namespace P2PChat

namespace AuthenticatorQueue

/-- At these points the authenticator's thread relies on nothing that the others do. -/
def plain (point : ExecutePoint) : Bool :=
  match point with
  | .absent | .lock | .testTerminate | .relock | .process _ => true
  | _ => false

/-- A wait that should be over is over at the next look at the event, unless the thread that is to set the
event has not come to that. -/
structure Sound (s : AuthenticatorQueue) : Prop where
  history : s.taken ++ s.queue = s.pushed
  caller_holds : ∀ t, (s.callers t).holds = true ↔ s.cs = some (.caller t)
  execute_holds : s.execute.holds = true ↔ s.cs = some .execute
  returned : s.execute = .returned → s.shouldTerminate = true
  unlock : s.execute = .unlock → s.queue = []
  decide : s.execute = .decide → s.shouldTerminate = true ∨ s.queue ≠ []
  take : s.execute = .take → s.queue ≠ []
  pushed_set : s.execute.waits = true → s.queue ≠ [] →
    s.queueNonempty.shouldContinue = true ∨ ∃ t, s.callers t = .set
  stop_set : s.execute.waits = true ∨ s.execute = .testSize ∨ s.execute = .unlock →
    s.shouldTerminate = true → s.queueNonempty.shouldContinue = true ∨ s.owner = .set
  asleep : s.execute = .sleep → s.queueNonempty.shouldContinue = true →
    (∃ t, s.callers t = .notify) ∨ s.owner = .notify

section Steps

variable {s s' : AuthenticatorQueue} {t : Nat} {point : RequestPoint}

theorem moveTo_self : (s.moveTo t point).callers t = point := Function.update_self _ _ _

theorem moveTo_ne {t' : Nat} (h : t' ≠ t) : (s.moveTo t point).callers t' = s.callers t' :=
  Function.update_of_ne h _ _

/-- Who is elsewhere stays there. -/
theorem moveTo_exists {place : RequestPoint} (hne : s.callers t ≠ place) (h : ∃ t', s.callers t' = place) :
    ∃ t', (s.moveTo t point).callers t' = place := by
  obtain ⟨t', ht'⟩ := h
  have htt' : t' ≠ t := fun heq => hne (heq ▸ ht')
  exact ⟨t', (moveTo_ne htt').trans ht'⟩

/-- A thread that goes on with the lock as it was, held or not. -/
theorem Sound.holds_moveTo (hs : s.Sound) (hsame : point.holds = (s.callers t).holds) (t' : Nat) :
    ((s.moveTo t point).callers t').holds = true ↔ s.cs = some (.caller t') := by
  by_cases htt' : t' = t
  · rw [htt', moveTo_self, hsame]
    exact hs.caller_holds t
  · rw [moveTo_ne htt']
    exact hs.caller_holds t'

/-- A thread that holds the lock holds it alone. -/
theorem Sound.lock_of (hs : s.Sound) (hholds : (s.callers t).holds = true) : s.cs = some (.caller t) :=
  (hs.caller_holds t).mp hholds

theorem Sound.not_holds (hs : s.Sound) (hother : s.cs ≠ some .execute) : s.execute.holds = false :=
  Bool.eq_false_iff.mpr fun h => hother (hs.execute_holds.mp h)

theorem Sound.cs_ne (hs : s.Sound) (hexecute : s.execute.holds = false) : s.cs ≠ some .execute :=
  fun hcs => absurd (hexecute.symm.trans (hs.execute_holds.mpr hcs)) nofun

theorem Sound.of_plain (hplain : plain s.execute = true) (history : s.taken ++ s.queue = s.pushed)
    (caller_holds : ∀ t, (s.callers t).holds = true ↔ s.cs = some (.caller t))
    (execute_holds : s.execute.holds = true ↔ s.cs = some .execute) : s.Sound where
  history := history
  caller_holds := caller_holds
  execute_holds := execute_holds
  returned hat := by rw [hat] at hplain; cases hplain
  unlock hat := by rw [hat] at hplain; cases hplain
  decide hat := by rw [hat] at hplain; cases hplain
  take hat := by rw [hat] at hplain; cases hplain
  pushed_set hwaits := by cases hat : s.execute <;> rw [hat] at hplain hwaits <;> cases hplain <;> cases hwaits
  stop_set hwaits := by
    exfalso
    obtain hwaits | hat | hat := hwaits
    · cases hat : s.execute <;> rw [hat] at hplain hwaits <;> cases hplain <;> cases hwaits
    · rw [hat] at hplain; cases hplain
    · rw [hat] at hplain; cases hplain
  asleep hat := by rw [hat] at hplain; cases hplain

/-- A thread goes on that is not on its way to set the event or to notify; it takes the lock or gives it back. -/
theorem Sound.moved (hs : s.Sound) {cs : Option QueueHolder} (hset : s.callers t ≠ .set)
    (hnotify : s.callers t ≠ .notify)
    (hcallers : ∀ t', ((s.moveTo t point).callers t').holds = true ↔ cs = some (.caller t'))
    (hexecute : s.execute.holds = true ↔ cs = some .execute) :
    ({ s with cs := cs }.moveTo t point).Sound :=
  { hs with
    caller_holds := hcallers
    execute_holds := hexecute
    pushed_set := fun hwaits hqueue =>
      (hs.pushed_set hwaits hqueue).imp_right (moveTo_exists (s := { s with cs := cs }) hset)
    asleep := fun hsleep hflag =>
      (hs.asleep hsleep hflag).imp_left (moveTo_exists (s := { s with cs := cs }) hnotify) }

theorem Sound.authenticate (hs : s.Sound) {user : User} (h : s.authenticate t user = some s') :
    s'.Sound := by
  unfold AuthenticatorQueue.authenticate at h
  split at h
  next hat =>
    cases h
    exact hs.moved (by rw [hat]; exact nofun) (by rw [hat]; exact nofun)
      (hs.holds_moveTo (by rw [hat]; rfl)) hs.execute_holds
  next => cases h

/-- The lock is free, and a thread takes it. -/
theorem Sound.callerLock (hs : s.Sound) {user : User} (hat : s.callers t = .lock user)
    (hfree : s.cs = none) : ({ s with cs := some (.caller t) }.moveTo t (.push user)).Sound := by
  have hexecute : s.execute.holds = false := hs.not_holds (by rw [hfree]; exact nofun)
  refine hs.moved (by rw [hat]; exact nofun) (by rw [hat]; exact nofun) (fun t' => ?_)
    ⟨fun h => absurd (hexecute.symm.trans h) nofun, nofun⟩
  by_cases htt' : t' = t
  · rw [htt', moveTo_self]
    exact ⟨fun _ => rfl, fun _ => rfl⟩
  · rw [moveTo_ne htt']
    have hnot : s.cs ≠ some (.caller t') := by rw [hfree]; exact nofun
    refine ⟨fun h => absurd ((hs.caller_holds t').mp h) hnot, fun h => ?_⟩
    cases h
    exact absurd rfl htt'

/-- The thread that pushed is the one that is to set the event. -/
theorem Sound.callerPush (hs : s.Sound) {user : User} (hat : s.callers t = .push user) :
    ({ s with queue := s.queue ++ [user], pushed := s.pushed ++ [user] }.moveTo t .set).Sound := by
  have hcs : s.cs = some (.caller t) := hs.lock_of (by rw [hat]; rfl)
  have hexecute : s.execute.holds = false := hs.not_holds (by rw [hcs]; exact nofun)
  exact { hs with
    history := by
      change s.taken ++ (s.queue ++ [user]) = s.pushed ++ [user]
      rw [← List.append_assoc, hs.history]
    caller_holds := hs.holds_moveTo (by rw [hat]; rfl)
    unlock := fun (hunlock : s.execute = .unlock) => by
      rw [hunlock] at hexecute
      cases hexecute
    decide := fun _ => .inr (List.append_ne_nil_of_right_ne_nil _ nofun)
    take := fun _ => List.append_ne_nil_of_right_ne_nil _ nofun
    pushed_set := fun _ _ => .inr ⟨t, moveTo_self⟩
    asleep := fun hsleep hset =>
      (hs.asleep hsleep hset).imp_left
        (moveTo_exists (s := { s with queue := s.queue ++ [user], pushed := s.pushed ++ [user] })
          (by simp only [hat]; exact nofun)) }

theorem Sound.callerSet (hs : s.Sound) (hat : s.callers t = .set) :
    ({ s with queueNonempty := s.queueNonempty.set }.moveTo t .notify).Sound :=
  { hs with
    caller_holds := hs.holds_moveTo (by rw [hat]; rfl)
    pushed_set := fun _ _ => .inl rfl
    stop_set := fun _ _ => .inl rfl
    asleep := fun _ _ => .inl ⟨t, moveTo_self⟩ }

/-- Nobody sleeps after `notify_one`. -/
theorem notifyOne_execute : s.notifyOne.execute ≠ .sleep := by
  unfold notifyOne
  dsimp only
  split
  next => exact nofun
  next hawake => exact hawake

theorem notifyOne_cases : s.notifyOne = s ∨ s.execute = .sleep ∧ s.notifyOne = { s with execute := .wait } := by
  unfold notifyOne
  by_cases hsleep : s.execute = .sleep
  · exact .inr ⟨hsleep, by rw [if_pos hsleep]⟩
  · exact .inl (by rw [if_neg hsleep])

/-- A thread that sleeps may wake up at any time. -/
theorem Sound.wake (hs : s.Sound) (hsleep : s.execute = .sleep) : { s with execute := .wait }.Sound :=
  { hs with
    execute_holds := by
      refine ⟨nofun, fun h => ?_⟩
      have hholds := hs.execute_holds.mpr h
      rw [hsleep] at hholds
      exact hholds
    returned := nofun
    unlock := nofun
    decide := nofun
    take := nofun
    pushed_set := fun _ hqueue => hs.pushed_set (by rw [hsleep]; rfl) hqueue
    stop_set := fun _ hstop => hs.stop_set (.inl (by rw [hsleep]; rfl)) hstop
    asleep := nofun }

theorem Sound.notifyOne (hs : s.Sound) : s.notifyOne.Sound := by
  obtain heq | ⟨hsleep, heq⟩ := notifyOne_cases (s := s)
  · rw [heq]
    exact hs
  · rw [heq]
    exact hs.wake hsleep

theorem Sound.callerNotify (hs : s.Sound) (hat : s.callers t = .notify) :
    (s.notifyOne.moveTo t .unlock).Sound :=
  { hs.notifyOne with
    caller_holds := hs.notifyOne.holds_moveTo (by change _ = (s.callers t).holds; rw [hat]; rfl)
    pushed_set := fun hwaits hqueue =>
      (hs.notifyOne.pushed_set hwaits hqueue).imp_right
        (moveTo_exists (by change s.callers t ≠ _; rw [hat]; exact nofun))
    asleep := fun hsleep => absurd hsleep notifyOne_execute }

theorem Sound.callerUnlock (hs : s.Sound) (hat : s.callers t = .unlock) :
    ({ s with cs := none }.moveTo t .outside).Sound := by
  have hcs : s.cs = some (.caller t) := hs.lock_of (by rw [hat]; rfl)
  have hexecute : s.execute.holds = false := hs.not_holds (by rw [hcs]; exact nofun)
  refine hs.moved (by rw [hat]; exact nofun) (by rw [hat]; exact nofun) (fun t' => ?_)
    ⟨fun h => absurd (hexecute.symm.trans h) nofun, nofun⟩
  by_cases htt' : t' = t
  · rw [htt', moveTo_self]
    exact ⟨nofun, nofun⟩
  · rw [moveTo_ne htt']
    refine ⟨fun h => ?_, nofun⟩
    have heq := (hs.caller_holds t').mp h
    rw [hcs] at heq
    cases heq
    exact absurd rfl htt'

theorem Sound.callerStep (hs : s.Sound) (h : s.callerStep t = some s') : s'.Sound := by
  unfold AuthenticatorQueue.callerStep at h
  split at h
  next => cases h
  next user hat =>
    split at h
    next hfree =>
      cases h
      exact hs.callerLock hat hfree
    next => cases h
  next user hat =>
    cases h
    exact hs.callerPush hat
  next hat =>
    cases h
    exact hs.callerSet hat
  next hat =>
    cases h
    exact hs.callerNotify hat
  next hat =>
    cases h
    exact hs.callerUnlock hat

theorem Sound.start (hs : s.Sound) (h : s.start = some s') : s'.Sound := by
  unfold AuthenticatorQueue.start at h
  split at h
  next hat =>
    cases h
    have hexecute : s.cs ≠ some .execute := hs.cs_ne (by rw [hat.2]; rfl)
    exact .of_plain rfl hs.history hs.caller_holds ⟨nofun, fun hcs => absurd hcs hexecute⟩
  next => cases h

theorem Sound.stop (hs : s.Sound) (h : s.stop = some s') : s'.Sound := by
  unfold AuthenticatorQueue.stop at h
  split at h
  next hat =>
    cases h
    exact { hs with
      returned := fun _ => rfl
      decide := fun _ => .inl rfl
      stop_set := fun _ _ => .inr rfl
      asleep := fun hsleep hset =>
        (hs.asleep hsleep hset).imp_right fun (howner : s.owner = .notify) => by
          rw [hat] at howner
          cases howner }
  next => cases h

/-- Only a thread that is not there or has returned is joined. -/
theorem Sound.join (hs : s.Sound) (hover : s.execute = .absent ∨ s.execute = .returned) :
    { s with execute := .absent, owner := .outside }.Sound := by
  have hexecute : s.cs ≠ some .execute := by
    obtain hat | hat := hover
    · exact hs.cs_ne (by rw [hat]; rfl)
    · exact hs.cs_ne (by rw [hat]; rfl)
  exact .of_plain rfl hs.history hs.caller_holds ⟨nofun, fun hcs => absurd hcs hexecute⟩

theorem Sound.ownerStep (hs : s.Sound) (h : s.ownerStep = some s') : s'.Sound := by
  unfold AuthenticatorQueue.ownerStep at h
  split at h
  next => cases h
  next =>
    cases h
    exact { hs with
      pushed_set := fun _ _ => .inl rfl
      stop_set := fun _ _ => .inl rfl
      asleep := fun _ _ => .inr rfl }
  next hat =>
    cases h
    exact { hs.notifyOne with
      stop_set := fun hwaits hstop =>
        (hs.notifyOne.stop_set hwaits hstop).imp_right fun (howner : s.owner = .set) => by
          rw [hat] at howner
          cases howner
      asleep := fun hsleep => absurd hsleep notifyOne_execute }
  next =>
    split at h
    next hover =>
      cases h
      exact hs.join hover
    next => cases h

/-- The authenticator's thread takes the lock, at the top of the loop or after a wait. -/
theorem Sound.executeLock (hs : s.Sound) (hfree : s.cs = none) :
    { s with cs := some .execute, execute := .testTerminate }.Sound := by
  refine .of_plain rfl hs.history (fun t => ⟨fun h => ?_, nofun⟩) ⟨fun _ => rfl, fun _ => rfl⟩
  have hcs := (hs.caller_holds t).mp h
  rw [hfree] at hcs
  cases hcs

/-- A look at the event by the thread that waits. -/
theorem Sound.executeWait (hs : s.Sound) (hat : s.execute = .wait) :
    (match s.queueNonempty.wait with
      | some event => { s with queueNonempty := event, execute := .relock }
      | none => { s with execute := .sleep }).Sound := by
  have hexecute : s.cs ≠ some .execute := hs.cs_ne (by rw [hat]; rfl)
  split
  next event _ =>
    exact .of_plain rfl hs.history hs.caller_holds ⟨nofun, fun hcs => absurd hcs hexecute⟩
  next hunset =>
    have hunset := CEvent.wait_eq_none.mp hunset
    exact { hs with
      execute_holds := ⟨nofun, fun hcs => absurd hcs hexecute⟩
      returned := nofun
      unlock := nofun
      decide := nofun
      take := nofun
      pushed_set := fun _ hqueue => hs.pushed_set (by rw [hat]; rfl) hqueue
      stop_set := fun _ hstop => hs.stop_set (.inl (by rw [hat]; rfl)) hstop
      asleep := fun _ hset => absurd (hunset.symm.trans hset) nofun }

theorem Sound.not_caller (hs : s.Sound) (hexecute : s.execute.holds = true) :
    (s.callers t).holds = false := by
  rw [Bool.eq_false_iff]
  intro hholds
  have hcs := (hs.caller_holds t).mp hholds
  rw [hs.execute_holds.mp hexecute] at hcs
  cases hcs

theorem Sound.executeTestTerminate (hs : s.Sound) (hat : s.execute = .testTerminate) :
    { s with execute := if s.shouldTerminate then .decide else .testSize }.Sound := by
  have hcs : s.cs = some .execute := hs.execute_holds.mp (by rw [hat]; rfl)
  split
  next hstop =>
    exact { hs with
      execute_holds := ⟨fun _ => hcs, fun _ => rfl⟩
      returned := nofun
      unlock := nofun
      decide := fun _ => .inl hstop
      take := nofun
      pushed_set := nofun
      stop_set := fun hwaits => absurd hwaits nofun
      asleep := nofun }
  next hgo =>
    exact { hs with
      execute_holds := ⟨fun _ => hcs, fun _ => rfl⟩
      returned := nofun
      unlock := nofun
      decide := nofun
      take := nofun
      pushed_set := nofun
      stop_set := fun _ hstop => absurd hstop hgo
      asleep := nofun }

theorem Sound.executeTestSize (hs : s.Sound) (hat : s.execute = .testSize) :
    { s with execute := if s.queue.length = 0 then .unlock else .decide }.Sound := by
  have hcs : s.cs = some .execute := hs.execute_holds.mp (by rw [hat]; rfl)
  split
  next hempty =>
    exact { hs with
      execute_holds := ⟨fun _ => hcs, fun _ => rfl⟩
      returned := nofun
      unlock := fun _ => List.eq_nil_of_length_eq_zero hempty
      decide := nofun
      take := nofun
      pushed_set := nofun
      stop_set := fun _ hstop => hs.stop_set (.inr (.inl hat)) hstop
      asleep := nofun }
  next hfull =>
    exact { hs with
      execute_holds := ⟨fun _ => hcs, fun _ => rfl⟩
      returned := nofun
      unlock := nofun
      decide := fun _ => .inr fun hempty => hfull (by rw [hempty]; rfl)
      take := nofun
      pushed_set := nofun
      stop_set := fun hwaits => absurd hwaits nofun
      asleep := nofun }

/-- The queue is empty when the wait begins; what is pushed from then on is followed by a `Set`. -/
theorem Sound.executeUnlock (hs : s.Sound) (hat : s.execute = .unlock) :
    { s with cs := none, execute := .wait }.Sound :=
  { hs with
    caller_holds := fun t => by
      rw [hs.not_caller (t := t) (by rw [hat]; rfl)]
      exact ⟨nofun, nofun⟩
    execute_holds := ⟨nofun, nofun⟩
    returned := nofun
    unlock := nofun
    decide := nofun
    take := nofun
    pushed_set := fun _ hqueue => absurd (hs.unlock hat) hqueue
    stop_set := fun _ hstop => hs.stop_set (.inr (.inr hat)) hstop
    asleep := nofun }

theorem Sound.executeDecide (hs : s.Sound) (hat : s.execute = .decide) :
    (if s.shouldTerminate then { s with cs := none, execute := .returned }
      else { s with execute := .take }).Sound := by
  have hcs : s.cs = some .execute := hs.execute_holds.mp (by rw [hat]; rfl)
  split
  next hstop =>
    exact { hs with
      caller_holds := fun t => by
        rw [hs.not_caller (t := t) (by rw [hat]; rfl)]
        exact ⟨nofun, nofun⟩
      execute_holds := ⟨nofun, nofun⟩
      returned := fun _ => hstop
      unlock := nofun
      decide := nofun
      take := nofun
      pushed_set := nofun
      stop_set := fun hwaits => absurd hwaits nofun
      asleep := nofun }
  next hgo =>
    exact { hs with
      execute_holds := ⟨fun _ => hcs, fun _ => rfl⟩
      returned := nofun
      unlock := nofun
      decide := nofun
      take := fun _ => (hs.decide hat).resolve_left hgo
      pushed_set := nofun
      stop_set := fun hwaits => absurd hwaits nofun
      asleep := nofun }

theorem Sound.executeTake (hs : s.Sound) (hat : s.execute = .take) {front : User} {queue : List User}
    (hqueue : s.queue = front :: queue) :
    { s with queue := queue, taken := s.taken ++ [front], cs := none, execute := .process front }.Sound := by
  refine .of_plain rfl ?_ (fun t => ?_) ⟨nofun, nofun⟩
  · change (s.taken ++ [front]) ++ queue = s.pushed
    rw [← hs.history, hqueue, List.append_assoc, List.singleton_append]
  · rw [hs.not_caller (t := t) (by rw [hat]; rfl)]
    exact ⟨nofun, nofun⟩

theorem Sound.executeProcess (hs : s.Sound) {user : User} (hat : s.execute = .process user) :
    { s with execute := .lock }.Sound := by
  have hexecute : s.cs ≠ some .execute := hs.cs_ne (by rw [hat]; rfl)
  exact .of_plain rfl hs.history hs.caller_holds ⟨nofun, fun hcs => absurd hcs hexecute⟩

theorem Sound.executeStep (hs : s.Sound) (h : s.executeStep = some s') : s'.Sound := by
  unfold AuthenticatorQueue.executeStep at h
  split at h
  next => cases h
  next =>
    split at h
    next hfree =>
      cases h
      exact hs.executeLock hfree
    next => cases h
  next hat =>
    cases h
    exact hs.executeTestTerminate hat
  next hat =>
    cases h
    exact hs.executeTestSize hat
  next hat =>
    cases h
    exact hs.executeUnlock hat
  next hat =>
    have hwait := hs.executeWait hat
    split at h
    next event hevent =>
      cases h
      rw [hevent] at hwait
      exact hwait
    next hevent =>
      cases h
      rw [hevent] at hwait
      exact hwait
  next => cases h
  next =>
    split at h
    next hfree =>
      cases h
      exact hs.executeLock hfree
    next => cases h
  next hat =>
    have hdecide := hs.executeDecide hat
    split at h
    next hstop =>
      cases h
      rw [if_pos hstop] at hdecide
      exact hdecide
    next hgo =>
      cases h
      rw [if_neg hgo] at hdecide
      exact hdecide
  next hat =>
    split at h
    next => cases h
    next front queue hqueue =>
      cases h
      exact hs.executeTake hat hqueue
  next hat =>
    cases h
    exact hs.executeProcess hat
  next => cases h

theorem Sound.step (hs : s.Sound) {a : QueueAct} (h : s.step a = some s') : s'.Sound := by
  cases a with
  | authenticate t user => exact hs.authenticate h
  | caller t => exact hs.callerStep h
  | start => exact hs.start h
  | stop => exact hs.stop h
  | owner => exact hs.ownerStep h
  | execute => exact hs.executeStep h
  | spurious =>
    simp only [AuthenticatorQueue.step, AuthenticatorQueue.spurious] at h
    split at h
    next hsleep =>
      cases h
      exact hs.wake hsleep
    next => cases h

theorem initial_sound : initial.Sound :=
  .of_plain rfl rfl (fun _ => ⟨nofun, nofun⟩) ⟨nofun, nofun⟩

theorem queueMachine_step {a : QueueAct} : queueMachine.step s a = .ok s' ↔ s.step a = some s' := by
  simp only [queueMachine]
  cases s.step a with
  | none => exact ⟨nofun, nofun⟩
  | some t => simp

theorem reach_sound {allowed : AuthenticatorQueue → QueueAct → Prop}
    (h : queueMachine.Reach allowed s s') (hs : s.Sound) : s'.Sound := by
  refine h.invariant hs fun s a s' _ hs _ _ hstep => ?_
  exact hs.step (queueMachine_step.mp hstep)

end Steps

end AuthenticatorQueue

end P2PChat

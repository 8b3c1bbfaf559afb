import P2PChat.AuthenticatorWaits

namespace P2PChat

namespace AuthenticatorQueue

section Draining

variable {s s' : AuthenticatorQueue}

/-- No thread is inside `Authenticate` or `Stop`. -/
def quiet (s : AuthenticatorQueue) : Prop := (∀ t, s.callers t = .outside) ∧ s.owner = .outside

/-- The authenticator's thread has been started, and nobody has asked it to terminate. -/
def running (s : AuthenticatorQueue) : Prop := s.execute ≠ .absent ∧ s.shouldTerminate = false

/-- How far the authenticator's thread is from the next request, if there is one. -/
def ahead (point : ExecutePoint) : Nat :=
  match point with
  | .take => 1
  | .decide => 2
  | .testSize => 3
  | .testTerminate => 4
  | .lock | .relock => 5
  | .process _ | .wait => 6
  | .absent | .unlock | .sleep | .returned => 0

/-- How far it is from the end of the queue. -/
def remaining (s : AuthenticatorQueue) : Nat := 6 * s.queue.length + ahead s.execute

theorem quiet.lock_free (hquiet : s.quiet) (hs : s.Sound) (hexecute : s.execute.holds = false) : s.cs = none := by
  cases hcs : s.cs with
  | none => rfl
  | some holder =>
    cases holder with
    | caller t =>
      have hholds := (hs.caller_holds t).mpr hcs
      rw [hquiet.1 t] at hholds
      cases hholds
    | execute => exact absurd hcs (hs.cs_ne hexecute)

theorem quiet.event_set (hquiet : s.quiet) (hs : s.Sound) (hwaits : s.execute.waits = true)
    (hqueue : s.queue ≠ []) : s.queueNonempty.shouldContinue = true := by
  apply (hs.pushed_set hwaits hqueue).resolve_right
  rintro ⟨t, ht⟩
  rw [hquiet.1 t] at ht
  cases ht

/-- When no other thread is in its way, the authenticator's thread comes closer to the end of the queue with
every step, and it never sleeps. -/
theorem execute_remaining (hs : s.Sound) (hquiet : s.quiet) (hrunning : s.running) (hqueue : s.queue ≠ []) :
    ∃ s', s.executeStep = some s' ∧ s'.quiet ∧ s'.running ∧ s'.pushed = s.pushed ∧
      s'.remaining < s.remaining := by
  obtain ⟨hpresent, hgo⟩ := hrunning
  cases hat : s.execute with
  | absent => exact absurd hat hpresent
  | returned => exact absurd (hgo.symm.trans (hs.returned hat)) nofun
  | unlock => exact absurd (hs.unlock hat) hqueue
  | sleep =>
    have hset := hquiet.event_set hs (by rw [hat]; rfl) hqueue
    obtain ⟨t, ht⟩ | howner := hs.asleep hat hset
    · exact absurd ((hquiet.1 t).symm.trans ht) nofun
    · exact absurd (hquiet.2.symm.trans howner) nofun
  | lock =>
    have hfree := hquiet.lock_free hs (by rw [hat]; rfl)
    refine ⟨{ s with cs := some .execute, execute := .testTerminate }, ?_, hquiet, ⟨nofun, hgo⟩, rfl, ?_⟩
    · simp only [executeStep, hat, hfree, if_true]
    · simp only [remaining, ahead, hat]
      omega
  | relock =>
    have hfree := hquiet.lock_free hs (by rw [hat]; rfl)
    refine ⟨{ s with cs := some .execute, execute := .testTerminate }, ?_, hquiet, ⟨nofun, hgo⟩, rfl, ?_⟩
    · simp only [executeStep, hat, hfree, if_true]
    · simp only [remaining, ahead, hat]
      omega
  | testTerminate =>
    refine ⟨{ s with execute := .testSize }, ?_, hquiet, ⟨nofun, hgo⟩, rfl, ?_⟩
    · simp only [executeStep, hat, hgo, Bool.false_eq_true, if_false]
    · simp only [remaining, ahead, hat]
      omega
  | testSize =>
    have hlength : s.queue.length ≠ 0 := fun hlength => hqueue (List.eq_nil_of_length_eq_zero hlength)
    refine ⟨{ s with execute := .decide }, ?_, hquiet, ⟨nofun, hgo⟩, rfl, ?_⟩
    · simp only [executeStep, hat, hlength, if_false]
    · simp only [remaining, ahead, hat]
      omega
  | wait =>
    have hset := hquiet.event_set hs (by rw [hat]; rfl) hqueue
    refine ⟨{ s with queueNonempty := { s.queueNonempty with shouldContinue := false }, execute := .relock },
      ?_, hquiet, ⟨nofun, hgo⟩, rfl, ?_⟩
    · simp only [executeStep, hat, CEvent.wait_of_set hset]
    · simp only [remaining, ahead, hat]
      omega
  | decide =>
    refine ⟨{ s with execute := .take }, ?_, hquiet, ⟨nofun, hgo⟩, rfl, ?_⟩
    · simp only [executeStep, hat, hgo, Bool.false_eq_true, if_false]
    · simp only [remaining, ahead, hat]
      omega
  | take =>
    obtain ⟨front, queue, hcons⟩ := List.exists_cons_of_ne_nil hqueue
    refine ⟨{ s with
      queue := queue, taken := s.taken ++ [front], cs := none, execute := .process front },
      ?_, hquiet, ⟨nofun, hgo⟩, rfl, ?_⟩
    · simp only [executeStep, hat, hcons]
    · simp only [remaining, ahead, hat, hcons, List.length_cons]
      omega
  | process user =>
    refine ⟨{ s with execute := .lock }, ?_, hquiet, ⟨nofun, hgo⟩, rfl, ?_⟩
    · simp only [executeStep, hat]
    · simp only [remaining, ahead, hat]
      omega

/-- Nothing but steps of the authenticator's thread. -/
def alone (_ : AuthenticatorQueue) (a : QueueAct) : Prop := a = .execute

theorem drains (hs : s.Sound) (hquiet : s.quiet) (hrunning : s.running) :
    ∃ s', queueMachine.Reach alone s s' ∧ s'.queue = [] ∧ s'.taken = s.pushed := by
  induction hn : s.remaining using Nat.strong_induction_on generalizing s with
  | _ n ih =>
    by_cases hqueue : s.queue = []
    · refine ⟨s, .start, hqueue, ?_⟩
      have hhistory := hs.history
      rw [hqueue, List.append_nil] at hhistory
      exact hhistory
    · obtain ⟨s₁, hstep, hquiet₁, hrunning₁, hpushed, hless⟩ :=
        execute_remaining hs hquiet hrunning hqueue
      obtain ⟨s₂, hreach, hempty, htaken⟩ :=
        ih s₁.remaining (hn ▸ hless) (hs.executeStep hstep) hquiet₁ hrunning₁ rfl
      have hfirst : queueMachine.Reach alone s s₁ :=
        .next .start trivial rfl (queueMachine_step.mpr hstep)
      exact ⟨s₂, hfirst.trans hreach, hempty, htaken.trans hpushed⟩

/-- The requests that have been taken and those in the queue are those that were pushed, in that order, with
the data they were pushed with, and `front` is never called on an empty queue. The authenticator's thread
returns only if it is asked to. While it waits although there is something to do, the event is set, or the
thread that pushed or asked is on its way to the `Set`; while it sleeps although the event is set, somebody is
on the way to the notification. So as soon as no other thread is inside a call, it takes all the rest. -/
theorem requests_taken (h : queueMachine.Reachable initial s) :
    s.taken ++ s.queue = s.pushed ∧
      (s.execute = .take → s.queue ≠ []) ∧
      (s.execute = .returned → s.shouldTerminate = true) ∧
      (s.execute.waits = true → s.queue ≠ [] →
        s.queueNonempty.shouldContinue = true ∨ ∃ t, s.callers t = .set) ∧
      (s.execute.waits = true → s.shouldTerminate = true →
        s.queueNonempty.shouldContinue = true ∨ s.owner = .set) ∧
      (s.execute = .sleep → s.queueNonempty.shouldContinue = true →
        (∃ t, s.callers t = .notify) ∨ s.owner = .notify) ∧
      (s.quiet → s.running →
        ∃ s', queueMachine.Reach alone s s' ∧ s'.queue = [] ∧ s'.taken = s.pushed) := by
  have hs : s.Sound := reach_sound h initial_sound
  exact ⟨hs.history, hs.take, hs.returned, hs.pushed_set, fun hwaits => hs.stop_set (.inl hwaits), hs.asleep,
    drains hs⟩

theorem replay_reachable (acts : List QueueAct)
    (h : queueMachine.replay (fun _ _ => true) acts s = some s') : queueMachine.Reachable s s' :=
  Machine.replay_reach (fun _ _ _ => ⟨trivial, trivial⟩) .start h

theorem replay_unstarted (acts : List QueueAct)
    (h : queueMachine.replay (fun _ a => decide (a ≠ .start)) acts s = some s') :
    queueMachine.Reach (fun _ a => a ≠ .start) s s' :=
  Machine.replay_reach (fun _ _ hpass => ⟨trivial, of_decide_eq_true hpass⟩) .start h

/-- A call that finds the lock free and nobody asleep, from its beginning to its end. -/
theorem call_whole (t : Nat) (user : User) (hat : s.callers t = .outside) (hfree : s.cs = none)
    (hawake : s.execute ≠ .sleep) :
    queueMachine.Reachable s { s with
      queue := s.queue ++ [user]
      pushed := s.pushed ++ [user]
      queueNonempty := s.queueNonempty.set } := by
  have hback : Function.update s.callers t .outside = s.callers := by
    rw [← hat, Function.update_eq_self]
  refine replay_reachable (.authenticate t user :: List.replicate 5 (.caller t)) ?_
  simp [Machine.replay, queueMachine, step, authenticate, callerStep, moveTo, notifyOne, List.replicate_succ,
    hat, hfree, hawake, hback]

theorem requests_taken_two :
    ∃ s s' : AuthenticatorQueue, queueMachine.Reachable initial s ∧
      s.queue = [⟨1, [97], [98]⟩, ⟨2, [99], [100]⟩] ∧ s.running ∧
      queueMachine.Reach alone s s' ∧ s'.taken = [⟨1, [97], [98]⟩, ⟨2, [99], [100]⟩] := by
  have hstart : queueMachine.Reachable initial { initial with execute := .lock } :=
    replay_reachable [.start] rfl
  have hfirst := hstart.trans (call_whole 3 ⟨1, [97], [98]⟩ rfl rfl nofun)
  have hsecond := hfirst.trans (call_whole 4 ⟨2, [99], [100]⟩ rfl rfl nofun)
  have hrunning : running { initial with execute := .lock } := ⟨nofun, rfl⟩
  obtain ⟨s', halone, _, htaken⟩ := (requests_taken hsecond).2.2.2.2.2.2 ⟨fun _ => rfl, rfl⟩ hrunning
  exact ⟨_, s', hsecond, rfl, hrunning, halone, htaken⟩

/-- A request is pushed; then `Stop` is called and comes to its end, and the request is still in the queue. A
request is pushed while the authenticator's thread sleeps, and the event is not yet set. -/
theorem request_left :
    (∃ s s' : AuthenticatorQueue, queueMachine.Reachable initial s ∧ s.running ∧
      s.pushed = [⟨1, [97], [98]⟩] ∧ queueMachine.Reach (fun _ a => a ≠ .start) s s' ∧ s'.execute = .absent ∧
        s'.shouldTerminate = true ∧ s'.owner = .outside ∧ s'.taken = [] ∧ s'.queue = [⟨1, [97], [98]⟩]) ∧
      ∃ s : AuthenticatorQueue, queueMachine.Reachable initial s ∧ s.queue ≠ [] ∧ s.execute = .sleep ∧
        s.queueNonempty.shouldContinue = false := by
  have hstart : queueMachine.Reachable initial { initial with execute := .lock } :=
    replay_reachable [.start] rfl
  have hpush := hstart.trans (call_whole 3 ⟨1, [97], [98]⟩ rfl rfl nofun)
  refine ⟨⟨_, { initial with
      queue := [⟨1, [97], [98]⟩], pushed := [⟨1, [97], [98]⟩], shouldTerminate := true
      queueNonempty := ⟨true⟩ }, hpush, ⟨nofun, rfl⟩, rfl, ?_, rfl, rfl, rfl, rfl, rfl⟩, ?_⟩
  · exact replay_unstarted [.stop, .owner, .owner, .execute, .execute, .execute, .owner] rfl
  · have hsleep : queueMachine.Reachable initial { initial with execute := .sleep } :=
      replay_reachable [.start, .execute, .execute, .execute, .execute, .execute] rfl
    have hreach := hsleep.trans
      (replay_reachable [.authenticate 3 ⟨1, [97], [98]⟩, .caller 3, .caller 3] rfl)
    exact ⟨_, hreach, nofun, rfl, rfl⟩

end Draining

end AuthenticatorQueue

end P2PChat

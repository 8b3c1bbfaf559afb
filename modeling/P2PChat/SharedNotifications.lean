import P2PChat.SharedContents

namespace P2PChat

namespace QueuePoint

/-- The thread comes to wake one that sleeps, or to look at the event. -/
def alerts {α : Type} (e : QueueEvent) (point : QueuePoint α) : Bool :=
  match point with
  | .notify e' _ | .wait e' => e' == e
  | _ => false

end QueuePoint

namespace SharedQueue

variable {ι α : Type}

/-- Nobody sleeps through an event that is set. -/
def Notified (e : QueueEvent) (s : SharedQueue ι α) : Prop :=
  (s.evt e).shouldContinue = true → (∃ t, (s.points t).sleeps e = true) → ∃ t, (s.points t).alerts e = true

variable [DecidableEq ι] {s s' : SharedQueue ι α} {funcs : QueueFuncs α} {t : ι} {e : QueueEvent}
  {old point : QueuePoint α}

/-- A thread goes on that is not the one to wake the others. -/
theorem Notified.kept (hs : s.Notified e) (hat : s.points t = old)
    (hpoints : s'.points = Function.update s.points t point)
    (hevt : (s'.evt e).shouldContinue = true → (s.evt e).shouldContinue = true)
    (hsleeps : point.sleeps e = false) (halerts : old.alerts e = false) : s'.Notified e := by
  rintro hset ⟨t', ht'⟩
  rw [hpoints] at ht' ⊢
  have hne : t' ≠ t := by
    rintro rfl
    rw [Function.update_self, hsleeps] at ht'
    cases ht'
  rw [Function.update_of_ne hne] at ht'
  obtain ⟨u, hu⟩ := hs (hevt hset) ⟨t', ht'⟩
  have hne : u ≠ t := by
    rintro rfl
    rw [hat, halerts] at hu
    cases hu
  exact ⟨u, by rw [Function.update_of_ne hne, hu]⟩

omit [DecidableEq ι] in
theorem Notified.of_alerts (t : ι) (point : QueuePoint α) (hpoints : s'.points t = point)
    (halerts : point.alerts e = true) : s'.Notified e :=
  fun _ _ => ⟨t, hpoints ▸ halerts⟩

omit [DecidableEq ι] in
theorem Notified.of_unset (hunset : (s'.evt e).shouldContinue = false) : s'.Notified e :=
  fun hset _ => absurd (hunset.symm.trans hset) nofun

/-- Under the lock an operation goes to where nobody sleeps, and leaves the events to the next steps. -/
theorem run_point (s : SharedQueue ι α) (funcs : QueueFuncs α) (t : ι) (e : QueueEvent) (op : QueueOp α) :
    ∃ point : QueuePoint α, (s.run funcs t op).points = Function.update s.points t point ∧
      (s.run funcs t op).evt = s.evt ∧ point.sleeps e = false := by
  cases op with
  | enqueueItem item => exact ⟨_, rfl, rfl, rfl⟩
  | enqueueItemIfNotPresent item =>
    simp only [run]
    split
    next => exact ⟨_, rfl, rfl, rfl⟩
    next => exact ⟨_, rfl, rfl, rfl⟩
  | tryDequeueItem =>
    simp only [run]
    split
    next => exact ⟨_, rfl, rfl, rfl⟩
    next => exact ⟨_, rfl, rfl, rfl⟩
  | dequeueItem =>
    simp only [run]
    split
    next => exact ⟨_, rfl, rfl, rfl⟩
    next => exact ⟨_, rfl, rfl, rfl⟩
  | blockTillEmpty =>
    simp only [run]
    split
    next => exact ⟨_, rfl, rfl, rfl⟩
    next => exact ⟨_, rfl, rfl, rfl⟩
  | clear => exact ⟨_, rfl, rfl, rfl⟩
  | remove item =>
    simp only [run]
    split
    next => exact ⟨_, rfl, rfl, rfl⟩
    next => exact ⟨_, rfl, rfl, rfl⟩
  | removeIf predicate => exact ⟨_, rfl, rfl, rfl⟩

theorem scan_point (s : SharedQueue ι α) (t : ι) (e : QueueEvent) (predicate : α → Bool) (i : Nat) :
    ∃ point : QueuePoint α, (s.scan t predicate i).points = Function.update s.points t point ∧
      (s.scan t predicate i).evt = s.evt ∧ point.sleeps e = false := by
  unfold scan
  split
  next => exact ⟨_, rfl, rfl, rfl⟩
  next =>
    split
    next => exact ⟨_, rfl, rfl, rfl⟩
    next => exact ⟨_, rfl, rfl, rfl⟩

theorem beq_ne {e' : QueueEvent} (hne : e ≠ e') : (e' == e) = false :=
  beq_false_of_ne hne.symm

theorem Notified.go (hs : s.Notified e) (h : s.go funcs t = some s') : s'.Notified e := by
  unfold SharedQueue.go at h
  split at h
  next => cases h
  next hat =>
    split at h
    next =>
      cases h
      exact hs.kept hat rfl id rfl rfl
    next => cases h
  next op hat =>
    cases h
    obtain ⟨point, hpoints, hevt, hsleeps⟩ := run_point s funcs t e op
    exact hs.kept hat hpoints (fun hset => by rwa [hevt] at hset) hsleeps rfl
  next predicate i hat =>
    cases h
    obtain ⟨point, hpoints, hevt, hsleeps⟩ := scan_point s t e predicate i
    exact hs.kept hat hpoints (fun hset => by rwa [hevt] at hset) hsleeps rfl
  next e' loop hat =>
    cases h
    by_cases heq : e = e'
    · exact .of_alerts t _ (Function.update_self _ _ _) (beq_iff_eq.mpr heq.symm)
    · have hevt : (Function.update s.evt e' (s.evt e').set e).shouldContinue = (s.evt e).shouldContinue := by
        rw [Function.update_of_ne heq]
      exact hs.kept hat rfl (fun hset => hevt.symm.trans hset) rfl rfl
  next => cases h
  next hat =>
    cases h
    exact hs.kept hat rfl id rfl rfl
  next e' hat =>
    cases h
    exact hs.kept hat rfl id rfl rfl
  next e' hat =>
    split at h
    next event hevent =>
      cases h
      by_cases heq : e = e'
      · apply Notified.of_unset
        change (Function.update s.evt e' event e).shouldContinue = false
        rw [heq, Function.update_self]
        exact (CEvent.wait_eq_some hevent).2
      · have hevt : (Function.update s.evt e' event e).shouldContinue = (s.evt e).shouldContinue := by
          rw [Function.update_of_ne heq]
        exact hs.kept hat rfl (fun hset => hevt.symm.trans hset) rfl (beq_ne heq)
    next hevent =>
      cases h
      by_cases heq : e = e'
      · apply Notified.of_unset
        change (s.evt e).shouldContinue = false
        rw [heq]
        exact CEvent.wait_eq_none.mp hevent
      · exact hs.kept hat rfl id (beq_ne heq) (beq_ne heq)
  next => cases h
  next e' hat =>
    split at h
    next =>
      cases h
      exact hs.kept hat rfl id rfl rfl
    next => cases h

theorem afterSet_points (loop : Option ((α → Bool) × Nat)) :
    (afterSet loop).sleeps e = false ∧ (afterSet loop).alerts e = false := by
  cases loop with
  | none => exact ⟨rfl, rfl⟩
  | some loop => exact ⟨rfl, rfl⟩

variable [Fintype ι]

theorem Notified.notify (hs : s.Notified e) {woken : Option ι} (h : s.notify t woken = some s') :
    s'.Notified e := by
  unfold SharedQueue.notify at h
  split at h
  next e' loop hat =>
    have hafter := afterSet_points (e := e) loop
    split at h
    next t' =>
      split at h
      next hsleeps =>
        cases h
        have hne : t ≠ t' := by
          rintro rfl
          rw [hat] at hsleeps
          cases hsleeps
        have hat' : (s.moveTo t' (.wait e')).points t = .notify e' loop :=
          (Function.update_of_ne hne _ _).trans hat
        by_cases heq : e = e'
        · refine .of_alerts t' (.wait e') ?_ (beq_iff_eq.mpr heq.symm)
          change Function.update (Function.update s.points t' (.wait e')) t _ t' = _
          rw [Function.update_of_ne hne.symm, Function.update_self]
        · have hwoken : (s.moveTo t' (.wait e')).Notified e := by
            refine hs.kept rfl rfl id rfl ?_
            cases hpoint : s.points t' <;> rw [hpoint] at hsleeps <;> first | rfl | cases hsleeps
          exact hwoken.kept hat' rfl id hafter.1 (beq_ne heq)
      next => cases h
    next =>
      split at h
      next hnone =>
        cases h
        by_cases heq : e = e'
        · rintro - ⟨t', ht'⟩
          have hsleeps : (Function.update s.points t (afterSet loop) t').sleeps e = false := by
            by_cases hself : t' = t
            · rw [hself, Function.update_self]
              exact hafter.1
            · rw [Function.update_of_ne hself, heq]
              exact hnone t'
          exact absurd (hsleeps.symm.trans ht') nofun
        · exact hs.kept hat rfl id hafter.1 (beq_ne heq)
      next => cases h
  next => cases h

theorem Notified.step (hs : s.Notified e) {a : SharedAct ι α} (h : s.step funcs a = some s') :
    s'.Notified e := by
  cases a with
  | call t op =>
    simp only [SharedQueue.step] at h
    split at h
    next houtside =>
      cases h
      refine hs.kept rfl rfl id rfl ?_
      cases hpoint : s.points t <;> rw [hpoint] at houtside <;> first | rfl | cases houtside
    next => cases h
  | go t => exact hs.go h
  | notify t woken => exact hs.notify h
  | spurious t =>
    simp only [SharedQueue.step] at h
    split at h
    next e' hat =>
      cases h
      by_cases heq : e = e'
      · exact .of_alerts t _ (Function.update_self _ _ _) (beq_iff_eq.mpr heq.symm)
      · exact hs.kept hat rfl id rfl rfl
    next => cases h

theorem reach_notified {allowed : SharedQueue ι α → SharedAct ι α → Prop}
    (h : (sharedQueueMachine ι funcs).Reach allowed create s) : s.Notified e := by
  refine h.invariant (.of_unset rfl) fun _ _ _ _ hs _ _ hstep => ?_
  exact hs.step (machine_step.mp hstep)

end SharedQueue

end P2PChat

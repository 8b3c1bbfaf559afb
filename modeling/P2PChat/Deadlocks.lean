import P2PChat.LockOrder
import P2PChat.TransitionSystem

namespace P2PChat

namespace Locks

/-- The network thread is in a callback of the bufferevent that comes to a broadcast yet. -/
def closing (p : Nat) (s : Locks) : Bool :=
  decide (.bufferEvent p ∈ s.held .network ∧ .lock .csClients ∈ s.todo .network)

/-- The thread's next step brings the tick thread, which holds `m_CSClients`, to the lock of a
bufferevent, and the network thread, which holds that lock, to a broadcast: the network thread begins a
close or error callback when `ServerTick` has found `m_Link` set, or `ServerTick` finds it set when such a
callback has begun. -/
def crosses (s : Locks) : LockAct → Bool
  | .go .network =>
    match s.todo .network with
    | .lock (.bufferEvent p) :: ops =>
      decide ((s.todo .tick).head? = some (.write p) ∧ .lock .csClients ∈ ops)
    | _ => false
  | .go .tick =>
    match s.todo .tick with
    | .send p :: _ => s.link p && s.closing p
    | _ => false
  | _ => false

def uncrossed (s : Locks) (a : LockAct) : Prop := s.crosses a = false

/-- What a thread has to do is safe, with the `bufferevent_write` that `ServerTick` has come to. -/
def Going (t : Thread) (held : List Lock) : List LockOp → Prop
  | .write _ :: ops => (t = .tick ∧ ∀ k ∈ held, k.rank < 1) ∧ Safe t held ops
  | ops => Safe t held ops

/-- Each lock has one holder, the threads keep to the order, and the two of them are not crossed. -/
structure Sound (s : Locks) : Prop where
  exclusive : WaitGraph.Exclusive s.held
  going : ∀ t, Going t (s.held t) (s.todo t)
  apart : ∀ p, (s.todo .tick).head? = some (.write p) → s.closing p = false

section Steps

variable {s s' : Locks} {t t' : Thread} {l : Lock} {ops : List LockOp} {p : Nat}

@[simp] theorem setTodo_held : (s.setTodo t ops).held = s.held := rfl

@[simp] theorem setTodo_todo : (s.setTodo t ops).todo = Function.update s.todo t ops := rfl

@[simp] theorem setHeld_todo {locks : List Lock} : (s.setHeld t locks).todo = s.todo := rfl

@[simp] theorem setHeld_held {locks : List Lock} :
    (s.setHeld t locks).held = Function.update s.held t locks := rfl

theorem free_iff : s.free t l = true ↔ ∀ t', t' ≠ t → l ∉ s.held t' := by simp [free]

theorem closing_eq_false :
    s.closing p = false ↔ (.bufferEvent p ∈ s.held .network → .lock .csClients ∉ s.todo .network) := by
  simp [closing]

theorem Going.of_safe {held : List Lock} (h : Safe t held ops) : Going t held ops := by
  cases ops with
  | nil => exact h
  | cons op ops => cases op with
    | write p => exact h.elim
    | _ => exact h

/-- What a step of a thread changes: its own locks and its own operations, and of the locks at most one,
which was free. A `bufferevent_write` comes after a look at `m_Link`; the network thread takes the lock of
a bufferevent as its callback begins. -/
structure Went (t : Thread) (s s' : Locks) (locks : List Lock) (ops : List LockOp) : Prop where
  held : s'.held = Function.update s.held t locks
  todo : s'.todo = Function.update s.todo t ops
  going : Going t locks ops
  taken : locks ⊆ s.held t ∨ ∃ l, locks = l :: s.held t ∧ ∀ t', t' ≠ t → l ∉ s.held t'
  looked : ∀ p, ops.head? = some (.write p) → ∃ rest, s.todo t = .send p :: rest ∧ s.link p = true
  rest : .lock .csClients ∈ ops → .lock .csClients ∈ s.todo t
  began : t = .network → ∀ p, .bufferEvent p ∈ locks →
    .bufferEvent p ∈ s.held t ∨ s.todo t = .lock (.bufferEvent p) :: ops

theorem go_went (hgoing : Going t (s.held t) (s.todo t)) (h : s.go t = some s') :
    ∃ locks ops, Went t s s' locks ops := by
  have hsame : s.held = Function.update s.held t (s.held t) := (Function.update_eq_self t s.held).symm
  unfold go at h
  split at h
  next => cases h
  next l ops hops =>
    rw [hops] at hgoing
    obtain ⟨hl, hsafe⟩ := hgoing
    split at h
    next hfree =>
      cases h
      refine ⟨l :: s.held t, ops, rfl, rfl, .of_safe hsafe, Or.inr ⟨l, rfl, free_iff.mp hfree⟩,
        fun p hp => absurd hp hsafe.no_write, by simp [hops]; exact Or.inr, fun _ p hp => ?_⟩
      obtain rfl | hp := List.mem_cons.mp hp
      · exact Or.inr hops
      · exact Or.inl hp
    next => cases h
  next l ops hops =>
    rw [hops] at hgoing
    have hsafe : Safe t ((s.held t).erase l) ops := hgoing
    cases h
    exact ⟨(s.held t).erase l, ops, rfl, rfl, .of_safe hsafe, Or.inl List.erase_subset,
      fun p hp => absurd hp hsafe.no_write, by simp [hops], fun _ p hp => Or.inl (List.mem_of_mem_erase hp)⟩
  next p link ops hops =>
    rw [hops] at hgoing
    have hsafe : Safe t (s.held t) ops := hgoing
    cases h
    exact ⟨s.held t, ops, hsame, rfl, .of_safe hsafe, Or.inl (List.Subset.refl _),
      fun p hp => absurd hp hsafe.no_write, by simp [hops], fun _ p hp => Or.inl hp⟩
  next p ops hops =>
    rw [hops] at hgoing
    obtain ⟨hlow, hsafe⟩ := hgoing
    cases h
    refine ⟨s.held t, _, hsame, rfl, ?_, Or.inl (List.Subset.refl _), fun q hq => ?_, ?_,
      fun _ p hp => Or.inl hp⟩
    · split
      · exact ⟨hlow, hsafe⟩
      · exact .of_safe hsafe
    · split at hq
      next hlink =>
        cases hq
        exact ⟨ops, hops, hlink⟩
      next => exact absurd hq hsafe.no_write
    · split <;> simp [hops]
  next p ops hops =>
    rw [hops] at hgoing
    obtain ⟨⟨htick, hlow⟩, hsafe⟩ := hgoing
    split at h
    next hfree =>
      cases h
      refine ⟨.bufferEvent p :: s.held t, .unlock (.bufferEvent p) :: ops, rfl, rfl, ?_,
        Or.inr ⟨_, rfl, free_iff.mp hfree⟩, by simp, by simp [hops], fun hnetwork => ?_⟩
      · simpa [Going, Safe] using hsafe
      · rw [htick] at hnetwork
        cases hnetwork
    next => cases h

theorem Sound.initial : Sound initial where
  exclusive a b l ha := by simp [Locks.initial] at ha
  going _ := rfl
  apart _ h := by simp [Locks.initial] at h

theorem Sound.go (h : Sound s) (hpass : uncrossed s (.go t)) (hgo : s.go t = some s') : Sound s' := by
  obtain ⟨locks, ops, hwent⟩ := go_went (h.going t) hgo
  refine ⟨?_, fun t' => ?_, fun p hp => ?_⟩
  · rw [hwent.held]
    obtain hless | ⟨l, rfl, hfree⟩ := hwent.taken
    · refine h.exclusive.sub fun a => ?_
      by_cases ha : a = t
      · subst ha
        simpa using hless
      · simp [Function.update_of_ne ha]
    · exact h.exclusive.acquired hfree
  · rw [hwent.held, hwent.todo]
    by_cases ht : t' = t
    · subst ht
      simpa using hwent.going
    · simpa [Function.update_of_ne ht] using h.going t'
  · rw [closing_eq_false, hwent.held, hwent.todo]
    rw [hwent.todo] at hp
    intro hheld hrest
    cases t with
    | authenticator =>
      simp only [ne_eq, reduceCtorEq, not_false_eq_true, Function.update_of_ne] at hp hheld hrest
      exact closing_eq_false.mp (h.apart p hp) hheld hrest
    | tick =>
      simp only [ne_eq, reduceCtorEq, not_false_eq_true, Function.update_of_ne, Function.update_self] at hp hheld hrest
      obtain ⟨rest, htodo, hlink⟩ := hwent.looked p hp
      have hcross : s.crosses (.go .tick) = true := by
        simp [crosses, htodo, hlink, closing, hheld, hrest]
      simp [uncrossed, hcross] at hpass
    | network =>
      simp only [ne_eq, reduceCtorEq, not_false_eq_true, Function.update_of_ne, Function.update_self] at hp hheld hrest
      obtain hheld | hbegan := hwent.began rfl p hheld
      · exact closing_eq_false.mp (h.apart p hp) hheld (hwent.rest hrest)
      · have hcross : s.crosses (.go .network) = true := by
          simp [crosses, hbegan, hp, hrest]
        simp [uncrossed, hcross] at hpass

theorem Sound.call {c : LockCall} (h : Sound s) (hidle : s.todo c.thread = []) :
    Sound (s.setTodo c.thread c.ops) := by
  have hheld : s.held c.thread = [] := by simpa [hidle, Going, Safe] using h.going c.thread
  refine ⟨h.exclusive, fun t => ?_, fun p hp => ?_⟩
  · by_cases ht : t = c.thread
    · subst ht
      simpa [hheld] using Going.of_safe (ops_safe c)
    · simpa [Function.update_of_ne ht] using h.going t
  · rw [closing_eq_false]
    intro hlock hrest
    cases hthread : c.thread with
    | authenticator =>
      simp [hthread] at hp hlock hrest
      exact closing_eq_false.mp (h.apart p hp) hlock hrest
    | tick =>
      simp [hthread] at hp
      exact absurd hp (ops_safe c).no_write
    | network =>
      rw [hthread] at hheld
      simp [hheld] at hlock

theorem Sound.step {a : LockAct} (h : Sound s) (hpass : uncrossed s a) (hstep : s.step a = some s') :
    Sound s' := by
  cases a with
  | go t => exact h.go hpass hstep
  | call c =>
    unfold Locks.step at hstep
    simp only at hstep
    split at hstep
    next hidle =>
      cases hstep
      exact h.call hidle
    next => cases hstep

theorem reach_sound (h : lockMachine.Reach uncrossed initial s) : Sound s := by
  refine h.invariant .initial ?_
  rintro s a s' _ hs _ hpass hstep
  refine hs.step hpass ?_
  unfold lockMachine at hstep
  cases hnext : s.step a with
  | none => simp [hnext] at hstep
  | some u => simpa [hnext] using hstep

/-- A thread that waits wants a lock that it may take next, or it is the tick thread at
`bufferevent_write`. -/
theorem Sound.wants (h : Sound s) (hl : s.wants t = some l) :
    (∃ ops, s.todo t = .lock l :: ops ∧ MayLock t (s.held t) l) ∨
      ∃ p, l = .bufferEvent p ∧ t = .tick ∧ (s.todo .tick).head? = some (.write p) ∧
        ∀ k ∈ s.held t, k.rank < 1 := by
  have hgoing := h.going t
  unfold Locks.wants at hl
  split at hl
  next k ops hops =>
    cases hl
    rw [hops] at hgoing
    exact Or.inl ⟨ops, hops, hgoing.1⟩
  next p ops hops =>
    cases hl
    rw [hops] at hgoing
    obtain ⟨⟨rfl, hlow⟩, -⟩ := hgoing
    exact Or.inr ⟨p, rfl, rfl, by simp [hops], hlow⟩
  next => cases hl

/-- Only the network thread and a `bufferevent_write` wait for the lock of a bufferevent, and the write
not for one that is about to broadcast. -/
theorem Sound.rises (h : Sound s) {a b c : Thread} {l l' : Lock} (hab : a ≠ b) (ha : s.wants a = some l)
    (hb : l ∈ s.held b) (hbc : b ≠ c) (hb' : s.wants b = some l') (hc : l' ∈ s.held c) :
    l.rank < l'.rank := by
  obtain ⟨ops, htodo, horder, -⟩ | ⟨p, rfl, rfl, -, hlow⟩ := h.wants hb'
  · obtain hmem | hrank | ⟨rfl, rfl, hevents⟩ := horder
    · exact absurd (h.exclusive b c l' hmem hc) hbc
    · exact hrank l hb
    · obtain ⟨p, rfl⟩ := hevents l hb
      exfalso
      obtain ⟨_, _, -, hnetwork⟩ | ⟨q, hq, -, hwrite, -⟩ := h.wants ha
      · exact hab (hnetwork p rfl)
      · cases hq
        exact closing_eq_false.mp (h.apart p hwrite) hb (by simp [htodo])
  · exact hlow l hb

/-- In every run in which the tick thread and the network thread never cross at a bufferevent, no thread
waits, through others, for itself. -/
theorem locks_no_deadlock (h : lockMachine.Reach uncrossed initial s) : ¬ s.Deadlocked t :=
  have hsound := reach_sound h
  WaitGraph.no_cycle Lock.rank hsound.rises

theorem replay_uncrossed {acts : List LockAct}
    (h : lockMachine.replay (fun s a => !s.crosses a) acts s = some s') :
    lockMachine.Reach uncrossed s s' :=
  Machine.replay_reach (fun _ _ hpass => ⟨trivial, by simpa [uncrossed] using hpass⟩) .start h

/-- A connection comes during `TickClients`. -/
theorem locks_no_deadlock_accept :
    ∃ s : Locks, lockMachine.Reach uncrossed initial s ∧
      WaitGraph.Waits s.held s.wants .network .tick ∧ ¬ s.Deadlocked .network := by
  have hruns : (lockMachine.replay (fun s a => !s.crosses a)
      [.call (.tickClients [] []), .go .tick, .call (.accept 0)] initial).map (fun s => decide
        (s.wants .network = some .csClients ∧ .csClients ∈ s.held .tick)) = some true := by
    decide +kernel
  obtain ⟨s, hs, hall⟩ := Option.map_eq_some_iff.mp hruns
  obtain ⟨hwants, hheld⟩ := of_decide_eq_true hall
  have hs := replay_uncrossed hs
  exact ⟨s, hs, ⟨by decide, .csClients, hwants, hheld⟩, locks_no_deadlock hs⟩

/-- A connection is accepted and sends a packet; `ServerTick` has answered it and found `m_Link` set; then
the other side closes, and the callback comes to the broadcast. -/
theorem write_crosses_broadcast :
    ∃ s : Locks, lockMachine.Reachable initial s ∧ s.Deadlocked .tick := by
  have hruns : (lockMachine.replay (fun _ _ => true)
      ([.call (.accept 0)] ++ List.replicate 7 (.go .network) ++
        [.call (.readCallback 0 1)] ++ List.replicate 8 (.go .network) ++
        [.call (.tickClients [(0, ⟨[.packet false], true, none, none⟩)] [])] ++
        List.replicate 10 (.go .tick) ++
        [.call (.eventCallback 0 (some []) none)] ++ List.replicate 9 (.go .network))
      initial).map (fun s => decide
        (s.wants .tick = some (.bufferEvent 0) ∧ .bufferEvent 0 ∈ s.held .network ∧
          s.wants .network = some .csClients ∧ .csClients ∈ s.held .tick)) = some true := by
    decide +kernel
  obtain ⟨s, hs, hall⟩ := Option.map_eq_some_iff.mp hruns
  obtain ⟨htick, hnetwork, hnetwork', htick'⟩ := of_decide_eq_true hall
  refine ⟨s, Machine.replay_reach (fun _ _ _ => ⟨trivial, trivial⟩) .start hs, ?_⟩
  exact .tail (.single ⟨by decide, _, htick, hnetwork⟩) ⟨by decide, _, hnetwork', htick'⟩

end Steps

end Locks

end P2PChat

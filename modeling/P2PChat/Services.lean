import Mathlib.Data.List.Basic
import P2PChat.TransitionSystem

namespace Machine

variable {σ τ ε η : Type} {M : Machine σ ε η} {N : Machine τ ε η} {P : σ → ε → Prop} {Q : τ → ε → Prop} {s s' : σ}
  {e : ε} {events : List ε}

theorem along_next (hp : P s e) (hstep : M.step s e = .ok s') (h : M.Along P events s') :
    M.Along P (e :: events) s := by
  refine ⟨hp, fun t ht => ?_⟩
  have heq : s' = t := Except.ok.inj (hstep.symm.trans ht)
  rw [← heq]
  exact h

theorem run_next (hstep : M.step s e = .ok s') : M.run (e :: events) s = M.run events s' := by
  rw [run, hstep]

theorem run_append {events' : List ε} (h : M.run events s = .ok s') :
    M.run (events ++ events') s = M.run events' s' := by
  induction events generalizing s with
  | nil =>
    cases h
    rfl
  | cons e events ih =>
    rw [run] at h
    rw [List.cons_append, run]
    rcases hstep : M.step s e with halt | t
    · rw [hstep] at h
      cases h
    · rw [hstep] at h
      exact ih h

theorem along_append {events' : List ε} (h : M.Along P events s) (hrun : M.run events s = .ok s')
    (h' : M.Along P events' s') : M.Along P (events ++ events') s := by
  induction events generalizing s with
  | nil =>
    cases hrun
    exact h'
  | cons e events ih =>
    refine ⟨h.1, fun t hstep => ih (h.2 t hstep) ?_⟩
    rw [run, hstep] at hrun
    exact hrun

theorem run_cons (h : M.run (e :: events) s = .ok s') : ∃ t, M.step s e = .ok t ∧ M.run events t = .ok s' := by
  rw [run] at h
  rcases hstep : M.step s e with halt | t
  · rw [hstep] at h
    cases h
  · rw [hstep] at h
    exact ⟨t, rfl, h⟩

theorem run_split {events' : List ε} (h : M.run (events ++ events') s = .ok s') :
    ∃ t, M.run events s = .ok t ∧ M.run events' t = .ok s' := by
  induction events generalizing s with
  | nil => exact ⟨s, rfl, h⟩
  | cons e events ih =>
    obtain ⟨s₁, hstep, h⟩ := run_cons h
    obtain ⟨t, hfirst, hlast⟩ := ih h
    exact ⟨t, by rw [run_next hstep]; exact hfirst, hlast⟩

theorem along_split {events' : List ε} (h : M.Along P (events ++ events') s) (hrun : M.run events s = .ok s') :
    M.Along P events s ∧ M.Along P events' s' := by
  induction events generalizing s with
  | nil =>
    cases hrun
    exact ⟨trivial, h⟩
  | cons e events ih =>
    obtain ⟨t, hstep, hrun⟩ := run_cons hrun
    obtain ⟨hfirst, hlast⟩ := ih (h.2 t hstep) hrun
    exact ⟨along_next h.1 hstep hfirst, hlast⟩

/-- What holds along the run of the images, and of a state if of its image, holds along the run. -/
theorem Along.comap {f : σ → τ} (hholds : ∀ s e, Q (f s) e → P s e)
    (hstep : ∀ s e, N.step (f s) e = (M.step s e).map f) (h : N.Along Q events (f s)) : M.Along P events s := by
  induction events generalizing s with
  | nil => trivial
  | cons e events ih =>
    refine ⟨hholds s e h.1, fun s' hs => ih (h.2 (f s') ?_)⟩
    rw [hstep, hs]
    rfl

end Machine

/-- What a machine does for those who wait: its jobs in the order in which they came, the events that take the
first of them away, who waits, who is through, and whose a job is. -/
structure Service (σ ε κ ι : Type) where
  jobs : σ → List κ
  serves : ε → Bool
  waits : σ → ι → Prop
  through : σ → ι → Prop
  owns : σ → κ → ι → Prop

namespace Service

variable {σ ε η κ ι : Type}

/-- In the states of `I` jobs come last and go first, whose job is taken away is through, and whoever begins to
wait has a job. -/
structure Fair (S : Service σ ε κ ι) (M : Machine σ ε η) (I : σ → Prop) : Prop where
  keep : ∀ {s e s'}, I s → M.enabled s e → M.step s e = .ok s' → I s'
  comes : ∀ {s e s'}, I s → M.enabled s e → M.step s e = .ok s' → S.serves e = false →
    S.jobs s <+: S.jobs s'
  goes : ∀ {s e s'}, I s → M.enabled s e → M.step s e = .ok s' → S.serves e = true →
    ∃ job, S.jobs s = job :: S.jobs s' ∧ ∀ x, S.owns s job x → S.waits s x → S.through s' x
  through : ∀ {s e s' x}, I s → M.enabled s e → M.step s e = .ok s' → S.through s x → S.through s' x
  waits : ∀ {s e s' x}, I s → M.enabled s e → M.step s e = .ok s' → S.waits s x →
    (S.waits s' x ∨ S.through s' x) ∧ ∀ job, S.owns s job x → S.owns s' job x
  begins : ∀ {s e s' x}, I s → M.enabled s e → M.step s e = .ok s' → S.waits s' x →
    S.waits s x ∨ ∃ job ∈ S.jobs s', S.owns s' job x
  apart : ∀ {s x}, S.through s x → ¬S.waits s x

/-- Through, or with one of the first `n` jobs. -/
def Due (S : Service σ ε κ ι) (n : Nat) (s : σ) (x : ι) : Prop :=
  S.through s x ∨ S.waits s x ∧ ∃ job ∈ (S.jobs s).take n, S.owns s job x

/-- Nobody waits without a job. -/
def Asked (S : Service σ ε κ ι) (s : σ) : Prop := ∀ x, S.waits s x → ∃ job ∈ S.jobs s, S.owns s job x

variable {S : Service σ ε κ ι} {M : Machine σ ε η} {I : σ → Prop} {s s' t : σ} {e : ε} {x : ι} {n : Nat}

theorem Fair.asked (h : S.Fair M I) (hs : I s) (he : M.enabled s e) (hstep : M.step s e = .ok s')
    (hasked : S.Asked s) : S.Asked s' := by
  intro x hx
  rcases h.begins hs he hstep hx with hbefore | hnew
  · obtain ⟨job, hjob, howns⟩ := hasked x hbefore
    have howns' : S.owns s' job x := (h.waits hs he hstep hbefore).2 job howns
    rcases hserves : S.serves e with _ | _
    · exact ⟨job, (h.comes hs he hstep hserves).subset hjob, howns'⟩
    · obtain ⟨first, hjobs, hdone⟩ := h.goes hs he hstep hserves
      rw [hjobs] at hjob
      rcases List.mem_cons.mp hjob with rfl | hrest
      · exact absurd hx (h.apart (hdone x howns hbefore))
      · exact ⟨job, hrest, howns'⟩
  · exact hnew

theorem Fair.asked_run (h : S.Fair M I) {events : List ε} (hs : I s) (hasked : S.Asked s)
    (henabled : M.Along M.enabled events s) (hrun : M.run events s = .ok t) : S.Asked t := by
  induction events generalizing s with
  | nil =>
    cases hrun
    exact hasked
  | cons e events ih =>
    unfold Machine.run at hrun
    split at hrun
    next s₁ hstep =>
      exact ih (h.keep hs henabled.1 hstep) (h.asked hs henabled.1 hstep hasked) (henabled.2 s₁ hstep) hrun
    next => cases hrun

/-- An event that takes no job away leaves the others' turns as they are. -/
theorem Fair.stays (h : S.Fair M I) (hs : I s) (he : M.enabled s e) (hstep : M.step s e = .ok s')
    (hserves : S.serves e = false) (hdue : S.Due n s x) : S.Due n s' x := by
  rcases hdue with hthrough | ⟨hwaits, job, hjob, howns⟩
  · exact Or.inl (h.through hs he hstep hthrough)
  · obtain ⟨hnext, hown⟩ := h.waits hs he hstep hwaits
    rcases hnext with hstill | hthrough
    · obtain ⟨new, hnew⟩ := h.comes hs he hstep hserves
      have hfirst : (S.jobs s).take n <+: (S.jobs s').take n := by
        rw [← hnew, List.take_append]
        exact List.prefix_append _ _
      exact Or.inr ⟨hstill, job, hfirst.subset hjob, hown job howns⟩
    · exact Or.inl hthrough

/-- One that does brings everybody one place forward. -/
theorem Fair.moves (h : S.Fair M I) (hs : I s) (he : M.enabled s e) (hstep : M.step s e = .ok s')
    (hserves : S.serves e = true) (hdue : S.Due (n + 1) s x) : S.Due n s' x := by
  rcases hdue with hthrough | ⟨hwaits, job, hjob, howns⟩
  · exact Or.inl (h.through hs he hstep hthrough)
  · obtain ⟨hnext, hown⟩ := h.waits hs he hstep hwaits
    rcases hnext with hstill | hthrough
    · obtain ⟨first, hjobs, hdone⟩ := h.goes hs he hstep hserves
      rw [hjobs, List.take_succ_cons] at hjob
      rcases List.mem_cons.mp hjob with rfl | hrest
      · exact Or.inl (hdone x howns hwaits)
      · exact Or.inr ⟨hstill, job, hrest, hown job howns⟩
    · exact Or.inl hthrough

/-- Whoever has one of the first `n` jobs is through after `n` of the events that take one away, whatever comes
in between. -/
theorem Fair.served (h : S.Fair M I) {events : List ε} (hs : I s) (hdue : S.Due n s x)
    (henabled : M.Along M.enabled events s) (hrun : M.run events s = .ok t)
    (hcount : n ≤ events.countP S.serves) : S.through t x := by
  induction events generalizing s n with
  | nil =>
    have hzero : n = 0 := Nat.le_zero.mp hcount
    cases hrun
    rw [hzero] at hdue
    rcases hdue with hthrough | ⟨_, job, hjob, _⟩
    · exact hthrough
    · rw [List.take_zero] at hjob
      exact absurd hjob List.not_mem_nil
  | cons e events ih =>
    unfold Machine.run at hrun
    split at hrun
    next s₁ hstep =>
      have hs₁ : I s₁ := h.keep hs henabled.1 hstep
      have hrest : M.Along M.enabled events s₁ := henabled.2 s₁ hstep
      rcases hserves : S.serves e with _ | _
      · rw [List.countP_cons_of_neg (by rw [hserves]; decide)] at hcount
        exact ih hs₁ (h.stays hs henabled.1 hstep hserves hdue) hrest hrun hcount
      · rw [List.countP_cons_of_pos hserves] at hcount
        have hmore : S.Due (n - 1 + 1) s x := by
          rcases hdue with hthrough | ⟨hwaits, job, hjob, howns⟩
          · exact Or.inl hthrough
          · have hle : n ≤ n - 1 + 1 := by omega
            exact Or.inr ⟨hwaits, job, (List.take_prefix_take_left hle).subset hjob, howns⟩
        exact ih hs₁ (h.moves hs henabled.1 hstep hserves hmore) hrest hrun (by omega)
    next => cases hrun

end Service

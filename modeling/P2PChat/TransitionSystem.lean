import Mathlib.Logic.Relation

/-- States that change by events; an event that is enabled may still fail. -/
structure Machine (σ ε η : Type) where
  enabled : σ → ε → Prop
  step : σ → ε → Except η σ

namespace Machine

variable {σ τ ε η : Type}

/-- The states of the runs from `s₀` all of whose steps are allowed. -/
inductive Reach (M : Machine σ ε η) (allowed : σ → ε → Prop) (s₀ : σ) : σ → Prop
  | start : Reach M allowed s₀ s₀
  | next {s s' : σ} {e : ε} : Reach M allowed s₀ s → M.enabled s e → allowed s e →
      M.step s e = .ok s' → Reach M allowed s₀ s'

/-- The states of all runs from `s₀`. -/
def Reachable (M : Machine σ ε η) (s₀ s : σ) : Prop := M.Reach (fun _ _ => True) s₀ s

variable {M : Machine σ ε η} {allowed allowed' : σ → ε → Prop} {s₀ s : σ}

/-- What holds at the start and is kept by every allowed step holds in every state reached. -/
theorem Reach.invariant {I : σ → Prop} (hstart : I s₀)
    (hnext : ∀ s e s', M.Reach allowed s₀ s → I s → M.enabled s e → allowed s e →
      M.step s e = .ok s' → I s')
    (h : M.Reach allowed s₀ s) : I s := by
  induction h with
  | start => exact hstart
  | next hr he ha hs ih => exact hnext _ _ _ hr ih he ha hs

theorem Reach.mono (hsub : ∀ s e, allowed s e → allowed' s e) (h : M.Reach allowed s₀ s) :
    M.Reach allowed' s₀ s := by
  induction h with
  | start => exact .start
  | next _ he ha hs ih => exact .next ih he (hsub _ _ ha) hs

theorem Reach.trans {s' : σ} (h : M.Reach allowed s₀ s) (h' : M.Reach allowed s s') :
    M.Reach allowed s₀ s' := by
  induction h' with
  | start => exact h
  | next _ he ha hs ih => exact .next ih he ha hs

/-- A map that commutes with the steps takes runs to runs. -/
theorem Reach.map {N : Machine τ ε η} {allowed' : τ → ε → Prop} {f : σ → τ}
    (henabled : ∀ s e, M.enabled s e → N.enabled (f s) e)
    (hallowed : ∀ s e, allowed s e → allowed' (f s) e)
    (hstep : ∀ s e, N.step (f s) e = (M.step s e).map f) (h : M.Reach allowed s₀ s) :
    N.Reach allowed' (f s₀) (f s) := by
  induction h with
  | start => exact .start
  | next _ he ha hs ih =>
    exact .next ih (henabled _ _ he) (hallowed _ _ ha) (by rw [hstep, hs]; rfl)

/-- The events one after another. -/
def run (M : Machine σ ε η) : List ε → σ → Except η σ
  | [], s => .ok s
  | e :: events, s =>
    match M.step s e with
    | .ok s => M.run events s
    | .error h => .error h

theorem run_map {N : Machine τ ε η} {f : σ → τ} (hstep : ∀ s e, N.step (f s) e = (M.step s e).map f)
    (events : List ε) (s : σ) : N.run events (f s) = (M.run events s).map f := by
  induction events generalizing s with
  | nil => rfl
  | cons e events ih =>
    simp only [run, hstep]
    rcases M.step s e with h | s'
    · rfl
    · exact ih s'

/-- The events one after another, if each of them passes the test when it comes. -/
def replay (M : Machine σ ε η) (test : σ → ε → Bool) : List ε → σ → Option σ
  | [], s => some s
  | e :: events, s =>
    if test s e then
      match M.step s e with
      | .ok s => M.replay test events s
      | .error _ => none
    else none

theorem replay_reach {test : σ → ε → Bool} (htest : ∀ s e, test s e = true → M.enabled s e ∧ allowed s e)
    {s' : σ} {events : List ε} (hr : M.Reach allowed s₀ s) (h : M.replay test events s = some s') :
    M.Reach allowed s₀ s' := by
  induction events generalizing s with
  | nil =>
    cases h
    exact hr
  | cons e events ih =>
    unfold replay at h
    split at h
    next hpass =>
      split at h
      next s₁ hs => exact ih (.next hr (htest s e hpass).1 (htest s e hpass).2 hs) h
      next => cases h
    next => cases h

/-- This holds before every step of the run from `s` by these events. -/
def Along (M : Machine σ ε η) (P : σ → ε → Prop) : List ε → σ → Prop
  | [], _ => True
  | e :: events, s => P s e ∧ ∀ s', M.step s e = .ok s' → M.Along P events s'

theorem Along.map {N : Machine τ ε η} {P : σ → ε → Prop} {Q : τ → ε → Prop} {f : σ → τ}
    (hholds : ∀ s e, P s e → Q (f s) e) (hstep : ∀ s e, N.step (f s) e = (M.step s e).map f)
    {events : List ε} (h : M.Along P events s) : N.Along Q events (f s) := by
  induction events generalizing s with
  | nil => trivial
  | cons e events ih =>
    refine ⟨hholds s e h.1, fun t ht => ?_⟩
    rw [hstep] at ht
    rcases hs : M.step s e with halt | s'
    · rw [hs] at ht
      cases ht
    · rw [hs] at ht
      cases ht
      exact ih (h.2 s' hs)

/-- What holds at the start and is kept by every step holds before every step of a run. -/
theorem Along.invariant {R : σ → ε → Prop} {I : σ → Prop}
    (hkeep : ∀ s e s', I s → R s e → M.step s e = .ok s' → I s') {events : List ε} (hs : I s)
    (h : M.Along R events s) : M.Along (fun s e => R s e ∧ I s) events s := by
  induction events generalizing s with
  | nil => trivial
  | cons e events ih => exact ⟨⟨h.1, hs⟩, fun s' hstep => ih (hkeep s e s' hs h.1 hstep) (h.2 s' hstep)⟩

/-- What is the same before every step from a state that is reached is the same along every run. -/
theorem along_congr {P Q : σ → ε → Prop}
    (hsame : ∀ s e, M.Reachable s₀ s → M.enabled s e → (P s e ↔ Q s e)) {events : List ε}
    (hr : M.Reachable s₀ s) (h : M.Along M.enabled events s) :
    M.Along P events s ↔ M.Along Q events s := by
  induction events generalizing s with
  | nil => exact Iff.rfl
  | cons e events ih =>
    have hrest : ∀ s', M.step s e = .ok s' → (M.Along P events s' ↔ M.Along Q events s') :=
      fun s' hs => ih (.next hr h.1 trivial hs) (h.2 s' hs)
    constructor
    · rintro ⟨hp, hnext⟩
      exact ⟨(hsame s e hr h.1).mp hp, fun s' hs => (hrest s' hs).mp (hnext s' hs)⟩
    · rintro ⟨hq, hnext⟩
      exact ⟨(hsame s e hr h.1).mpr hq, fun s' hs => (hrest s' hs).mpr (hnext s' hs)⟩

/-- Where what holds is kept by a step that meets the condition and ended by any other, it holds after every
step of a run if and only if all of them meet it. -/
theorem along_keeps_iff {I : σ → Prop} {R Q : σ → ε → Prop}
    (hkeep : ∀ s e s', I s → R s e → Q s e → M.step s e = .ok s' → I s')
    (hbreak : ∀ s e, I s → R s e → ¬Q s e → ∃ s', M.step s e = .ok s' ∧ ¬I s')
    {events : List ε} (hs : I s) (h : M.Along R events s) :
    M.Along (fun s e => ∀ s', M.step s e = .ok s' → I s') events s ↔ M.Along Q events s := by
  induction events generalizing s with
  | nil => exact Iff.rfl
  | cons e events ih =>
    have hrest : ∀ s', M.step s e = .ok s' → I s' →
        (M.Along (fun s e => ∀ s', M.step s e = .ok s' → I s') events s' ↔ M.Along Q events s') :=
      fun s' hstep hs' => ih hs' (h.2 s' hstep)
    by_cases hq : Q s e
    · have hnow : ∀ s', M.step s e = .ok s' → I s' := fun s' => hkeep s e s' hs h.1 hq
      constructor
      · rintro ⟨_, hnext⟩
        exact ⟨hq, fun s' hstep => (hrest s' hstep (hnow s' hstep)).mp (hnext s' hstep)⟩
      · rintro ⟨_, hnext⟩
        exact ⟨hnow, fun s' hstep => (hrest s' hstep (hnow s' hstep)).mpr (hnext s' hstep)⟩
    · obtain ⟨s', hstep, hno⟩ := hbreak s e hs h.1 hq
      exact iff_of_false (fun hall => hno (hall.1 s' hstep)) (fun hall => hq hall.1)

/-- The same where a step that does not meet the condition may also fail. -/
theorem along_succeeds_iff {I : σ → Prop} {R Q : σ → ε → Prop}
    (hkeep : ∀ s e, I s → R s e → Q s e → ∃ s', M.step s e = .ok s' ∧ I s')
    (hbreak : ∀ s e s', I s → R s e → M.step s e = .ok s' → I s' → Q s e)
    {events : List ε} (hs : I s) (h : M.Along R events s) :
    M.Along (fun s e => ∃ s', M.step s e = .ok s' ∧ I s') events s ↔ M.Along Q events s := by
  induction events generalizing s with
  | nil => exact Iff.rfl
  | cons e events ih =>
    constructor
    · rintro ⟨⟨s', hstep, hs'⟩, hnext⟩
      refine ⟨hbreak s e s' hs h.1 hstep hs', fun t ht => ?_⟩
      have heq : s' = t := Except.ok.inj (hstep.symm.trans ht)
      exact (ih (heq ▸ hs') (h.2 t ht)).mp (hnext t ht)
    · rintro ⟨hq, hnext⟩
      obtain ⟨s', hstep, hs'⟩ := hkeep s e hs h.1 hq
      refine ⟨⟨s', hstep, hs'⟩, fun t ht => ?_⟩
      have heq : s' = t := Except.ok.inj (hstep.symm.trans ht)
      exact (ih (heq ▸ hs') (h.2 t ht)).mpr (hnext t ht)

theorem replay_along {P : σ → ε → Prop} {test : σ → ε → Bool} (htest : ∀ s e, test s e = true → P s e)
    {s' : σ} {events : List ε} (h : M.replay test events s = some s') : M.Along P events s := by
  induction events generalizing s with
  | nil => trivial
  | cons e events ih =>
    unfold replay at h
    split at h
    next hpass =>
      refine ⟨htest s e hpass, fun s₁ hs => ?_⟩
      rw [hs] at h
      exact ih h
    next => cases h

end Machine

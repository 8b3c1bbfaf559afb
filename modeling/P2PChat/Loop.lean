import Mathlib.Logic.Basic

/-! Loops whose rounds may fail, and a measure that falls in every round that goes on. -/

/-- What a round comes to: whether the loop goes on, and the state. -/
structure Loop (σ η : Type) where
  round : σ → Except η (Bool × σ)

namespace Loop

variable {σ η : Type}

/-- The state after so many rounds that go on. -/
inductive After (L : Loop σ η) (s : σ) : Nat → σ → Prop
  | start : After L s 0 s
  | next {n : Nat} {s' s'' : σ} : After L s n s' → L.round s' = .ok (true, s'') → After L s (n + 1) s''

/-- The round is the last: it leaves the loop, or fails. -/
def Leaves (L : Loop σ η) (s : σ) : Prop := ∀ s', L.round s ≠ .ok (true, s')

/-- At most so many rounds. -/
def run (L : Loop σ η) (exhausted : η) : Nat → σ → Except η σ
  | 0, _ => .error exhausted
  | rounds + 1, s =>
    match L.round s with
    | .ok (true, s') => L.run exhausted rounds s'
    | .ok (false, s') => .ok s'
    | .error e => .error e

variable {L : Loop σ η} {I : σ → Prop} {m : σ → Nat} {exhausted : η} {s s' : σ} {n : Nat}

theorem After.invariant (hkeep : ∀ s s', I s → L.round s = .ok (true, s') → I s') (hs : I s)
    (h : L.After s n s') : I s' := by
  induction h with
  | start => exact hs
  | next _ hround ih => exact hkeep _ _ ih hround

theorem After.head {s₁ : σ} (hround : L.round s = .ok (true, s₁)) (h : L.After s₁ n s') :
    L.After s (n + 1) s' := by
  induction h with
  | start => exact .next .start hround
  | next _ hlast ih => exact .next ih hlast

/-- Where the measure falls, the loop is left before the measure is used up. -/
theorem leaves_of_measure (hkeep : ∀ s s', I s → L.round s = .ok (true, s') → I s')
    (hfalls : ∀ s s', I s → L.round s = .ok (true, s') → m s' < m s) (hs : I s) :
    ∃ n s', n ≤ m s ∧ L.After s n s' ∧ L.Leaves s' := by
  obtain ⟨bound, hbound⟩ : ∃ bound, m s ≤ bound := ⟨_, Nat.le_refl _⟩
  induction bound generalizing s with
  | zero =>
    refine ⟨0, s, Nat.zero_le _, .start, fun s' hround => ?_⟩
    have hlt := hfalls s s' hs hround
    omega
  | succ bound ih =>
    by_cases hleaves : L.Leaves s
    · exact ⟨0, s, Nat.zero_le _, .start, hleaves⟩
    · obtain ⟨s₁, hround⟩ := not_forall_not.mp hleaves
      have hlt := hfalls s s₁ hs hround
      obtain ⟨n, s', hn, hafter, hleaves'⟩ := ih (hkeep s s₁ hs hround) (by omega)
      exact ⟨n + 1, s', by omega, hafter.head hround, hleaves'⟩

theorem run_after (h : L.After s n s') (more : Nat) :
    L.run exhausted (n + more) s = L.run exhausted more s' := by
  induction h generalizing more with
  | start => rw [Nat.zero_add]
  | @next n s₁ s₂ _ hround ih =>
    rw [Nat.add_right_comm, Nat.add_assoc, ih (more + 1), run, hround]

/-- With enough rounds the loop comes to what its last round does. -/
theorem run_leaves (h : L.After s n s') (hleaves : L.Leaves s') {rounds : Nat} (hn : n < rounds) :
    L.run exhausted rounds s = (L.round s').map Prod.snd := by
  obtain ⟨more, rfl⟩ : ∃ more, rounds = n + (more + 1) := ⟨rounds - n - 1, by omega⟩
  rw [run_after h, run]
  rcases hround : L.round s' with e | ⟨_ | _, s''⟩
  · rfl
  · rfl
  · exact absurd hround (hleaves s'')

end Loop

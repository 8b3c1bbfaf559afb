import P2PChat.TransitionSystem

namespace Machine

variable {σ τ ε η : Type}

/-- The machine with a record of its run, which no step reads. -/
def recorded (M : Machine σ ε η) (record : σ → ε → σ → τ → τ) : Machine (σ × τ) ε η where
  enabled s e := M.enabled s.1 e
  step s e := (M.step s.1 e).map fun s' => (s', record s.1 e s' s.2)

variable {M : Machine σ ε η} {record : σ → ε → σ → τ → τ}

theorem recorded_ok {s s' : σ × τ} {e : ε} (h : (M.recorded record).step s e = .ok s') :
    M.step s.1 e = .ok s'.1 ∧ s'.2 = record s.1 e s'.1 s.2 := by
  rcases hstep : M.step s.1 e with halt | t
  · simp [recorded, hstep, Except.map] at h
  · simp only [recorded, hstep, Except.map, Except.ok.injEq] at h
    rw [← h]
    exact ⟨rfl, rfl⟩

/-- Without its record, a run is one of the machine. -/
theorem Reach.forget {allowed : σ × τ → ε → Prop} {s₀ s : σ × τ}
    (h : (M.recorded record).Reach allowed s₀ s) : M.Reachable s₀.1 s.1 := by
  induction h with
  | start => exact .start
  | next _ he _ hs ih => exact .next ih he trivial (recorded_ok hs).1

/-- Every run has its record. -/
theorem Reach.recorded {allowed : σ → ε → Prop} {s₀ s : σ} (h : M.Reach allowed s₀ s) (t₀ : τ) :
    ∃ t, (M.recorded record).Reach (fun s e => allowed s.1 e) (s₀, t₀) (s, t) := by
  induction h with
  | start => exact ⟨t₀, .start⟩
  | @next s s' e _ he ha hs ih =>
    obtain ⟨t, ht⟩ := ih
    refine ⟨record s e s' t, .next ht he ha ?_⟩
    simp [Machine.recorded, hs, Except.map]

end Machine

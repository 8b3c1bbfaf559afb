import Mathlib.Logic.Function.Basic

/-- Computations on a state that stop where they would do what they must not. -/
abbrev Checked (σ α : Type) := StateT σ Option α

namespace Checked

variable {σ ι α δ : Type}

/-- Goes on only where `p` holds. -/
def check (p : Prop) [Decidable p] : Checked σ Unit := if p then pure () else failure

/-- The computation without its result. -/
def void (m : Checked σ α) : Checked σ Unit := do
  let _ ← m
  pure ()

/-- The computation on one part of a state. -/
def part [DecidableEq ι] (i : ι) (m : Checked σ α) : Checked (ι → σ) α := fun s =>
  (m.run (s i)).map (fun r => (r.1, Function.update s i r.2))

/-- From every state with `pre` the computation comes to its end, with what `post` says. -/
def Meets (pre : σ → Prop) (m : Checked σ α) (post : α → σ → Prop) : Prop :=
  ∀ s, pre s → ∃ a s', m.run s = some (a, s') ∧ post a s'

/-- From every state with `I` the computation comes to its end, with `I` again. -/
def Keeps (I : σ → Prop) (m : Checked σ α) : Prop := Meets I m (fun _ => I)

variable {I pre : σ → Prop} {m : Checked σ α} {k : α → Checked σ δ} {post : α → σ → Prop}
  {post' : δ → σ → Prop}

@[simp] theorem check_run (p : Prop) [Decidable p] (s : σ) (h : p) :
    (check p : Checked σ Unit).run s = some ((), s) := by
  simp [check, h]

theorem Meets.bind (hm : Meets pre m post) (hk : ∀ a, Meets (post a) (k a) post') :
    Meets pre (m >>= k) post' := by
  intro s hs
  obtain ⟨a, s', hrun, hpost⟩ := hm s hs
  obtain ⟨b, s'', hrest, hpost'⟩ := hk a s' hpost
  refine ⟨b, s'', ?_, hpost'⟩
  rw [StateT.run_bind, hrun]
  exact hrest

theorem Keeps.pure (a : α) : Keeps I (Pure.pure a : Checked σ α) := fun s hs => ⟨a, s, rfl, hs⟩

theorem Keeps.bind (hm : Keeps I m) (hk : ∀ a, Keeps I (k a)) : Keeps I (m >>= k) :=
  Meets.bind hm hk

theorem Keeps.void (hm : Keeps I m) : Keeps I (void m) := hm.bind (fun _ => Keeps.pure ())

theorem Keeps.ite {c : Prop} [Decidable c] {n : Checked σ α} (hm : Keeps I m) (hn : Keeps I n) :
    Keeps I (if c then m else n) := by
  split
  next => exact hm
  next => exact hn

theorem part_run [DecidableEq ι] {i : ι} {s : ι → σ} {a : α} {r : σ} (h : m.run (s i) = some (a, r)) :
    (part i m).run s = some (a, Function.update s i r) := by
  change (m.run (s i)).map _ = _
  rw [h]
  rfl

/-- What keeps each part's invariant on that part keeps them all. -/
theorem Keeps.part [DecidableEq ι] {J : ι → σ → Prop} {i : ι} (hm : Keeps (J i) m) :
    Keeps (fun s => ∀ j, J j (s j)) (part i m) := by
  intro s hs
  obtain ⟨a, r, hrun, hr⟩ := hm (s i) (hs i)
  refine ⟨a, Function.update s i r, part_run hrun, fun j => ?_⟩
  by_cases hj : j = i
  · subst hj
    simpa using hr
  · simpa [hj] using hs j

end Checked

import Mathlib.Data.List.Basic
import Mathlib.Logic.Function.Basic
import Mathlib.Logic.Relation

namespace WaitGraph

variable {θ κ : Type} {held : θ → List κ} {wants : θ → Option κ} {a b c : θ} {l : κ}

/-- Thread `a` wants a lock that `b` holds. -/
def Waits (held : θ → List κ) (wants : θ → Option κ) (a b : θ) : Prop :=
  a ≠ b ∧ ∃ l, wants a = some l ∧ l ∈ held b

def Exclusive (held : θ → List κ) : Prop := ∀ a b l, l ∈ held a → l ∈ held b → a = b

theorem Exclusive.acquired [DecidableEq θ] (h : Exclusive held) (hfree : ∀ b, b ≠ a → l ∉ held b) :
    Exclusive (Function.update held a (l :: held a)) := by
  intro b c k hb hc
  by_cases hba : b = a
  · by_cases hca : c = a
    · rw [hba, hca]
    · subst hba
      simp only [Function.update_self, Function.update_of_ne hca] at hb hc
      obtain rfl | hb := List.mem_cons.mp hb
      · exact absurd hc (hfree c hca)
      · exact h b c k hb hc
  · by_cases hca : c = a
    · subst hca
      simp only [Function.update_self, Function.update_of_ne hba] at hb hc
      obtain rfl | hc := List.mem_cons.mp hc
      · exact absurd hb (hfree b hba)
      · exact h b c k hb hc
    · simp only [Function.update_of_ne hba, Function.update_of_ne hca] at hb hc
      exact h b c k hb hc

theorem Exclusive.sub {held' : θ → List κ} (h : Exclusive held) (hsub : ∀ a, held' a ⊆ held a) :
    Exclusive held' :=
  fun a b l ha hb => h a b l (hsub a ha) (hsub b hb)

/-- Where every wait of a waiting thread is for a lock of a higher rank than the waits for it, no thread
waits, through others, for itself. -/
theorem no_cycle (rank : κ → Nat)
    (hrise : ∀ {a b c l l'}, a ≠ b → wants a = some l → l ∈ held b → b ≠ c → wants b = some l' →
      l' ∈ held c → rank l < rank l') :
    ¬ Relation.TransGen (Waits held wants) a a := by
  have hpath : ∀ {a b c}, Relation.TransGen (Waits held wants) a b → Waits held wants b c →
      ∃ l l', wants a = some l ∧ wants b = some l' ∧ rank l < rank l' := by
    intro a b c h
    induction h generalizing c with
    | single hab =>
      rintro ⟨hbc, l', hl', hc⟩
      obtain ⟨hne, l, hl, hb⟩ := hab
      exact ⟨l, l', hl, hl', hrise hne hl hb hbc hl' hc⟩
    | tail hab hbc ih =>
      rintro ⟨hne, l'', hl'', hd⟩
      obtain ⟨l, l', hl, hl', hlt⟩ := ih hbc
      obtain ⟨hne', k, hk, hc⟩ := hbc
      cases hl'.symm.trans hk
      exact ⟨l, l'', hl, hl'', Nat.lt_trans hlt (hrise hne' hk hc hne hl'' hd)⟩
  intro hcycle
  obtain ⟨b, hab, -⟩ := Relation.TransGen.head'_iff.mp hcycle
  obtain ⟨l, l', hl, hl', hlt⟩ := hpath hcycle hab
  cases hl.symm.trans hl'
  exact absurd hlt (Nat.lt_irrefl _)

end WaitGraph

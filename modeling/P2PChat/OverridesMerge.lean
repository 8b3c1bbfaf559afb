import Mathlib.Data.Finset.Max
import Mathlib.Data.List.Lex
import Mathlib.Data.List.Perm.Basic
import Mathlib.Data.Prod.Lex

namespace P2PChat

namespace OverridesMerge

variable {κ α : Type} [LinearOrder κ] [LinearOrder α]

section Definitions

/-- The order of `std::sort`. -/
def pairLe (a b : κ × α) : Bool := toLex a ≤ toLex b

/-- The inner loop for a name of a main value: the overrides that it returns, and those from the index on that are
left. It is `none` when the index goes past the last one. -/
def advance (name : κ) : List (κ × α) → Option (List (κ × α) × List (κ × α))
  | [] => none
  | o :: left => if o.1 < name then (advance name left).map (Prod.map (o :: ·) id) else some ([], o :: left)

/-- The loop over the main values, with the overrides from the index on. -/
def mergeFrom : List (κ × α) → List (κ × α) → Option (List (κ × α))
  | _, [] => some []
  | [], pair :: main => (mergeFrom [] main).map (pair :: ·)
  | o :: left, pair :: main =>
    if pair.1 = o.1 then mergeFrom (o :: left) main
    else
      match advance pair.1 (o :: left) with
      | none => none
      | some (passed, left) => (mergeFrom left main).map fun ret => passed ++ pair :: ret

/-- `none` when an override is read that does not exist. -/
def mergeValues (overrides main : List (κ × α)) : Option (List (κ × α)) :=
  mergeFrom (overrides.mergeSort pairLe) (main.mergeSort pairLe)

/-- What the merge is for: the overrides, and the main values whose names are not among theirs. -/
def overridden (overrides main : List (κ × α)) : List (κ × α) :=
  overrides ++ main.filter fun pair => pair.1 ∉ overrides.map Prod.fst

/-- A main value that is returned although its name is overridden: the least of its name, when an override stands
before it and no main name lies between the two. -/
def Leaks (overrides main : List (κ × α)) (pair : κ × α) : Prop :=
  pair ∈ main ∧ pair.1 ∈ overrides.map Prod.fst ∧ (∀ m ∈ main, m.1 = pair.1 → toLex pair ≤ toLex m) ∧
    ∃ o ∈ overrides, o.1 < pair.1 ∧ ∀ m ∈ main, m.1 < pair.1 → m.1 ≤ o.1

instance (overrides main : List (κ × α)) (pair : κ × α) : Decidable (Leaks overrides main pair) :=
  inferInstanceAs (Decidable (_ ∧ _))

/-- No main value has a greater name. -/
def Above (main : List (κ × α)) (pair : κ × α) : Prop := ∀ m ∈ main, m.1 ≤ pair.1

instance (main : List (κ × α)) (pair : κ × α) : Decidable (Above main pair) :=
  inferInstanceAs (Decidable (∀ m ∈ main, _))

/-- The merge lets through one main value that is overridden, and the same pair is the one override that it leaves out
at the end. -/
def Coincides (overrides main : List (κ × α)) : Prop :=
  ∃ last, (overrides.filter fun o => Above main o) = [last] ∧ ∀ pair, Leaks overrides main pair ↔ pair = last

end Definitions

section Order

theorem pairLe_iff {a b : κ × α} : pairLe a b = true ↔ toLex a ≤ toLex b := decide_eq_true_iff

theorem name_le {a b : κ × α} (h : toLex a ≤ toLex b) : a.1 ≤ b.1 := by
  rcases Prod.Lex.toLex_le_toLex.mp h with hlt | ⟨heq, _⟩
  · exact hlt.le
  · exact heq.le

theorem sorted_mergeSort (pairs : List (κ × α)) :
    (pairs.mergeSort pairLe).Pairwise fun a b => toLex a ≤ toLex b := by
  have hsorted : (pairs.mergeSort pairLe).Pairwise fun a b => pairLe a b = true := by
    apply List.pairwise_mergeSort
    · exact fun a b c hab hbc => pairLe_iff.mpr ((pairLe_iff.mp hab).trans (pairLe_iff.mp hbc))
    · intro a b
      rcases le_total (toLex a) (toLex b) with h | h
      · rw [pairLe_iff.mpr h, Bool.true_or]
      · rw [pairLe_iff.mpr h, Bool.or_true]
  exact hsorted.imp pairLe_iff.mp

end Order

section Loops

variable {left main : List (κ × α)} {pair o : κ × α} {name : κ}

/-- The inner loop parts the overrides at the name, and stops in them when one is not below it. -/
theorem advance_sorted (hsorted : left.Pairwise fun a b => toLex a ≤ toLex b) :
    advance name left =
      if ∃ o ∈ left, name ≤ o.1 then
        some (left.filter fun o => o.1 < name, left.filter fun o => name ≤ o.1)
      else none := by
  induction left with
  | nil => simp [advance]
  | cons o left ih =>
    obtain ⟨hfirst, hrest⟩ := List.pairwise_cons.mp hsorted
    rw [advance, ih hrest]
    by_cases hlt : o.1 < name
    · rw [if_pos hlt]
      by_cases hmore : ∃ o ∈ left, name ≤ o.1
      · rw [if_pos hmore, if_pos (by simp [hmore])]
        simp [hlt, not_le.mpr hlt]
      · rw [if_neg hmore, if_neg (by simpa [not_le.mpr hlt] using hmore)]
        rfl
    · have hall : ∀ x ∈ o :: left, name ≤ x.1 := by
        intro x hmem
        rcases List.mem_cons.mp hmem with rfl | hmem
        · exact not_lt.mp hlt
        · exact (not_lt.mp hlt).trans (name_le (hfirst x hmem))
      rw [if_neg hlt, if_pos ⟨o, List.mem_cons_self, not_lt.mp hlt⟩]
      rw [List.filter_eq_nil_iff.mpr fun x hmem => by simpa using hall x hmem,
        List.filter_eq_self.mpr fun x hmem => by simpa using hall x hmem]

omit [LinearOrder α] in
theorem mergeFrom_nil (main : List (κ × α)) : mergeFrom [] main = some main := by
  induction main with
  | nil => rfl
  | cons pair main ih => rw [mergeFrom, ih, Option.map_some]

/-- The merge stays in the overrides if there are none or none of the main names is above all of theirs. -/
theorem mergeFrom_isSome (hleft : left.Pairwise fun a b => toLex a ≤ toLex b)
    (hmain : main.Pairwise fun a b => toLex a ≤ toLex b) :
    (mergeFrom left main).isSome = true ↔ left = [] ∨ ∀ m ∈ main, ∃ o ∈ left, m.1 ≤ o.1 := by
  induction main generalizing left with
  | nil => simp [mergeFrom]
  | cons pair main ih =>
    obtain ⟨hfirst, hrest⟩ := List.pairwise_cons.mp hmain
    cases left with
    | nil => simp [mergeFrom_nil]
    | cons o left =>
      rw [mergeFrom]
      split
      next heq =>
        rw [ih hleft hrest]
        simp [heq]
      next =>
        rw [advance_sorted hleft]
        by_cases hroom : ∃ x ∈ o :: left, pair.1 ≤ x.1
        · rw [if_pos hroom]
          have hkept : (o :: left).filter (fun x => pair.1 ≤ x.1) ≠ [] := by
            obtain ⟨x, hmem, hle⟩ := hroom
            exact List.ne_nil_of_mem (List.mem_filter.mpr ⟨hmem, decide_eq_true hle⟩)
          dsimp only
          rw [Option.isSome_map, ih (hleft.filter _) hrest]
          simp only [hkept, false_or, List.mem_filter, decide_eq_true_eq, reduceCtorEq, List.forall_mem_cons, hroom,
            true_and]
          constructor
          · intro h m hmem
            obtain ⟨x, ⟨hx, _⟩, hle⟩ := h m hmem
            exact ⟨x, hx, hle⟩
          · intro h m hmem
            obtain ⟨x, hx, hle⟩ := h m hmem
            exact ⟨x, ⟨hx, (name_le (hfirst m hmem)).trans hle⟩, hle⟩
        · rw [if_neg hroom]
          simp only [Option.isSome_none, Bool.false_eq_true, reduceCtorEq, false_or, false_iff]
          exact fun h => hroom (h pair List.mem_cons_self)

end Loops

section Counts

variable {left main ret : List (κ × α)} {pair x o : κ × α}

/-- After a main value whose name is that of the first override, the same values leak as before it. -/
theorem leaks_skip (hleft : (o :: left).Pairwise fun a b => toLex a ≤ toLex b) (heq : pair.1 = o.1) :
    Leaks (o :: left) (pair :: main) x ↔ Leaks (o :: left) main x := by
  have hfirst : ∀ y ∈ o :: left, pair.1 ≤ y.1 := by
    rw [heq]
    exact List.forall_mem_cons.mpr ⟨le_rfl, fun y hmem => name_le ((List.pairwise_cons.mp hleft).1 y hmem)⟩
  unfold Leaks
  constructor
  · rintro ⟨hmem, hname, hleast, y, hy, hlt, hbefore⟩
    have hne : x ≠ pair := by
      rintro rfl
      exact absurd hlt (not_lt.mpr (hfirst y hy))
    exact ⟨(List.mem_cons.mp hmem).resolve_left hne, hname, fun m hm => hleast m (List.mem_cons_of_mem _ hm), y, hy,
      hlt, fun m hm => hbefore m (List.mem_cons_of_mem _ hm)⟩
  · rintro ⟨hmem, hname, hleast, y, hy, hlt, hbefore⟩
    have hne : pair.1 ≠ x.1 := ((hfirst y hy).trans_lt hlt).ne
    refine ⟨List.mem_cons_of_mem _ hmem, hname, ?_, y, hy, hlt, ?_⟩
    · exact List.forall_mem_cons.mpr ⟨fun h => absurd h hne, hleast⟩
    · exact List.forall_mem_cons.mpr ⟨fun _ => hfirst y hy, hbefore⟩

/-- A main value with another name leaks when an override has this name too. -/
theorem leaks_here (hleft : (o :: left).Pairwise fun a b => toLex a ≤ toLex b)
    (hmain : (pair :: main).Pairwise fun a b => toLex a ≤ toLex b) (hne : pair.1 ≠ o.1) (hx : x.1 = pair.1) :
    Leaks (o :: left) (pair :: main) x ↔ x = pair ∧ pair.1 ∈ (o :: left).map Prod.fst := by
  obtain ⟨hfirst, _⟩ := List.pairwise_cons.mp hmain
  unfold Leaks
  constructor
  · rintro ⟨hmem, hname, hleast, _⟩
    have hle : toLex x ≤ toLex pair := hleast pair List.mem_cons_self hx.symm
    have hge : toLex pair ≤ toLex x := by
      rcases List.mem_cons.mp hmem with rfl | hmem
      · exact le_rfl
      · exact hfirst x hmem
    exact ⟨toLex.injective (le_antisymm hle hge), hx ▸ hname⟩
  · rintro ⟨rfl, hname⟩
    refine ⟨List.mem_cons_self, hname, List.forall_mem_cons.mpr ⟨fun _ => le_rfl, fun m hm _ => hfirst m hm⟩, o,
      List.mem_cons_self, ?_, ?_⟩
    · obtain ⟨y, hy, hyname⟩ := List.mem_map.mp hname
      have hle : o.1 ≤ y.1 := by
        rcases List.mem_cons.mp hy with rfl | hy
        · exact le_rfl
        · exact name_le ((List.pairwise_cons.mp hleft).1 y hy)
      rw [hyname] at hle
      exact lt_of_le_of_ne hle hne.symm
    · refine List.forall_mem_cons.mpr ⟨fun h => absurd h (lt_irrefl _), fun m hm hlt => ?_⟩
      exact absurd hlt (not_lt.mpr (name_le (hfirst m hm)))

/-- What leaks later does so among the overrides that are left. -/
theorem leaks_later (hx : pair.1 < x.1) :
    Leaks left (pair :: main) x ↔ Leaks (left.filter fun y => pair.1 ≤ y.1) main x := by
  have hnames : x.1 ∈ left.map Prod.fst ↔ x.1 ∈ (left.filter fun y => pair.1 ≤ y.1).map Prod.fst := by
    simp only [List.mem_map, List.mem_filter, decide_eq_true_eq]
    constructor
    · rintro ⟨y, hy, heq⟩
      exact ⟨y, ⟨hy, heq ▸ hx.le⟩, heq⟩
    · rintro ⟨y, ⟨hy, _⟩, heq⟩
      exact ⟨y, hy, heq⟩
  have hne : x ≠ pair := by
    rintro rfl
    exact lt_irrefl _ hx
  unfold Leaks
  rw [hnames]
  constructor
  · rintro ⟨hmem, hname, hleast, y, hy, hlt, hbefore⟩
    have hle : pair.1 ≤ y.1 := hbefore pair List.mem_cons_self hx
    exact ⟨(List.mem_cons.mp hmem).resolve_left hne, hname, fun m hm => hleast m (List.mem_cons_of_mem _ hm), y,
      List.mem_filter.mpr ⟨hy, decide_eq_true hle⟩, hlt, fun m hm => hbefore m (List.mem_cons_of_mem _ hm)⟩
  · rintro ⟨hmem, hname, hleast, y, hy, hlt, hbefore⟩
    obtain ⟨hy, hle⟩ := List.mem_filter.mp hy
    refine ⟨List.mem_cons_of_mem _ hmem, hname, ?_, y, hy, hlt, ?_⟩
    · exact List.forall_mem_cons.mpr ⟨fun h => absurd h hx.ne, hleast⟩
    · exact List.forall_mem_cons.mpr ⟨fun _ => of_decide_eq_true hle, hbefore⟩

omit [LinearOrder α] in
theorem name_filter (hx : pair.1 ≤ x.1) :
    x.1 ∈ (left.filter fun y => pair.1 ≤ y.1).map Prod.fst ↔ x.1 ∈ left.map Prod.fst := by
  simp only [List.mem_map, List.mem_filter, decide_eq_true_eq]
  constructor
  · rintro ⟨y, ⟨hy, _⟩, heq⟩
    exact ⟨y, hy, heq⟩
  · rintro ⟨y, hy, heq⟩
    exact ⟨y, ⟨hy, heq ▸ hx⟩, heq⟩

omit [LinearOrder α] in
theorem above_cons (hx : pair.1 ≤ x.1) : Above (pair :: main) x ↔ Above main x := by
  rw [Above, List.forall_mem_cons]
  exact and_iff_right hx

/-- The count of a pair after the inner loop has moved on to a main value. -/
theorem count_advance (hleft : (o :: left).Pairwise fun a b => toLex a ≤ toLex b)
    (hmain : (pair :: main).Pairwise fun a b => toLex a ≤ toLex b) (hne : pair.1 ≠ o.1) (x : κ × α) :
    ((o :: left).filter fun y => y.1 < pair.1).count x +
        ((if Above main x then 0 else ((o :: left).filter fun y => pair.1 ≤ y.1).count x) +
            (if x.1 ∈ ((o :: left).filter fun y => pair.1 ≤ y.1).map Prod.fst then 0 else main.count x) +
            (if Leaks ((o :: left).filter fun y => pair.1 ≤ y.1) main x then 1 else 0) +
          if pair == x then 1 else 0) =
      (if Above (pair :: main) x then 0 else (o :: left).count x) +
          (if x.1 ∈ (o :: left).map Prod.fst then 0 else (pair :: main).count x) +
        if Leaks (o :: left) (pair :: main) x then 1 else 0 := by
  obtain ⟨hfirst, _⟩ := List.pairwise_cons.mp hmain
  rcases lt_trichotomy x.1 pair.1 with hlt | heq | hgt
  · -- a pair below the main value: only the overrides that were passed have it
    have hnot : x ∉ pair :: main := by
      intro hmem
      rcases List.mem_cons.mp hmem with rfl | hmem
      · exact lt_irrefl _ hlt
      · exact absurd hlt (not_lt.mpr (name_le (hfirst x hmem)))
    have hpair : pair ≠ x := fun h => hnot (h ▸ List.mem_cons_self)
    have hlater : x ∉ main := fun hmem => hnot (List.mem_cons_of_mem _ hmem)
    have hpassed : ((o :: left).filter fun y => y.1 < pair.1).count x = (o :: left).count x :=
      List.count_filter (by simpa using hlt)
    have hkept : ((o :: left).filter fun y => pair.1 ≤ y.1).count x = 0 :=
      List.count_eq_zero_of_not_mem fun hmem => absurd (of_decide_eq_true (List.mem_filter.mp hmem).2) (not_le.mpr hlt)
    have hbelow : ¬Above (pair :: main) x := fun h => absurd (h pair List.mem_cons_self) (not_le.mpr hlt)
    have hleaks : ¬Leaks ((o :: left).filter fun y => pair.1 ≤ y.1) main x := fun h => hlater h.1
    have hleaks' : ¬Leaks (o :: left) (pair :: main) x := fun h => hnot h.1
    rw [hpassed, hkept, List.count_eq_zero_of_not_mem hlater, List.count_eq_zero_of_not_mem hnot, if_neg hbelow,
      if_neg hleaks, if_neg hleaks']
    simp [hpair]
  · have hpassed : ((o :: left).filter fun y => y.1 < pair.1).count x = 0 :=
      List.count_eq_zero_of_not_mem fun hmem => absurd (of_decide_eq_true (List.mem_filter.mp hmem).2) heq.not_lt
    have hlater : ¬Leaks ((o :: left).filter fun y => pair.1 ≤ y.1) main x := by
      rintro ⟨_, _, _, y, hy, hbelow, _⟩
      have hle : pair.1 ≤ y.1 := of_decide_eq_true (List.mem_filter.mp hy).2
      exact absurd hbelow (not_lt.mpr (heq ▸ hle))
    have hkept : ((o :: left).filter fun y => pair.1 ≤ y.1).count x = (o :: left).count x :=
      List.count_filter (by simpa using heq.ge)
    rw [hpassed, hkept, if_neg hlater, @List.count_cons _ _ _ pair]
    simp only [name_filter heq.ge, above_cons heq.ge, leaks_here hleft hmain hne heq]
    rw [heq]
    have hpair : (pair == x) = true ↔ x = pair := by rw [beq_iff_eq, eq_comm]
    by_cases hname : pair.1 ∈ (o :: left).map Prod.fst
    · simp only [hname, if_true, and_true, hpair]
      omega
    · simp only [hname, if_false, and_false]
      omega
  · have hpassed : ((o :: left).filter fun y => y.1 < pair.1).count x = 0 :=
      List.count_eq_zero_of_not_mem fun hmem => absurd (of_decide_eq_true (List.mem_filter.mp hmem).2) hgt.not_gt
    have hx : pair ≠ x := by
      rintro rfl
      exact lt_irrefl _ hgt
    have hkept : ((o :: left).filter fun y => pair.1 ≤ y.1).count x = (o :: left).count x :=
      List.count_filter (by simpa using hgt.le)
    rw [hpassed, hkept, @List.count_cons_of_ne _ _ _ _ _ hx]
    simp only [name_filter hgt.le, above_cons hgt.le, leaks_later hgt, beq_eq_false_iff_ne.mpr hx, Bool.false_eq_true,
      if_false]
    omega

/-- How often the merge returns a pair: the overrides below some main name, the main values that are not overridden,
and those that leak. -/
theorem mergeFrom_count (hleft : left.Pairwise fun a b => toLex a ≤ toLex b)
    (hmain : main.Pairwise fun a b => toLex a ≤ toLex b) (h : mergeFrom left main = some ret) (x : κ × α) :
    ret.count x = (if Above main x then 0 else left.count x) +
      (if x.1 ∈ left.map Prod.fst then 0 else main.count x) + if Leaks left main x then 1 else 0 := by
  induction main generalizing left ret with
  | nil =>
    obtain rfl : [] = ret := Option.some.inj h
    simp [Above, Leaks]
  | cons pair main ih =>
    obtain ⟨hfirst, hrest⟩ := List.pairwise_cons.mp hmain
    cases left with
    | nil =>
      rw [mergeFrom_nil] at h
      obtain rfl := Option.some.inj h
      simp [Leaks]
    | cons o left =>
      rw [mergeFrom] at h
      split at h
      next heq =>
        rw [ih hleft hrest h]
        simp only [leaks_skip hleft heq]
        have habove : (if Above (pair :: main) x then 0 else (o :: left).count x) =
            if Above main x then 0 else (o :: left).count x := by
          by_cases hmem : x ∈ o :: left
          · have hle : pair.1 ≤ x.1 := by
              rw [heq]
              rcases List.mem_cons.mp hmem with rfl | hmem
              · exact le_rfl
              · exact name_le ((List.pairwise_cons.mp hleft).1 x hmem)
            simp only [above_cons hle]
          · rw [List.count_eq_zero_of_not_mem hmem, ite_self, ite_self]
        have hnames : (if x.1 ∈ (o :: left).map Prod.fst then 0 else (pair :: main).count x) =
            if x.1 ∈ (o :: left).map Prod.fst then 0 else main.count x := by
          split
          next => rfl
          next hname =>
            have hne : pair ≠ x := by
              rintro rfl
              exact hname (by simp [heq])
            rw [List.count_cons_of_ne hne]
        rw [habove, hnames]
      next hne =>
        rw [advance_sorted hleft] at h
        split at h
        next => cases h
        next passed left' hadvance =>
          obtain ⟨ret', hret', rfl⟩ := Option.map_eq_some_iff.mp h
          split at hadvance
          next =>
            obtain ⟨rfl, rfl⟩ := Prod.mk.inj (Option.some.inj hadvance)
            have hlater := ih (hleft.filter _) hrest hret'
            rw [List.count_append, List.count_cons, hlater]
            exact count_advance hleft hmain hne x
          next => cases hadvance

end Counts

section Merge

variable {overrides main others ret : List (κ × α)}

theorem leaks_perm {overrides' main' : List (κ × α)} (ho : overrides'.Perm overrides) (hm : main'.Perm main)
    (x : κ × α) : Leaks overrides' main' x ↔ Leaks overrides main x := by
  unfold Leaks
  simp only [hm.mem_iff, ho.mem_iff, (ho.map Prod.fst).mem_iff]

theorem mergeValues_count (h : mergeValues overrides main = some ret) (x : κ × α) :
    ret.count x = (if Above main x then 0 else overrides.count x) +
      (if x.1 ∈ overrides.map Prod.fst then 0 else main.count x) + if Leaks overrides main x then 1 else 0 := by
  have ho := List.mergeSort_perm overrides pairLe
  have hm := List.mergeSort_perm main pairLe
  have habove : Above (main.mergeSort pairLe) x ↔ Above main x := by
    unfold Above
    simp only [hm.mem_iff]
  rw [mergeFrom_count (sorted_mergeSort overrides) (sorted_mergeSort main) h x, ho.count_eq, hm.count_eq]
  simp only [habove, (ho.map Prod.fst).mem_iff, leaks_perm ho hm]

theorem overridden_count (overrides main : List (κ × α)) (x : κ × α) :
    (overridden overrides main).count x =
      overrides.count x + if x.1 ∈ overrides.map Prod.fst then 0 else main.count x := by
  rw [overridden, List.count_append]
  split
  next hname =>
    have hnot : x ∉ main.filter fun pair => pair.1 ∉ overrides.map Prod.fst := by
      intro hmem
      exact of_decide_eq_true (List.mem_filter.mp hmem).2 hname
    rw [List.count_eq_zero_of_not_mem hnot]
  next hname => rw [List.count_filter (by simpa using hname)]

/-- What is returned is right when just the pairs leak that are left out at the end. -/
theorem perm_overridden_iff (h : mergeValues overrides main = some ret) :
    ret.Perm (overridden overrides main) ↔
      ∀ x, (overrides.filter fun o => Above main o).count x = if Leaks overrides main x then 1 else 0 := by
  have hcount : ∀ x, (overrides.filter fun o => Above main o).count x =
      if Above main x then overrides.count x else 0 := by
    intro x
    split
    next habove => exact List.count_filter (decide_eq_true habove)
    next habove =>
      apply List.count_eq_zero_of_not_mem
      exact fun hmem => habove (of_decide_eq_true (List.mem_filter.mp hmem).2)
  rw [List.perm_iff_count]
  refine forall_congr' fun x => ?_
  rw [mergeValues_count h, overridden_count, hcount]
  split
  next => omega
  next => omega

/-- The merge reads only overrides that exist just when there are none or one of them stands at or after every main
name. -/
theorem mergeValues_isSome (overrides main : List (κ × α)) :
    (mergeValues overrides main).isSome = true ↔ overrides = [] ∨ ∀ m ∈ main, ∃ o ∈ overrides, m.1 ≤ o.1 := by
  have ho := List.mergeSort_perm overrides pairLe
  have hm := List.mergeSort_perm main pairLe
  rw [mergeValues, mergeFrom_isSome (sorted_mergeSort overrides) (sorted_mergeSort main)]
  simp only [ho.mem_iff, hm.mem_iff, ← List.length_eq_zero_iff, ho.length_eq]

theorem exists_above (hne : overrides ≠ []) (h : ∀ m ∈ main, ∃ o ∈ overrides, m.1 ≤ o.1) :
    ∃ o ∈ overrides, Above main o := by
  obtain ⟨last, hlast, hgreatest⟩ :=
    overrides.toFinset.exists_max_image Prod.fst ((List.toFinset_nonempty_iff _).mpr hne)
  simp only [List.mem_toFinset] at hlast hgreatest
  refine ⟨last, hlast, fun m hmem => ?_⟩
  obtain ⟨o, ho, hle⟩ := h m hmem
  exact hle.trans (hgreatest o ho)

/-- Two main values that leak and stand at the end are the same. -/
theorem leaks_unique {x y : κ × α} (hx : Leaks overrides main x) (hy : Leaks overrides main y) (hxa : Above main x)
    (hya : Above main y) : x = y := by
  obtain ⟨hxmem, _, hxleast, _⟩ := hx
  obtain ⟨hymem, _, hyleast, _⟩ := hy
  have hname : x.1 = y.1 := le_antisymm (hya x hxmem) (hxa y hymem)
  exact toLex.injective (le_antisymm (hxleast y hymem hname.symm) (hyleast x hxmem hname))

theorem coincides_of_count {last : κ × α}
    (hcount : ∀ x, (overrides.filter fun o => Above main o).count x = if Leaks overrides main x then 1 else 0)
    (hlast : last ∈ overrides.filter fun o => Above main o) : Coincides overrides main := by
  have hleaks : ∀ x ∈ overrides.filter (fun o => Above main o), Leaks overrides main x := by
    intro x hmem
    by_contra hnot
    have hzero := hcount x
    rw [if_neg hnot] at hzero
    exact List.count_eq_zero.mp hzero hmem
  have hsame : ∀ x ∈ overrides.filter (fun o => Above main o), x = last := by
    intro x hmem
    exact leaks_unique (hleaks x hmem) (hleaks last hlast) (of_decide_eq_true (List.mem_filter.mp hmem).2)
      (of_decide_eq_true (List.mem_filter.mp hlast).2)
  refine ⟨last, ?_, fun x => ⟨fun hx => ?_, fun hx => hx ▸ hleaks last hlast⟩⟩
  · have hone := hcount last
    rw [if_pos (hleaks last hlast)] at hone
    have hall := List.eq_replicate_of_mem hsame
    rw [hall, List.count_replicate_self] at hone
    rw [hall, hone]
    rfl
  · apply hsame
    have hone := hcount x
    rw [if_pos hx] at hone
    exact List.count_pos_iff.mp (by omega)

/-- The merge is right if there are no overrides, and otherwise only by a coincidence. -/
theorem mergeValues_right_iff (overrides main : List (κ × α)) :
    (∃ ret, mergeValues overrides main = some ret ∧ ret.Perm (overridden overrides main)) ↔
      overrides = [] ∨ Coincides overrides main := by
  constructor
  · rintro ⟨ret, h, hperm⟩
    have hcount := (perm_overridden_iff h).mp hperm
    rcases (mergeValues_isSome overrides main).mp (by rw [h]; rfl) with hempty | hroom
    · exact .inl hempty
    · rcases eq_or_ne overrides [] with hempty | hne
      · exact .inl hempty
      · obtain ⟨last, hlast, habove⟩ := exists_above hne hroom
        exact .inr (coincides_of_count hcount (List.mem_filter.mpr ⟨hlast, decide_eq_true habove⟩))
  · rintro (rfl | ⟨last, hfilter, hleaks⟩)
    · have hsome := (mergeValues_isSome [] main).mpr (.inl rfl)
      obtain ⟨ret, h⟩ := Option.isSome_iff_exists.mp hsome
      refine ⟨ret, h, (perm_overridden_iff h).mpr fun x => ?_⟩
      simp [Leaks]
    · have hmem : last ∈ overrides.filter fun o => Above main o := by
        rw [hfilter]
        exact List.mem_singleton_self last
      obtain ⟨hlast, habove⟩ := List.mem_filter.mp hmem
      have hsome := (mergeValues_isSome overrides main).mpr
        (.inr fun m hm => ⟨last, hlast, of_decide_eq_true habove m hm⟩)
      obtain ⟨ret, h⟩ := Option.isSome_iff_exists.mp hsome
      refine ⟨ret, h, (perm_overridden_iff h).mpr fun x => ?_⟩
      rw [hfilter, List.count_singleton]
      simp only [hleaks, beq_iff_eq, @eq_comm _ x]

end Merge

end OverridesMerge

end P2PChat

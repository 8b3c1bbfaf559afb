import Mathlib.Data.List.Nodup
import Mathlib.Data.List.Perm.Basic

namespace P2PChat

namespace NamedValues

variable {κ α γ : Type}

section Changes

variable [DecidableEq κ]

/-- The first value with this name is replaced. -/
def assign (name : κ) (value : α) : List (κ × α) → List (κ × α)
  | [] => []
  | (n, old) :: rest => if n = name then (n, value) :: rest else (n, old) :: assign name value rest

/-- The first value with this name is taken away. -/
def remove (name : κ) (values : List (κ × α)) : List (κ × α) := values.eraseP fun v => v.1 = name

theorem remove_cons (name : κ) (first : κ × α) (rest : List (κ × α)) :
    remove name (first :: rest) = if first.1 = name then rest else first :: remove name rest := by
  rw [remove, List.eraseP_cons]
  by_cases h : first.1 = name
  · rw [decide_eq_true h, if_pos h]
    rfl
  · rw [decide_eq_false h, if_neg h]
    rfl

variable {values others : List (κ × α)}

theorem assign_map (f : α → γ) (name : κ) (value : α) (values : List (κ × α)) :
    (assign name value values).map (Prod.map id f) = assign name (f value) (values.map (Prod.map id f)) := by
  induction values with
  | nil => rfl
  | cons first rest ih =>
    obtain ⟨n, old⟩ := first
    have hmapped : (((n, old) :: rest).map (Prod.map id f)) = (n, f old) :: rest.map (Prod.map id f) := rfl
    rw [hmapped, assign, assign]
    split
    next => rfl
    next =>
      rw [List.map_cons, ih]
      rfl

theorem remove_map (f : α → γ) (name : κ) (values : List (κ × α)) :
    (remove name values).map (Prod.map id f) = remove name (values.map (Prod.map id f)) := by
  rw [remove, remove, List.eraseP_map]
  rfl

theorem assign_names (name : κ) (value : α) (values : List (κ × α)) :
    (assign name value values).map Prod.fst = values.map Prod.fst := by
  induction values with
  | nil => rfl
  | cons first rest ih =>
    rw [assign]
    split
    next => rfl
    next => rw [List.map_cons, ih, List.map_cons]

theorem assign_eq_map (hnodup : (values.map Prod.fst).Nodup) (name : κ) (value : α) :
    assign name value values = values.map fun v => if v.1 = name then (v.1, value) else v := by
  induction values with
  | nil => rfl
  | cons first rest ih =>
    obtain ⟨hfresh, hrest⟩ := List.nodup_cons.mp hnodup
    rw [assign, List.map_cons]
    split
    next hname =>
      have hother : ∀ v ∈ rest, v.1 ≠ name := fun v hmem hv =>
        hfresh (List.mem_map.mpr ⟨v, hmem, hv.trans hname.symm⟩)
      rw [List.map_congr_left fun v hmem => if_neg (hother v hmem), List.map_id']
    next => rw [ih hrest]

theorem remove_eq_filter (hnodup : (values.map Prod.fst).Nodup) (name : κ) :
    remove name values = values.filter fun v => v.1 != name := by
  induction values with
  | nil => rfl
  | cons first rest ih =>
    obtain ⟨hfresh, hrest⟩ := List.nodup_cons.mp hnodup
    rw [remove_cons, List.filter_cons, ih hrest]
    by_cases hname : first.1 = name
    · have hother : ∀ v ∈ rest, (v.1 != name) = true := fun v hmem =>
        bne_iff_ne.mpr fun hv => hfresh (List.mem_map.mpr ⟨v, hmem, hv.trans hname.symm⟩)
      simp [hname, List.filter_eq_self.mpr hother]
    · rw [if_neg hname, if_pos (bne_iff_ne.mpr hname)]

theorem assign_perm (hnodup : (values.map Prod.fst).Nodup) (h : values.Perm others) (name : κ) (value : α) :
    (assign name value values).Perm (assign name value others) := by
  rw [assign_eq_map hnodup, assign_eq_map ((h.map Prod.fst).nodup_iff.mp hnodup)]
  exact h.map _

theorem remove_perm (hnodup : (values.map Prod.fst).Nodup) (h : values.Perm others) (name : κ) :
    (remove name values).Perm (remove name others) := by
  rw [remove_eq_filter hnodup, remove_eq_filter ((h.map Prod.fst).nodup_iff.mp hnodup)]
  exact h.filter _

end Changes

section Lookup

variable [BEq κ] [LawfulBEq κ] {values others : List (κ × α)}

/-- Without a name twice, what is found is what there is. -/
theorem lookup_iff_mem (hnodup : (values.map Prod.fst).Nodup) {name : κ} {value : α} :
    values.lookup name = some value ↔ (name, value) ∈ values := by
  induction values with
  | nil => simp
  | cons first rest ih =>
    obtain ⟨n, v⟩ := first
    obtain ⟨hfresh, hrest⟩ := List.nodup_cons.mp hnodup
    rw [List.lookup_cons, List.mem_cons, Prod.mk.injEq]
    by_cases hname : name = n
    · subst hname
      rw [beq_self_eq_true]
      constructor
      · intro h
        exact .inl ⟨rfl, (Option.some.inj h).symm⟩
      · rintro (⟨_, rfl⟩ | hmem)
        · rfl
        · exact absurd (List.mem_map.mpr ⟨_, hmem, rfl⟩) hfresh
    · rw [beq_eq_false_iff_ne.mpr hname]
      simp [hname, ih hrest]

theorem lookup_perm (hnodup : (values.map Prod.fst).Nodup) (h : values.Perm others) (name : κ) :
    values.lookup name = others.lookup name := by
  have hnodup' : (others.map Prod.fst).Nodup := (h.map Prod.fst).nodup_iff.mp hnodup
  refine Option.ext fun value => ?_
  rw [lookup_iff_mem hnodup, lookup_iff_mem hnodup', h.mem_iff]

theorem lookup_map (f : α → γ) (values : List (κ × α)) (name : κ) :
    (values.map (Prod.map id f)).lookup name = (values.lookup name).map f := by
  induction values with
  | nil => rfl
  | cons first rest ih =>
    rw [List.map_cons, List.lookup_cons, List.lookup_cons, ih]
    by_cases hname : name = first.1
    · simp [hname]
    · simp [beq_eq_false_iff_ne.mpr hname]

/-- A value that is replaced is found, and the others are as before. -/
theorem lookup_assign [DecidableEq κ] {name other : κ} {old value : α} (hold : values.lookup name = some old) :
    (assign name value values).lookup other = if other = name then some value else values.lookup other := by
  induction values with
  | nil => cases hold
  | cons first rest ih =>
    obtain ⟨n, v⟩ := first
    rw [assign]
    by_cases hname : n = name
    · subst hname
      rw [if_pos rfl, List.lookup_cons, List.lookup_cons]
      by_cases hother : other = n
      · simp [hother]
      · simp [beq_eq_false_iff_ne.mpr hother, hother]
    · have hne : name ≠ n := fun h => hname h.symm
      rw [List.lookup_cons, beq_eq_false_iff_ne.mpr hne] at hold
      rw [if_neg hname, List.lookup_cons, List.lookup_cons, ih hold]
      by_cases hother : other = n
      · simp [hother, hname]
      · simp [beq_eq_false_iff_ne.mpr hother]

end Lookup

end NamedValues

end P2PChat

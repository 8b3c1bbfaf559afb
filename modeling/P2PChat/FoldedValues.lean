import P2PChat.NamedValues

namespace P2PChat

namespace FoldedValues

variable {κ ι α : Type} [DecidableEq ι]

section Definitions

variable (fold : κ → ι)

/-- The first value whose name is folded to the same. -/
def find (name : κ) (values : List (κ × α)) : Option (κ × α) := values.find? fun v => fold v.1 = fold name

def remove (name : κ) (values : List (κ × α)) : List (κ × α) := values.eraseP fun v => fold v.1 = fold name

/-- The first value with the name is replaced, and otherwise one is added at the end. -/
def put (name : κ) (value : α) : List (κ × α) → List (κ × α)
  | [] => [(name, value)]
  | v :: rest => if fold v.1 = fold name then (v.1, value) :: rest else v :: put name value rest

end Definitions

variable {fold : κ → ι} {name other : κ} {value : α} {values : List (κ × α)}

theorem find_cons (name : κ) (first : κ × α) (rest : List (κ × α)) :
    find fold name (first :: rest) = if fold first.1 = fold name then some first else find fold name rest := by
  rw [find, List.find?_cons]
  by_cases h : fold first.1 = fold name
  · simp [h]
  · simp [h, find]

theorem remove_cons (name : κ) (first : κ × α) (rest : List (κ × α)) :
    remove fold name (first :: rest) = if fold first.1 = fold name then rest else first :: remove fold name rest := by
  rw [remove, List.eraseP_cons]
  by_cases h : fold first.1 = fold name
  · simp [h]
  · simp [h, remove]

theorem find_remove_other (h : fold other ≠ fold name) (values : List (κ × α)) :
    find fold other (remove fold name values) = find fold other values := by
  induction values with
  | nil => rfl
  | cons first rest ih =>
    rw [remove_cons, find_cons]
    by_cases hname : fold first.1 = fold name
    · rw [if_pos hname, if_neg fun hsame => h (hsame.symm.trans hname)]
    · rw [if_neg hname, find_cons, ih]

theorem find_put_other (h : fold other ≠ fold name) (value : α) (values : List (κ × α)) :
    find fold other (put fold name value values) = find fold other values := by
  induction values with
  | nil =>
    rw [put, find_cons, if_neg h.symm]
  | cons first rest ih =>
    rw [put, find_cons]
    by_cases hname : fold first.1 = fold name
    · rw [if_pos hname, find_cons, hname]
      simp [h.symm]
    · rw [if_neg hname, find_cons, ih]

/-- A value that is put in is found, under the name that was there. -/
theorem find_put_self (name : κ) (value : α) (values : List (κ × α)) :
    find fold name (put fold name value values) =
      some (((find fold name values).elim name Prod.fst), value) := by
  induction values with
  | nil =>
    rw [put, find_cons, if_pos rfl]
    rfl
  | cons first rest ih =>
    rw [put, find_cons]
    by_cases hname : fold first.1 = fold name
    · rw [if_pos hname, find_cons, if_pos hname, if_pos hname]
      rfl
    · rw [if_neg hname, find_cons, if_neg hname, if_neg hname, ih]

/-- No value is left after one was removed, if there was only one. -/
theorem find_remove_self (name : κ) (values : List (κ × α)) :
    find fold name (remove fold name values) = none ↔ (values.filter fun v => fold v.1 = fold name).length ≤ 1 := by
  induction values with
  | nil => simp [find, remove]
  | cons first rest ih =>
    rw [remove_cons, List.filter_cons]
    by_cases hname : fold first.1 = fold name
    · rw [if_pos hname, if_pos (decide_eq_true hname), List.length_cons, Nat.add_le_add_iff_right, Nat.le_zero,
        List.length_eq_zero_iff, List.filter_eq_nil_iff, find, List.find?_eq_none]
    · rw [if_neg hname, if_neg (by simpa using hname), find_cons, if_neg hname, ih]

theorem filter_remove_other (h : fold other ≠ fold name) (values : List (κ × α)) :
    (remove fold name values).filter (fun v => fold v.1 = fold other) =
      values.filter fun v => fold v.1 = fold other := by
  induction values with
  | nil => rfl
  | cons first rest ih =>
    rw [remove_cons, List.filter_cons]
    by_cases hname : fold first.1 = fold name
    · rw [if_pos hname, if_neg (by simpa [hname] using h.symm)]
    · rw [if_neg hname, List.filter_cons, ih]

theorem remove_eq_self : remove fold name values = values ↔ find fold name values = none := by
  rw [remove, List.eraseP_eq_self_iff, find, List.find?_eq_none]

theorem remove_length (name : κ) (values : List (κ × α)) :
    (remove fold name values).length ≤ values.length := (List.eraseP_sublist).length_le

theorem remove_length_lt (h : find fold name values ≠ none) :
    (remove fold name values).length < values.length := by
  apply Nat.lt_of_le_of_ne (remove_length name values)
  intro hlength
  exact h (remove_eq_self.mp ((List.eraseP_sublist).eq_of_length hlength))

theorem put_length (h : find fold name values ≠ none) (value : α) :
    (put fold name value values).length = values.length := by
  induction values with
  | nil => exact absurd rfl h
  | cons first rest ih =>
    rw [find_cons] at h
    rw [put]
    by_cases hname : fold first.1 = fold name
    · rw [if_pos hname, List.length_cons, List.length_cons]
    · rw [if_neg hname] at h
      rw [if_neg hname, List.length_cons, List.length_cons, ih h]

theorem put_eq_self {found : κ × α} (h : find fold name values = some found) :
    put fold name value values = values ↔ found.2 = value := by
  induction values with
  | nil => cases h
  | cons first rest ih =>
    rw [find_cons] at h
    rw [put]
    by_cases hname : fold first.1 = fold name
    · rw [if_pos hname] at h
      obtain rfl := Option.some.inj h
      rw [if_pos hname, List.cons.injEq, Prod.ext_iff]
      simp [eq_comm]
    · rw [if_neg hname] at h
      rw [if_neg hname, List.cons.injEq, ih h]
      simp

theorem put_new (h : find fold name values = none) (value : α) :
    put fold name value values = values ++ [(name, value)] := by
  induction values with
  | nil => rfl
  | cons first rest ih =>
    rw [find_cons] at h
    by_cases hname : fold first.1 = fold name
    · rw [if_pos hname] at h
      cases h
    · rw [if_neg hname] at h
      rw [put, if_neg hname, ih h, List.cons_append]

/-- Values are found under their folded names. -/
theorem lookup_fold [BEq ι] [LawfulBEq ι] (name : κ) (values : List (κ × α)) :
    (values.map (Prod.map fold id)).lookup (fold name) = (find fold name values).map Prod.snd := by
  induction values with
  | nil => rfl
  | cons first rest ih =>
    rw [List.map_cons, List.lookup_cons, ih, find_cons]
    by_cases hname : fold first.1 = fold name
    · simp [hname]
    · have hne : fold name ≠ fold first.1 := fun h => hname h.symm
      simp [hname, beq_eq_false_iff_ne.mpr hne]

/-- A value that is there is assigned under its folded name. -/
theorem put_map (h : find fold name values ≠ none) (value : α) :
    (put fold name value values).map (Prod.map fold id) =
      NamedValues.assign (fold name) value (values.map (Prod.map fold id)) := by
  induction values with
  | nil => exact absurd rfl h
  | cons first rest ih =>
    obtain ⟨n, old⟩ := first
    rw [find_cons] at h
    have hmapped : ((n, old) :: rest).map (Prod.map fold id) = (fold n, old) :: rest.map (Prod.map fold id) := rfl
    rw [hmapped, put, NamedValues.assign]
    by_cases hname : fold n = fold name
    · rw [if_pos hname, if_pos hname]
      rfl
    · rw [if_neg hname] at h
      rw [if_neg hname, if_neg hname, ← ih h]
      rfl

theorem remove_map (name : κ) (values : List (κ × α)) :
    (remove fold name values).map (Prod.map fold id) =
      NamedValues.remove (fold name) (values.map (Prod.map fold id)) := by
  rw [remove, NamedValues.remove, List.eraseP_map]
  rfl

/-- To remove two names and put in a third changes nothing just when there is nothing to remove and the value is there
already. -/
theorem put_remove_eq_self {first second : κ} {found : κ × α} (hfirst : fold name ≠ fold first)
    (hsecond : fold name ≠ fold second) (h : find fold name values = some found) :
    put fold name value (remove fold second (remove fold first values)) = values ↔
      find fold first values = none ∧ find fold second values = none ∧ found.2 = value := by
  have hkept : find fold name (remove fold second (remove fold first values)) = some found := by
    rw [find_remove_other hsecond, find_remove_other hfirst, h]
  constructor
  · intro hsame
    have hlength := put_length (hkept ▸ Option.some_ne_none found) value
    rw [hsame] at hlength
    have hle : (remove fold second (remove fold first values)).length ≤ (remove fold first values).length :=
      remove_length second _
    have hnone : find fold first values = none := by
      by_contra hsome
      have hlt := remove_length_lt hsome
      omega
    rw [remove_eq_self.mpr hnone] at hsame hlength hkept
    have hnone' : find fold second values = none := by
      by_contra hsome
      have hlt := remove_length_lt hsome
      omega
    rw [remove_eq_self.mpr hnone'] at hsame
    exact ⟨hnone, hnone', (put_eq_self h).mp hsame⟩
  · rintro ⟨hnone, hnone', hvalue⟩
    rw [remove_eq_self.mpr hnone, remove_eq_self.mpr hnone']
    exact (put_eq_self h).mpr hvalue

end FoldedValues

end P2PChat

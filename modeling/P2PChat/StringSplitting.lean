import P2PChat.StringUtils

namespace P2PChat

section Definitions

/-- `str.find_first_of(delim, pos)`; `none` for `npos`. -/
def findFirstOf (str delim : AString) (pos : Nat) : Option Nat :=
  ((str.drop pos).findIdx? fun c => delim.contains c).map fun i => pos + i

theorem findFirstOf_bounds {str delim : AString} {pos cutAt : Nat} (h : findFirstOf str delim pos = some cutAt) :
    pos ≤ cutAt ∧ cutAt < str.length := by
  obtain ⟨i, hi, rfl⟩ := Option.map_eq_some_iff.mp h
  have hlt := (List.findIdx?_eq_some_iff_getElem.mp hi).1
  rw [List.length_drop] at hlt
  omega

/-- The loop of `StringSplit`, with the pieces from `Prev` on. -/
def stringSplitFrom (str delim : AString) (prev : Nat) : List AString :=
  match h : findFirstOf str delim prev with
  | some cutAt => (str.drop prev).take (cutAt - prev) :: stringSplitFrom str delim (cutAt + 1)
  | none => if prev < str.length then [str.drop prev] else []
termination_by str.length - prev
decreasing_by
  have hbounds := findFirstOf_bounds h
  omega

def stringSplit (str delim : AString) : List AString := stringSplitFrom str delim 0

/-- The loop of `SplitOneOf`, which cuts pieces off from the remaining string. -/
def splitOneOfFrom (remaining delims : AString) (maxSplits splits : Nat) : List AString :=
  if maxSplits = 0 ∨ splits < maxSplits then
    match h : findFirstOf remaining delims 0 with
    | some pos => remaining.take pos :: splitOneOfFrom (remaining.drop (pos + 1)) delims maxSplits (splits + 1)
    | none => if 0 < remaining.length then [remaining] else []
  else if 0 < remaining.length then [remaining] else []
termination_by remaining.length
decreasing_by
  have hbounds := findFirstOf_bounds h
  rw [List.length_drop]
  omega

def splitOneOf (str delims : AString) (maxSplits : Nat) : List AString := splitOneOfFrom str delims maxSplits 0

end Definitions

section Finding

variable {str delim : AString} {pos cutAt : Nat}

/-- The string from a position on is the piece up to the cut, a delimiter and what is behind the cut. -/
theorem findFirstOf_eq_some (h : findFirstOf str delim pos = some cutAt) : ∃ c, delim.contains c = true ∧
    str.drop pos = (str.drop pos).take (cutAt - pos) ++ c :: str.drop (cutAt + 1) ∧
      ∀ d ∈ (str.drop pos).take (cutAt - pos), delim.contains d = false := by
  obtain ⟨i, hi, rfl⟩ := Option.map_eq_some_iff.mp h
  obtain ⟨hlt, hdelim, hbefore⟩ := List.findIdx?_eq_some_iff_getElem.mp hi
  rw [Nat.add_sub_cancel_left]
  refine ⟨(str.drop pos)[i], hdelim, ?_, ?_⟩
  · rw [Nat.add_assoc, ← List.drop_drop, ← List.drop_eq_getElem_cons hlt, List.take_append_drop]
  · intro d hmem
    obtain ⟨j, hj, rfl⟩ := List.mem_take_iff_getElem.mp hmem
    exact Bool.eq_false_iff.mpr (hbefore j (by omega))

theorem findFirstOf_eq_none :
    findFirstOf str delim pos = none ↔ ∀ c ∈ str.drop pos, delim.contains c = false := by
  rw [findFirstOf, Option.map_eq_none_iff, List.findIdx?_eq_none_iff]

/-- A search from a position on is one in the rest of the string. -/
theorem findFirstOf_drop (str delim : AString) (pos : Nat) :
    findFirstOf str delim pos = (findFirstOf (str.drop pos) delim 0).map fun i => pos + i := by
  simp only [findFirstOf, List.drop_zero, Option.map_map, Function.comp_def, Nat.zero_add]

end Finding

section Splitting

variable {str delim : AString} {separator : UInt8} {pos splits : Nat}

theorem splitOneOfFrom_some (h : findFirstOf str delim 0 = some pos) : splitOneOfFrom str delim 0 splits =
    str.take pos :: splitOneOfFrom (str.drop (pos + 1)) delim 0 (splits + 1) := by
  rw [splitOneOfFrom, if_pos (.inl rfl)]
  split
  next found hfound => rw [Option.some.inj (h.symm.trans hfound)]
  next hnone => exact absurd (h.symm.trans hnone) nofun

theorem splitOneOfFrom_none (h : findFirstOf str delim 0 = none) :
    splitOneOfFrom str delim 0 splits = if 0 < str.length then [str] else [] := by
  rw [splitOneOfFrom, if_pos (.inl rfl)]
  split
  next found hfound => exact absurd (h.symm.trans hfound) nofun
  next => rfl

/-- The rest of the string at `Prev` is what the other splitter keeps as its remaining string. -/
theorem stringSplitFrom_eq (str delim : AString) (prev splits : Nat) :
    stringSplitFrom str delim prev = splitOneOfFrom (str.drop prev) delim 0 splits := by
  fun_induction stringSplitFrom str delim prev generalizing splits with
  | case1 prev cutAt hfind ih =>
    rw [findFirstOf_drop] at hfind
    obtain ⟨pos, hpos, rfl⟩ := Option.map_eq_some_iff.mp hfind
    rw [splitOneOfFrom_some hpos, ih (splits + 1), List.drop_drop, Nat.add_sub_cancel_left, Nat.add_assoc]
  | case2 prev hfind hlt =>
    rw [findFirstOf_drop, Option.map_eq_none_iff] at hfind
    rw [splitOneOfFrom_none hfind, if_pos (by rw [List.length_drop]; omega)]
  | case3 prev hfind hge =>
    rw [findFirstOf_drop, Option.map_eq_none_iff] at hfind
    rw [splitOneOfFrom_none hfind, if_neg (by rw [List.length_drop]; omega)]

/-- The loop leaves out a last piece that is empty. -/
theorem splitOneOfFrom_eq (str delim : AString) (splits : Nat) : splitOneOfFrom str delim 0 splits =
    let pieces := str.splitOnP fun c => delim.contains c
    if pieces.getLast? = some [] then pieces.dropLast else pieces := by
  induction hlen : str.length using Nat.strongRecOn generalizing str splits with
  | ind len ih =>
    rcases hfind : findFirstOf str delim 0 with _ | pos
    · have hplain := findFirstOf_eq_none.mp hfind
      rw [List.drop_zero] at hplain
      rw [splitOneOfFrom_none hfind, List.splitOnP_eq_singleton hplain]
      rcases str with _ | ⟨c, rest⟩
      · rfl
      · rw [if_pos (by simp)]
        rfl
    · obtain ⟨c, hc, hcut, hplain⟩ := findFirstOf_eq_some hfind
      have hbounds := findFirstOf_bounds hfind
      rw [List.drop_zero, Nat.sub_zero] at hcut hplain
      rw [splitOneOfFrom_some hfind, ih (str.drop (pos + 1)).length (by rw [List.length_drop]; omega) _ _ rfl]
      conv_rhs => rw [hcut, List.splitOnP_append_cons_of_forall_mem hplain c hc]
      obtain ⟨first, rest, hrest⟩ := List.exists_cons_of_ne_nil
        (List.splitOnP_ne_nil (fun c => delim.contains c) (str.drop (pos + 1)))
      simp only [hrest, List.getLast?_cons_cons]
      split
      next => rw [List.dropLast_cons_of_ne_nil (List.cons_ne_nil _ _)]
      next => rfl

/-- `StringSplitAndTrim` is `StringSplit` with trimmed pieces. -/
theorem stringSplitAndTrim_eq (str delim : AString) :
    stringSplitAndTrim str delim = (stringSplit str delim).map trimString := by
  rw [stringSplit, stringSplitFrom_eq str delim 0 0, splitOneOfFrom_eq, List.drop_zero]
  rfl

/-- The two splitters agree, and splitting finds the strings that were put together. -/
theorem stringSplit_eq :
    (∀ str delim, stringSplit str delim = splitOneOf str delim 0) ∧
      ∀ (list : List AString) (separator : UInt8), (∀ s ∈ list, separator ∉ s) → list.getLast? ≠ some [] →
        stringSplit (stringsConcat list separator) [separator] = list := by
  refine ⟨fun str delim => stringSplitFrom_eq str delim 0 0, fun list separator hplain hlast => ?_⟩
  rw [stringSplit, stringSplitFrom_eq _ _ _ 0, splitOneOfFrom_eq, List.drop_zero]
  rcases eq_or_ne list [] with rfl | hne
  · rfl
  · rw [splitOnP_stringsConcat (fun s hmem c hc => ?_) (by simp) hne]
    · exact if_neg hlast
    · have hother : c ≠ separator := fun hsame => hplain s hmem (hsame ▸ hc)
      simpa using hother

/-- `"a,,b"` is split into three strings. -/
theorem stringSplit_eq_empty :
    stringSplit (stringsConcat [[0x61], [], [0x62]] 0x2c) [0x2c] = [[0x61], [], [0x62]] :=
  stringSplit_eq.2 [[0x61], [], [0x62]] 0x2c (by decide) (by decide)

end Splitting

end P2PChat

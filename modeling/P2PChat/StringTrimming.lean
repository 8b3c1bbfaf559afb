import P2PChat.StringUtils

namespace P2PChat

section Definitions

/-- `str[i]`, which is the NUL character for the index behind the last one; `none` when there is no such character. -/
def charAt (str : AString) (i : Nat) : Option UInt8 :=
  if i < str.length then str[i]? else if i = str.length then some 0 else none

/-- The first loop of `TrimString`. -/
def trimStart (str : AString) (start : Nat) : Option Nat :=
  if start < str.length then
    (charAt str start).bind fun c => if visible c then some start else trimStart str (start + 1)
  else some start
termination_by str.length - start

/-- The second loop, which starts behind the last character. -/
def trimEnd (str : AString) (start : Nat) : Nat → Option Nat
  | 0 => if 0 < start then some 0
    -- `--end` wraps here, and no string has a character with the index it wraps to
    else (charAt str 0).bind fun c => if visible c then some 0 else none
  | last + 1 => if last + 1 < start then some (last + 1)
    else (charAt str (last + 1)).bind fun c => if visible c then some (last + 1) else trimEnd str start last

/-- `TrimString` with its reads; `none` when a character is read that does not exist. -/
def checkedTrimString (str : AString) : Option AString :=
  (trimStart str 0).bind fun start =>
    if start = str.length then some []
    else (trimEnd str start str.length).map fun last => (str.drop start).take (last + 1 - start)

/-- Blanks are the bytes up to 32. -/
def blank (c : UInt8) : Bool := c ≤ 0x20

/-- A string without the blanks at its two ends. -/
def trimBlanks (str : AString) : AString := (str.dropWhile blank).rdropWhile blank

end Definitions

section Lists

variable {α : Type} {p q : α → Bool} {l : List α}

theorem dropWhile_weaker_iff (hpq : ∀ c, p c = true → q c = true) :
    l.dropWhile q = l.dropWhile p ↔ ∀ c, l.find? (fun c => !p c) = some c → q c = false := by
  induction l with
  | nil => exact iff_of_true rfl nofun
  | cons c l ih =>
    by_cases hp : p c = true
    · rw [List.dropWhile_cons_of_pos (hpq c hp), List.dropWhile_cons_of_pos hp,
        List.find?_cons_of_neg (by simp [hp])]
      exact ih
    · rw [List.dropWhile_cons_of_neg hp, List.find?_cons_of_pos (by simp [hp])]
      constructor
      · intro hsame d hd
        rw [← Option.some.inj hd]
        by_contra hq
        rw [List.dropWhile_cons_of_pos (Bool.not_eq_false _ ▸ hq)] at hsame
        have hshort : (l.dropWhile q).length ≤ l.length := (List.dropWhile_suffix q).length_le
        rw [hsame, List.length_cons] at hshort
        omega
      · intro hq
        exact List.dropWhile_cons_of_neg (Bool.eq_false_iff.mp (hq c rfl))

theorem rdropWhile_weaker_iff (hpq : ∀ c, p c = true → q c = true) :
    l.rdropWhile q = l.rdropWhile p ↔ ∀ c, l.reverse.find? (fun c => !p c) = some c → q c = false := by
  rw [← dropWhile_weaker_iff hpq, List.rdropWhile, List.rdropWhile, List.reverse_inj]

theorem find?_reverse_dropWhile (p : α → Bool) (l : List α) :
    (l.dropWhile p).reverse.find? (fun c => !p c) = l.reverse.find? fun c => !p c := by
  have hnone : (l.takeWhile p).reverse.find? (fun c => !p c) = none := by
    rw [List.find?_eq_none]
    intro c hmem
    simp [List.mem_takeWhile_imp (List.mem_reverse.mp hmem)]
  conv_rhs => rw [← List.takeWhile_append_dropWhile (p := p) (l := l)]
  rw [List.reverse_append, List.find?_append, hnone, Option.or_none]

/-- The first element stays when it is not dropped from the end. -/
theorem head?_rdropWhile {c : α} (h : p c = false) : ((c :: l).rdropWhile p).head? = some c := by
  have hkept : (c :: l).rdropWhile p ≠ [] := by
    rw [Ne, List.rdropWhile_eq_nil_iff]
    intro hall
    exact absurd (hall c List.mem_cons_self) (Bool.eq_false_iff.mp h)
  obtain ⟨d, rest, hrest⟩ := List.exists_cons_of_ne_nil hkept
  have hstarts := List.rdropWhile_prefix p (c :: l)
  rw [hrest, List.cons_prefix_cons] at hstarts
  rw [hrest, hstarts.1]
  rfl

theorem trim_weaker_iff (hpq : ∀ c, p c = true → q c = true) :
    (l.dropWhile q).rdropWhile q = (l.dropWhile p).rdropWhile p ↔
      (∀ c, l.find? (fun c => !p c) = some c → q c = false) ∧
        ∀ c, l.reverse.find? (fun c => !p c) = some c → q c = false := by
  constructor
  · intro hsame
    have hfirst : ∀ c, l.find? (fun c => !p c) = some c → q c = false := by
      intro c hfind
      rcases hdrop : l.dropWhile p with _ | ⟨d, rest⟩
      · rw [List.dropWhile_eq_nil_iff] at hdrop
        have hnot := List.find?_some hfind
        rw [hdrop c (List.mem_of_find?_eq_some hfind)] at hnot
        exact absurd hnot nofun
      · have hd := List.head?_dropWhile_not p l
        rw [hdrop, List.head?_cons] at hd
        have hhead := head?_rdropWhile (l := rest) (p := p) (Bool.eq_false_iff.mpr (by simpa using hd))
        have hdc : d = c := by
          rw [List.find?_eq_head?_dropWhile_not] at hfind
          simp only [Bool.not_not, hdrop, List.head?_cons] at hfind
          exact Option.some.inj hfind
        rw [hdrop] at hsame
        rw [← hsame] at hhead
        obtain ⟨more, hmore⟩ := List.rdropWhile_prefix q (l.dropWhile q)
        have hvisible := List.head?_dropWhile_not q l
        rw [← hmore, List.head?_append, hhead, Option.some_or] at hvisible
        rw [← hdc]
        simpa using hvisible
    rw [(dropWhile_weaker_iff hpq).mpr hfirst, rdropWhile_weaker_iff hpq, find?_reverse_dropWhile] at hsame
    exact ⟨hfirst, hsame⟩
  · rintro ⟨hfirst, hlast⟩
    rw [(dropWhile_weaker_iff hpq).mpr hfirst, rdropWhile_weaker_iff hpq, find?_reverse_dropWhile]
    exact hlast

end Lists

section Loops

variable {str : AString} {c : UInt8} {start last : Nat}

theorem charAt_get (h : start < str.length) : charAt str start = some str[start] := by
  rw [charAt, if_pos h, List.getElem?_eq_getElem h]

theorem charAt_length (str : AString) : charAt str str.length = some 0 := by
  rw [charAt, if_neg (Nat.lt_irrefl _), if_pos rfl]

/-- The first loop stops at the first visible character. -/
theorem trimStart_eq (h : start ≤ str.length) : ∃ found, trimStart str start = some found ∧ found ≤ str.length ∧
    str.drop found = (str.drop start).dropWhile fun c => !visible c := by
  fun_induction trimStart str start with
  | case1 start hlt ih =>
    rw [charAt_get hlt, Option.bind_some, List.drop_eq_getElem_cons hlt]
    by_cases hc : visible str[start] = true
    · rw [if_pos hc, List.dropWhile_cons_of_neg (by simp [hc]), ← List.drop_eq_getElem_cons hlt]
      exact ⟨start, rfl, h, rfl⟩
    · rw [if_neg hc, List.dropWhile_cons_of_pos (by simp [hc])]
      exact ih hlt
  | case2 start hge =>
    have hend : start = str.length := by omega
    exact ⟨start, rfl, h, by rw [hend, List.drop_length, List.dropWhile_nil]⟩

theorem take_succ_sub (hstart : start ≤ last) (h : last < str.length) :
    (str.drop start).take (last + 1 - start) = (str.drop start).take (last - start) ++ [str[last]] := by
  have hget : (str.drop start)[last - start]? = some str[last] := by
    rw [List.getElem?_drop, Nat.add_sub_cancel' hstart, List.getElem?_eq_getElem h]
  rw [Nat.succ_sub hstart, List.take_add_one, hget]
  rfl

/-- The second loop stops at the last visible character: what stands before its index is not read, and what stands
behind it is dropped. -/
theorem trimEnd_eq (hstart : start < str.length) (hfirst : visible str[start] = true) (hlast : last ≤ str.length)
    (hle : start ≤ last) : ∃ found, trimEnd str start last = some found ∧
      (str.drop start).take (found + 1 - start) =
        ((str.drop start).take (last + 1 - start)).rdropWhile fun c => !visible c := by
  induction last with
  | zero =>
    have hzero : start = 0 := Nat.le_zero.mp hle
    subst hzero
    refine ⟨0, ?_, ?_⟩
    · rw [trimEnd, if_neg (Nat.lt_irrefl _), charAt_get hstart, Option.bind_some, if_pos hfirst]
    · rw [take_succ_sub hle hstart, List.rdropWhile_concat_neg _ _ _ (by simp [hfirst])]
  | succ last ih =>
    rw [trimEnd, if_neg (by omega)]
    rcases Nat.lt_or_eq_of_le hlast with hlt | hend
    · rw [charAt_get hlt, Option.bind_some, take_succ_sub hle hlt]
      by_cases hc : visible str[last + 1] = true
      · rw [if_pos hc, List.rdropWhile_concat_neg _ _ _ (by simp [hc])]
        exact ⟨last + 1, rfl, take_succ_sub hle hlt⟩
      · rw [if_neg hc, List.rdropWhile_concat_pos _ _ _ (by simp [hc])]
        -- the first visible character is not the one that was just passed
        have hbefore : start ≤ last := by
          by_contra hnot
          have hsame : start = last + 1 := by omega
          subst hsame
          exact hc hfirst
        exact ih (by omega) hbefore
    · obtain ⟨found, hfound, htake⟩ := ih (by omega) (by omega)
      rw [hend, charAt_length, Option.bind_some, if_neg (by decide)]
      refine ⟨found, hfound, ?_⟩
      rw [htake, List.take_of_length_le (by simp; omega), List.take_of_length_le (by simp; omega)]

/-- Every index is in the string, and the loops find what is between the first and the last visible character. -/
theorem checkedTrimString_eq (str : AString) : checkedTrimString str = some (trimString str) := by
  obtain ⟨start, hstart, hle, hdrop⟩ := trimStart_eq (Nat.zero_le str.length)
  rw [List.drop_zero] at hdrop
  rw [checkedTrimString, hstart, Option.bind_some, trimString, ← hdrop]
  split
  next hend => rw [hend, List.drop_length, List.rdropWhile_nil]
  next hnot =>
    have hlt : start < str.length := by omega
    have hfirst : visible str[start] = true := by
      have hhead := List.head?_dropWhile_not (fun c => !visible c) str
      rw [← hdrop, List.drop_eq_getElem_cons hlt, List.head?_cons] at hhead
      simpa using hhead
    obtain ⟨last, hlast, htake⟩ := trimEnd_eq hlt hfirst (Nat.le_refl _) hle
    rw [hlast, Option.map_some, htake, List.take_of_length_le (by simp; omega)]

end Loops

section Trimming

theorem not_visible_of_blank (c : UInt8) (h : blank c = true) : (!visible c) = true := by
  rw [blank, decide_eq_true_eq] at h
  simp only [visible, Bool.not_and, Bool.or_eq_true, Bool.not_eq_true', decide_eq_false_iff_not]
  exact .inl (UInt8.not_lt.mpr h)

theorem visible_iff_of_not_blank {c : UInt8} (h : (!blank c) = true) : (!visible c) = false ↔ c < 0x80 := by
  have habove : 0x20 < c := by simpa [blank] using h
  simp [visible, habove]

/-- No index is outside of a string; what is left of it is the string without its blanks if and only if the first and
the last byte above 32 are below 128. -/
theorem checkedTrimString_iff (str : AString) :
    (∃ res, checkedTrimString str = some res) ∧
      (checkedTrimString str = some (trimBlanks str) ↔
        (∀ c, str.find? (fun c => !blank c) = some c → c < 0x80) ∧
          ∀ c, str.reverse.find? (fun c => !blank c) = some c → c < 0x80) := by
  refine ⟨⟨_, checkedTrimString_eq str⟩, ?_⟩
  rw [checkedTrimString_eq, Option.some_inj, trimString, trimBlanks, trim_weaker_iff not_visible_of_blank]
  have hbyte : ∀ l : AString, (∀ c, l.find? (fun c => !blank c) = some c → (!visible c) = false) ↔
      ∀ c, l.find? (fun c => !blank c) = some c → c < 0x80 := fun l =>
    forall₂_congr fun _ hfind => visible_iff_of_not_blank (List.find?_some (p := fun c => !blank c) hfind)
  rw [hbyte, hbyte]

/-- The name `"é"` in UTF-8 is trimmed to nothing. -/
theorem checkedTrimString_accent : checkedTrimString [0xc3, 0xa9] ≠ some (trimBlanks [0xc3, 0xa9]) := by
  rw [checkedTrimString_eq]
  decide

end Trimming

end P2PChat

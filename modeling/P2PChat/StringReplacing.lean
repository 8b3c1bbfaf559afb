import P2PChat.Ring
import Mathlib.Logic.Function.Iterate
import Mathlib.Data.List.Infix

namespace P2PChat

section Definitions

/-- Where a string starts first in another one. -/
def indexOf (needle : AString) : AString → Option Nat
  | [] => if needle.isEmpty then some 0 else none
  | c :: rest => if needle.isPrefixOf (c :: rest) then some 0 else (indexOf needle rest).map Nat.succ

/-- `str.find(needle, pos)`; `none` for `npos`. -/
def stringFind (str needle : AString) (pos : Nat) : Option Nat :=
  if pos ≤ str.length then (indexOf needle (str.drop pos)).map fun i => pos + i else none

structure Replacing where
  iHayStack : AString
  pos1 : Option Nat

/-- One turn of the loop of `ReplaceString`, which is over when `pos1` is `npos`. -/
def Replacing.turn (needle replaceWith : AString) (r : Replacing) : Replacing :=
  match r.pos1 with
  | some pos1 =>
    let hayStack := r.iHayStack.take pos1 ++ replaceWith ++ r.iHayStack.drop (pos1 + needle.length)
    ⟨hayStack, stringFind hayStack needle pos1⟩
  | none => r

def Replacing.start (needle hayStack : AString) : Replacing := ⟨hayStack, stringFind hayStack needle 0⟩

/-- `ReplaceString` returns with this text in the haystack. -/
def ReplaceStringReturns (hayStack needle replaceWith res : AString) : Prop :=
  ∃ turns, (Replacing.turn needle replaceWith)^[turns] (.start needle hayStack) = ⟨res, none⟩

/-- The next turn replaces text that begins within what this turn puts in. -/
def Replacing.FindsOwn (needle replaceWith : AString) (r : Replacing) : Prop :=
  ∃ pos1 next, r.pos1 = some pos1 ∧ (r.turn needle replaceWith).pos1 = some next ∧ next < pos1 + replaceWith.length

/-- What is behind each occurrence of a string, from left to right and without overlap. -/
def remainders (needle : AString) : AString → List AString
  | [] => []
  | c :: rest =>
    if needle.isPrefixOf (c :: rest) then
      rest.drop (needle.length - 1) :: remainders needle (rest.drop (needle.length - 1))
    else remainders needle rest
termination_by str => str.length
decreasing_by all_goals simp only [List.length_drop, List.length_cons]; omega

/-- A string with each of these occurrences replaced. -/
def replaceOccurrences (needle replaceWith : AString) : AString → AString
  | [] => []
  | c :: rest =>
    if needle.isPrefixOf (c :: rest) then
      replaceWith ++ replaceOccurrences needle replaceWith (rest.drop (needle.length - 1))
    else c :: replaceOccurrences needle replaceWith rest
termination_by str => str.length
decreasing_by all_goals simp only [List.length_drop, List.length_cons]; omega

/-- The needle begins within the replacement when this text follows it. -/
def Reaches (needle replaceWith rest : AString) : Prop :=
  ∃ i < replaceWith.length, needle <+: (replaceWith ++ rest).drop i

end Definitions

section Finding

variable {needle str pre rest : AString} {i : Nat}

theorem indexOf_eq_none (hneedle : needle ≠ []) : indexOf needle str = none ↔ ¬needle <:+: str := by
  induction str with
  | nil => simp [indexOf, hneedle, List.infix_nil]
  | cons c rest ih =>
    rw [indexOf, List.infix_cons_iff, not_or, ← List.isPrefixOf_iff_prefix]
    split
    next h => simp [h]
    next h => rw [Option.map_eq_none_iff, ih, iff_and_self]; exact fun _ => h

/-- The first occurrence: what is before it, and that none begins earlier. -/
theorem indexOf_eq_some (hneedle : needle ≠ []) (h : indexOf needle str = some i) :
    ∃ rest, str = str.take i ++ needle ++ rest ∧ i ≤ str.length ∧ ∀ j < i, ¬needle <+: str.drop j := by
  induction str generalizing i with
  | nil => simp [indexOf, hneedle] at h
  | cons c str ih =>
    rw [indexOf] at h
    split at h
    next hstarts =>
      obtain ⟨rest, hrest⟩ := List.isPrefixOf_iff_prefix.mp hstarts
      rw [← Option.some.inj h]
      exact ⟨rest, by rw [List.take_zero, List.nil_append, hrest], Nat.zero_le _, nofun⟩
    next hstarts =>
      obtain ⟨i, hi, rfl⟩ := Option.map_eq_some_iff.mp h
      obtain ⟨rest, hrest, hle, hbefore⟩ := ih hi
      refine ⟨rest, ?_, Nat.succ_le_succ hle, ?_⟩
      · rw [List.take_succ_cons, List.cons_append, List.cons_append, ← hrest]
      · intro j hj
        rcases j with _ | j
        · exact fun hc => hstarts (List.isPrefixOf_iff_prefix.mpr hc)
        · exact hbefore j (Nat.lt_of_succ_lt_succ hj)

/-- A search from behind a text does not look into it. -/
theorem stringFind_append (pre str needle : AString) :
    stringFind (pre ++ str) needle pre.length = (indexOf needle str).map fun i => pre.length + i := by
  rw [stringFind, if_pos (by rw [List.length_append]; omega), List.drop_left]

theorem indexOf_append (h : ∀ j < pre.length, ¬needle <+: (pre ++ str).drop j) :
    indexOf needle (pre ++ str) = (indexOf needle str).map fun i => pre.length + i := by
  induction pre with
  | nil => simp
  | cons c pre ih =>
    have hfirst : ¬needle.isPrefixOf (c :: (pre ++ str)) = true := fun hstarts =>
      h 0 (Nat.succ_pos _) (List.isPrefixOf_iff_prefix.mp hstarts)
    rw [List.cons_append, indexOf, if_neg hfirst, ih fun j hj => h (j + 1) (Nat.succ_lt_succ hj), Option.map_map]
    refine congrArg (fun f => (indexOf needle str).map f) (funext fun i => ?_)
    simp only [Function.comp_apply, List.length_cons]
    omega

/-- Without an occurrence nothing is replaced. -/
theorem occurrences_none (replaceWith : AString) (h : indexOf needle str = none) :
    remainders needle str = [] ∧ replaceOccurrences needle replaceWith str = str := by
  induction str with
  | nil => exact ⟨by rw [remainders], by rw [replaceOccurrences]⟩
  | cons c rest ih =>
    rw [indexOf] at h
    split at h
    next => exact absurd h nofun
    next hstarts =>
      obtain ⟨hremainders, hreplace⟩ := ih (Option.map_eq_none_iff.mp h)
      rw [remainders, if_neg hstarts, replaceOccurrences, if_neg hstarts]
      exact ⟨hremainders, by rw [hreplace]⟩

/-- The occurrences of a string are the first one and those of what is behind it. -/
theorem occurrences_some (replaceWith : AString) (hneedle : needle ≠ []) (h : indexOf needle str = some i)
    (hrest : str = str.take i ++ needle ++ rest) : remainders needle str = rest :: remainders needle rest ∧
      replaceOccurrences needle replaceWith str =
        str.take i ++ replaceWith ++ replaceOccurrences needle replaceWith rest := by
  induction str generalizing i with
  | nil => simp [indexOf, hneedle] at h
  | cons c str ih =>
    rw [indexOf] at h
    split at h
    next hstarts =>
      rw [← Option.some.inj h, List.take_zero, List.nil_append] at hrest ⊢
      obtain ⟨d, more, rfl⟩ := List.exists_cons_of_ne_nil hneedle
      have hbehind : str.drop ((d :: more).length - 1) = rest := by
        rw [List.cons_append, List.cons.injEq] at hrest
        rw [hrest.2, List.length_cons, Nat.add_sub_cancel, List.drop_left]
      rw [remainders, if_pos hstarts, replaceOccurrences, if_pos hstarts, hbehind]
      exact ⟨rfl, rfl⟩
    next hstarts =>
      obtain ⟨i, hi, rfl⟩ := Option.map_eq_some_iff.mp h
      rw [Nat.succ_eq_add_one, List.take_succ_cons, List.cons_append, List.cons_append, List.cons.injEq] at hrest
      obtain ⟨hremainders, hreplace⟩ := ih hi hrest.2
      rw [remainders, if_neg hstarts, replaceOccurrences, if_neg hstarts, hremainders, hreplace]
      exact ⟨rfl, rfl⟩

end Finding

section Turns

variable {needle replaceWith str rest : AString} {i : Nat}

/-- The loop has passed the first text, and searches in the second. -/
def Replacing.searching (needle pre str : AString) : Replacing :=
  ⟨pre ++ str, stringFind (pre ++ str) needle pre.length⟩

theorem Replacing.searching_none (pre : AString) (h : indexOf needle str = none) :
    Replacing.searching needle pre str = ⟨pre ++ str, none⟩ := by
  rw [Replacing.searching, stringFind_append, h]
  rfl

theorem Replacing.searching_some (pre : AString) (h : indexOf needle str = some i) :
    Replacing.searching needle pre str = ⟨pre ++ str, some (pre.length + i)⟩ := by
  rw [Replacing.searching, stringFind_append, h]
  rfl

/-- A turn passes what is before the occurrence, and searches in the replacement and what is behind the occurrence. -/
theorem Replacing.searching_turn (pre : AString) (hle : i ≤ str.length) (h : indexOf needle str = some i)
    (hrest : str = str.take i ++ needle ++ rest) : (Replacing.searching needle pre str).turn needle replaceWith =
      Replacing.searching needle (pre ++ str.take i) (replaceWith ++ rest) := by
  have hlen : (pre ++ str.take i).length = pre.length + i := by
    rw [List.length_append, List.length_take, Nat.min_eq_left hle]
  have hpassed : (pre ++ str).take (pre.length + i) = pre ++ str.take i := by
    rw [List.take_append, List.take_of_length_le (by omega), Nat.add_sub_cancel_left]
  have hbehind : (pre ++ str).drop (pre.length + i + needle.length) = rest := by
    conv_lhs => rw [hrest]
    rw [← List.append_assoc, ← List.append_assoc, ← hlen, ← List.length_append, List.drop_left]
  rw [Replacing.searching_some pre h, Replacing.turn]
  simp only [hpassed, hbehind]
  rw [Replacing.searching, hlen, List.append_assoc]

/-- When the needle does not reach from the replacement into what follows, the search passes the replacement. -/
theorem Replacing.searching_replacement (pre : AString) (h : ¬Reaches needle replaceWith rest) :
    Replacing.searching needle pre (replaceWith ++ rest) = Replacing.searching needle (pre ++ replaceWith) rest := by
  have hbeyond : ∀ j < replaceWith.length, ¬needle <+: (replaceWith ++ rest).drop j := fun j hj hstarts =>
    h ⟨j, hj, hstarts⟩
  rw [Replacing.searching, Replacing.searching, stringFind_append, stringFind_append, indexOf_append hbeyond,
    Option.map_map, List.append_assoc, List.length_append]
  simp only [Function.comp_def, Nat.add_assoc]

theorem Replacing.findsOwn_iff (pre : AString) (hneedle : needle ≠ []) (hle : i ≤ str.length)
    (h : indexOf needle str = some i) (hrest : str = str.take i ++ needle ++ rest) :
    (Replacing.searching needle pre str).FindsOwn needle replaceWith ↔ Reaches needle replaceWith rest := by
  have hlen : (pre ++ str.take i).length = pre.length + i := by
    rw [List.length_append, List.length_take, Nat.min_eq_left hle]
  rw [Replacing.FindsOwn, Replacing.searching_turn pre hle h hrest, Replacing.searching_some pre h, Replacing.searching,
    stringFind_append, hlen]
  constructor
  · rintro ⟨pos1, next, hpos, hnext, hlt⟩
    obtain ⟨j, hj, rfl⟩ := Option.map_eq_some_iff.mp hnext
    rw [← Option.some.inj hpos] at hlt
    obtain ⟨more, hmore, hjle, -⟩ := indexOf_eq_some hneedle hj
    refine ⟨j, by omega, more, ?_⟩
    conv_rhs => rw [hmore]
    rw [List.append_assoc, List.drop_append_of_le_length (by rw [List.length_take, Nat.min_eq_left hjle]),
      List.drop_eq_nil_of_le (by rw [List.length_take]; omega), List.nil_append]
  · rintro ⟨j, hj, hstarts⟩
    rcases hfind : indexOf needle (replaceWith ++ rest) with _ | k
    · exact absurd (hstarts.isInfix.trans (List.drop_suffix _ _).isInfix) ((indexOf_eq_none hneedle).mp hfind)
    · obtain ⟨-, -, -, hbefore⟩ := indexOf_eq_some hneedle hfind
      have hle : k ≤ j := by
        by_contra hlt
        exact hbefore j (by omega) hstarts
      exact ⟨pre.length + i, pre.length + i + k, rfl, rfl, by omega⟩

end Turns

section Runs

variable {needle replaceWith : AString}

theorem exists_iterate {α : Type} (f : α → α) (P : α → Prop) (x : α) :
    (∃ n, P (f^[n] x)) ↔ P x ∨ ∃ n, P (f^[n] (f x)) := by
  constructor
  · rintro ⟨_ | n, h⟩
    · exact .inl h
    · exact .inr ⟨n, h⟩
  · rintro (h | ⟨n, h⟩)
    · exact ⟨0, h⟩
    · exact ⟨n + 1, h⟩

theorem Replacing.iterate_none (needle replaceWith res : AString) (n : Nat) :
    (Replacing.turn needle replaceWith)^[n] ⟨res, none⟩ = ⟨res, none⟩ :=
  Function.iterate_fixed rfl n

/-- The loop finds the needle in its own text if and only if one of the occurrences is followed by a text that the
needle reaches into; else it replaces the occurrences. -/
theorem Replacing.run (hneedle : needle ≠ []) (replaceWith pre str : AString) :
    ((∃ n, ((turn needle replaceWith)^[n] (Replacing.searching needle pre str)).FindsOwn needle replaceWith) ↔
        ∃ rest ∈ remainders needle str, Reaches needle replaceWith rest) ∧
      ((∀ rest ∈ remainders needle str, ¬Reaches needle replaceWith rest) →
        ∃ n, (turn needle replaceWith)^[n] (Replacing.searching needle pre str) =
          ⟨pre ++ replaceOccurrences needle replaceWith str, none⟩) := by
  induction hlen : str.length using Nat.strongRecOn generalizing pre str with
  | ind len ih =>
    rcases hfind : indexOf needle str with _ | i
    · obtain ⟨hremainders, hreplace⟩ := occurrences_none replaceWith hfind
      rw [hremainders, hreplace, Replacing.searching_none pre hfind]
      refine ⟨iff_of_false ?_ nofun, fun _ => ⟨0, rfl⟩⟩
      rintro ⟨n, pos1, next, hpos, -⟩
      rw [iterate_none] at hpos
      exact absurd hpos nofun
    · obtain ⟨rest, hrest, hle, -⟩ := indexOf_eq_some hneedle hfind
      obtain ⟨hremainders, hreplace⟩ := occurrences_some replaceWith hneedle hfind hrest
      have hshort : rest.length < len := by
        have hcut := congrArg List.length hrest
        have hpos := List.length_pos_iff.mpr hneedle
        simp only [List.length_append] at hcut
        omega
      rw [hremainders, hreplace, List.exists_mem_cons_iff, List.forall_mem_cons,
        exists_iterate (turn needle replaceWith) (FindsOwn needle replaceWith),
        findsOwn_iff pre hneedle hle hfind hrest]
      by_cases hreaches : Reaches needle replaceWith rest
      · exact ⟨iff_of_true (.inl hreaches) (.inl hreaches), fun hnone => absurd hreaches hnone.1⟩
      · obtain ⟨hfinds, hreplaced⟩ := ih rest.length hshort (pre ++ str.take i ++ replaceWith) rest rfl
        have hturn := (searching_turn pre hle hfind hrest).trans (searching_replacement _ hreaches)
        rw [hturn, hfinds]
        refine ⟨Iff.rfl, fun hnone => ?_⟩
        obtain ⟨n, hn⟩ := hreplaced hnone.2
        refine ⟨n + 1, ?_⟩
        rw [Function.iterate_succ_apply, hturn, hn]
        simp only [List.append_assoc]

/-- Each turn takes a character of the haystack behind the replacement, when the needle is not in the replacement. -/
theorem Replacing.returns (hneedle : needle ≠ []) (hreplace : ¬needle <:+: replaceWith) (pre rest : AString) :
    ∃ n res, (turn needle replaceWith)^[n] (Replacing.searching needle pre (replaceWith ++ rest)) = ⟨res, none⟩ := by
  induction hlen : rest.length using Nat.strongRecOn generalizing pre rest with
  | ind len ih =>
    rcases hfind : indexOf needle (replaceWith ++ rest) with _ | i
    · exact ⟨0, _, searching_none pre hfind⟩
    · obtain ⟨more, hmore, hle, -⟩ := indexOf_eq_some hneedle hfind
      have hbeyond : replaceWith.length < i + needle.length := by
        by_contra hwithin
        have hstarts : (replaceWith ++ rest).take i ++ needle <+: replaceWith :=
          List.prefix_of_prefix_length_le ⟨more, hmore.symm⟩ (List.prefix_append _ _)
            (by rw [List.length_append, List.length_take]; omega)
        exact hreplace ((List.suffix_append _ _).isInfix.trans hstarts.isInfix)
      have hshort : more.length < len := by
        have hcut := congrArg List.length hmore
        simp only [List.length_append, List.length_take] at hcut hle
        omega
      obtain ⟨n, res, hn⟩ := ih more.length hshort (pre ++ (replaceWith ++ rest).take i) more rfl
      refine ⟨n + 1, res, ?_⟩
      rw [Function.iterate_succ_apply, searching_turn pre hle hfind hmore, hn]

/-- A needle in the replacement is found there again and again. -/
theorem Replacing.never_returns (hneedle : needle ≠ []) (hreplace : needle <:+: replaceWith) (n : Nat)
    (pre : AString) {str res : AString} (hstr : needle <:+: str) :
    (turn needle replaceWith)^[n] (searching needle pre str) ≠ ⟨res, none⟩ := by
  have hfound : ∃ i, indexOf needle str = some i := by
    by_contra hnone
    exact (indexOf_eq_none hneedle).mp (Option.eq_none_iff_forall_ne_some.mpr (not_exists.mp hnone)) hstr
  obtain ⟨i, hi⟩ := hfound
  induction n generalizing pre str i with
  | zero =>
    rw [Function.iterate_zero_apply, searching_some pre hi]
    exact fun hnone => absurd (congrArg pos1 hnone) nofun
  | succ n ih =>
    obtain ⟨rest, hrest, hle, -⟩ := indexOf_eq_some hneedle hi
    have hagain : needle <:+: replaceWith ++ rest := hreplace.trans (List.prefix_append _ _).isInfix
    rcases hnext : indexOf needle (replaceWith ++ rest) with _ | j
    · exact absurd hagain ((indexOf_eq_none hneedle).mp hnext)
    · rw [Function.iterate_succ_apply, searching_turn pre hle hi hrest]
      exact ih _ hagain j hnext

/-- `ReplaceString` returns if and only if the needle is not in the haystack, or not in the replacement; it finds the
needle in its own text if and only if behind an occurrence stands a text that the needle reaches into from the
replacement; and where there is no such occurrence it returns the haystack with its occurrences replaced. -/
theorem replaceString_iff (hayStack needle replaceWith : AString) (hneedle : needle ≠ []) :
    ((∃ res, ReplaceStringReturns hayStack needle replaceWith res) ↔
        ¬needle <:+: hayStack ∨ ¬needle <:+: replaceWith) ∧
      ((∃ n, ((Replacing.turn needle replaceWith)^[n] (.start needle hayStack)).FindsOwn needle replaceWith) ↔
        ∃ rest ∈ remainders needle hayStack, Reaches needle replaceWith rest) ∧
      ((∀ rest ∈ remainders needle hayStack, ¬Reaches needle replaceWith rest) →
        ReplaceStringReturns hayStack needle replaceWith (replaceOccurrences needle replaceWith hayStack)) := by
  have hstart : Replacing.start needle hayStack = Replacing.searching needle [] hayStack := rfl
  refine ⟨?_, Replacing.run hneedle replaceWith [] hayStack⟩
  constructor
  · rintro ⟨res, n, hn⟩
    by_contra hboth
    rw [not_or, not_not, not_not] at hboth
    exact Replacing.never_returns hneedle hboth.2 n [] hboth.1 (hstart ▸ hn)
  · rintro (hnot | hreplace)
    · exact ⟨hayStack, 0, Replacing.searching_none [] ((indexOf_eq_none hneedle).mpr hnot)⟩
    · rcases hfind : indexOf needle hayStack with _ | i
      · exact ⟨hayStack, 0, Replacing.searching_none [] hfind⟩
      · obtain ⟨rest, hrest, hle, -⟩ := indexOf_eq_some hneedle hfind
        obtain ⟨n, res, hn⟩ := Replacing.returns hneedle hreplace ([] ++ hayStack.take i) rest
        refine ⟨res, n + 1, ?_⟩
        rw [Function.iterate_succ_apply, hstart, Replacing.searching_turn [] hle hfind hrest, hn]

theorem replaceString_iff_abab :
    ReplaceStringReturns [0x61, 0x62, 0x61, 0x62] [0x61, 0x62] [0x63] [0x63, 0x63] := by
  have hreturns := (replaceString_iff [0x61, 0x62, 0x61, 0x62] [0x61, 0x62] [0x63] (List.cons_ne_nil _ _)).2.2
  have hreplaced : replaceOccurrences [0x61, 0x62] [0x63] [0x61, 0x62, 0x61, 0x62] = [0x63, 0x63] := by
    simp [replaceOccurrences]
  rw [hreplaced] at hreturns
  refine hreturns fun rest hmem => ?_
  have hrests : rest = [0x61, 0x62] ∨ rest = [] := by simpa [remainders] using hmem
  rintro ⟨i, hi, hstarts⟩
  rw [List.length_singleton, Nat.lt_one_iff] at hi
  rcases hrests with rfl | rfl
  · simp [hi] at hstarts
  · simp [hi] at hstarts

/-- `ReplaceString` of `"a"` by `"aa"` never returns; and of `"ab"` by `"a"` in `"abb"` it gives `"a"`, not `"ab"`. -/
theorem replaceString_again :
    (¬∃ res, ReplaceStringReturns [0x61] [0x61] [0x61, 0x61] res) ∧
      ReplaceStringReturns [0x61, 0x62, 0x62] [0x61, 0x62] [0x61] [0x61] ∧
      replaceOccurrences [0x61, 0x62] [0x61] [0x61, 0x62, 0x62] ≠ [0x61] := by
  refine ⟨?_, ⟨2, rfl⟩, by simp [replaceOccurrences]⟩
  rintro ⟨res, n, hn⟩
  exact Replacing.never_returns (List.cons_ne_nil _ _) ⟨[], [0x61], rfl⟩ n [] (List.infix_refl _) hn

end Runs

end P2PChat

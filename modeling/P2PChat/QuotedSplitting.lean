import P2PChat.StringSplitting
import Mathlib.Data.FinEnum

namespace P2PChat

section Definitions

def quote (c : UInt8) : Bool := c = 0x22 || c = 0x27

/-- The end of the quoted text that a piece starts with, when the piece starts with a quote and it is closed. -/
def closingQuote (str current : AString) (prev : Nat) : Option Nat :=
  match current.head? with
  | some c => if quote c then findFirstOf str [c] (prev + 1) else none
  | none => none

theorem closingQuote_bounds {str current : AString} {prev cutAtQuote : Nat}
    (h : closingQuote str current prev = some cutAtQuote) : prev + 1 ≤ cutAtQuote ∧ cutAtQuote < str.length := by
  rw [closingQuote] at h
  split at h
  next =>
    split at h
    next => exact findFirstOf_bounds h
    next => exact absurd h nofun
  next => exact absurd h nofun

/-- The piece that is taken at `Prev`, and the next `Prev`. -/
def cutPiece (str : AString) (prev cutAt : Nat) : AString × Nat :=
  let current := (str.drop prev).take (cutAt - prev)
  match closingQuote str current prev with
  | some cutAtQuote =>
    let cutAt := cutAtQuote + 1
    ((str.drop (prev + 1)).take (cutAtQuote - (prev + 1)), cutAt + 1)
  | none => (current, cutAt + 1)

theorem lt_cutPiece (str : AString) {prev cutAt : Nat} (hcut : prev ≤ cutAt) : prev < (cutPiece str prev cutAt).2 := by
  rw [cutPiece]
  split
  next cutAtQuote hquote =>
    have hbounds := closingQuote_bounds hquote
    show prev < cutAtQuote + 1 + 1
    omega
  next =>
    show prev < cutAt + 1
    omega

/-- The remnant without the quotes that it is wrapped in. -/
def unwrapped (current : AString) : AString :=
  if 2 ≤ current.length ∧ (∃ c ∈ current.head?, quote c = true) ∧ current.head? = current.getLast? then
    (current.drop 1).take (current.length - 2)
  else current

/-- The loop of `StringSplitWithQuotes`, with the pieces from `Prev` on. -/
def splitWithQuotesFrom (str delim : AString) (prev : Nat) : List AString :=
  match h : findFirstOf str delim prev with
  | some cutAt =>
    -- a piece that is empty is skipped
    if cutAt = prev then splitWithQuotesFrom str delim (prev + 1)
    else
      let cut := cutPiece str prev cutAt
      cut.1 :: splitWithQuotesFrom str delim cut.2
  | none => if prev < str.length then [unwrapped (str.drop prev)] else []
termination_by str.length - prev
decreasing_by
  · have hbounds := findFirstOf_bounds h
    omega
  · have hbounds := findFirstOf_bounds h
    have hlt := lt_cutPiece str hbounds.1
    omega

def stringSplitWithQuotes (str delim : AString) : List AString := splitWithQuotesFrom str delim 0

theorem length_tail_dropWhile_le (p : UInt8 → Bool) (str : AString) : (str.dropWhile p).tail.length ≤ str.length :=
  (List.tail_sublist _).length_le.trans (List.dropWhile_suffix p).length_le

/-- A character that is to be kept. -/
def ordinary (delim : AString) (c : UInt8) : Bool := !delim.contains c && !quote c

/-- The characters right behind the closing quotes of a string. A piece ends at its first delimiter, or one character
behind its closing quote when it starts with a quote; where no delimiter is ahead there are no more pieces. -/
def behindQuotes (delim : AString) : AString → AString
  | [] => []
  | c :: rest =>
    if ∀ d ∈ c :: rest, delim.contains d = false then []
    else if delim.contains c then behindQuotes delim rest
    else if quote c ∧ c ∈ rest then
      let behind := (rest.dropWhile (· != c)).tail
      behind.take 1 ++ behindQuotes delim behind.tail
    else behindQuotes delim (rest.dropWhile fun d => !delim.contains d).tail
termination_by str => str.length
decreasing_by
  · exact Nat.lt_succ_self _
  · exact Nat.lt_succ_of_le ((List.tail_sublist _).length_le.trans (length_tail_dropWhile_le _ rest))
  · exact Nat.lt_succ_of_le (length_tail_dropWhile_le _ rest)

/-- The ordinary characters of a text are among those of a string, and all of them if and only if none is skipped. -/
structure KeepsBut (delim text str skipped : AString) : Prop where
  sublist : (text.filter (ordinary delim)).Sublist (str.filter (ordinary delim))
  kept_iff : text.filter (ordinary delim) = str.filter (ordinary delim) ↔ ∀ c ∈ skipped, ordinary delim c = false

end Definitions

section Keeping

variable {delim text str skipped : AString} {c : UInt8}

theorem KeepsBut.append (h : KeepsBut delim text str skipped) (piece cut : AString)
    (hsame : piece.filter (ordinary delim) = cut.filter (ordinary delim)) :
    KeepsBut delim (piece ++ text) (cut ++ str) skipped := by
  constructor
  · rw [List.filter_append, List.filter_append, hsame]
    exact (List.append_sublist_append_left _).mpr h.sublist
  · rw [List.filter_append, List.filter_append, hsame, List.append_cancel_left_eq]
    exact h.kept_iff

theorem KeepsBut.skip (h : KeepsBut delim text str skipped) (passed : AString) :
    KeepsBut delim text (passed ++ str) (passed ++ skipped) := by
  constructor
  · rw [List.filter_append]
    exact h.sublist.trans (List.sublist_append_right _ _)
  · rw [List.filter_append, List.forall_mem_append, ← h.kept_iff]
    constructor
    · intro hsame
      -- the text has no more characters than the string without the passed ones
      have hlength := congrArg List.length hsame
      have hle := h.sublist.length_le
      rw [List.length_append] at hlength
      have hnone : passed.filter (ordinary delim) = [] := List.length_eq_zero_iff.mp (by omega)
      refine ⟨fun c hmem => ?_, by rw [hsame, hnone, List.nil_append]⟩
      exact Bool.eq_false_iff.mpr (List.filter_eq_nil_iff.mp hnone c hmem)
    · rintro ⟨hnone, hsame⟩
      rw [hsame, List.filter_eq_nil_iff.mpr fun c hmem => Bool.eq_false_iff.mp (hnone c hmem), List.nil_append]

theorem filter_singleton (delim : AString) {c : UInt8} (h : ordinary delim c = false) :
    [c].filter (ordinary delim) = [] := by
  rw [List.filter_cons, h]
  rfl

theorem ordinary_delimiter (h : delim.contains c = true) : ordinary delim c = false := by
  rw [ordinary, h]
  rfl

theorem ordinary_quote (h : quote c = true) : ordinary delim c = false := by
  rw [ordinary, h, Bool.not_true, Bool.and_false]

/-- Only quotes are taken away from the remnant. -/
theorem filter_unwrapped (delim current : AString) :
    (unwrapped current).filter (ordinary delim) = current.filter (ordinary delim) := by
  rw [unwrapped]
  split
  next h =>
    obtain ⟨hlen, ⟨c, hfirst, hquote⟩, hboth⟩ := h
    obtain ⟨rest, rfl⟩ := List.head?_eq_some_iff.mp hfirst
    rw [List.head?_cons] at hboth
    have hrest : rest ≠ [] := by
      rintro rfl
      simp at hlen
    obtain ⟨inner, d, rfl⟩ := List.eq_nil_or_concat' rest |>.resolve_left hrest
    have hd : c = d := by
      rw [← List.cons_append, List.getLast?_concat] at hboth
      exact Option.some.inj hboth
    have hinner : ((c :: (inner ++ [d])).drop 1).take ((c :: (inner ++ [d])).length - 2) = inner := by simp
    have hnone := filter_singleton delim (ordinary_quote hquote)
    rw [hinner, ← hd, ← List.singleton_append, List.filter_append, List.filter_append, hnone, List.nil_append,
      List.append_nil]
  next => rfl

end Keeping

section Splitting

variable {str delim text : AString} {prev cutAt : Nat} {c : UInt8}

theorem dropWhile_append_cons {p : UInt8 → Bool} {inner more : AString} (hinner : ∀ d ∈ inner, p d = true)
    (hc : p c = false) : (inner ++ c :: more).dropWhile p = c :: more := by
  rw [List.dropWhile_append_of_pos hinner, List.dropWhile_cons_of_neg (Bool.eq_false_iff.mp hc)]

/-- A piece that ends at a closing quote passes the character behind it. -/
theorem behindQuotes_closed {inner more : AString} (hdelim : ∃ d ∈ inner ++ c :: more, delim.contains d = true)
    (hc : delim.contains c = false) (hquote : quote c = true) (hinner : ∀ d ∈ inner, (d != c) = true) :
    behindQuotes delim (c :: (inner ++ c :: more)) = more.take 1 ++ behindQuotes delim (more.drop 1) := by
  obtain ⟨d, hmem, hd⟩ := hdelim
  rw [behindQuotes, if_neg, if_neg (Bool.eq_false_iff.mp hc), if_pos ⟨hquote, by simp⟩,
    dropWhile_append_cons hinner (by simp), List.tail_cons, List.drop_one]
  intro hall
  exact absurd hd (Bool.eq_false_iff.mp (hall d (List.mem_cons_of_mem _ hmem)))

/-- Any other piece ends at a delimiter. -/
theorem behindQuotes_plain {d : UInt8} {inner more : AString} (hc : delim.contains c = false)
    (hinner : ∀ e ∈ inner, delim.contains e = false) (hd : delim.contains d = true)
    (hopen : ¬(quote c = true ∧ c ∈ inner ++ d :: more)) :
    behindQuotes delim (c :: (inner ++ d :: more)) = behindQuotes delim more := by
  rw [behindQuotes, if_neg, if_neg (Bool.eq_false_iff.mp hc), if_neg hopen, dropWhile_append_cons, List.tail_cons]
  · intro e hmem
    rw [hinner e hmem]
    rfl
  · rw [hd]
    rfl
  · intro hall
    exact absurd hd (Bool.eq_false_iff.mp (hall d (by simp)))

/-- A quote that comes again closes the quoted text. -/
theorem closingQuote_closed {c : UInt8} (inner : AString) (hquote : quote c = true) (hmem : c ∈ str.drop (prev + 1)) :
    ∃ cutAtQuote, closingQuote str (c :: inner) prev = some cutAtQuote ∧
      str.drop (prev + 1) =
        (str.drop (prev + 1)).take (cutAtQuote - (prev + 1)) ++ c :: str.drop (cutAtQuote + 1) ∧
      ∀ e ∈ (str.drop (prev + 1)).take (cutAtQuote - (prev + 1)), (e != c) = true := by
  rcases hfind : findFirstOf str [c] (prev + 1) with _ | cutAtQuote
  · have hnone := findFirstOf_eq_none.mp hfind c hmem
    simp at hnone
  · obtain ⟨c', hc', htext, hbefore⟩ := findFirstOf_eq_some hfind
    have hsame : c' = c := by simpa using hc'
    rw [hsame] at htext
    refine ⟨cutAtQuote, ?_, htext, fun e he => by simpa using hbefore e he⟩
    rw [closingQuote, List.head?_cons]
    exact (if_pos hquote).trans hfind

theorem closingQuote_open {c : UInt8} (inner : AString) (hopen : ¬(quote c = true ∧ c ∈ str.drop (prev + 1))) :
    closingQuote str (c :: inner) prev = none := by
  rw [closingQuote, List.head?_cons]
  show (if quote c then findFirstOf str [c] (prev + 1) else none) = none
  split
  next hquote =>
    rw [findFirstOf_eq_none]
    intro e hmem
    have hother : e ≠ c := fun hsame => hopen ⟨hquote, hsame ▸ hmem⟩
    simpa using hother
  next => rfl

/-- What one turn of the loop takes keeps the ordinary characters, but for the one behind a closing quote. -/
theorem cutPiece_keeps (h : findFirstOf str delim prev = some cutAt) (hne : cutAt ≠ prev)
    (hrest : KeepsBut delim text (str.drop (cutPiece str prev cutAt).2)
      (behindQuotes delim (str.drop (cutPiece str prev cutAt).2))) :
    KeepsBut delim ((cutPiece str prev cutAt).1 ++ text) (str.drop prev) (behindQuotes delim (str.drop prev)) := by
  obtain ⟨d, hd, hcut, hplain⟩ := findFirstOf_eq_some h
  have hbounds := findFirstOf_bounds h
  have hcurrent : (str.drop prev).take (cutAt - prev) ≠ [] := by
    rw [Ne, List.take_eq_nil_iff, not_or]
    exact ⟨by omega, List.drop_eq_nil_iff.not.mpr (by omega)⟩
  obtain ⟨c, inner, hfront⟩ := List.exists_cons_of_ne_nil hcurrent
  rw [hfront, List.cons_append] at hcut
  rw [hfront] at hplain
  obtain ⟨hc, hinner⟩ := List.forall_mem_cons.mp hplain
  have hbehind : str.drop (prev + 1) = inner ++ d :: str.drop (cutAt + 1) := by
    rw [← List.drop_drop, hcut]
    rfl
  rw [cutPiece, hfront] at hrest ⊢
  by_cases hclosed : quote c = true ∧ c ∈ str.drop (prev + 1)
  · -- the piece is quoted text
    obtain ⟨cutAtQuote, hclosing, htext, hother⟩ := closingQuote_closed inner hclosed.1 hclosed.2
    rw [hclosing] at hrest ⊢
    rw [← hbehind, htext] at hcut
    rw [hcut, behindQuotes_closed ⟨d, by rw [← htext, hbehind]; simp, hd⟩ hc hclosed.1 hother, List.drop_drop]
    have hskip := hrest.skip ((str.drop (cutAtQuote + 1)).take 1)
    rw [show str.drop (cutAtQuote + 1 + 1) = (str.drop (cutAtQuote + 1)).drop 1 from List.drop_drop.symm,
      List.take_append_drop, List.drop_drop] at hskip
    have hkept := hskip.append ((str.drop (prev + 1)).take (cutAtQuote - (prev + 1)))
      (c :: (str.drop (prev + 1)).take (cutAtQuote - (prev + 1)) ++ [c]) (by
        have hnone := filter_singleton delim (ordinary_quote hclosed.1)
        rw [List.filter_append, hnone, List.append_nil, ← List.singleton_append, List.filter_append, hnone,
          List.nil_append])
    simpa only [List.cons_append, List.append_assoc, List.nil_append] using hkept
  · have hclosing := closingQuote_open inner hclosed
    rw [hbehind] at hclosed
    rw [hclosing] at hrest ⊢
    rw [hcut, behindQuotes_plain hc hinner hd hclosed]
    have hkept := hrest.append (c :: inner) (c :: inner ++ [d]) (by
      rw [List.filter_append, filter_singleton _ (ordinary_delimiter hd), List.append_nil])
    simpa only [List.cons_append, List.append_assoc, List.nil_append] using hkept

theorem splitWithQuotesFrom_keeps (str delim : AString) (prev : Nat) :
    KeepsBut delim (splitWithQuotesFrom str delim prev).flatten (str.drop prev)
      (behindQuotes delim (str.drop prev)) := by
  fun_induction splitWithQuotesFrom str delim prev with
  | case1 prev hfind ih =>
    obtain ⟨d, hd, hcut, -⟩ := findFirstOf_eq_some hfind
    rw [Nat.sub_self, List.take_zero, List.nil_append] at hcut
    have hall : ¬∀ e ∈ d :: str.drop (prev + 1), delim.contains e = false := fun hall =>
      absurd hd (Bool.eq_false_iff.mp (hall d List.mem_cons_self))
    rw [hcut, behindQuotes, if_neg hall, if_pos hd]
    exact ih.append [] [d] (filter_singleton _ (ordinary_delimiter hd)).symm
  | case2 prev cutAt hfind hne cut ih =>
    rw [List.flatten_cons]
    exact cutPiece_keeps hfind hne ih
  | case3 prev hfind hlt =>
    have hplain := findFirstOf_eq_none.mp hfind
    obtain ⟨c, rest, hrest⟩ := List.exists_cons_of_ne_nil (List.drop_eq_nil_iff.not.mpr (Nat.not_le.mpr hlt))
    rw [hrest] at hplain ⊢
    rw [behindQuotes, if_pos hplain, List.flatten_singleton]
    constructor
    · rw [filter_unwrapped]
    · exact iff_of_true (filter_unwrapped _ _) nofun
  | case4 prev hfind hge =>
    rw [List.drop_eq_nil_iff.mpr (Nat.not_lt.mp hge), behindQuotes]
    exact ⟨List.Sublist.refl _, iff_of_true rfl nofun⟩

/-- The ordinary characters of a string are all in its pieces, in their order, if and only if the characters behind
the closing quotes are delimiters or quotes. -/
theorem stringSplitWithQuotes_iff (str delim : AString) :
    (stringSplitWithQuotes str delim).flatten.filter (ordinary delim) = str.filter (ordinary delim) ↔
      ∀ c ∈ behindQuotes delim str, delim.contains c = true ∨ quote c = true := by
  have hkept := (splitWithQuotesFrom_keeps str delim 0).kept_iff
  rw [List.drop_zero] at hkept
  rw [stringSplitWithQuotes, hkept]
  refine forall₂_congr fun c _ => ?_
  rw [ordinary]
  cases delim.contains c <;> cases quote c <;> simp

/-- The `b` of `'a'b c` is lost. -/
theorem stringSplitWithQuotes_glued :
    (stringSplitWithQuotes [0x27, 0x61, 0x27, 0x62, 0x20, 0x63] [0x20]).flatten.filter (ordinary [0x20]) ≠
      [0x27, 0x61, 0x27, 0x62, 0x20, 0x63].filter (ordinary [0x20]) := by
  intro hsame
  have hbehind : behindQuotes [0x20] (0x27 :: ([0x61] ++ 0x27 :: [0x62, 0x20, 0x63])) =
      0x62 :: behindQuotes [0x20] [0x20, 0x63] :=
    behindQuotes_closed ⟨0x20, by decide⟩ rfl rfl fun d hmem => by rw [List.mem_singleton.mp hmem]; rfl
  have hkept := (splitWithQuotesFrom_keeps [0x27, 0x61, 0x27, 0x62, 0x20, 0x63] [0x20] 0).kept_iff
  rw [List.drop_zero] at hkept
  rw [stringSplitWithQuotes] at hsame
  exact absurd (hkept.mp hsame 0x62 (hbehind ▸ List.mem_cons_self)) (by decide)

end Splitting

end P2PChat

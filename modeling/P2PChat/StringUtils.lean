import P2PChat.Ring
import Mathlib.Data.List.DropRight

namespace P2PChat

section Definitions

/-- `c > 32` for a `char`, which is signed. -/
def visible (c : UInt8) : Bool := 0x20 < c && c < 0x80

def trimString (str : AString) : AString :=
  (str.dropWhile fun c => !visible c).rdropWhile fun c => !visible c

/-- A last piece that is empty is left out. -/
def stringSplitAndTrim (str delim : AString) : List AString :=
  let pieces := str.splitOnP fun c => delim.contains c
  (if pieces.getLast? = some [] then pieces.dropLast else pieces).map trimString

/-- Each item of the second vector that is not yet there is added. -/
def mergeStringVectors (strings1 strings2 : List AString) : List AString :=
  strings2.foldl (fun res item => if item ∈ res then res else res ++ [item]) strings1

def stringsConcat : List AString → UInt8 → AString
  | [], _ => []
  | first :: rest, separator => first ++ rest.flatMap fun s => separator :: s

/-- What `stringSplitAndTrim` gives: trimmed strings without a delimiter. -/
structure Piece (delim str : AString) : Prop where
  trimmed : trimString str = str
  plain : ∀ c ∈ str, delim.contains c = false

end Definitions

section Pieces

variable {delim str : AString}

theorem trimString_sublist (str : AString) : (trimString str).Sublist str :=
  (List.rdropWhile_prefix _ _).sublist.trans (List.dropWhile_sublist _)

theorem trimString_trimString (str : AString) : trimString (trimString str) = trimString str := by
  rcases htrimmed : trimString str with _ | ⟨c, rest⟩
  · rfl
  · have hfirst : visible c = true := by
      obtain ⟨more, hmore⟩ := List.rdropWhile_prefix (fun c => !visible c) (str.dropWhile fun c => !visible c)
      have hdrop := List.head?_dropWhile_not (fun c => !visible c) str
      rw [← hmore] at hdrop
      rw [trimString] at htrimmed
      rw [htrimmed] at hdrop
      simpa using hdrop
    rw [trimString, List.dropWhile_cons_of_neg (by simp [hfirst]), ← htrimmed, trimString, List.rdropWhile_idempotent]

theorem Piece.trimString (h : ∀ c ∈ str, delim.contains c = false) : Piece delim (trimString str) :=
  ⟨trimString_trimString str, fun c hmem => h c ((trimString_sublist str).subset hmem)⟩

theorem splitOnP_plain {p : UInt8 → Bool} {text piece : AString} (hmem : piece ∈ text.splitOnP p) :
    ∀ c ∈ piece, p c = false := by
  induction text generalizing piece with
  | nil =>
    rw [List.splitOnP_nil, List.mem_singleton] at hmem
    rw [hmem]
    exact nofun
  | cons c text ih =>
    rw [List.splitOnP_cons_eq_if_modifyHead] at hmem
    split at hmem
    next =>
      rcases List.mem_cons.mp hmem with rfl | hmem
      · exact nofun
      · exact ih hmem
    next hc =>
      obtain ⟨first, rest, hsplit⟩ := List.exists_cons_of_ne_nil (List.splitOnP_ne_nil p text)
      rw [hsplit, List.modifyHead_cons] at hmem
      rw [hsplit] at ih
      rcases List.mem_cons.mp hmem with rfl | hmem
      · exact List.forall_mem_cons.mpr ⟨Bool.eq_false_iff.mpr hc, ih List.mem_cons_self⟩
      · exact ih (List.mem_cons_of_mem _ hmem)

theorem stringSplitAndTrim_pieces (str delim : AString) :
    ∀ piece ∈ stringSplitAndTrim str delim, Piece delim piece := by
  intro piece hmem
  obtain ⟨part, hpart, rfl⟩ := List.mem_map.mp hmem
  apply Piece.trimString
  split at hpart
  next => exact splitOnP_plain (List.dropLast_subset _ hpart)
  next => exact splitOnP_plain hpart

theorem mergeStringVectors_pieces {strings1 strings2 : List AString} (h1 : ∀ s ∈ strings1, Piece delim s)
    (h2 : ∀ s ∈ strings2, Piece delim s) : ∀ s ∈ mergeStringVectors strings1 strings2, Piece delim s := by
  unfold mergeStringVectors
  induction strings2 generalizing strings1 with
  | nil => exact h1
  | cons item strings2 ih =>
    obtain ⟨hitem, hrest⟩ := List.forall_mem_cons.mp h2
    rw [List.foldl_cons]
    refine ih ?_ hrest
    split
    next => exact h1
    next => exact List.forall_mem_append.mpr ⟨h1, List.forall_mem_singleton.mpr hitem⟩

theorem splitOnP_stringsConcat {p : UInt8 → Bool} {pieces : List AString} {separator : UInt8}
    (h : ∀ s ∈ pieces, ∀ c ∈ s, p c = false) (hseparator : p separator = true) (hne : pieces ≠ []) :
    (stringsConcat pieces separator).splitOnP p = pieces := by
  obtain ⟨first, rest, rfl⟩ := List.exists_cons_of_ne_nil hne
  clear hne
  rw [stringsConcat]
  induction rest generalizing first with
  | nil =>
    rw [List.flatMap_nil, List.append_nil]
    exact List.splitOnP_eq_singleton (h first List.mem_cons_self)
  | cons second rest ih =>
    obtain ⟨hfirst, hrest⟩ := List.forall_mem_cons.mp h
    rw [List.flatMap_cons, List.cons_append, List.splitOnP_append_cons_of_forall_mem hfirst separator hseparator,
      ih second hrest]

/-- Pieces that were put together are found again, but for a last one that is empty. -/
theorem stringSplitAndTrim_concat {pieces : List AString} {separator : UInt8} (h : ∀ s ∈ pieces, Piece delim s)
    (hseparator : delim.contains separator = true) (hne : pieces ≠ []) :
    stringSplitAndTrim (stringsConcat pieces separator) delim =
      if pieces.getLast? = some [] then pieces.dropLast else pieces := by
  have hsplit := splitOnP_stringsConcat (fun s hmem => (h s hmem).plain) hseparator hne
  have htrim : ∀ strings : List AString, (∀ s ∈ strings, Piece delim s) →
      strings.map P2PChat.trimString = strings := fun strings hall =>
    (List.map_congr_left fun s hmem => (hall s hmem).trimmed).trans (List.map_id' strings)
  rw [stringSplitAndTrim, hsplit]
  split
  next => exact htrim _ fun s hmem => h s (List.dropLast_subset _ hmem)
  next => exact htrim _ h

theorem stringsConcat_eq_nil {pieces : List AString} {separator : UInt8} :
    stringsConcat pieces separator = [] ↔ pieces = [] ∨ pieces = [[]] := by
  rcases pieces with _ | ⟨first, _ | ⟨second, rest⟩⟩
  · simp [stringsConcat]
  · simp [stringsConcat]
  · simp [stringsConcat]

end Pieces

end P2PChat

import P2PChat.Ring
import Mathlib.Data.List.TakeWhile

namespace P2PChat

def isspace (c : UInt8) : Bool := c == 0x20 || (0x09 ≤ c && c ≤ 0x0d)

def isdigit (c : UInt8) : Bool := 0x30 ≤ c && c ≤ 0x39

/-- What `Printf` writes for `"%d"` and `"%lld"`. -/
def decimal (n : Int) : AString :=
  (if n < 0 then [0x2d] else []) ++ (Nat.toDigits 10 n.natAbs).map fun c => UInt8.ofNat c.toNat

def digitsValue (digits : AString) : Nat := digits.foldl (fun n c => 10 * n + (c.toNat - 0x30)) 0

/-- The digits of an unsigned number at the start of a text. -/
def parseDigits (text : AString) : Option Nat :=
  let digits := text.takeWhile isdigit
  if digits.isEmpty then none else some (digitsValue digits)

/-- The number at the start of a text, after white space and a sign. -/
def parseDecimal (text : AString) : Option Int :=
  let text := text.dropWhile isspace
  if text.head? = some 0x2d then (parseDigits text.tail).map fun n : Nat => -(n : Int)
  else if text.head? = some 0x2b then (parseDigits text.tail).map fun n : Nat => (n : Int)
  else (parseDigits text).map fun n : Nat => (n : Int)

/-- It is undefined for a number that is no `int`. -/
def atoi (text : AString) : Option Int32 :=
  match parseDecimal text with
  | none => some 0
  | some n => if n = (Int32.ofInt n).toInt then some (Int32.ofInt n) else none

/-- `sscanf` with `"%lld"` into this variable. -/
def scanInt64 (text : AString) (result : Int64) : Option Int64 :=
  match parseDecimal text with
  | none => some result
  | some n => if n = (Int64.ofInt n).toInt then some (Int64.ofInt n) else none

theorem digit_toNat {c : Char} (h : c.isDigit = true) :
    isdigit (UInt8.ofNat c.toNat) = true ∧ (UInt8.ofNat c.toNat).toNat = c.toNat := by
  have hrange : 0x30 ≤ c.toNat ∧ c.toNat ≤ 0x39 := by
    simpa [Char.isDigit, UInt32.le_iff_toNat_le] using h
  have hbyte : (UInt8.ofNat c.toNat).toNat = c.toNat := by
    rw [UInt8.toNat_ofNat']
    omega
  refine ⟨?_, hbyte⟩
  simp only [isdigit, Bool.and_eq_true, decide_eq_true_eq, UInt8.le_iff_toNat_le, hbyte]
  exact hrange

theorem digitsValue_map (chars : List Char) (h : ∀ c ∈ chars, c.isDigit = true) :
    digitsValue (chars.map fun c => UInt8.ofNat c.toNat) = Nat.ofDigitChars 10 chars 0 := by
  rw [digitsValue, Nat.ofDigitChars_eq_foldl, List.foldl_map]
  refine List.foldl_ext _ _ _ fun value c hmem => ?_
  rw [(digit_toNat (h c hmem)).2]
  rfl

theorem isdigit_bounds {c : UInt8} (h : isdigit c = true) : 0x30 ≤ c.toNat ∧ c.toNat ≤ 0x39 := by
  simpa [isdigit, UInt8.le_iff_toNat_le] using h

/-- Digits are no white space and no sign. -/
theorem isdigit_first {c : UInt8} (h : isdigit c = true) : isspace c = false ∧ c ≠ 0x2d ∧ c ≠ 0x2b := by
  have hbounds := isdigit_bounds h
  refine ⟨?_, ?_, ?_⟩
  · have hblank : c ≠ 0x20 := by
      rintro rfl
      simp at hbounds
    simp only [isspace, beq_eq_false_iff_ne.mpr hblank, Bool.false_or, Bool.and_eq_false_iff, decide_eq_false_iff_not,
      UInt8.le_iff_toNat_le]
    exact .inr (by simp; omega)
  · rintro rfl
    simp at hbounds
  · rintro rfl
    simp at hbounds

theorem parseDigits_toDigits (n : Nat) :
    parseDigits ((Nat.toDigits 10 n).map fun c => UInt8.ofNat c.toNat) = some n := by
  have hdigit : ∀ c ∈ Nat.toDigits 10 n, c.isDigit = true :=
    fun c hmem => Nat.isDigit_of_mem_toDigits (by decide) (by decide) hmem
  have hall : ((Nat.toDigits 10 n).map fun c => UInt8.ofNat c.toNat).takeWhile isdigit =
      (Nat.toDigits 10 n).map fun c => UInt8.ofNat c.toNat := by
    refine List.takeWhile_eq_self_iff.mpr fun c hmem => ?_
    obtain ⟨d, hd, rfl⟩ := List.mem_map.mp hmem
    exact (digit_toNat (hdigit d hd)).1
  rw [parseDigits, hall, if_neg (by simp), digitsValue_map _ hdigit, Nat.ofDigitChars_ten_toDigits]

/-- A number that was written is read. -/
theorem parseDecimal_decimal (n : Int) : parseDecimal (decimal n) = some n := by
  obtain ⟨first, rest, hdigits⟩ : ∃ first rest,
      (Nat.toDigits 10 n.natAbs).map (fun c => UInt8.ofNat c.toNat) = first :: rest :=
    List.exists_cons_of_ne_nil (by simp)
  have hread := parseDigits_toDigits n.natAbs
  have hfirst : isdigit first = true := by
    have hmem : first ∈ (Nat.toDigits 10 n.natAbs).map fun c => UInt8.ofNat c.toNat := by
      rw [hdigits]
      exact List.mem_cons_self
    obtain ⟨d, hd, rfl⟩ := List.mem_map.mp hmem
    exact (digit_toNat (Nat.isDigit_of_mem_toDigits (by decide) (by decide) hd)).1
  obtain ⟨hspace, hminus, hplus⟩ := isdigit_first hfirst
  rw [hdigits] at hread
  rw [decimal, hdigits]
  by_cases hneg : n < 0
  · have hdrop : ([0x2d] ++ first :: rest : AString).dropWhile isspace = 0x2d :: first :: rest := rfl
    rw [if_pos hneg, parseDecimal, hdrop]
    rw [if_pos (by rfl), List.tail_cons, hread, Option.map_some]
    congr 1
    omega
  · have hdrop : ([] ++ first :: rest : AString).dropWhile isspace = first :: rest := by
      rw [List.nil_append, List.dropWhile_cons, hspace]
      rfl
    rw [if_neg hneg, parseDecimal, hdrop]
    rw [if_neg (by simpa using hminus), if_neg (by simpa using hplus), hread, Option.map_some]
    congr 1
    omega

theorem atoi_decimal (n : Int32) : atoi (decimal n.toInt) = some n := by
  rw [atoi, parseDecimal_decimal]
  simp

theorem scanInt64_decimal (n result : Int64) : scanInt64 (decimal n.toInt) result = some n := by
  rw [scanInt64, parseDecimal_decimal]
  simp

end P2PChat

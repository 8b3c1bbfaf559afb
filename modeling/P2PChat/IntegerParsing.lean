import P2PChat.Decimal
import Mathlib.Algebra.Order.Ring.Int
import Mathlib.Data.FinEnum

namespace P2PChat

section Definitions

/-- The integer types of C++, `bool` among them. -/
inductive IntType
  | bool
  | unsigned (bits : Nat) (h : 8 ≤ bits)
  | signed (bits : Nat) (h : 8 ≤ bits)

namespace IntType

def isSigned : IntType → Bool
  | signed _ _ => true
  | _ => false

def min : IntType → Int
  | signed bits _ => -2 ^ (bits - 1)
  | _ => 0

def max : IntType → Int
  | bool => 1
  | unsigned bits _ => 2 ^ bits - 1
  | signed bits _ => 2 ^ (bits - 1) - 1

/-- `static_cast<T>`. -/
def cast : IntType → Int → Int
  | bool, x => if x = 0 then 0 else 1
  | unsigned bits _, x => x % 2 ^ bits
  | signed bits _, x => x.bmod (2 ^ bits)

/-- The result of an operation; `none` when it overflows. -/
def checked (T : IntType) (x : Int) : Option Int := if T.min ≤ x ∧ x ≤ T.max then some x else none

end IntType

/-- The loop of `StringToInteger` for a number that is not negative. The outer `none` stands for an overflow, the inner
one for `return false`. -/
def positiveDigits (T : IntType) : AString → Int → Option (Option Int)
  | [], result => some (some result)
  | c :: rest, result =>
    if c < 0x30 ∨ 0x39 < c then some none
    else if T.max.tdiv 10 < result then some none
    else
      (T.checked (result * 10)).bind fun result =>
      let digit := T.cast (c.toNat - 0x30)
      (T.checked (T.max - digit)).bind fun most =>
      if most < result then some none
      else (T.checked (result + digit)).bind fun result => positiveDigits T rest result

/-- The loop for a negative number. -/
def negativeDigits (T : IntType) : AString → Int → Option (Option Int)
  | [], result => some (some result)
  | c :: rest, result =>
    if c < 0x30 ∨ 0x39 < c then some none
    else if result < T.min.tdiv 10 then some none
    else
      (T.checked (result * 10)).bind fun result =>
      let digit := T.cast (c.toNat - 0x30)
      (T.checked (T.min + digit)).bind fun least =>
      if result < least then some none
      else (T.checked (result - digit)).bind fun result => negativeDigits T rest result

/-- The number that is found in a string. -/
def integerOf (T : IntType) : AString → Option (Option Int)
  | [] => positiveDigits T [] 0
  | c :: rest =>
    if c = 0x2b then positiveDigits T rest 0
    else if c = 0x2d then if T.isSigned then negativeDigits T rest 0 else some none
    else positiveDigits T (c :: rest) 0

/-- What `StringToInteger` returns, and its number then; `none` when an operation overflows. -/
def stringToInteger (T : IntType) (str : AString) (num : Int) : Option (Bool × Int) :=
  (integerOf T str).map fun found =>
    match found with
    | some result => (true, result)
    | none => (false, num)

/-- An optional sign and at least one digit: whether there is a minus, and the number. -/
inductive Numeral : AString → Bool → Int → Prop
  | plain {digits : AString} : digits ≠ [] → (∀ c ∈ digits, isdigit c = true) →
      Numeral digits false (digitsValue digits)
  | plus {digits : AString} : digits ≠ [] → (∀ c ∈ digits, isdigit c = true) →
      Numeral (0x2b :: digits) false (digitsValue digits)
  | minus {digits : AString} : digits ≠ [] → (∀ c ∈ digits, isdigit c = true) →
      Numeral (0x2d :: digits) true (-digitsValue digits)

/-- The string denotes this number of the type. -/
def Denotes (T : IntType) (str : AString) (n : Int) : Prop :=
  ∃ minus, Numeral str minus n ∧ T.min ≤ n ∧ n ≤ T.max ∧ (minus = true → T.isSigned = true)

/-- The call returns true for just the strings that denote a number, with that number. -/
def ParsesExactly (T : IntType) (str : AString) : Prop :=
  ∀ num, ∃ found res, stringToInteger T str num = some (found, res) ∧ (found = true → Denotes T str res) ∧
    ∀ n, Denotes T str n → found = true ∧ res = n

end Definitions

section Types

variable {T : IntType} {x : Int}

theorem IntType.min_nonpos (T : IntType) : T.min ≤ 0 := by
  cases T with
  | bool => exact le_refl _
  | unsigned bits h => exact le_refl _
  | signed bits h => exact neg_nonpos.mpr (pow_nonneg (by decide) _)

theorem two_pow_le {bits : Nat} (h : 7 ≤ bits) : (128 : Int) ≤ 2 ^ bits :=
  calc (128 : Int) = 2 ^ 7 := rfl
    _ ≤ 2 ^ bits := pow_le_pow_right₀ (by decide) h

/-- A digit fits into every type but `bool`. -/
theorem IntType.digit_fits (h : T ≠ .bool) : 9 ≤ T.max := by
  cases T with
  | bool => exact absurd rfl h
  | unsigned bits hbits =>
    have hwide := two_pow_le (Nat.le_trans (by decide) hbits : 7 ≤ bits)
    show 9 ≤ (2 : Int) ^ bits - 1
    omega
  | signed bits hbits =>
    have hwide := two_pow_le (Nat.le_sub_of_add_le hbits : 7 ≤ bits - 1)
    show 9 ≤ (2 : Int) ^ (bits - 1) - 1
    omega

theorem IntType.min_of_signed (h : T.isSigned = true) : T.min ≤ -9 := by
  cases T with
  | signed bits hbits =>
    have hwide := two_pow_le (Nat.le_sub_of_add_le hbits : 7 ≤ bits - 1)
    show -(2 : Int) ^ (bits - 1) ≤ -9
    omega
  | bool => exact absurd h nofun
  | unsigned bits hbits => exact absurd h nofun

theorem IntType.cast_digit (h : T ≠ .bool) (hlow : 0 ≤ x) (hhigh : x ≤ 9) : T.cast x = x := by
  cases T with
  | bool => exact absurd rfl h
  | unsigned bits hbits =>
    have hwide := two_pow_le (Nat.le_trans (by decide) hbits : 7 ≤ bits)
    exact Int.emod_eq_of_lt hlow (by omega)
  | signed bits hbits =>
    have hwide := two_pow_le (Nat.le_trans (by decide) hbits : 7 ≤ bits)
    refine Int.bmod_eq_of_le_mul_two ?_ ?_
    · push_cast
      omega
    · push_cast
      omega

theorem IntType.cast_bool (h : x ≠ 0) : IntType.bool.cast x = 1 := if_neg h

theorem IntType.checked_eq (hlow : T.min ≤ x) (hhigh : x ≤ T.max) : T.checked x = some x := if_pos ⟨hlow, hhigh⟩

end Types

section Loops

variable {T : IntType} {v : Nat} {c : UInt8} {digits : AString}

/-- What digits add to a number that is already read. -/
def digitsFrom (v : Nat) (digits : AString) : Nat := digits.foldl (fun n c => 10 * n + (c.toNat - 0x30)) v

theorem digitsFrom_cons (v : Nat) (c : UInt8) (digits : AString) :
    digitsFrom v (c :: digits) = digitsFrom (10 * v + (c.toNat - 0x30)) digits := by
  rw [digitsFrom, digitsFrom, List.foldl_cons]

theorem le_digitsFrom (v : Nat) (digits : AString) : v ≤ digitsFrom v digits := by
  induction digits generalizing v with
  | nil => exact Nat.le_refl v
  | cons c digits ih =>
    have hrest := ih (10 * v + (c.toNat - 0x30))
    rw [digitsFrom_cons]
    omega

theorem not_digit_iff (c : UInt8) : (c < 0x30 ∨ 0x39 < c) ↔ ¬isdigit c = true := by
  simp [isdigit, UInt8.not_le, imp_iff_not_or]

/-- The first loop finds the number of the digits, if all are digits and the type has the number; it never overflows. -/
theorem positiveDigits_eq (hT : T ≠ .bool) (hv : (v : Int) ≤ T.max) (digits : AString) :
    positiveDigits T digits v =
      some (if (∀ c ∈ digits, isdigit c = true) ∧ (digitsFrom v digits : Int) ≤ T.max then
        some (digitsFrom v digits : Int) else none) := by
  have hfits := IntType.digit_fits hT
  have hmin := T.min_nonpos
  induction digits generalizing v with
  | nil => rw [positiveDigits, if_pos ⟨nofun, hv⟩]; rfl
  | cons c digits ih =>
    rw [positiveDigits]
    by_cases hc : isdigit c = true
    · have hbounds := isdigit_bounds hc
      have hmore := le_digitsFrom (10 * v + (c.toNat - 0x30)) digits
      rw [if_neg ((not_digit_iff c).not.mpr (not_not.mpr hc)), digitsFrom_cons,
        Int.tdiv_eq_ediv_of_nonneg (by omega : 0 ≤ T.max)]
      by_cases hlarge : T.max / 10 < v
      · rw [if_pos hlarge, if_neg fun hall => by have hle := hall.2; omega]
      · rw [if_neg hlarge, IntType.checked_eq (by omega) (by omega), Option.bind_some,
          IntType.cast_digit hT (by omega) (by omega)]
        simp only
        rw [IntType.checked_eq (by omega) (by omega), Option.bind_some]
        by_cases hsum : T.max - ((c.toNat : Int) - 0x30) < v * 10
        · rw [if_pos hsum, if_neg fun hall => by have hle := hall.2; omega]
        · have hnext : (v : Int) * 10 + ((c.toNat : Int) - 0x30) = (10 * v + (c.toNat - 0x30) : Nat) := by omega
          rw [if_neg hsum, IntType.checked_eq (by omega) (by omega), Option.bind_some, hnext,
            ih (by omega)]
          simp only [List.forall_mem_cons, hc, true_and]
    · rw [if_pos ((not_digit_iff c).mpr hc), if_neg fun hall => hc (hall.1 c List.mem_cons_self)]

theorem negativeDigits_eq (hT : T.isSigned = true) (hv : T.min ≤ -(v : Int)) (digits : AString) :
    negativeDigits T digits (-(v : Int)) =
      some (if (∀ c ∈ digits, isdigit c = true) ∧ T.min ≤ -(digitsFrom v digits : Int) then
        some (-(digitsFrom v digits : Int)) else none) := by
  have hbool : T ≠ .bool := by
    rintro rfl
    exact absurd hT nofun
  have hfits := IntType.digit_fits hbool
  have hmin := IntType.min_of_signed hT
  induction digits generalizing v with
  | nil => rw [negativeDigits, if_pos ⟨nofun, hv⟩]; rfl
  | cons c digits ih =>
    rw [negativeDigits]
    by_cases hc : isdigit c = true
    · have hbounds := isdigit_bounds hc
      have hmore := le_digitsFrom (10 * v + (c.toNat - 0x30)) digits
      have hdiv : T.min.tdiv 10 = -(-T.min / 10) := by
        rw [← Int.tdiv_eq_ediv_of_nonneg (by omega : 0 ≤ -T.min), Int.neg_tdiv, neg_neg]
      rw [if_neg ((not_digit_iff c).not.mpr (not_not.mpr hc)), digitsFrom_cons, hdiv]
      by_cases hlarge : -(v : Int) < -(-T.min / 10)
      · rw [if_pos hlarge, if_neg fun hall => by have hle := hall.2; omega]
      · rw [if_neg hlarge, IntType.checked_eq (by omega) (by omega), Option.bind_some,
          IntType.cast_digit hbool (by omega) (by omega)]
        simp only
        rw [IntType.checked_eq (by omega) (by omega), Option.bind_some]
        by_cases hsum : -(v : Int) * 10 < T.min + ((c.toNat : Int) - 0x30)
        · rw [if_pos hsum, if_neg fun hall => by have hle := hall.2; omega]
        · have hnext : -(v : Int) * 10 - ((c.toNat : Int) - 0x30) = -((10 * v + (c.toNat - 0x30) : Nat) : Int) := by
            omega
          rw [if_neg hsum, IntType.checked_eq (by omega) (by omega), Option.bind_some, hnext,
            ih (by omega)]
          simp only [List.forall_mem_cons, hc, true_and]
    · rw [if_pos ((not_digit_iff c).mpr hc), if_neg fun hall => hc (hall.1 c List.mem_cons_self)]

end Loops

section Bools

theorem positiveDigits_true (digits : AString) :
    positiveDigits .bool digits 1 = some (if digits = [] then some 1 else none) := by
  cases digits with
  | nil => rfl
  | cons c digits =>
    rw [positiveDigits, if_neg (List.cons_ne_nil c digits)]
    split
    next => rfl
    next => exact if_pos (by decide)

/-- A `bool` is 1 for each number from 1 to 9. -/
theorem positiveDigits_false (digits : AString) : positiveDigits .bool digits 0 =
    some (if (∀ c ∈ digits, isdigit c = true) ∧ digitsFrom 0 digits ≤ 9 then
      some (IntType.bool.cast (digitsFrom 0 digits)) else none) := by
  induction digits with
  | nil => rw [positiveDigits, if_pos ⟨nofun, by decide⟩]; rfl
  | cons c digits ih =>
    rw [positiveDigits]
    by_cases hc : isdigit c = true
    · have hbounds := isdigit_bounds hc
      have hstart : ¬IntType.bool.max.tdiv 10 < 0 := by decide
      have hzero : IntType.bool.checked (0 * 10) = some 0 := by decide
      rw [if_neg ((not_digit_iff c).not.mpr (not_not.mpr hc)), if_neg hstart, hzero, Option.bind_some, digitsFrom_cons]
      by_cases hnull : c.toNat = 0x30
      · have hnone : IntType.bool.checked (IntType.bool.max - IntType.bool.cast ((0x30 : Nat) - 0x30)) = some 1 := by
          decide
        have hsum : IntType.bool.checked (0 + IntType.bool.cast ((0x30 : Nat) - 0x30)) = some 0 := by decide
        rw [hnull]
        simp only
        rw [hnone, Option.bind_some, if_neg (by decide), hsum, Option.bind_some, ih]
        simp only [List.forall_mem_cons, hc, true_and]
      · have hone : IntType.bool.cast ((c.toNat : Int) - 0x30) = 1 := IntType.cast_bool (by omega)
        have hnone : IntType.bool.checked (IntType.bool.max - 1) = some 0 := by decide
        have hsum : IntType.bool.checked (0 + 1) = some 1 := by decide
        simp only
        rw [hone, hnone, Option.bind_some, if_neg (by decide), hsum, Option.bind_some, positiveDigits_true]
        cases digits with
        | nil =>
          have hvalue : IntType.bool.cast (digitsFrom (10 * 0 + (c.toNat - 0x30)) [] : Nat) = 1 := IntType.cast_bool (by
            rw [digitsFrom, List.foldl_nil]
            omega)
          rw [if_pos rfl, if_pos, hvalue]
          exact ⟨List.forall_mem_singleton.mpr hc, by rw [digitsFrom, List.foldl_nil]; omega⟩
        | cons d digits =>
          rw [if_neg (List.cons_ne_nil d digits), if_neg]
          rintro ⟨-, hsmall⟩
          have hmore := le_digitsFrom (10 * (10 * 0 + (c.toNat - 0x30)) + (d.toNat - 0x30)) digits
          rw [digitsFrom_cons] at hsmall
          omega
    · rw [if_pos ((not_digit_iff c).mpr hc), if_neg fun hall => hc (hall.1 c List.mem_cons_self)]

end Bools

section Parsing

variable {T : IntType} {c : UInt8} {digits str : AString} {n : Int}

/-- The digits are a number that the type has. -/
def Counts (T : IntType) (digits : AString) (n : Int) : Prop :=
  digits ≠ [] ∧ (∀ c ∈ digits, isdigit c = true) ∧ n = digitsValue digits ∧ n ≤ T.max

/-- An outcome without overflow, which finds just these numbers. -/
def Finds (found : Option (Option Int)) (P : Int → Prop) : Prop := ∃ r, found = some r ∧ ∀ n, r = some n ↔ P n

theorem not_digit_cons (hc : isdigit c = false) : ¬∀ d ∈ c :: digits, isdigit d = true := fun hall =>
  absurd (hall c List.mem_cons_self) (Bool.eq_false_iff.mp hc)

theorem finds_congr {found : Option (Option Int)} {P Q : Int → Prop} (h : ∀ n, P n ↔ Q n) :
    Finds found P ↔ Finds found Q :=
  exists_congr fun _ => and_congr_right' (forall_congr' fun n => by rw [h n])

theorem numeral_plus : Numeral (0x2b :: digits) false n ↔
    digits ≠ [] ∧ (∀ c ∈ digits, isdigit c = true) ∧ n = digitsValue digits := by
  constructor
  · intro hnumeral
    cases hnumeral with
    | plain hne hall => exact absurd hall (not_digit_cons rfl)
    | plus hne hall => exact ⟨hne, hall, rfl⟩
  · rintro ⟨hne, hall, rfl⟩
    exact .plus hne hall

theorem numeral_plain (hplus : c ≠ 0x2b) : Numeral (c :: digits) false n ↔
    (∀ d ∈ c :: digits, isdigit d = true) ∧ n = digitsValue (c :: digits) := by
  constructor
  · intro hnumeral
    cases hnumeral with
    | plain hne hall => exact ⟨hall, rfl⟩
    | plus => exact absurd rfl hplus
  · rintro ⟨hall, rfl⟩
    exact .plain (List.cons_ne_nil c digits) hall

theorem denotes_nil : ¬Denotes T [] n := by
  rintro ⟨minus, hnumeral, -⟩
  cases hnumeral with
  | plain hne => exact hne rfl

theorem denotes_plus : Denotes T (0x2b :: digits) n ↔ Counts T digits n := by
  constructor
  · rintro ⟨minus, hnumeral, -, hmax, -⟩
    cases hnumeral with
    | plain hne hall => exact absurd hall (not_digit_cons rfl)
    | plus hne hall => exact ⟨hne, hall, rfl, hmax⟩
  · rintro ⟨hne, hall, rfl, hmax⟩
    have hmin := T.min_nonpos
    exact ⟨false, .plus hne hall, by omega, hmax, nofun⟩

theorem denotes_minus : Denotes T (0x2d :: digits) n ↔ T.isSigned = true ∧ digits ≠ [] ∧
    (∀ c ∈ digits, isdigit c = true) ∧ n = -digitsValue digits ∧ T.min ≤ n := by
  constructor
  · rintro ⟨minus, hnumeral, hmin, -, hsigned⟩
    cases hnumeral with
    | plain hne hall => exact absurd hall (not_digit_cons rfl)
    | minus hne hall => exact ⟨hsigned rfl, hne, hall, rfl, hmin⟩
  · rintro ⟨hsigned, hne, hall, rfl, hmin⟩
    have hbool : T ≠ .bool := by
      rintro rfl
      exact absurd hsigned nofun
    have hmax := IntType.digit_fits hbool
    exact ⟨true, .minus hne hall, hmin, by omega, fun _ => hsigned⟩

theorem denotes_plain (hplus : c ≠ 0x2b) (hminus : c ≠ 0x2d) :
    Denotes T (c :: digits) n ↔ Counts T (c :: digits) n := by
  constructor
  · rintro ⟨minus, hnumeral, -, hmax, -⟩
    cases hnumeral with
    | plain hne hall => exact ⟨hne, hall, rfl, hmax⟩
    | plus => exact absurd rfl hplus
    | minus => exact absurd rfl hminus
  · rintro ⟨hne, hall, rfl, hmax⟩
    have hmin := T.min_nonpos
    exact ⟨false, .plain hne hall, by omega, hmax, nofun⟩

/-- The first loop is exact but for no digits at all, and for a `bool` from 2 to 9. -/
theorem positive_finds_iff (T : IntType) (digits : AString) :
    Finds (positiveDigits T digits 0) (Counts T digits) ↔ digits ≠ [] ∧
      (T = .bool → ¬((∀ c ∈ digits, isdigit c = true) ∧ 2 ≤ digitsValue digits ∧ digitsValue digits ≤ 9)) := by
  have hvalue : digitsFrom 0 digits = digitsValue digits := rfl
  by_cases hT : T = .bool
  · subst hT
    rw [positiveDigits_false, hvalue]
    constructor
    · rintro ⟨r, hr, hiff⟩
      rw [Option.some_inj] at hr
      constructor
      · rintro rfl
        rw [if_pos ⟨nofun, Nat.zero_le 9⟩] at hr
        exact ((hiff 0).mp hr.symm).1 rfl
      · rintro - ⟨hall, hlow, hhigh⟩
        have hpos : (digitsValue digits : Int) ≠ 0 := by omega
        rw [if_pos ⟨hall, hhigh⟩, IntType.cast_bool hpos] at hr
        have hone := ((hiff 1).mp hr.symm).2.2.1
        omega
    · rintro ⟨hne, hnot⟩
      refine ⟨_, rfl, fun n => ?_⟩
      split
      next h =>
        have hsmall : digitsValue digits ≤ 1 := by
          by_contra hlarge
          exact hnot rfl ⟨h.1, by omega, h.2⟩
        have hcast : IntType.bool.cast (digitsValue digits) = digitsValue digits := by
          rw [IntType.cast]
          split <;> omega
        rw [hcast, Option.some_inj]
        exact ⟨fun hn => ⟨hne, h.1, hn.symm, by rw [← hn]; show _ ≤ (1 : Int); omega⟩, fun hn => hn.2.2.1.symm⟩
      next h =>
        refine iff_of_false nofun fun hn => h ⟨hn.2.1, ?_⟩
        have hmax : n ≤ 1 := hn.2.2.2
        have hval := hn.2.2.1
        omega
  · have hfits := IntType.digit_fits hT
    rw [show (0 : Int) = (0 : Nat) from rfl, positiveDigits_eq hT (by omega), hvalue]
    refine ⟨?_, fun hne => ⟨_, rfl, fun n => ?_⟩⟩
    · rintro ⟨r, hr, hiff⟩
      refine ⟨?_, fun hbool => absurd hbool hT⟩
      rintro rfl
      rw [if_pos ⟨nofun, by show (0 : Int) ≤ T.max; omega⟩, Option.some_inj] at hr
      exact ((hiff 0).mp (by rw [← hr]; rfl)).1 rfl
    · split
      next h =>
        rw [Option.some_inj]
        exact ⟨fun hn => ⟨hne.1, h.1, hn.symm, hn ▸ h.2⟩, fun hn => hn.2.2.1.symm⟩
      next h => exact iff_of_false nofun fun hn => h ⟨hn.2.1, hn.2.2.1 ▸ hn.2.2.2⟩

theorem negative_finds_iff (hT : T.isSigned = true) (digits : AString) :
    Finds (negativeDigits T digits 0) (Denotes T (0x2d :: digits)) ↔ digits ≠ [] := by
  have hvalue : digitsFrom 0 digits = digitsValue digits := rfl
  have hmin := IntType.min_of_signed hT
  rw [show (0 : Int) = -(0 : Nat) from rfl, negativeDigits_eq hT (by omega), hvalue]
  refine ⟨?_, fun hne => ⟨_, rfl, fun n => ?_⟩⟩
  · rintro ⟨r, hr, hiff⟩ rfl
    rw [if_pos ⟨nofun, by show T.min ≤ (0 : Int); omega⟩, Option.some_inj] at hr
    exact (denotes_minus.mp ((hiff 0).mp (by rw [← hr]; rfl))).2.1 rfl
  · rw [denotes_minus]
    split
    next h =>
      rw [Option.some_inj]
      exact ⟨fun hn => ⟨hT, hne, h.1, hn.symm, hn ▸ h.2⟩, fun hn => hn.2.2.2.1.symm⟩
    next h => exact iff_of_false nofun fun hn => h ⟨hn.2.2.1, hn.2.2.2.1 ▸ hn.2.2.2.2⟩

theorem parsesExactly_iff_finds : ParsesExactly T str ↔ Finds (integerOf T str) (Denotes T str) := by
  constructor
  · intro hexact
    obtain ⟨found, res, hres, hfound, hdenotes⟩ := hexact 0
    obtain ⟨r, hr, hpair⟩ := Option.map_eq_some_iff.mp hres
    refine ⟨r, hr, fun n => ?_⟩
    cases r with
    | none =>
      rw [Prod.mk.injEq] at hpair
      refine iff_of_false nofun fun hn => ?_
      rw [← hpair.1] at hdenotes
      exact absurd (hdenotes n hn).1 nofun
    | some result =>
      rw [Prod.mk.injEq] at hpair
      rw [← hpair.1, ← hpair.2] at hfound hdenotes
      rw [Option.some_inj]
      exact ⟨fun hn => hn ▸ hfound rfl, fun hn => (hdenotes n hn).2⟩
  · rintro ⟨r, hr, hiff⟩ num
    rw [stringToInteger, hr]
    cases r with
    | none => exact ⟨false, num, rfl, nofun, fun n hn => absurd ((hiff n).mpr hn) nofun⟩
    | some result =>
      exact ⟨true, result, rfl, fun _ => (hiff result).mp rfl, fun n hn => ⟨rfl, Option.some.inj ((hiff n).mpr hn)⟩⟩

/-- No loop overflows. -/
theorem integerOf_some (T : IntType) (str : AString) : ∃ r, integerOf T str = some r := by
  have hpositive : ∀ digits, ∃ r, positiveDigits T digits 0 = some r := by
    intro digits
    by_cases hT : T = .bool
    · exact ⟨_, hT ▸ positiveDigits_false digits⟩
    · have hfits := IntType.digit_fits hT
      exact ⟨_, positiveDigits_eq hT (by omega : ((0 : Nat) : Int) ≤ T.max) digits⟩
  rcases str with _ | ⟨c, rest⟩
  · exact hpositive []
  · rw [integerOf]
    split
    next => exact hpositive rest
    next =>
      split
      next =>
        split
        next hsigned =>
          have hmin := IntType.min_of_signed hsigned
          exact ⟨_, negativeDigits_eq hsigned (by omega : T.min ≤ -((0 : Nat) : Int)) rest⟩
        next => exact ⟨none, rfl⟩
      next => exact hpositive (c :: rest)

theorem parsesExactly_plus {T : IntType} {rest : AString} : ParsesExactly T (0x2b :: rest) ↔
    rest ≠ [] ∧ (T = .bool → ¬∃ n, Numeral (0x2b :: rest) false n ∧ 2 ≤ n ∧ n ≤ 9) := by
  rw [parsesExactly_iff_finds, integerOf, if_pos rfl, finds_congr fun _ => denotes_plus, positive_finds_iff]
  refine and_congr_right fun hne => imp_congr_right fun _ => not_congr ⟨fun h => ?_, ?_⟩
  · exact ⟨_, numeral_plus.mpr ⟨hne, h.1, rfl⟩, by omega, by omega⟩
  · rintro ⟨n, hnumeral, hlow, hhigh⟩
    obtain ⟨-, hall, rfl⟩ := numeral_plus.mp hnumeral
    exact ⟨hall, by omega, by omega⟩

theorem parsesExactly_minus {T : IntType} {rest : AString} :
    ParsesExactly T (0x2d :: rest) ↔ (T.isSigned = true → rest ≠ []) := by
  rw [parsesExactly_iff_finds, integerOf, if_neg (by decide), if_pos rfl]
  split
  next hsigned =>
    rw [negative_finds_iff hsigned]
    exact ⟨fun hne _ => hne, fun h => h hsigned⟩
  next hsigned =>
    refine iff_of_true ⟨none, rfl, fun n => iff_of_false nofun fun h => hsigned (denotes_minus.mp h).1⟩ ?_
    exact fun h => absurd h hsigned

theorem parsesExactly_plain {T : IntType} {c : UInt8} {rest : AString} (hplus : c ≠ 0x2b) (hminus : c ≠ 0x2d) :
    ParsesExactly T (c :: rest) ↔ (T = .bool → ¬∃ n, Numeral (c :: rest) false n ∧ 2 ≤ n ∧ n ≤ 9) := by
  rw [parsesExactly_iff_finds, integerOf, if_neg hplus, if_neg hminus, finds_congr fun _ => denotes_plain hplus hminus,
    positive_finds_iff]
  constructor
  · rintro ⟨-, hbool⟩ hT ⟨n, hnumeral, hlow, hhigh⟩
    obtain ⟨hall, rfl⟩ := (numeral_plain hplus).mp hnumeral
    exact hbool hT ⟨hall, by omega, by omega⟩
  · intro hbool
    refine ⟨List.cons_ne_nil _ _, fun hT h => hbool hT ⟨_, (numeral_plain hplus).mpr ⟨h.1, rfl⟩, ?_, ?_⟩⟩
    · omega
    · omega

/-- A call never overflows, and leaves the number alone when it returns false. It is exact if and only if there is a
digit where it does not return false at once, and a `bool` is not one of the numbers from 2 to 9. -/
theorem stringToInteger_iff (T : IntType) (str : AString) :
    (∀ num, ∃ found res, stringToInteger T str num = some (found, res) ∧ (found = false → res = num)) ∧
      (ParsesExactly T str ↔ str ≠ [] ∧ str ≠ [0x2b] ∧ (T.isSigned = true → str ≠ [0x2d]) ∧
        (T = .bool → ¬∃ n, Numeral str false n ∧ 2 ≤ n ∧ n ≤ 9)) := by
  constructor
  · intro num
    obtain ⟨r, hr⟩ := integerOf_some T str
    rw [stringToInteger, hr]
    cases r with
    | none => exact ⟨false, num, rfl, fun _ => rfl⟩
    | some result => exact ⟨true, result, rfl, nofun⟩
  rcases str with _ | ⟨c, rest⟩
  · rw [parsesExactly_iff_finds]
    refine iff_of_false ?_ fun h => h.1 rfl
    rintro ⟨r, hr, hiff⟩
    exact denotes_nil ((hiff 0).mp (Option.some.inj hr).symm)
  by_cases hplus : c = 0x2b
  · subst hplus
    rw [parsesExactly_plus]
    constructor
    · rintro ⟨hne, hbool⟩
      exact ⟨List.cons_ne_nil _ _, fun h => hne (List.cons.inj h).2,
        fun _ h => absurd (List.cons.inj h).1 (by decide), hbool⟩
    · rintro ⟨-, hne, -, hbool⟩
      exact ⟨fun h => hne (by rw [h]), hbool⟩
  by_cases hminus : c = 0x2d
  · subst hminus
    rw [parsesExactly_minus]
    constructor
    · intro hne
      refine ⟨List.cons_ne_nil _ _, fun h => hplus (List.cons.inj h).1, fun hsigned h => ?_, fun _ => ?_⟩
      · exact hne hsigned (List.cons.inj h).2
      · rintro ⟨n, hnumeral, -⟩
        exact absurd (numeral_plain hplus |>.mp hnumeral).1 (not_digit_cons rfl)
    · rintro ⟨-, -, hne, -⟩ hsigned rfl
      exact hne hsigned rfl
  · rw [parsesExactly_plain hplus hminus]
    constructor
    · intro hbool
      exact ⟨List.cons_ne_nil _ _, fun h => hplus (List.cons.inj h).1, fun _ h => hminus (List.cons.inj h).1, hbool⟩
    · rintro ⟨-, -, -, hbool⟩
      exact hbool

theorem stringToInteger_empty : ¬ParsesExactly (.signed 32 (by decide)) [] := by
  intro hexact
  obtain ⟨found, res, hres, hfound, -⟩ := hexact 0
  have htrue : stringToInteger (.signed 32 (by decide)) [] 0 = some (true, 0) := rfl
  rw [htrue, Option.some_inj, Prod.mk.injEq] at hres
  exact denotes_nil (hfound hres.1.symm)

end Parsing

end P2PChat

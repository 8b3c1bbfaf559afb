import P2PChat.BufferRefinement
import P2PChat.Utf8Decoding

namespace P2PChat

section Definitions

/-- A `short` is signed. -/
def getBEShort (mem : AString) (pos : Nat) : Option Int16 := do
  let high ← mem[pos]?
  let low ← mem[pos + 1]?
  pure ((high.toUInt16 <<< 8) ||| low.toUInt16).toInt16

/-- What `RawBEToUTF8` pushes for a unit; a `char` takes the lowest byte. -/
def pushUTF8 (c : Int) : AString :=
  if c < 0x80 then [UInt8.ofInt c]
  else if c < 0x800 then [UInt8.ofInt (192 + c / 64), UInt8.ofInt (128 + c % 64)]
  else if c - 0xd800 < 0x800 then []
  else if c < 0x10000 then
    [UInt8.ofInt (224 + c / 4096), UInt8.ofInt (128 + c / 64 % 64), UInt8.ofInt (128 + c % 64)]
  else if c < 0x110000 then
    [UInt8.ofInt (240 + c / 262144), UInt8.ofInt (128 + c / 4096 % 64), UInt8.ofInt (128 + c / 64 % 64),
      UInt8.ofInt (128 + c % 64)]
  else []

/-- `none` when a byte outside the data is read. -/
def rawBEToUTF8 (rawData : AString) (numShorts : Nat) : Option AString :=
  (List.range numShorts).foldlM (fun utf8 i => do
    let c ← getBEShort rawData (i * 2)
    pure (utf8 ++ pushUTF8 c.toInt)) []

/-- `none` for `false`, too. -/
def Ring.readUTF16String (numChars : Nat) (r : Ring) : Option AString × Ring :=
  match r.readString (numChars * 2) with
  | (none, r) => (none, r)
  | (some rawData, r) => (rawBEToUTF8 rawData numChars, r)

/-- The characters of units that are not surrogates. -/
def chars (units : List UInt16) : List Char := units.map fun unit => Char.ofNat unit.toNat

def NoSurrogate (unit : UInt16) : Prop := ¬(0xd800 ≤ unit.toNat ∧ unit.toNat ≤ 0xdfff)

end Definitions

section Units

open Unicode

variable {unit : UInt16} {units : List UInt16}

theorem bigEndianUTF16_cons (unit : UInt16) (units : List UInt16) :
    bigEndianUTF16 (unit :: units) =
      UInt8.ofNat (unit.toNat / 256) :: UInt8.ofNat unit.toNat :: bigEndianUTF16 units := rfl

theorem bigEndianUTF16_length (units : List UInt16) : (bigEndianUTF16 units).length = units.length * 2 := by
  induction units with
  | nil => rfl
  | cons unit units ih =>
    rw [bigEndianUTF16_cons, List.length_cons, List.length_cons, List.length_cons, ih]
    omega

theorem getBEShort_bytes (unit : UInt16) :
    ((UInt8.ofNat (unit.toNat / 256)).toUInt16 <<< 8 ||| (UInt8.ofNat unit.toNat).toUInt16).toInt16 = unit.toInt16 := by
  have hlt := unit.toNat_lt
  have hhigh : ((UInt8.ofNat (unit.toNat / 256)).toUInt16 <<< 8).toNat = 2 ^ 8 * (unit.toNat / 256) := by
    have height : (8 : UInt16).toNat = 8 := rfl
    rw [UInt16.toNat_shiftLeft, height, UInt8.toNat_toUInt16, UInt8.toNat_ofNat']
    show (unit.toNat / 256 % 2 ^ 8) <<< 8 % 2 ^ 16 = _
    rw [Nat.shiftLeft_eq]
    omega
  have hlow : (UInt8.ofNat unit.toNat).toUInt16.toNat = unit.toNat % 2 ^ 8 := by
    rw [UInt8.toNat_toUInt16, UInt8.toNat_ofNat']
  refine congrArg UInt16.toInt16 (UInt16.toNat_inj.mp ?_)
  rw [UInt16.toNat_or, hhigh, hlow, ← Nat.two_pow_add_eq_or_of_lt (Nat.mod_lt _ (by decide))]
  exact Nat.div_add_mod unit.toNat (2 ^ 8)

theorem getBEShort_bigEndian {i : Nat} (h : i < units.length) :
    getBEShort (bigEndianUTF16 units) (i * 2) = some units[i].toInt16 := by
  induction units generalizing i with
  | nil => cases h
  | cons unit units ih =>
    rw [bigEndianUTF16_cons]
    cases i with
    | zero =>
      show some _ = some _
      rw [getBEShort_bytes]
      rfl
    | succ i =>
      rw [List.length_cons] at h
      have hrest := ih (i := i) (by omega)
      rw [Nat.succ_mul]
      exact hrest

theorem rawBEToUTF8_take {n : Nat} (h : n ≤ units.length) :
    rawBEToUTF8 (bigEndianUTF16 units) n = some ((units.take n).flatMap fun unit => pushUTF8 unit.toInt16.toInt) := by
  induction n with
  | zero => rfl
  | succ n ih =>
    have hrest := ih (by omega)
    unfold rawBEToUTF8 at hrest ⊢
    rw [List.range_succ, List.foldlM_append, hrest, List.take_succ_eq_append_getElem h, List.flatMap_append,
      List.flatMap_singleton]
    rw [Option.bind_eq_bind, Option.bind_some, List.foldlM_cons, getBEShort_bigEndian h]
    rfl

theorem rawBEToUTF8_units (units : List UInt16) :
    rawBEToUTF8 (bigEndianUTF16 units) units.length = some (units.flatMap fun unit => pushUTF8 unit.toInt16.toInt) := by
  rw [rawBEToUTF8_take (Nat.le_refl _), List.take_length]

theorem toInt16_toInt (unit : UInt16) :
    unit.toInt16.toInt = if unit.toNat < 0x8000 then (unit.toNat : Int) else unit.toNat - 0x10000 := by
  have hint : unit.toInt16.toInt = if 2 * unit.toNat < 2 ^ 16 then (unit.toNat : Int) else unit.toNat - (2 ^ 16 : Nat) :=
    BitVec.toInt_eq_toNat_cond unit.toBitVec
  rw [hint]
  split
  next => rw [if_pos (by omega)]
  next => rw [if_neg (by omega)]; rfl

theorem ofInt_ofNat {c : Int} {n : Nat} (h : c = n) : UInt8.ofInt c = UInt8.ofNat n := by
  rw [h, UInt8.ofInt]
  apply UInt8.toNat_inj.mp
  rw [UInt8.toNat_ofNat', UInt8.toNat_ofNat']
  omega

theorem char_toNat {n : Nat} (h : n < 0xd800 ∨ 0xdfff < n ∧ n < 0x110000) : (Char.ofNat n).toNat = n := by
  rw [Char.ofNat, dif_pos h]
  rfl

/-- Up to `0x7ff` a unit is written as its character. -/
theorem pushUTF8_small (h : unit.toNat < 0x800) :
    pushUTF8 unit.toInt16.toInt = String.utf8EncodeChar (Char.ofNat unit.toNat) := by
  rw [toInt16_toInt, if_pos (by omega), utf8EncodeChar_toNat, char_toNat (by omega), pushUTF8]
  generalize unit.toNat = n at h
  by_cases hshort : n ≤ 0x7f
  · rw [if_pos (by omega), if_pos hshort, ofInt_ofNat rfl]
  · rw [if_neg (by omega), if_pos (by omega), if_neg hshort, if_pos (by omega),
      ofInt_ofNat (n := n / 64 % 0x20 + 0xc0) (by omega), ofInt_ofNat (n := n % 0x40 + 0x80) (by omega)]

/-- A unit from `0x800` on gives one byte when it is negative, and otherwise nothing. -/
theorem pushUTF8_large (unit : UInt16) (h : 0x800 ≤ unit.toNat) : (pushUTF8 unit.toInt16.toInt).length ≤ 1 := by
  have hlt := unit.toNat_lt
  rw [toInt16_toInt, pushUTF8]
  generalize unit.toNat = n at h hlt
  by_cases hsign : n < 0x8000
  · rw [if_pos hsign, if_neg (by omega), if_neg (by omega), if_pos (by omega)]
    exact Nat.zero_le 1
  · rw [if_neg hsign, if_pos (by omega)]
    exact Nat.le_refl 1

end Units

section Strings

open Unicode

variable {unit : UInt16} {units : List UInt16}

theorem NoSurrogate.char_toNat (h : NoSurrogate unit) : (Char.ofNat unit.toNat).toNat = unit.toNat := by
  have hlt := unit.toNat_lt
  unfold NoSurrogate at h
  exact P2PChat.char_toNat (by omega)

theorem utf16_chars (h : ∀ unit ∈ units, NoSurrogate unit) : utf16 (chars units) = units := by
  induction units with
  | nil => rfl
  | cons unit units ih =>
    obtain ⟨hunit, hunits⟩ := List.forall_mem_cons.mp h
    have hchar : utf16Char (Char.ofNat unit.toNat) = [unit] := by
      have hlt := unit.toNat_lt
      rw [utf16Char, hunit.char_toNat, if_pos (by omega), UInt16.ofNat_toNat]
    show utf16Char (Char.ofNat unit.toNat) ++ utf16 (chars units) = _
    rw [hchar, ih hunits]
    rfl

/-- Units that are too large make the answer shorter than it should be. -/
theorem pushUTF8_units (h : ∀ unit ∈ units, NoSurrogate unit) :
    (units.flatMap fun unit => pushUTF8 unit.toInt16.toInt).length ≤ (utf8 (chars units)).length ∧
      ((units.flatMap fun unit => pushUTF8 unit.toInt16.toInt) = utf8 (chars units) ↔
        ∀ unit ∈ units, unit.toNat < 0x800) := by
  induction units with
  | nil => exact ⟨Nat.le_refl _, iff_of_true rfl nofun⟩
  | cons unit units ih =>
    obtain ⟨hunit, hunits⟩ := List.forall_mem_cons.mp h
    obtain ⟨hle, hsame⟩ := ih hunits
    have hcons : utf8 (chars (unit :: units)) = String.utf8EncodeChar (Char.ofNat unit.toNat) ++ utf8 (chars units) := rfl
    rw [List.flatMap_cons, hcons, List.length_append, List.length_append, List.forall_mem_cons]
    by_cases hsmall : unit.toNat < 0x800
    · rw [pushUTF8_small hsmall, List.append_cancel_left_eq, hsame]
      exact ⟨Nat.add_le_add_left hle _, ⟨fun hall => ⟨hsmall, hall⟩, And.right⟩⟩
    · have hpushed := pushUTF8_large unit (by omega)
      have hlonger : 3 ≤ (String.utf8EncodeChar (Char.ofNat unit.toNat)).length := by
        rw [utf8EncodeChar_toNat, hunit.char_toNat, if_neg (by omega), if_neg (by omega)]
        split
        next => exact Nat.le_refl 3
        next => exact Nat.le_succ 3
      refine ⟨by omega, iff_of_false (fun heq => ?_) fun hall => hsmall hall.1⟩
      have hlength := congrArg List.length heq
      rw [List.length_append, List.length_append] at hlength
      omega

theorem utf8ToRawBEUTF16_utf8 (cs : List Char) : utf8ToRawBEUTF16 (utf8 cs) = some ((utf16 cs).map htons) := by
  induction cs with
  | nil => exact utf8ToRawBEUTF16.eq_1
  | cons c cs ih =>
    rw [utf8_cons, utf8ToRawBEUTF16_sequence (sequence_char c), ih, pushUTF16_char, Option.map_some, utf16, utf16,
      List.flatMap_cons, List.map_append]

theorem readString_take {count : Nat} {r : Ring} (h : r.Valid) (hcount : count ≤ r.unread.length) :
    (r.readString count).1 = some (r.unread.take count) := by
  rw [Ring.readString, if_neg (by simpa [Ring.canReadBytes, Ring.getReadableSpace_eq] using hcount), Ring.get_fst h hcount]

/-- The units are written as their characters, come back from these, and are read so from every buffer that has them
next. -/
structure ConvertsUnits (units : List UInt16) : Prop where
  converts : rawBEToUTF8 (bigEndianUTF16 units) units.length = some (utf8 (chars units))
  inverts : ((rawBEToUTF8 (bigEndianUTF16 units) units.length).bind utf8ToRawBEUTF16).map memory =
    some (bigEndianUTF16 units)
  reads : ∀ r : Ring, r.Valid → ∀ rest, r.unread = bigEndianUTF16 units ++ rest →
    (r.readUTF16String units.length).1 = some (utf8 (chars units))

/-- Units that are not surrogates are converted just when each is below `0x800`. -/
theorem convertsUnits_iff (h : ∀ unit ∈ units, NoSurrogate unit) :
    ConvertsUnits units ↔ ∀ unit ∈ units, unit.toNat < 0x800 := by
  rw [← (pushUTF8_units h).2]
  constructor
  · rintro ⟨hconverts, _, _⟩
    exact Option.some.inj ((rawBEToUTF8_units units).symm.trans hconverts)
  · intro hsame
    have hconverts : rawBEToUTF8 (bigEndianUTF16 units) units.length = some (utf8 (chars units)) := by
      rw [rawBEToUTF8_units, hsame]
    refine ⟨hconverts, ?_, fun r hr rest hrest => ?_⟩
    · rw [hconverts, Option.bind_some, utf8ToRawBEUTF16_utf8, Option.map_some, memory_htons, utf16_chars h]
    · have hlength := bigEndianUTF16_length units
      have hread : (r.readString (units.length * 2)).1 = some (bigEndianUTF16 units) := by
        rw [readString_take hr (by rw [hrest, List.length_append]; omega), hrest, ← hlength, List.take_left]
      rw [Ring.readUTF16String]
      split
      next hnone =>
        rw [hnone] at hread
        cases hread
      next rawData r' hsome =>
        rw [hsome] at hread
        rw [Option.some.inj hread, hconverts]

theorem latin_convertsUnits_iff : ConvertsUnits [0x41, 0xe9] ↔ ∀ unit ∈ [0x41, 0xe9], UInt16.toNat unit < 0x800 :=
  convertsUnits_iff (by simp [NoSurrogate])

/-- `U+20AC` is dropped. -/
theorem euro_convertsUnits : ¬∀ units, (∀ unit ∈ units, NoSurrogate unit) → ConvertsUnits units := by
  intro h
  have hconverts := (h [0x20ac] (by simp [NoSurrogate])).converts
  revert hconverts
  decide

end Strings

end P2PChat

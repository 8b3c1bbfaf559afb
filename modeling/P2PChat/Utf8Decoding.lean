import P2PChat.Endianness
import P2PChat.Ring
import P2PChat.Unicode

namespace P2PChat

section Definitions

def trailingBytesForUTF8 : List Nat :=
  List.replicate 192 0 ++ List.replicate 32 1 ++ List.replicate 16 2 ++ List.replicate 8 3 ++ List.replicate 4 4 ++
    List.replicate 4 5

def offsetsFromUTF8 : List UInt32 := [0x00000000, 0x00003080, 0x000e2080, 0x03c82080, 0xfa082080, 0x82082080]

namespace IsLegalUTF8

/-- `case 1` and what is after the `switch`. -/
def case1 (source : AString) : Option Bool := do
  let lead ← source[0]?
  if 0x80 ≤ lead ∧ lead < 0xc2 then pure false else pure !(0xf4 < lead)

def case2 (source : AString) : Option Bool := do
  let a ← source[1]?
  if 0xbf < a then pure false
  else
    let lead ← source[0]?
    let wrong : Bool :=
      if lead = 0xe0 then a < 0xa0
      else if lead = 0xed then 0x9f < a
      else if lead = 0xf0 then a < 0x90
      else if lead = 0xf4 then 0x8f < a
      else a < 0x80
    if wrong then pure false else case1 source

def case3 (source : AString) : Option Bool := do
  let a ← source[2]?
  if a < 0x80 ∨ 0xbf < a then pure false else case2 source

def case4 (source : AString) : Option Bool := do
  let a ← source[3]?
  if a < 0x80 ∨ 0xbf < a then pure false else case3 source

end IsLegalUTF8

/-- `none` when a byte outside the source is read. -/
def isLegalUTF8 (source : AString) : Nat → Option Bool
  | 4 => IsLegalUTF8.case4 source
  | 3 => IsLegalUTF8.case3 source
  | 2 => IsLegalUTF8.case2 source
  | 1 => IsLegalUTF8.case1 source
  | _ => some false

/-- The `switch` that reads the bytes of a character. -/
def readBytes : Nat → AString → UInt32 → Option UInt32
  | 0, b :: _, ch => some (ch + b.toUInt32)
  | n + 1, b :: source, ch => readBytes n source ((ch + b.toUInt32) <<< 6)
  | _, [], _ => none

/-- What is pushed for a character, in the order of the network. -/
def pushUTF16 (ch : UInt32) : List UInt16 :=
  if ch ≤ 0xffff then
    if 0xd800 ≤ ch ∧ ch ≤ 0xdfff then [htons 0x20] else [htons ch.toUInt16]
  else if 0x10ffff < ch then [htons 0x20]
  else [htons (((ch - 0x10000) >>> 10) + 0xd800).toUInt16, htons (((ch - 0x10000) &&& 0x3ff) + 0xdc00).toUInt16]

/-- `none` when a byte outside the string is read. -/
def utf8ToRawBEUTF16 : AString → Option (List UInt16)
  | [] => some []
  | lead :: rest => do
    let extraBytesToRead ← trailingBytesForUTF8[lead.toNat]?
    if (lead :: rest).length ≤ extraBytesToRead then pure []
    else
      let legal ← isLegalUTF8 (lead :: rest) (extraBytesToRead + 1)
      if !legal then pure []
      else
        let ch ← readBytes extraBytesToRead (lead :: rest) 0
        let offset ← offsetsFromUTF8[extraBytesToRead]?
        let more ← utf8ToRawBEUTF16 (rest.drop extraBytesToRead)
        pure (pushUTF16 (ch - offset) ++ more)
termination_by source => source.length
decreasing_by
  rw [List.length_drop, List.length_cons]
  omega

/-- The bytes of a string of units in the memory of a little-endian host. -/
def memory (units : List UInt16) : AString := units.flatMap fun unit => LittleEndian.bytes 2 unit.toNat

/-- UTF-16 with the high byte of each unit first. -/
def bigEndianUTF16 (units : List UInt16) : AString :=
  units.flatMap fun unit => [UInt8.ofNat (unit.toNat / 256), UInt8.ofNat unit.toNat]

/-- A lead byte whose second byte is only compared with the highest one. -/
inductive Unchecked : AString → Prop where
  | surrogate {b c : UInt8} (hb : b.toNat < 0x80) (hc : Unicode.Tail c) : Unchecked [0xed, b, c]
  | highest {b c d : UInt8} (hb : b.toNat < 0x80) (hc : Unicode.Tail c) (hd : Unicode.Tail d) :
      Unchecked [0xf4, b, c, d]

end Definitions

section Legality

open Unicode IsLegalUTF8

variable {a b c d : UInt8} {rest : AString}

def LegalLead (a : UInt8) : Prop := ¬(0x80 ≤ a.toNat ∧ a.toNat < 0xc2) ∧ a.toNat ≤ 0xf4

def LegalSecond (a b : UInt8) : Prop :=
  b.toNat ≤ 0xbf ∧ (a.toNat = 0xe0 → 0xa0 ≤ b.toNat) ∧ (a.toNat = 0xed → b.toNat ≤ 0x9f) ∧
    (a.toNat = 0xf0 → 0x90 ≤ b.toNat) ∧ (a.toNat = 0xf4 → b.toNat ≤ 0x8f) ∧
    (a.toNat ≠ 0xe0 → a.toNat ≠ 0xed → a.toNat ≠ 0xf0 → a.toNat ≠ 0xf4 → 0x80 ≤ b.toNat)

instance : Decidable (LegalLead a) := inferInstanceAs (Decidable (_ ∧ _))

instance : Decidable (LegalSecond a b) := inferInstanceAs (Decidable (_ ∧ _))

instance : Decidable (Tail a) := inferInstanceAs (Decidable (_ ∧ _))

theorem case1_eq : case1 (a :: rest) = some (decide (LegalLead a)) := by
  show (if 0x80 ≤ a ∧ a < 0xc2 then some false else some !(0xf4 < a)) = _
  simp only [UInt8.le_iff_toNat_le, UInt8.lt_iff_toNat_lt, UInt8.reduceToNat, LegalLead]
  split
  next h => simp [h]
  next h => simp [h, ← decide_not]

theorem case2_eq : case2 (a :: b :: rest) = some (decide (LegalSecond a b ∧ LegalLead a)) := by
  show (if 0xbf < b then some false
    else if (if a = 0xe0 then decide (b < 0xa0) else if a = 0xed then decide (0x9f < b)
      else if a = 0xf0 then decide (b < 0x90) else if a = 0xf4 then decide (0x8f < b) else decide (b < 0x80)) = true
    then some false else case1 (a :: b :: rest)) = _
  rw [case1_eq]
  simp only [UInt8.lt_iff_toNat_lt, ← UInt8.toNat_inj, UInt8.reduceToNat]
  by_cases hhigh : 0xbf < b.toNat
  · have hillegal : ¬(LegalSecond a b ∧ LegalLead a) := fun h => absurd h.1.1 (by omega)
    rw [if_pos hhigh, decide_eq_false hillegal]
  · have hwrong : (if a.toNat = 0xe0 then decide (b.toNat < 0xa0) else if a.toNat = 0xed then decide (0x9f < b.toNat)
        else if a.toNat = 0xf0 then decide (b.toNat < 0x90) else if a.toNat = 0xf4 then decide (0x8f < b.toNat)
        else decide (b.toNat < 0x80)) = true ↔ ¬LegalSecond a b := by
      unfold LegalSecond
      split
      next => rw [decide_eq_true_iff]; omega
      next =>
        split
        next => rw [decide_eq_true_iff]; omega
        next =>
          split
          next => rw [decide_eq_true_iff]; omega
          next =>
            split
            next => rw [decide_eq_true_iff]; omega
            next => rw [decide_eq_true_iff]; omega
    rw [if_neg hhigh]
    by_cases hlegal : LegalSecond a b
    · rw [if_neg (mt hwrong.mp (not_not_intro hlegal))]
      simp [hlegal]
    · rw [if_pos (hwrong.mpr hlegal)]
      simp [hlegal]

theorem tail_eq {following : Option Bool} :
    (if a < 0x80 ∨ 0xbf < a then some false else following) = if Tail a then following else some false := by
  have hrange : (a < 0x80 ∨ 0xbf < a) ↔ ¬Tail a := by
    simp only [UInt8.lt_iff_toNat_lt, UInt8.reduceToNat, Tail]
    omega
  by_cases h : Tail a
  · rw [if_pos h, if_neg (mt hrange.mp (not_not_intro h))]
  · rw [if_neg h, if_pos (hrange.mpr h)]

theorem case3_eq :
    case3 (a :: b :: c :: rest) = some (decide (Tail c ∧ LegalSecond a b ∧ LegalLead a)) := by
  show (if c < 0x80 ∨ 0xbf < c then some false else case2 (a :: b :: c :: rest)) = _
  rw [tail_eq, case2_eq]
  split
  next h => simp [h]
  next h => simp [h]

theorem case4_eq :
    case4 (a :: b :: c :: d :: rest) = some (decide (Tail d ∧ Tail c ∧ LegalSecond a b ∧ LegalLead a)) := by
  show (if d < 0x80 ∨ 0xbf < d then some false else case3 (a :: b :: c :: d :: rest)) = _
  rw [tail_eq, case3_eq]
  split
  next h => simp [h]
  next h => simp [h]

end Legality

section Steps

open Unicode

variable {a b c d lead : UInt8} {rest : AString} {extra : Nat}

theorem trailingBytesForUTF8_eq (lead : UInt8) :
    trailingBytesForUTF8[lead.toNat]? = some (if lead.toNat < 0xc0 then 0 else if lead.toNat < 0xe0 then 1
      else if lead.toNat < 0xf0 then 2 else if lead.toNat < 0xf8 then 3 else if lead.toNat < 0xfc then 4 else 5) := by
  have hall : ∀ n < 256, trailingBytesForUTF8[n]? = some (if n < 0xc0 then 0 else if n < 0xe0 then 1
      else if n < 0xf0 then 2 else if n < 0xf8 then 3 else if n < 0xfc then 4 else 5) := by
    decide +kernel
  exact hall lead.toNat lead.toNat_lt

theorem utf8ToRawBEUTF16_short (htrailing : trailingBytesForUTF8[lead.toNat]? = some extra)
    (hshort : (lead :: rest).length ≤ extra) : utf8ToRawBEUTF16 (lead :: rest) = some [] := by
  rw [utf8ToRawBEUTF16, htrailing, Option.bind_eq_bind, Option.bind_some, if_pos hshort]
  rfl

theorem utf8ToRawBEUTF16_illegal (htrailing : trailingBytesForUTF8[lead.toNat]? = some extra)
    (hillegal : isLegalUTF8 (lead :: rest) (extra + 1) = some false) : utf8ToRawBEUTF16 (lead :: rest) = some [] := by
  rw [utf8ToRawBEUTF16, htrailing, Option.bind_eq_bind, Option.bind_some, hillegal]
  split
  next => rfl
  next => rfl

theorem utf8ToRawBEUTF16_next {ch offset : UInt32} (htrailing : trailingBytesForUTF8[lead.toNat]? = some extra)
    (hlength : extra < (lead :: rest).length) (hlegal : isLegalUTF8 (lead :: rest) (extra + 1) = some true)
    (hread : readBytes extra (lead :: rest) 0 = some ch) (hoffset : offsetsFromUTF8[extra]? = some offset) :
    utf8ToRawBEUTF16 (lead :: rest) =
      (utf8ToRawBEUTF16 (rest.drop extra)).map (pushUTF16 (ch - offset) ++ ·) := by
  rw [utf8ToRawBEUTF16, htrailing, Option.bind_eq_bind, Option.bind_some, if_neg (by omega), hlegal, hread, hoffset]
  rcases utf8ToRawBEUTF16 (rest.drop extra) with _ | more
  · rfl
  · rfl

theorem pushUTF16_char (c : Char) : pushUTF16 (UInt32.ofNat c.toNat) = (utf16Char c).map htons := by
  have hvalid := toNat_valid c
  unfold pushUTF16 utf16Char
  generalize c.toNat = n at hvalid
  have hn : (UInt32.ofNat n).toNat = n := by
    rw [UInt32.toNat_ofNat']
    omega
  simp only [UInt32.le_iff_toNat_le, UInt32.lt_iff_toNat_lt, hn, UInt32.reduceToNat]
  by_cases hbmp : n < 0x10000
  · have hunit : (UInt32.ofNat n).toUInt16 = UInt16.ofNat n := by
      apply UInt16.toNat_inj.mp
      rw [UInt32.toNat_toUInt16, hn, UInt16.toNat_ofNat']
    rw [if_pos (by omega), if_neg (by omega), if_pos hbmp, hunit]
    rfl
  · have hsub : (UInt32.ofNat n - 0x10000).toNat = n - 0x10000 := by
      rw [UInt32.toNat_sub_of_le _ _ (UInt32.le_iff_toNat_le.mpr (by rw [hn]; show 0x10000 ≤ n; omega)), hn]
      rfl
    have hhigh : ((UInt32.ofNat n - 0x10000) >>> 10 + 0xd800).toUInt16 =
        UInt16.ofNat (0xd800 + (n - 0x10000) / 0x400) := by
      apply UInt16.toNat_inj.mp
      rw [UInt32.toNat_toUInt16, UInt32.toNat_add, UInt32.toNat_shiftRight, hsub, UInt16.toNat_ofNat']
      show ((n - 0x10000) >>> 10 + 0xd800) % 2 ^ 32 % 2 ^ 16 = _
      rw [Nat.shiftRight_eq_div_pow]
      omega
    have hlow : (((UInt32.ofNat n - 0x10000) &&& 0x3ff) + 0xdc00).toUInt16 =
        UInt16.ofNat (0xdc00 + (n - 0x10000) % 0x400) := by
      apply UInt16.toNat_inj.mp
      have hmask : (0x3ff : UInt32).toNat = 2 ^ 10 - 1 := rfl
      have hstart : (0xdc00 : UInt32).toNat = 0xdc00 := rfl
      rw [UInt32.toNat_toUInt16, UInt32.toNat_add, UInt32.toNat_and, hsub, hmask, hstart, UInt16.toNat_ofNat',
        Nat.and_two_pow_sub_one_eq_mod]
      omega
    rw [if_neg (by omega), if_neg (by omega), if_neg hbmp, hhigh, hlow]
    rfl

theorem pushed_offset {ch offset : UInt32} {n : Nat} (h : ch.toNat = n + offset.toNat) :
    ch - offset = UInt32.ofNat n := by
  have hlt := ch.toNat_lt
  apply UInt32.toNat_inj.mp
  rw [UInt32.toNat_sub, UInt32.toNat_ofNat']
  omega

theorem first_toNat (b : UInt8) : (0 + b.toUInt32).toNat = b.toNat := by
  rw [UInt32.zero_add, UInt8.toNat_toUInt32]

theorem shifted_toNat {ch : UInt32} {n : Nat} (hch : ch.toNat = n) (hn : n < 0x1000000) (b : UInt8) :
    (ch <<< 6 + b.toUInt32).toNat = n * 0x40 + b.toNat := by
  have hb := b.toNat_lt
  have hshift : (ch <<< 6).toNat = n * 0x40 := by
    rw [UInt32.toNat_shiftLeft, hch]
    show n <<< 6 % 2 ^ 32 = n * 0x40
    rw [Nat.shiftLeft_eq]
    omega
  rw [UInt32.toNat_add, hshift, UInt8.toNat_toUInt32]
  omega

/-- The bytes of a character are read, and it is pushed. -/
theorem utf8ToRawBEUTF16_sequence {s : AString} {n : Nat} (h : Sequence s n) (rest : AString) :
    utf8ToRawBEUTF16 (s ++ rest) = (utf8ToRawBEUTF16 rest).map (pushUTF16 (UInt32.ofNat n) ++ ·) := by
  cases h with
  | @one a ha =>
    have htrailing := trailingBytesForUTF8_eq a
    rw [if_pos (by omega)] at htrailing
    have hlegal : isLegalUTF8 (a :: rest) 1 = some true := by
      rw [isLegalUTF8, case1_eq, decide_eq_true]
      unfold LegalLead
      omega
    have hnext := utf8ToRawBEUTF16_next htrailing (by simp) hlegal rfl rfl
    rw [pushed_offset (first_toNat a)] at hnext
    exact hnext
  | @two a b n ha hb hn =>
    have htrailing := trailingBytesForUTF8_eq a
    rw [if_neg (by omega), if_pos (by omega)] at htrailing
    have hlegal : isLegalUTF8 (a :: b :: rest) 2 = some true := by
      rw [isLegalUTF8, case2_eq, decide_eq_true]
      unfold LegalLead LegalSecond
      unfold Tail at hb
      omega
    have hnext := utf8ToRawBEUTF16_next htrailing (by simp) hlegal rfl rfl
    have hvalue := shifted_toNat (first_toNat a) (by omega) b
    rw [pushed_offset (hvalue.trans hn)] at hnext
    exact hnext
  | @three a b c n ha hb hc hshort hsurrogate hn =>
    have htrailing := trailingBytesForUTF8_eq a
    rw [if_neg (by omega), if_neg (by omega), if_pos (by omega)] at htrailing
    have hlegal : isLegalUTF8 (a :: b :: c :: rest) 3 = some true := by
      rw [isLegalUTF8, case3_eq, decide_eq_true]
      refine ⟨hc, ?_⟩
      unfold LegalLead LegalSecond
      unfold Tail at hb
      omega
    have hnext := utf8ToRawBEUTF16_next htrailing (by simp) hlegal rfl rfl
    have hvalue := shifted_toNat (shifted_toNat (first_toNat a) (by omega) b)
      (by have := b.toNat_lt; omega) c
    rw [pushed_offset (n := n) (hvalue.trans (by show _ = n + 0xe2080; omega))] at hnext
    exact hnext
  | @four a b c d n ha hb hc hd hshort hhigh hn =>
    have htrailing := trailingBytesForUTF8_eq a
    rw [if_neg (by omega), if_neg (by omega), if_neg (by omega), if_pos (by omega)] at htrailing
    have hlegal : isLegalUTF8 (a :: b :: c :: d :: rest) 4 = some true := by
      rw [isLegalUTF8, case4_eq, decide_eq_true]
      refine ⟨hd, hc, ?_⟩
      unfold LegalLead LegalSecond
      unfold Tail at hb
      omega
    have hnext := utf8ToRawBEUTF16_next htrailing (by simp) hlegal rfl rfl
    have hvalue := shifted_toNat (shifted_toNat (shifted_toNat (first_toNat a)
      (by omega) b) (by have := b.toNat_lt; omega) c) (by have := b.toNat_lt; have := c.toNat_lt; omega) d
    rw [pushed_offset (n := n) (hvalue.trans (by show _ = n + 0x3c82080; omega))] at hnext
    exact hnext

theorem utf8ToRawBEUTF16_unchecked {s : AString} (h : Unchecked s) (rest : AString) :
    ∃ ch, utf8ToRawBEUTF16 (s ++ rest) = (utf8ToRawBEUTF16 rest).map (pushUTF16 ch ++ ·) := by
  cases h with
  | @surrogate b c hb hc =>
    have hlegal : isLegalUTF8 (0xed :: b :: c :: rest) 3 = some true := by
      rw [isLegalUTF8, case3_eq, decide_eq_true]
      refine ⟨hc, ?_⟩
      simp only [LegalLead, LegalSecond, UInt8.reduceToNat]
      omega
    exact ⟨_, utf8ToRawBEUTF16_next (by decide) (by simp) hlegal rfl rfl⟩
  | @highest b c d hb hc hd =>
    have hlegal : isLegalUTF8 (0xf4 :: b :: c :: d :: rest) 4 = some true := by
      rw [isLegalUTF8, case4_eq, decide_eq_true]
      refine ⟨hd, hc, ?_⟩
      simp only [LegalLead, LegalSecond, UInt8.reduceToNat]
      omega
    exact ⟨_, utf8ToRawBEUTF16_next (by decide) (by simp) hlegal rfl rfl⟩

/-- What is legal is the start of a character, or unchecked. -/
theorem legal_three (h : Tail c ∧ LegalSecond a b ∧ LegalLead a) (hlead : 0xe0 ≤ a.toNat ∧ a.toNat ≤ 0xef) :
    (∃ n, Sequence [a, b, c] n) ∨ Unchecked [a, b, c] := by
  obtain ⟨hc, hsecond, _⟩ := h
  unfold LegalSecond at hsecond
  by_cases hb : Tail b
  · refine .inl ⟨a.toNat * 0x1000 + b.toNat * 0x40 + c.toNat - 0xe2080,
      .three hlead hb hc (by omega) (by omega) ?_⟩
    unfold Tail at hb hc
    omega
  · unfold Tail at hb
    have ha : a = 0xed := by
      apply UInt8.toNat_inj.mp
      show a.toNat = 0xed
      omega
    rw [ha]
    exact .inr (.surrogate (by omega) hc)

theorem legal_four (h : Tail d ∧ Tail c ∧ LegalSecond a b ∧ LegalLead a) (hlead : 0xf0 ≤ a.toNat) :
    (∃ n, Sequence [a, b, c, d] n) ∨ Unchecked [a, b, c, d] := by
  obtain ⟨hd, hc, hsecond, hlegal⟩ := h
  unfold LegalSecond at hsecond
  unfold LegalLead at hlegal
  by_cases hb : Tail b
  · refine .inl ⟨a.toNat * 0x40000 + b.toNat * 0x1000 + c.toNat * 0x40 + d.toNat - 0x3c82080,
      .four (by omega) hb hc hd (by omega) (by omega) ?_⟩
    unfold Tail at hb hc hd
    omega
  · unfold Tail at hb
    have ha : a = 0xf4 := by
      apply UInt8.toNat_inj.mp
      show a.toNat = 0xf4
      omega
    rw [ha]
    exact .inr (.highest (by omega) hc hd)

/-- Where neither starts, nothing is put out. -/
theorem utf8ToRawBEUTF16_stop {s : AString} (hstuck : Stuck s) (hchecked : ∀ t, Unchecked t → ¬t <+: s) :
    utf8ToRawBEUTF16 s = some [] := by
  have hnone : ∀ {t n}, Sequence t n → ¬t <+: s := by
    rintro t n hsequence hstart
    obtain ⟨c, rfl, _⟩ := sequence_iff.mp hsequence
    exact hstuck c hstart
  have heither : ∀ {t}, (∃ n, Sequence t n) ∨ Unchecked t → ¬t <+: s := by
    rintro t (⟨n, hsequence⟩ | hunchecked)
    · exact hnone hsequence
    · exact hchecked t hunchecked
  rcases s with _ | ⟨a, rest⟩
  · rw [utf8ToRawBEUTF16]
  have htrailing := trailingBytesForUTF8_eq a
  by_cases h0 : a.toNat < 0xc0
  · rw [if_pos h0] at htrailing
    have hillegal : ¬LegalLead a := by
      intro hlegal
      unfold LegalLead at hlegal
      exact hnone (.one (a := a) (by omega)) ⟨rest, rfl⟩
    refine utf8ToRawBEUTF16_illegal htrailing ?_
    show IsLegalUTF8.case1 (a :: rest) = some false
    rw [case1_eq, decide_eq_false hillegal]
  rw [if_neg h0] at htrailing
  by_cases h1 : a.toNat < 0xe0
  · rw [if_pos h1] at htrailing
    rcases rest with _ | ⟨b, rest⟩
    · exact utf8ToRawBEUTF16_short htrailing (by simp)
    have hillegal : ¬(LegalSecond a b ∧ LegalLead a) := by
      rintro ⟨hsecond, hlegal⟩
      unfold LegalSecond at hsecond
      unfold LegalLead at hlegal
      exact hnone (.two (a := a) (b := b) (n := a.toNat * 0x40 + b.toNat - 0x3080) (by omega)
        (by unfold Tail; omega) (by omega)) ⟨rest, rfl⟩
    refine utf8ToRawBEUTF16_illegal htrailing ?_
    show IsLegalUTF8.case2 (a :: b :: rest) = some false
    rw [case2_eq, decide_eq_false hillegal]
  rw [if_neg h1] at htrailing
  by_cases h2 : a.toNat < 0xf0
  · rw [if_pos h2] at htrailing
    rcases rest with _ | ⟨b, _ | ⟨c, rest⟩⟩
    · exact utf8ToRawBEUTF16_short htrailing (by simp)
    · exact utf8ToRawBEUTF16_short htrailing (by simp)
    have hillegal : ¬(Tail c ∧ LegalSecond a b ∧ LegalLead a) :=
      fun hlegal => heither (legal_three hlegal (by omega)) ⟨rest, rfl⟩
    refine utf8ToRawBEUTF16_illegal htrailing ?_
    show IsLegalUTF8.case3 (a :: b :: c :: rest) = some false
    rw [case3_eq, decide_eq_false hillegal]
  rw [if_neg h2] at htrailing
  by_cases h3 : a.toNat < 0xf8
  · rw [if_pos h3] at htrailing
    rcases rest with _ | ⟨b, _ | ⟨c, _ | ⟨d, rest⟩⟩⟩
    · exact utf8ToRawBEUTF16_short htrailing (by simp)
    · exact utf8ToRawBEUTF16_short htrailing (by simp)
    · exact utf8ToRawBEUTF16_short htrailing (by simp)
    have hillegal : ¬(Tail d ∧ Tail c ∧ LegalSecond a b ∧ LegalLead a) :=
      fun hlegal => heither (legal_four hlegal (by omega)) ⟨rest, rfl⟩
    refine utf8ToRawBEUTF16_illegal htrailing ?_
    show IsLegalUTF8.case4 (a :: b :: c :: d :: rest) = some false
    rw [case4_eq, decide_eq_false hillegal]
  · -- the lead bytes of five and six
    rw [if_neg h3] at htrailing
    refine utf8ToRawBEUTF16_illegal htrailing ?_
    split
    next => rfl
    next => rfl

end Steps

section Strings

open Unicode

variable {cs : List Char} {s t : AString}

theorem memory_append (units more : List UInt16) : memory (units ++ more) = memory units ++ memory more :=
  List.flatMap_append

theorem memory_eq_nil {units : List UInt16} : memory units = [] ↔ units = [] := by
  rw [memory, List.flatMap_eq_nil_iff]
  refine ⟨fun hall => ?_, fun hnil => by rw [hnil]; exact nofun⟩
  rcases units with _ | ⟨unit, units⟩
  · rfl
  · exact absurd (hall unit List.mem_cons_self) (List.cons_ne_nil _ _)

/-- In memory the high byte of a unit in network order comes first. -/
theorem memory_htons (units : List UInt16) : memory (units.map htons) = bigEndianUTF16 units := by
  rw [memory, List.flatMap_map, bigEndianUTF16]
  refine List.flatMap_congr fun unit _ => ?_
  rw [htons_toNat, LittleEndian.bytes_reversed]
  rfl

theorem Unchecked.stuck (h : Unchecked t) (rest : AString) : Stuck (t ++ rest) := by
  intro c hstart
  cases h with
  | surrogate hb hc =>
    obtain ⟨htail, _⟩ := (sequence_char c).second hstart (by decide)
    omega
  | highest hb hc hd =>
    obtain ⟨htail, _⟩ := (sequence_char c).second hstart (by decide)
    omega

theorem pushUTF16_ne_nil (ch : UInt32) : pushUTF16 ch ≠ [] := by
  unfold pushUTF16
  split
  next =>
    split
    next => exact List.cons_ne_nil _ _
    next => exact List.cons_ne_nil _ _
  next =>
    split
    next => exact List.cons_ne_nil _ _
    next => exact List.cons_ne_nil _ _

/-- The longest well-formed prefix is converted, and more only when something unchecked follows it. -/
theorem utf8ToRawBEUTF16_run (s : AString) :
    ∃ cs rest more, s = utf8 cs ++ rest ∧ Stuck rest ∧
      utf8ToRawBEUTF16 s = some ((utf16 cs).map htons ++ more) ∧ (more = [] ↔ ∀ t, Unchecked t → ¬t <+: rest) := by
  induction hlength : s.length using Nat.strongRecOn generalizing s with
  | _ n ih =>
    by_cases hstuck : Stuck s
    · by_cases hchecked : ∀ t, Unchecked t → ¬t <+: s
      · exact ⟨[], s, [], rfl, hstuck, utf8ToRawBEUTF16_stop hstuck hchecked, iff_of_true rfl hchecked⟩
      · push Not at hchecked
        obtain ⟨t, ht, rest, rfl⟩ := hchecked
        have hshorter : rest.length < n := by
          rw [← hlength, List.length_append]
          cases ht <;> simp
        obtain ⟨cs, rest', more, _, _, hrest, _⟩ := ih _ hshorter rest rfl
        obtain ⟨ch, hch⟩ := utf8ToRawBEUTF16_unchecked ht rest
        refine ⟨[], t ++ rest, pushUTF16 ch ++ ((utf16 cs).map htons ++ more), rfl, hstuck, ?_, ?_⟩
        · rw [hch, hrest]
          rfl
        · refine iff_of_false ?_ fun hnone => hnone t ht (List.prefix_append _ _)
          simp [pushUTF16_ne_nil]
    · unfold Stuck at hstuck
      push Not at hstuck
      obtain ⟨c, rest, rfl⟩ := hstuck
      have hshorter : rest.length < n := by
        have hsize := c.utf8Size_pos
        rw [← hlength, List.length_append, String.length_utf8EncodeChar]
        omega
      obtain ⟨cs, rest', more, rfl, hstuck, hrest, hmore⟩ := ih _ hshorter rest rfl
      refine ⟨c :: cs, rest', more, ?_, hstuck, ?_, hmore⟩
      · rw [utf8_cons, List.append_assoc]
      · rw [utf8ToRawBEUTF16_sequence (sequence_char c), hrest, pushUTF16_char, Option.map_some, utf16, utf16,
          List.flatMap_cons, List.map_append, List.append_assoc]

/-- The answer is UTF-16 of the longest well-formed prefix. -/
def ConvertsPrefix (s : AString) : Prop :=
  ∃ cs, LongestPrefix cs s ∧ (utf8ToRawBEUTF16 s).map memory = some (bigEndianUTF16 (utf16 cs))

/-- No byte outside the string is read, and just the longest well-formed prefix is converted when nothing unchecked
follows a well-formed prefix. -/
theorem utf8ToRawBEUTF16_convertsPrefix_iff (s : AString) :
    (utf8ToRawBEUTF16 s).isSome ∧
      (ConvertsPrefix s ↔ ∀ cs t rest, s = utf8 cs ++ (t ++ rest) → ¬Unchecked t) := by
  obtain ⟨cs, rest, more, hs, hstuck, hrun, hmore⟩ := utf8ToRawBEUTF16_run s
  have hlongest : LongestPrefix cs s := longestPrefix_iff.mpr ⟨rest, hs, hstuck⟩
  have hmemory : (utf8ToRawBEUTF16 s).map memory = some (bigEndianUTF16 (utf16 cs) ++ memory more) := by
    rw [hrun, Option.map_some, memory_append, memory_htons]
  refine ⟨by rw [hrun]; rfl, ?_, fun hchecked => ⟨cs, hlongest, ?_⟩⟩
  · rintro ⟨cs', hlongest', hconverted⟩ ds t rest' hds hunchecked
    obtain rfl := hlongest.unique hlongest'
    rw [hmemory, Option.some.injEq, List.append_right_eq_self, memory_eq_nil, hmore] at hconverted
    obtain rfl := hlongest.unique (longestPrefix_iff.mpr ⟨t ++ rest', hds, hunchecked.stuck rest'⟩)
    have hrest : rest = t ++ rest' := List.append_cancel_left (hs.symm.trans hds)
    exact hconverted t hunchecked (hrest ▸ List.prefix_append t rest')
  · have hnil : more = [] := by
      rw [hmore]
      rintro t hunchecked ⟨rest', rfl⟩
      exact hchecked cs t rest' hs hunchecked
    rw [hmemory, hnil]
    exact congrArg some (List.append_nil _)

/-- `ED 41 80` is converted to `C040`. -/
theorem surrogateLead_convertsPrefix : ¬∀ s, (utf8ToRawBEUTF16 s).isSome ∧ ConvertsPrefix s := by
  intro h
  have htail : Tail 0x80 := ⟨by decide, by decide⟩
  have hunchecked : Unchecked [0xed, 0x41, 0x80] := .surrogate (by decide) htail
  obtain ⟨cs, hlongest, hconverted⟩ := (h [0xed, 0x41, 0x80]).2
  have hnone : LongestPrefix [] [0xed, 0x41, 0x80] := longestPrefix_iff.mpr ⟨_, rfl, hunchecked.stuck []⟩
  obtain rfl := hlongest.unique hnone
  have htrailing : trailingBytesForUTF8[(0xed : UInt8).toNat]? = some 2 := by decide
  have hlegal : isLegalUTF8 [0xed, 0x41, 0x80] 3 = some true := by decide
  rw [utf8ToRawBEUTF16_next htrailing (by decide) hlegal rfl rfl, List.drop_of_length_le (by decide),
    utf8ToRawBEUTF16] at hconverted
  revert hconverted
  decide

end Strings

end P2PChat

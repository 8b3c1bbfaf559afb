import P2PChat.CodecFacts
import Mathlib.Tactic.Ring

namespace P2PChat

open ByteQueue

theorem low7_toNat (b : UInt8) : (b &&& 0x7f).toNat = b.toNat % 128 := by
  rw [UInt8.toNat_and, show (0x7f : UInt8).toNat = 2 ^ 7 - 1 from rfl, Nat.and_two_pow_sub_one_eq_mod]

theorem varInt32_byte (v : UInt32) :
    ((v &&& 0x7f) ||| (if 0x7f < v then 0x80 else 0x00)).toUInt8 =
      if v.toNat < 128 then UInt8.ofNat v.toNat else UInt8.ofNat (v.toNat % 128 + 128) := by
  have hlow : (v &&& 0x7f).toNat = v.toNat % 128 := by
    rw [UInt32.toNat_and, show (0x7f : UInt32).toNat = 2 ^ 7 - 1 from rfl,
      Nat.and_two_pow_sub_one_eq_mod]
  have hhigh : (if 0x7f < v then (0x80 : UInt32) else 0x00).toNat = if 127 < v.toNat then 128 else 0 := by
    rw [apply_ite UInt32.toNat]
    exact if_congr UInt32.lt_iff_toNat_lt rfl rfl
  apply UInt8.toNat_inj.mp
  rw [UInt32.toNat_toUInt8, UInt32.toNat_or, hlow, hhigh, ← Leb128.group_toNat]

/-- The loop writes as many groups as it makes rounds, but no more than there are. -/
theorem varInt32Bytes_take (rounds : Nat) (v : UInt32) :
    varInt32Bytes rounds v = (Leb128.encode v.toNat).take rounds := by
  refine Leb128.loop_encode varInt32Bytes UInt32.toNat _ (· >>> 7) varInt32_byte (fun v => ?_) (fun _ => rfl)
    (fun rounds v => ?_) rounds v
  · rw [UInt32.toNat_shiftRight]
    simp [Nat.shiftRight_eq_div_pow]
  · exact if_congr UInt32.lt_iff_toNat_lt rfl rfl

theorem varInt32Bytes_eq (rounds : Nat) (v : UInt32) (h : v.toNat < 128 ^ (rounds + 1)) :
    varInt32Bytes (rounds + 1) v = Leb128.encode v.toNat := by
  rw [varInt32Bytes_take, List.take_of_length_le (Leb128.encode_length_le (by omega) h)]

/-- Joining bytes from bit `s` on adds the number they stand for, if no bit of it is lost. -/
theorem joinAll_bytes {α : Type} (toNat : α → Nat) (width : Nat) (join : α → UInt8 → Nat → α)
    (hjoin : ∀ v b s, s < width → toNat v < 2 ^ s → b.toNat % 128 * 2 ^ s < 2 ^ width →
      toNat (join v b s) = toNat v + b.toNat % 128 * 2 ^ s)
    (bytes : AString) {v : α} {s : Nat} (hs : ∀ i < bytes.length, s + 7 * i < width) (hv : toNat v < 2 ^ s)
    (hfits : Leb128.value bytes * 2 ^ s < 2 ^ width) :
    toNat (joinAll join v s bytes) = toNat v + Leb128.value bytes * 2 ^ s := by
  induction bytes generalizing v s with
  | nil => simp [joinAll, Leb128.value]
  | cons b bytes ih =>
    have hpow : 2 ^ (s + 7) = 128 * 2 ^ s := by ring
    have hsplit : Leb128.value (b :: bytes) * 2 ^ s =
        b.toNat % 128 * 2 ^ s + Leb128.value bytes * 2 ^ (s + 7) := by
      rw [Leb128.value, hpow]
      ring
    have hstep := hjoin v b s (hs 0 (by simp)) hv (by omega)
    have hlow : b.toNat % 128 * 2 ^ s ≤ 127 * 2 ^ s := Nat.mul_le_mul_right _ (by omega)
    have hrest : ∀ i < bytes.length, s + 7 + 7 * i < width := by
      intro i hi
      have hnext := hs (i + 1) (by simpa using hi)
      omega
    rw [joinAll, ih hrest (by omega) (by omega), hstep, hsplit]
    omega

/-- Joining the seven-bit groups of `n` from bit `s` on adds `n * 2 ^ s`. -/
theorem joinAll_encode {α : Type} (toNat : α → Nat) (width : Nat) (join : α → UInt8 → Nat → α)
    (hjoin : ∀ v b s, s < width → toNat v < 2 ^ s → b.toNat % 128 * 2 ^ s < 2 ^ width →
      toNat (join v b s) = toNat v + b.toNat % 128 * 2 ^ s)
    (n : Nat) {v : α} {s : Nat} (hs : s < width) (hv : toNat v < 2 ^ s) (hn : n * 2 ^ s < 2 ^ width) :
    toNat (joinAll join v s (Leb128.encode n)) = toNat v + n * 2 ^ s := by
  have hvalue := Leb128.value_encode n
  have hshift : ∀ i < (Leb128.encode n).length, s + 7 * i < width := fun i hi => Leb128.encode_shift hs hn hi
  rw [joinAll_bytes toNat width join hjoin (Leb128.encode n) hshift hv (by rw [hvalue]; exact hn), hvalue]

section Joins

variable [Platform]

theorem join64_toNat (v : UInt64) (b : UInt8) (s : Nat) (hs : s < 64) (hv : v.toNat < 2 ^ s)
    (hb : b.toNat % 128 * 2 ^ s < 2 ^ 64) :
    (join64 v b s).toNat = v.toNat + b.toNat % 128 * 2 ^ s := by
  rw [join64, shiftLeft64, if_pos hs, UInt64.toNat_or, UInt64.toNat_shiftLeft, UInt8.toNat_toUInt64,
    low7_toNat, UInt64.toNat_ofNat', Nat.mod_eq_of_lt (by omega : s < 2 ^ 64), Nat.mod_eq_of_lt hs,
    Nat.shiftLeft_eq, Nat.mod_eq_of_lt hb, Nat.or_comm, Nat.mul_comm _ (2 ^ s),
    ← Nat.two_pow_add_eq_or_of_lt hv]
  omega

theorem join32_toNat (v : UInt32) (b : UInt8) (s : Nat) (hs : s < 32) (hv : v.toNat < 2 ^ s)
    (hb : b.toNat % 128 * 2 ^ s < 2 ^ 32) :
    (join32 v b s).toNat = v.toNat + b.toNat % 128 * 2 ^ s := by
  rw [join32, shiftLeft32, if_pos hs, UInt32.toNat_or, UInt32.toNat_shiftLeft, UInt8.toNat_toUInt32,
    low7_toNat, UInt32.toNat_ofNat', Nat.mod_eq_of_lt (by omega : s < 2 ^ 32), Nat.mod_eq_of_lt hs,
    Nat.shiftLeft_eq, Nat.mod_eq_of_lt hb, Nat.or_comm, Nat.mul_comm _ (2 ^ s),
    ← Nat.two_pow_add_eq_or_of_lt hv]
  omega

end Joins

/-- The bytes of a VarInt. -/
def varInt (v : UInt32) : AString := Leb128.encode v.toNat

theorem varInt_length_pos (v : UInt32) : 0 < (varInt v).length := Leb128.encode_length_pos _

theorem varInt_length_le (v : UInt32) : (varInt v).length ≤ 5 := by
  have hv := v.toNat_lt
  exact Leb128.encode_length_le (by omega) (by omega)

theorem writeVarInt32_fifo (v : UInt32) (q : Fifo) : writeVarInt32 v q = q.append (varInt v) := by
  have hv := v.toNat_lt
  rw [writeVarInt32, varInt32Bytes_eq 4 v (by omega)]
  rfl

theorem parseVarIntWith_varInt {α : Type} (toNat : α → Nat) (join : α → UInt8 → Nat → α) {zero : α}
    {v : UInt32} (hvalue : toNat (joinAll join zero 0 (varInt v)) = v.toNat) (rest : AString) :
    ∃ a, parseVarIntWith join zero 0 (varInt v ++ rest) = (some a, (varInt v).length) ∧
      toNat a = v.toNat := by
  refine ⟨_, ?_, hvalue⟩
  simp only [parseVarIntWith, varInt, Leb128.firstLength_encode, List.take_left']

section Decoding

variable [Platform]

theorem parseVarInt_varInt (v : UInt32) (rest : AString) :
    parseVarInt (varInt v ++ rest) = (some v, (varInt v).length) := by
  have hv := v.toNat_lt
  have hvalue := joinAll_encode UInt64.toNat 64 join64 join64_toNat v.toNat (v := 0) (s := 0)
    (by omega) (by decide) (by omega)
  rw [show (0 : UInt64).toNat = 0 from rfl, Nat.pow_zero, Nat.mul_one, Nat.zero_add] at hvalue
  obtain ⟨a, hparse, ha⟩ := parseVarIntWith_varInt UInt64.toNat join64 hvalue rest
  have hcut : a.toUInt32 = v := by
    apply UInt32.toNat_inj.mp
    rw [UInt64.toNat_toUInt32, ha]
    omega
  simp only [parseVarInt, Parser.map, hparse, Option.map_some, hcut]

theorem parseVarInt32_varInt (v : UInt32) (rest : AString) :
    parseVarInt32 (varInt v ++ rest) = (some v, (varInt v).length) := by
  have hv := v.toNat_lt
  have hvalue := joinAll_encode UInt32.toNat 32 join32 join32_toNat v.toNat (v := 0) (s := 0)
    (by omega) (by decide) (by omega)
  rw [show (0 : UInt32).toNat = 0 from rfl, Nat.pow_zero, Nat.mul_one, Nat.zero_add] at hvalue
  obtain ⟨a, hparse, ha⟩ := parseVarIntWith_varInt UInt32.toNat join32 hvalue rest
  rw [parseVarInt32, hparse, UInt32.toNat_inj.mp ha]

theorem parseString_string {s : AString} (hs : s.length < 2 ^ 32) (rest : AString) :
    parseString (varInt (UInt32.ofNat s.length) ++ s ++ rest) =
      (some s, (varInt (UInt32.ofNat s.length) ++ s).length) := by
  have hsize : (UInt32.ofNat s.length).toNat = s.length := by
    rw [UInt32.toNat_ofNat', Nat.mod_eq_of_lt hs]
  rw [List.append_assoc]
  simp only [parseString, Parser.andThen, parseVarInt_varInt, List.drop_left', Parser.bytes, hsize,
    List.length_append, Nat.le_add_right, if_true, List.take_left']

end Decoding

theorem bigEndian_append (bytes : AString) (b : UInt8) :
    bigEndian (bytes ++ [b]) = 256 * bigEndian bytes + b.toNat := by
  simp [bigEndian]

theorem bigEndianBytes_length (width n : Nat) : (bigEndianBytes width n).length = width := by
  simp [bigEndianBytes]

theorem bigEndianBytes_succ (width n : Nat) :
    bigEndianBytes (width + 1) n = bigEndianBytes width (n / 256) ++ [UInt8.ofNat n] := by
  have hdiv : ∀ i, n / 256 ^ (i + 1) = n / 256 / 256 ^ i := by
    intro i
    rw [Nat.pow_succ', Nat.div_div_eq_div_mul]
  simp [bigEndianBytes, List.range_succ_eq_map, List.map_reverse, hdiv, Function.comp_def]

theorem bigEndian_bigEndianBytes (width n : Nat) :
    bigEndian (bigEndianBytes width n) = n % 256 ^ width := by
  induction width generalizing n with
  | zero => simp [bigEndianBytes, bigEndian, Nat.mod_one]
  | succ width ih =>
    have hpow : 256 ^ (width + 1) = 256 * 256 ^ width := Nat.pow_succ'
    have hmod : n % (256 * 256 ^ width) = n % 256 + 256 * (n / 256 % 256 ^ width) := Nat.mod_mul
    rw [bigEndianBytes_succ, bigEndian_append, ih, UInt8.toNat_ofNat', hpow, hmod]
    omega

theorem parseBE_bigEndianBytes {width n : Nat} (hn : n < 256 ^ width) (rest : AString) :
    parseBE width (bigEndianBytes width n ++ rest) = (some n, width) := by
  have hlen := bigEndianBytes_length width n
  have htake : (bigEndianBytes width n ++ rest).take width = bigEndianBytes width n :=
    List.take_left' hlen
  have hle : width ≤ (bigEndianBytes width n ++ rest).length := by
    rw [List.length_append, hlen]; omega
  simp only [parseBE, Parser.map, Parser.bytes, if_pos hle, htake, Option.map_some,
    bigEndian_bigEndianBytes, Nat.mod_eq_of_lt hn]

end P2PChat

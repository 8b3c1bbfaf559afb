import Mathlib.Data.Nat.Bitwise
import Mathlib.Tactic.IntervalCases
import P2PChat.CheckedRing
import P2PChat.TypedRoundTrip

namespace P2PChat

open ByteQueue CheckedRing

namespace HostOrder

/-- The three coordinates in one word: 26 bits, 12 bits and 26 bits. -/
def packedPosition (blockX blockY blockZ : Int32) : Int64 :=
  ((blockX &&& 0x3FFFFFF).toInt64 <<< 38) ||| ((blockY &&& 0xFFF).toInt64 <<< 26) |||
    (blockZ &&& 0x3FFFFFF).toInt64

/-- The height is made negative with the range of a number that is one bit shorter. -/
def unpackedPosition (value : Int64) : Int × Int × Int :=
  (signedCoordinate ((value >>> 38) &&& 0x03ffffff).toUInt64.toUInt32 0x02000000 0x04000000,
    signedCoordinate ((value >>> 26) &&& 0x0fff).toUInt64.toUInt32 0x0800 0x0800,
    signedCoordinate (value &&& 0x03ffffff).toUInt64.toUInt32 0x02000000 0x04000000)

section Definitions

variable {β : Type} [ByteQueue β]

def writePosition64 (blockX blockY blockZ : Int32) : Writer β := writeBEInt64 (packedPosition blockX blockY blockZ)

def readPosition64 : Reader β (Int × Int × Int) := readBEInt64.map unpackedPosition

end Definitions

section Coordinates

variable (x y z : Int32)

theorem packedPosition_toBitVec :
    (packedPosition x y z).toBitVec = ((x.toBitVec &&& 0x3FFFFFF#32).signExtend 64 <<< 38) |||
      ((y.toBitVec &&& 0xFFF#32).signExtend 64 <<< 26) ||| (z.toBitVec &&& 0x3FFFFFF#32).signExtend 64 := by
  have h38 : (38 : Int64).toBitVec.smod 64 = 38#64 := by decide
  have h26 : (26 : Int64).toBitVec.smod 64 = 26#64 := by decide
  have hwide : (0x3FFFFFF : Int32).toBitVec = 0x3FFFFFF#32 := rfl
  have hheight : (0xFFF : Int32).toBitVec = 0xFFF#32 := rfl
  rw [packedPosition, Int64.toBitVec_or, Int64.toBitVec_or, Int64.toBitVec_shiftLeft, Int64.toBitVec_shiftLeft]
  simp only [Int32.toBitVec_toInt64, Int32.toBitVec_and, hwide, hheight]
  rw [h38, h26]
  rfl

omit x y z in
theorem field_toBitVec (value : Int64) {shift : Int64} {n : Nat} (mask : Int64)
    (hshift : shift.toBitVec.smod 64 = BitVec.ofNat 64 n) (hn : n < 64) :
    ((value >>> shift) &&& mask).toUInt64.toUInt32.toBitVec =
      ((value.toBitVec.sshiftRight n) &&& mask.toBitVec).setWidth 32 := by
  have hcut : ((value >>> shift) &&& mask).toUInt64.toUInt32.toBitVec =
      ((value >>> shift).toBitVec &&& mask.toBitVec).setWidth 32 := rfl
  have hamount : (BitVec.ofNat 64 n).toNat = n := by
    rw [BitVec.toNat_ofNat]
    omega
  rw [hcut, Int64.toBitVec_shiftRight]
  show ((value.toBitVec.sshiftRight' (shift.toBitVec.smod 64)) &&& mask.toBitVec).setWidth 32 = _
  rw [hshift, BitVec.sshiftRight', hamount]

/-- Each field comes back bit by bit: the fields do not overlap, and what is shifted in is cut off. -/
theorem blockXRaw_packed :
    ((packedPosition x y z >>> 38) &&& 0x03ffffff).toUInt64.toUInt32 = x.toUInt32 &&& 0x3FFFFFF := by
  apply UInt32.toBitVec_inj.mp
  rw [@field_toBitVec _ 38 38 _ (by decide) (by omega), packedPosition_toBitVec]
  ext i hi
  interval_cases i <;> simp [BitVec.getElem_sshiftRight, BitVec.getElem_signExtend]

theorem blockYRaw_packed :
    ((packedPosition x y z >>> 26) &&& 0x0fff).toUInt64.toUInt32 = y.toUInt32 &&& 0xFFF := by
  apply UInt32.toBitVec_inj.mp
  rw [@field_toBitVec _ 26 26 _ (by decide) (by omega), packedPosition_toBitVec]
  ext i hi
  interval_cases i <;> simp [BitVec.getElem_sshiftRight, BitVec.getElem_signExtend]

theorem blockZRaw_packed :
    (packedPosition x y z &&& 0x03ffffff).toUInt64.toUInt32 = z.toUInt32 &&& 0x3FFFFFF := by
  apply UInt32.toBitVec_inj.mp
  have hcut : (packedPosition x y z &&& 0x03ffffff).toUInt64.toUInt32.toBitVec =
      ((packedPosition x y z).toBitVec &&& 0x3ffffff#64).setWidth 32 := rfl
  rw [hcut, packedPosition_toBitVec]
  ext i hi
  interval_cases i <;> simp [BitVec.getElem_signExtend]

omit x y z in
/-- A number of `k + 1` bits comes back if the range is that of such numbers, and otherwise only if it is
not negative. -/
theorem signedCoordinate_eq {k : Nat} (hk : k < 31) {v : Int32} (hlow : -(2 ^ k : Int) ≤ v.toInt)
    (hhigh : v.toInt < 2 ^ k) (range : Int) :
    signedCoordinate (v.toUInt32 &&& UInt32.ofNat (2 ^ (k + 1) - 1)) (UInt32.ofNat (2 ^ k)) range =
      if 0 ≤ v.toInt then v.toInt else v.toInt + 2 ^ (k + 1) - range := by
  have hpow : 2 ^ (k + 1) * 2 ^ (31 - k) = 2 ^ 32 := by
    rw [← Nat.pow_add]
    exact congrArg (2 ^ ·) (by omega)
  have hdouble : 2 ^ (k + 1) = 2 * 2 ^ k := Nat.pow_succ'
  have hpos : 0 < 2 ^ k := Nat.two_pow_pos k
  have hle : 2 ^ (k + 1) ≤ 2 ^ 31 := Nat.pow_le_pow_right (by omega) (by omega)
  have hlow' : -((2 ^ k : Nat) : Int) ≤ v.toInt := by exact_mod_cast hlow
  have hhigh' : v.toInt < ((2 ^ k : Nat) : Int) := by exact_mod_cast hhigh
  obtain ⟨raw, hraw⟩ : ∃ raw, raw = v.toUInt32 &&& UInt32.ofNat (2 ^ (k + 1) - 1) := ⟨_, rfl⟩
  have hmask : (UInt32.ofNat (2 ^ (k + 1) - 1)).toNat = 2 ^ (k + 1) - 1 := by
    rw [UInt32.toNat_ofNat']
    omega
  have hcut : raw.toNat = v.toUInt32.toNat % 2 ^ (k + 1) := by
    rw [hraw, UInt32.toNat_and, hmask, Nat.and_two_pow_sub_one_eq_mod]
  have hint : v.toInt = if 2 * v.toUInt32.toNat < 2 ^ 32 then (v.toUInt32.toNat : Int)
      else (v.toUInt32.toNat : Int) - 2 ^ 32 := BitVec.toInt_eq_toNat_cond v.toBitVec
  have hu := v.toUInt32.toNat_lt
  have hraw_lt : raw.toNat < 2 ^ (k + 1) := by
    rw [hcut]
    exact Nat.mod_lt _ (Nat.two_pow_pos _)
  have hbit : (raw &&& UInt32.ofNat (2 ^ k) == 0) = decide (raw.toNat < 2 ^ k) := by
    have hhighBit : (UInt32.ofNat (2 ^ k)).toNat = 2 ^ k := by
      rw [UInt32.toNat_ofNat']
      omega
    have hmeet : raw &&& UInt32.ofNat (2 ^ k) = 0 ↔ raw.toNat < 2 ^ k := by
      rw [← UInt32.toNat_inj, UInt32.toNat_and, hhighBit, Nat.and_two_pow]
      show _ = 0 ↔ _
      rw [Nat.mul_eq_zero, or_iff_left (by omega), Bool.toNat_eq_zero]
      by_cases hhalf : raw.toNat < 2 ^ k
      · exact iff_of_true (Nat.testBit_lt_two_pow hhalf) hhalf
      · have hset := Nat.testBit_of_two_pow_le_and_two_pow_add_one_gt (Nat.le_of_not_lt hhalf) hraw_lt
        exact iff_of_false (by simp [hset]) hhalf
    rw [Bool.eq_iff_iff, beq_iff_eq, hmeet, decide_eq_true_iff]
  have hcast : ((2 ^ (k + 1) : Nat) : Int) = 2 ^ (k + 1) := by norm_cast
  rw [← hraw, signedCoordinate, hbit, ← hcast]
  by_cases hv : 0 ≤ v.toInt
  · have hsame : raw.toNat = v.toUInt32.toNat := by
      rw [hcut]
      apply Nat.mod_eq_of_lt
      split at hint <;> omega
    have hhalf : raw.toNat < 2 ^ k := by
      rw [hsame]
      split at hint <;> omega
    rw [if_pos (decide_eq_true hhalf), if_pos hv, hsame]
    split at hint <;> omega
  · obtain ⟨w, hw, hlt⟩ : ∃ w, v.toUInt32.toNat = 2 ^ (k + 1) * (2 ^ (31 - k) - 1) + w ∧ w < 2 ^ (k + 1) := by
      refine ⟨v.toUInt32.toNat - (2 ^ 32 - 2 ^ (k + 1)), ?_, ?_⟩
      · rw [Nat.mul_sub, hpow]
        split at hint <;> omega
      · omega
    have hsame : raw.toNat = w := by
      rw [hcut, hw, Nat.mul_add_mod, Nat.mod_eq_of_lt hlt]
    rw [Nat.mul_sub, hpow] at hw
    have hhalf : ¬raw.toNat < 2 ^ k := by
      rw [hsame]
      split at hint <;> omega
    rw [if_neg (by simpa using hhalf), if_neg hv, hsame]
    split at hint <;> omega

/-- Both horizontal coordinates come back, but not a height below zero. -/
theorem unpacked_packed (hx : -(2 ^ 25 : Int) ≤ x.toInt ∧ x.toInt < 2 ^ 25)
    (hy : -(2 ^ 11 : Int) ≤ y.toInt ∧ y.toInt < 2 ^ 11) (hz : -(2 ^ 25 : Int) ≤ z.toInt ∧ z.toInt < 2 ^ 25) :
    unpackedPosition (packedPosition x y z) =
      (x.toInt, if 0 ≤ y.toInt then y.toInt else y.toInt + 2048, z.toInt) := by
  have hwide : ∀ {v : Int32}, -(2 ^ 25 : Int) ≤ v.toInt ∧ v.toInt < 2 ^ 25 →
      signedCoordinate (v.toUInt32 &&& 0x3FFFFFF) 0x02000000 0x04000000 = v.toInt := by
    intro v hv
    have hback := signedCoordinate_eq (by omega) hv.1 hv.2 0x04000000
    rw [show UInt32.ofNat (2 ^ (25 + 1) - 1) = 0x3FFFFFF from rfl,
      show UInt32.ofNat (2 ^ 25) = 0x02000000 from rfl] at hback
    rw [hback]
    split
    next => rfl
    next => omega
  have hheight := signedCoordinate_eq (by omega) hy.1 hy.2 0x0800
  rw [show UInt32.ofNat (2 ^ (11 + 1) - 1) = 0xFFF from rfl,
    show UInt32.ofNat (2 ^ 11) = 0x0800 from rfl] at hheight
  rw [unpackedPosition, blockXRaw_packed, blockYRaw_packed, blockZRaw_packed, hwide hx, hwide hz, hheight]
  simp only [Prod.mk.injEq, true_and, and_true]
  split
  next => rfl
  next => omega

end Coordinates

section Buffers

theorem writePosition64_commutes {β γ : Type} [ByteQueue β] [ByteQueue γ] {f : β → γ} (hf : Hom f)
    (x y z : Int32) : Commutes f (writePosition64 x y z) (writePosition64 x y z) :=
  writeInteger_commutes hf 8 _

theorem readPosition64_commutes {β γ : Type} [ByteQueue β] [ByteQueue γ] {f : β → γ} (hf : Hom f) :
    Commutes f readPosition64 readPosition64 := ((readInteger_commutes hf 8).map _).map _

theorem writePosition64_fifo {q : Fifo} (hfree : 8 ≤ q.free) (x y z : Int32) :
    writePosition64 x y z q = (true, (q.append (TypedValue.beInt64 (packedPosition x y z)).encode).2) :=
  (TypedValue.writeValue_appends (v := .beInt64 (packedPosition x y z)) trivial q).1 (by
    rw [TypedValue.encode_length]
    exact hfree)

/-- What was unread before is read first. -/
theorem readPosition64_fifo [Platform] {q : Fifo} (hfree : 8 ≤ q.free) (x y z : Int32) :
    (readPosition64 (readBuf (getReadableSpace q) (writePosition64 x y z q).2).2).1 =
      some (unpackedPosition (packedPosition x y z)) := by
  obtain ⟨value, hvalue⟩ : ∃ value, value = TypedValue.beInt64 (packedPosition x y z) := ⟨_, rfl⟩
  have hlen : value.encode.length ≤ q.free := by
    rw [TypedValue.encode_length, hvalue]
    exact hfree
  obtain ⟨_, _, hunread⟩ := Fifo.append_snd hlen
  have hskip : readBuf (getReadableSpace q) (q.append value.encode).2 =
      (some q.unread, (q.append value.encode).2.advance q.unread.length) := by
    show Fifo.take q.unread.length (q.append value.encode).2 = _
    rw [Fifo.take, hunread, if_pos (by simp), List.take_left]
  have hrest : ((q.append value.encode).2.advance q.unread.length).unread = value.encode ++ [] := by
    simp [Fifo.advance, hunread]
  have hread := congrArg Prod.fst (TypedValue.readValue_fifo (by rw [hvalue]; trivial) hrest)
  rw [hvalue] at hread hskip
  rw [writePosition64_fifo hfree, hskip, readPosition64, Reader.map]
  obtain ⟨read, hread', hback⟩ := Option.map_eq_some_iff.mp hread
  rw [hread', Option.map_some]
  exact congrArg (fun value => some (unpackedPosition value)) (TypedValue.beInt64.inj hback)

end Buffers

end HostOrder

namespace ByteBuffer

open HostOrder

/-- A position that is written into a buffer with room for it, wherever its data is, is read back as it was
if and only if it is not below zero. -/
theorem position_round_trip_iff [Platform] {b : ByteBuffer} (hfree : 8 ≤ getFreeSpace b) {x y z : Int32}
    (hx : -(2 ^ 25 : Int) ≤ x.toInt ∧ x.toInt < 2 ^ 25) (hy : -(2 ^ 11 : Int) ≤ y.toInt ∧ y.toInt < 2 ^ 11)
    (hz : -(2 ^ 25 : Int) ≤ z.toInt ∧ z.toInt < 2 ^ 25) :
    ((writePosition64 x y z b).1 = true ∧
        (readPosition64 (readBuf (getReadableSpace b) (writePosition64 x y z b).2).2).1 =
          some (x.toInt, y.toInt, z.toInt)) ↔
      0 ≤ y.toInt := by
  have hfree' : 8 ≤ b.contents.free := by
    rw [← contents_hom.getFreeSpace] at hfree
    exact hfree
  obtain ⟨b₁, hb₁⟩ : ∃ b₁, b₁ = (writePosition64 x y z b).2 := ⟨_, rfl⟩
  obtain ⟨hok, hwritten⟩ := Prod.mk.inj
    ((writePosition64_commutes contents_hom x y z b).symm.trans (writePosition64_fifo hfree' x y z))
  have hread := readPosition64_fifo hfree' x y z
  rw [writePosition64_fifo hfree', ← hwritten, ← hb₁, contents_hom.getReadableSpace,
    unpacked_packed x y z hx hy hz] at hread
  have hskipped : (readBuf (getReadableSpace b) b₁.contents).2 = (readBuf (getReadableSpace b) b₁).2.contents :=
    congrArg Prod.snd (contents_hom.readBuf _ b₁)
  have hback : (readPosition64 (readBuf (getReadableSpace b) b₁).2.contents).1 =
      (readPosition64 (readBuf (getReadableSpace b) b₁).2).1 :=
    congrArg Prod.fst (readPosition64_commutes contents_hom _)
  rw [← hb₁, ← hback, ← hskipped, hread, Option.some.injEq, Prod.mk.injEq, Prod.mk.injEq]
  constructor
  · rintro ⟨_, _, hheight, _⟩
    split at hheight <;> omega
  · intro hy
    exact ⟨hok, rfl, if_pos hy, rfl⟩

/-- A word across the end of the ring. -/
theorem position_round_trip_wrapped :
    letI := zeroPlatform
    (writePosition64 (-33554432) 2047 5 (emptyAt (fun _ => 9) 9 6 (by decide))).1 = true ∧
      (readPosition64 (readBuf (getReadableSpace (emptyAt (fun _ => 9) 9 6 (by decide)))
        (writePosition64 (-33554432) 2047 5 (emptyAt (fun _ => 9) 9 6 (by decide))).2).2).1 =
          some ((-33554432 : Int32).toInt, (2047 : Int32).toInt, (5 : Int32).toInt) := by
  let : Platform := zeroPlatform
  exact (position_round_trip_iff (by decide) (by decide) (by decide) (by decide)).mpr (by decide)

/-- One below zero comes back as 2047. -/
theorem position_not_restored :
    letI := zeroPlatform
    8 ≤ getFreeSpace (emptyAt (fun _ => 0) 8 0 (by decide)) ∧
      (readPosition64 (writePosition64 0 (-1) 0 (emptyAt (fun _ => 0) 8 0 (by decide))).2).1 =
        some (0, 2047, 0) := by
  let : Platform := zeroPlatform
  decide +kernel

end ByteBuffer

end P2PChat

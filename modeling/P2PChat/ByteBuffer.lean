import P2PChat.Fifo
import P2PChat.RingCopy

namespace P2PChat

/-- What the language leaves open and the code meets: the contents of memory that was only
allocated, and a shift by at least the width of the shifted value. -/
class Platform where
  uninitialised : Nat → UInt8
  shiftedOut64 : UInt64 → Nat → UInt64
  shiftedOut32 : UInt32 → Nat → UInt32

/-- Fresh memory is zero, and over-wide shifts give zero. -/
@[reducible] def zeroPlatform : Platform := ⟨fun _ => 0, fun _ _ => 0, fun _ _ => 0⟩

/-- A `cByteBuffer`: its members, with the positions in range and in order. -/
def ByteBuffer := { r : Ring // r.Valid }

namespace Ring

theorem write_valid {bytes : AString} {r : Ring} (h : r.Valid) : (r.write bytes).2.Valid := by
  unfold write
  split
  next => exact h
  next hroom => exact put_valid h (by omega)

theorem writeBuf_eq (bytes : AString) (r : Ring) : r.writeBuf bytes = r.write bytes := by
  unfold writeBuf write canWriteBytes
  by_cases hroom : r.getFreeSpace < bytes.length
  · simp [hroom, Nat.not_le.mpr hroom]
  · simp [hroom, Nat.not_lt.mp hroom]

theorem get_advance {count : Nat} {r : Ring} (h : r.Valid) (hc : count ≤ r.unread.length) :
    (r.get count).2.Valid ∧ (r.get count).2.read = r.read ++ r.unread.take count ∧
      (r.get count).2.unread = r.unread.drop count :=
  advance_contents h hc (get_readPos h.readPos_lt)

theorem readBuf_valid {count : Nat} {r : Ring} (h : r.Valid) : (r.readBuf count).2.Valid := by
  unfold readBuf canReadBytes
  split
  next => exact h
  next hc =>
    rw [getReadableSpace_eq] at hc
    exact (get_advance h (by simpa using hc)).1

theorem readString_eq (count : Nat) (r : Ring) : r.readString count = r.readBuf count := rfl

theorem transfer_valid (fuel : Nat) {count : Nat} {dst r : Ring} (hd : dst.Valid) (h : r.Valid) :
    (transfer fuel count dst r).2.1.Valid ∧ (transfer fuel count dst r).2.2.Valid := by
  induction fuel generalizing count dst r with
  | zero => exact ⟨hd, h⟩
  | succ fuel ih =>
    simp only [transfer]
    split
    next => exact ⟨hd, h⟩
    next =>
      have hr := @readBuf_valid (if 1024 < count then 1024 else count) r h
      split
      next s hs => rw [hs] at hr; exact ⟨hd, hr⟩
      next buf s hs =>
        rw [hs] at hr
        have hw := @write_valid buf dst hd
        split
        next d hw' => rw [hw'] at hw; exact ⟨hw, hr⟩
        next d hw' => rw [hw'] at hw; exact ih hw hr

theorem readToByteBuffer_valid {count : Nat} {dst r : Ring} (hd : dst.Valid) (h : r.Valid) :
    (readToByteBuffer count dst r).2.1.Valid ∧ (readToByteBuffer count dst r).2.2.Valid := by
  unfold readToByteBuffer
  split
  next => exact ⟨hd, h⟩
  next => exact transfer_valid count hd h

end Ring

namespace ByteBuffer

instance [Platform] : ByteQueue ByteBuffer where
  new size := ⟨Ring.new Platform.uninitialised size, Ring.new_valid _ _⟩
  clearAll b := ⟨b.1.clearAll, Ring.clearAll_valid b.2⟩
  getFreeSpace b := b.1.getFreeSpace
  getUsedSpace b := b.1.getUsedSpace
  getReadableSpace b := b.1.getReadableSpace
  write bytes b := ((b.1.write bytes).1, ⟨(b.1.write bytes).2, Ring.write_valid b.2⟩)
  writeBuf bytes b := ((b.1.writeBuf bytes).1,
    ⟨(b.1.writeBuf bytes).2, by rw [Ring.writeBuf_eq]; exact Ring.write_valid b.2⟩)
  readBuf count b := ((b.1.readBuf count).1, ⟨(b.1.readBuf count).2, Ring.readBuf_valid b.2⟩)
  readString count b :=
    ((b.1.readString count).1, ⟨(b.1.readString count).2, Ring.readBuf_valid b.2⟩)
  readAll b := (b.1.readAll.1, ⟨b.1.readAll.2, Ring.readBuf_valid b.2⟩)
  readToByteBuffer count dst b := ((Ring.readToByteBuffer count dst.1 b.1).1,
    ⟨(Ring.readToByteBuffer count dst.1 b.1).2.1, (Ring.readToByteBuffer_valid dst.2 b.2).1⟩,
    ⟨(Ring.readToByteBuffer count dst.1 b.1).2.2, (Ring.readToByteBuffer_valid dst.2 b.2).2⟩)
  commitRead b := ⟨b.1.commitRead, Ring.commitRead_valid b.2⟩
  resetRead b := ⟨b.1.resetRead, Ring.resetRead_valid b.2⟩

/-- The stored bytes, without their place in the memory. -/
def contents (b : ByteBuffer) : Fifo where
  capacity := b.1.bufferSize - 1
  read := b.1.read
  unread := b.1.unread
  fits := by have := b.2.fits; omega

end ByteBuffer

end P2PChat

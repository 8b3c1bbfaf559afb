import P2PChat.RingBounds

namespace P2PChat

/-- A call of a public method of one byte buffer. -/
inductive RingCall
  | write (bytes : AString)
  | getFreeSpace
  | getUsedSpace
  | getReadableSpace
  | canReadBytes (count : Nat)
  | canWriteBytes (count : Nat)
  | readBEInt8
  | readBEInt16
  | readBEInt32
  | readBEInt64
  | readBEUInt8
  | readBEUInt16
  | readBEUInt32
  | readBEUInt64
  | readBEFloat
  | readBEDouble
  | readBool
  | readBEUTF16String16
  | readVarInt32
  | readVarInt64
  | readVarUTF8String
  | readLEInt
  | readPosition64
  | writeBEInt8 (v : Int8)
  | writeBEInt16 (v : Int16)
  | writeBEInt32 (v : Int32)
  | writeBEInt64 (v : Int64)
  | writeBEUInt8 (v : UInt8)
  | writeBEUInt16 (v : UInt16)
  | writeBEUInt32 (v : UInt32)
  | writeBEUInt64 (v : UInt64)
  | writeBEFloat (bits : UInt32)
  | writeBEDouble (bits : UInt64)
  | writeBool (v : Bool)
  | writeVarInt32 (v : UInt32)
  | writeVarInt64 (v : UInt64)
  | writeVarUTF8String (s : AString)
  | writeLEInt32 (v : Int32)
  | writePosition64 (blockX blockY blockZ : Int32)
  | readBuf (count : Nat)
  | writeBuf (bytes : AString)
  | readString (count : Nat)
  | readUTF16String (numChars : Nat)
  | skipRead (count : Nat)
  | readAll
  | commitRead
  | resetRead
  | readAgain (out : AString)
  | checkValid
  | clearAll

/-- A call on one of several byte buffers, or between two of them, which may be the same one. -/
inductive BufferCall (ι : Type)
  | on (i : ι) (call : RingCall)
  | readToByteBuffer (i dst : ι) (numBytes : Nat)

namespace CheckedRing

open Checked

variable [SizeType]

section Run

variable [Platform]

def perform : RingCall → CheckedRing Unit
  | .write bytes => void (write bytes)
  | .getFreeSpace => void getFreeSpace
  | .getUsedSpace => void getUsedSpace
  | .getReadableSpace => void getReadableSpace
  | .canReadBytes count => void (canReadBytes count)
  | .canWriteBytes count => void (canWriteBytes count)
  | .readBEInt8 => void readBEInt8
  | .readBEInt16 => void readBEInt16
  | .readBEInt32 => void readBEInt32
  | .readBEInt64 => void readBEInt64
  | .readBEUInt8 => void readBEUInt8
  | .readBEUInt16 => void readBEUInt16
  | .readBEUInt32 => void readBEUInt32
  | .readBEUInt64 => void readBEUInt64
  | .readBEFloat => void readBEFloat
  | .readBEDouble => void readBEDouble
  | .readBool => void readBool
  | .readBEUTF16String16 => void readBEUTF16String16
  | .readVarInt32 => void readVarInt32
  | .readVarInt64 => void readVarInt64
  | .readVarUTF8String => void readVarUTF8String
  | .readLEInt => void readLEInt
  | .readPosition64 => void readPosition64
  | .writeBEInt8 v => void (writeBEInt8 v)
  | .writeBEInt16 v => void (writeBEInt16 v)
  | .writeBEInt32 v => void (writeBEInt32 v)
  | .writeBEInt64 v => void (writeBEInt64 v)
  | .writeBEUInt8 v => void (writeBEUInt8 v)
  | .writeBEUInt16 v => void (writeBEUInt16 v)
  | .writeBEUInt32 v => void (writeBEUInt32 v)
  | .writeBEUInt64 v => void (writeBEUInt64 v)
  | .writeBEFloat bits => void (writeBEFloat bits)
  | .writeBEDouble bits => void (writeBEDouble bits)
  | .writeBool v => void (writeBool v)
  | .writeVarInt32 v => void (writeVarInt32 v)
  | .writeVarInt64 v => void (writeVarInt64 v)
  | .writeVarUTF8String s => void (writeVarUTF8String s)
  | .writeLEInt32 v => void (writeLEInt32 v)
  | .writePosition64 x y z => void (writePosition64 x y z)
  | .readBuf count => void (readBuf count)
  | .writeBuf bytes => void (writeBuf bytes)
  | .readString count => void (readString count)
  | .readUTF16String numChars => void (readUTF16String numChars)
  | .skipRead count => void (skipRead count)
  | .readAll => void readAll
  | .commitRead => commitRead
  | .resetRead => resetRead
  | .readAgain out => void (readAgain out)
  | .checkValid => checkValid
  | .clearAll => clearAll

def performAll {ι : Type} [DecidableEq ι] : List (BufferCall ι) → Checked (ι → Ring) Unit
  | [] => pure ()
  | .on i call :: calls => do
    part i (perform call)
    performAll calls
  | .readToByteBuffer i dst numBytes :: calls => do
    void (readToByteBuffer i dst numBytes)
    performAll calls

end Run

/-- A buffer made for `size` bytes, with its positions in the memory and in order. -/
structure Sound (size : Nat) (r : Ring) : Prop where
  valid : r.Valid
  bufferSize : r.bufferSize = size + 1

section Keeps

variable {size : Nat} (hsize : size + 1 < SizeType.values)

omit [SizeType] in
/-- A computation whose run is known keeps the buffer sound. -/
theorem keeps_of_run {α : Type} {m : CheckedRing α} {f : Ring → α × Ring}
    (hrun : ∀ r, Sound size r → m.run r = some (f r)) (hvalid : ∀ r, r.Valid → (f r).2.Valid)
    (hsame : ∀ r, (f r).2.bufferSize = r.bufferSize) : Keeps (Sound size) m := by
  intro r hr
  exact ⟨(f r).1, (f r).2, hrun r hr, hvalid r hr.valid, (hsame r).trans hr.bufferSize⟩

omit [SizeType] in
theorem checkValid_keeps : Keeps (Sound size) checkValid :=
  keeps_of_run (f := fun r => ((), r)) (fun _ hr => checkValid_run hr.valid) (fun _ hr => hr) (fun _ => rfl)

omit [SizeType] in
theorem commitRead_keeps : Keeps (Sound size) commitRead :=
  keeps_of_run (f := fun r => ((), r.commitRead)) (fun _ hr => commitRead_run hr.valid)
    (fun _ hr => Ring.commitRead_valid hr) (fun _ => rfl)

omit [SizeType] in
theorem resetRead_keeps : Keeps (Sound size) resetRead :=
  keeps_of_run (f := fun r => ((), r.resetRead)) (fun _ hr => resetRead_run hr.valid)
    (fun _ hr => Ring.resetRead_valid hr) (fun _ => rfl)

omit [SizeType] in
theorem clearAll_keeps : Keeps (Sound size) clearAll :=
  keeps_of_run (f := fun r => ((), r.clearAll)) (fun _ _ => rfl)
    (fun _ hr => Ring.clearAll_valid hr) (fun _ => rfl)

omit [SizeType] in
theorem readAgain_keeps (out : AString) : Keeps (Sound size) (readAgain out) :=
  keeps_of_run (f := fun r => (r.readAgain out, r)) (fun _ hr => readAgain_run hr.valid out)
    (fun _ hr => hr) (fun _ => rfl)

include hsize

theorem Sound.fits {r : Ring} (h : Sound size r) : r.bufferSize < SizeType.values := by
  rw [h.bufferSize]
  exact hsize

theorem getFreeSpace_keeps : Keeps (Sound size) getFreeSpace :=
  keeps_of_run (f := fun r => (r.getFreeSpace, r)) (fun _ hr => getFreeSpace_run (hr.fits hsize) hr.valid)
    (fun _ hr => hr) (fun _ => rfl)

theorem getUsedSpace_keeps : Keeps (Sound size) getUsedSpace :=
  keeps_of_run (f := fun r => (r.getUsedSpace, r)) (fun _ hr => getUsedSpace_run (hr.fits hsize) hr.valid)
    (fun _ hr => hr) (fun _ => rfl)

theorem getReadableSpace_keeps : Keeps (Sound size) getReadableSpace :=
  keeps_of_run (f := fun r => (r.getReadableSpace, r))
    (fun _ hr => getReadableSpace_run (hr.fits hsize) hr.valid) (fun _ hr => hr) (fun _ => rfl)

theorem canReadBytes_keeps (count : Nat) : Keeps (Sound size) (canReadBytes count) :=
  keeps_of_run (f := fun r => (r.canReadBytes count, r))
    (fun _ hr => canReadBytes_run (hr.fits hsize) hr.valid count) (fun _ hr => hr) (fun _ => rfl)

theorem canWriteBytes_keeps (count : Nat) : Keeps (Sound size) (canWriteBytes count) :=
  keeps_of_run (f := fun r => (r.canWriteBytes count, r))
    (fun _ hr => canWriteBytes_run (hr.fits hsize) hr.valid count) (fun _ hr => hr) (fun _ => rfl)

theorem write_keeps (bytes : AString) : Keeps (Sound size) (write bytes) :=
  keeps_of_run (f := Ring.write bytes) (fun _ hr => write_run (hr.fits hsize) hr.valid bytes)
    (fun _ hr => Ring.write_valid hr) (Ring.write_bufferSize bytes)

theorem writeBuf_keeps (bytes : AString) : Keeps (Sound size) (writeBuf bytes) := by
  apply keeps_of_run (f := Ring.write bytes)
  · intro r hr
    rw [← Ring.writeBuf_eq]
    exact writeBuf_run (hr.fits hsize) hr.valid bytes
  · exact fun _ hr => Ring.write_valid hr
  · exact Ring.write_bufferSize bytes

theorem readBuf_keeps (count : Nat) : Keeps (Sound size) (readBuf count) :=
  keeps_of_run (f := Ring.readBuf count) (fun _ hr => readBuf_run (hr.fits hsize) hr.valid count)
    (fun _ hr => Ring.readBuf_valid hr) (Ring.readBuf_bufferSize count)

theorem readString_keeps (count : Nat) : Keeps (Sound size) (readString count) := readBuf_keeps hsize count

theorem readAll_keeps : Keeps (Sound size) readAll :=
  keeps_of_run (f := Ring.readAll) (fun _ hr => readAll_run (hr.fits hsize) hr.valid)
    (fun _ hr => Ring.readBuf_valid hr) (fun r => Ring.readBuf_bufferSize r.getReadableSpace r)

omit hsize in
/-- Unless the memory takes more than half of the address space, skipping is that of the ring buffer. -/
theorem skipRead_run {r : Ring} (h : r.Valid) (hhalf : 2 * r.bufferSize ≤ SizeType.values) (count : Nat) :
    (skipRead count).run r = some (r.skipRead count) := by
  have hr := h.readPos_lt
  have hfits := h.fits
  unfold skipRead Ring.skipRead
  simp only [StateT.run_bind, checkValid_run h, canReadBytes_run (show r.bufferSize < SizeType.values by omega) h,
    Option.bind_eq_bind, Option.bind_some]
  by_cases hc : r.canReadBytes count = true
  · have hspace := (Ring.canReadBytes_iff count r).mp hc
    simp only [hc, Bool.not_true, Bool.false_eq_true, if_false, StateT.run_bind, advanceReadPos_run h,
      advancedPos_eq (show r.readPos + count < SizeType.values by omega), StateT.run_pure,
      Option.bind_eq_bind, Option.bind_some, Option.pure_def]
  · have hno : r.canReadBytes count = false := Bool.eq_false_iff.mpr hc
    simp only [hno, Bool.not_false, if_true]
    rfl

theorem skipRead_keeps (count : Nat) : Keeps (Sound size) (skipRead count) := by
  intro r hr
  unfold skipRead
  simp only [StateT.run_bind, checkValid_run hr.valid, canReadBytes_run (hr.fits hsize) hr.valid,
    Option.bind_eq_bind, Option.bind_some]
  by_cases hc : r.canReadBytes count = true
  · have hspace : count ≤ r.getReadableSpace := by simpa [Ring.canReadBytes] using hc
    simp only [hc, Bool.not_true, Bool.false_eq_true, if_false, StateT.run_bind,
      advanceReadPos_run hr.valid, StateT.run_pure, Option.bind_eq_bind, Option.bind_some, Option.pure_def]
    exact ⟨_, _, rfl, advancedPos_valid (hr.fits hsize) hr.valid hspace, hr.bufferSize⟩
  · have hno : r.canReadBytes count = false := Bool.eq_false_iff.mpr hc
    simp only [hno, Bool.not_false, if_true]
    exact ⟨_, _, rfl, hr⟩

end Keeps

end CheckedRing

end P2PChat

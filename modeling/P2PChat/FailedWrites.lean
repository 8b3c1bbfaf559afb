import P2PChat.PositionRoundTrip

namespace P2PChat

open ByteQueue

namespace HostOrder

variable {β : Type} [ByteQueue β]

/-- A `float` by its bits. -/
def writeBEFloat (bits : UInt32) : Writer β := writeInteger 4 (hostToNetwork4 bits).toNat

def writeBEDouble (bits : UInt64) : Writer β := writeInteger 8 (hostToNetwork8 bits).toNat

end HostOrder

/-- A call of one of the writers of `cByteBuffer`. -/
inductive WriteCall
  | value (v : TypedValue)
  | beFloat (bits : UInt32)
  | beDouble (bits : UInt64)
  | position64 (blockX blockY blockZ : Int32)
  | writeBuf (bytes : AString)
  | write (bytes : AString)

namespace WriteCall

def perform {β : Type} [ByteQueue β] : WriteCall → Writer β
  | .value v => v.writeValue
  | .beFloat bits => HostOrder.writeBEFloat bits
  | .beDouble bits => HostOrder.writeBEDouble bits
  | .position64 x y z => HostOrder.writePosition64 x y z
  | .writeBuf bytes => ByteQueue.writeBuf bytes
  | .write bytes => ByteQueue.write bytes

/-- All that a call is to store; the length of a string is sent as a 32-bit number. -/
def encoding : WriteCall → AString
  | .value (.varUTF8String s) => varInt (UInt32.ofNat s.length) ++ s
  | .value v => v.encode
  | .beFloat bits => (LittleEndian.bytes 4 bits.toNat).reverse
  | .beDouble bits => (LittleEndian.bytes 8 bits.toNat).reverse
  | .position64 x y z => (LittleEndian.bytes 8 (HostOrder.packedPosition x y z).toUInt64.toNat).reverse
  | .writeBuf bytes | .write bytes => bytes

/-- A string passes the guard for a length of one byte, but does not fit with the length that it has. -/
def Splits (free : Nat) : WriteCall → Prop
  | .value (.varUTF8String s) =>
    s.length + 1 ≤ free ∧ free < (varInt (UInt32.ofNat s.length)).length + s.length
  | _ => False

theorem perform_commutes {β γ : Type} [ByteQueue β] [ByteQueue γ] {f : β → γ} (hf : Hom f) (c : WriteCall) :
    Commutes f (perform c) (perform c) := by
  cases c with
  | value v => exact TypedValue.writeValue_commutes hf v
  | beFloat bits => exact HostOrder.writeInteger_commutes hf 4 _
  | beDouble bits => exact HostOrder.writeInteger_commutes hf 8 _
  | position64 x y z => exact HostOrder.writePosition64_commutes hf x y z
  | writeBuf bytes => exact hf.writeBuf bytes
  | write bytes => exact hf.write bytes

end WriteCall

theorem Fifo.append_rejected {bytes : AString} {q : Fifo} (h : q.free < bytes.length) :
    q.append bytes = (false, q) := by
  unfold Fifo.free at h
  rw [Fifo.append, dif_neg (by omega)]

theorem HostOrder.writeInteger_fifo (width n : Nat) (q : Fifo) :
    writeInteger width n q = q.append (LittleEndian.bytes width n) := by
  have hlen := LittleEndian.bytes_length width n
  by_cases hroom : width ≤ q.free
  · have hcan : canWriteBytes width q = true := decide_eq_true hroom
    rw [writeInteger, hcan]
    rfl
  · have hcan : canWriteBytes width q = false := decide_eq_false hroom
    rw [writeInteger, hcan, Fifo.append_rejected (by omega)]
    rfl

namespace WriteCall

/-- Apart from strings, a value is stored whole or not at all. -/
theorem perform_fifo {c : WriteCall} (hs : ∀ s, c ≠ .value (.varUTF8String s)) (q : Fifo) :
    c.perform q = q.append c.encoding := by
  have hbig : ∀ width n, HostOrder.writeInteger width (LittleEndian.reversed width n) q =
      q.append (LittleEndian.bytes width n).reverse := by
    intro width n
    rw [HostOrder.writeInteger_fifo, LittleEndian.bytes_reversed]
  cases c with
  | value v =>
    cases v with
    | bool v => rfl
    | beInt8 v | beUInt8 v => exact HostOrder.writeInteger_fifo 1 _ q
    | beInt16 v => exact (congrArg (HostOrder.writeInteger 2 · q) (htons_toNat _)).trans (hbig 2 _)
    | beUInt16 v => exact (congrArg (HostOrder.writeInteger 2 · q) (htons_toNat _)).trans (hbig 2 _)
    | beInt32 v => exact (congrArg (HostOrder.writeInteger 4 · q) (ntohl_toNat _)).trans (hbig 4 _)
    | beUInt32 v => exact (congrArg (HostOrder.writeInteger 4 · q) (ntohl_toNat _)).trans (hbig 4 _)
    | beInt64 v => exact (congrArg (HostOrder.writeInteger 8 · q) (ntohll_toNat _)).trans (hbig 8 _)
    | beUInt64 v => exact (congrArg (HostOrder.writeInteger 8 · q) (ntohll_toNat _)).trans (hbig 8 _)
    | leInt v => rfl
    | varInt32 v => exact writeVarInt32_fifo v q
    | varInt64 v =>
      have hlt := v.toNat_lt
      exact congrArg q.append (TypedValue.varInt64Bytes_eq 9 v (by omega))
    | varUTF8String s => exact absurd rfl (hs s)
  | beFloat bits => exact (congrArg (HostOrder.writeInteger 4 · q) (ntohl_toNat _)).trans (hbig 4 _)
  | beDouble bits => exact (congrArg (HostOrder.writeInteger 8 · q) (ntohll_toNat _)).trans (hbig 8 _)
  | position64 x y z => exact (congrArg (HostOrder.writeInteger 8 · q) (ntohll_toNat _)).trans (hbig 8 _)
  | writeBuf bytes => rfl
  | write bytes => rfl

theorem writeVarUTF8String_rejected {s : AString} {q : Fifo} (h : q.free < s.length + 1) :
    writeVarUTF8String s q = (false, q) := by
  have hcan : canWriteBytes (s.length + 1) q = false := decide_eq_false (by
    show ¬s.length + 1 ≤ q.free
    omega)
  rw [writeVarUTF8String, hcan]
  rfl

theorem length_prefix_le (s : AString) : (varInt (UInt32.ofNat s.length)).length ≤ s.length + 1 := by
  have hle := Leb128.encode_length_le_succ (UInt32.ofNat s.length).toNat
  have hmod := Nat.mod_le s.length (2 ^ 32)
  rw [← UInt32.toNat_ofNat'] at hmod
  unfold varInt
  omega

/-- The length stays in the buffer when the characters do not fit behind it. -/
theorem writeVarUTF8String_split {s : AString} {q : Fifo} (hguard : s.length + 1 ≤ q.free)
    (hfull : q.free < (varInt (UInt32.ofNat s.length)).length + s.length) :
    writeVarUTF8String s q = (false, (q.append (varInt (UInt32.ofNat s.length))).2) := by
  have hcan : canWriteBytes (s.length + 1) q = true := decide_eq_true hguard
  have hlen : (varInt (UInt32.ofNat s.length)).length ≤ q.free := (length_prefix_le s).trans hguard
  have hprefix := (writeVarInt32_appends (UInt32.ofNat s.length) q).1 hlen
  have hfree := Fifo.append_free hlen
  rw [writeVarUTF8String, hcan, Bool.not_true, if_neg Bool.false_ne_true, hprefix]
  exact Fifo.append_rejected (by omega)

end WriteCall

namespace ByteBuffer

variable [Platform]

/-- Nothing that can be asked of a buffer differs. -/
structure Unchanged (b b' : ByteBuffer) : Prop where
  used : getUsedSpace b' = getUsedSpace b
  readable : getReadableSpace b' = getReadableSpace b
  free : getFreeSpace b' = getFreeSpace b
  stored : b'.contents = b.contents

theorem Unchanged.of_contents {b b' : ByteBuffer} (h : b'.contents = b.contents) : Unchanged b b' where
  used := by rw [← contents_hom.getUsedSpace, h, contents_hom.getUsedSpace]
  readable := by rw [← contents_hom.getReadableSpace, h, contents_hom.getReadableSpace]
  free := by rw [← contents_hom.getFreeSpace, h, contents_hom.getFreeSpace]
  stored := h

/-- A call that fails changes nothing, and it fails exactly without room for all that it is to store. -/
structure Clean (c : WriteCall) (b : ByteBuffer) : Prop where
  unchanged : (c.perform b).1 = false → Unchanged b (c.perform b).2
  fails : (c.perform b).1 = false ↔ getFreeSpace b < c.encoding.length

theorem Clean.of_fifo {c : WriteCall} {b : ByteBuffer}
    (h : c.perform b.contents = b.contents.append c.encoding ∨
      b.contents.free < c.encoding.length ∧ c.perform b.contents = (false, b.contents)) : Clean c b := by
  have hsame := WriteCall.perform_commutes contents_hom c b
  have hfree : getFreeSpace b = b.contents.free := (contents_hom.getFreeSpace b).symm
  have happend : c.perform b.contents = b.contents.append c.encoding := by
    rcases h with h | ⟨hfull, h⟩
    · exact h
    · rw [h, Fifo.append_rejected hfull]
  have hok : (c.perform b).1 = (b.contents.append c.encoding).1 := congrArg Prod.fst (hsame.symm.trans happend)
  have hafter : (c.perform b).2.contents = (b.contents.append c.encoding).2 :=
    congrArg Prod.snd (hsame.symm.trans happend)
  rw [Fifo.append_fst] at hok
  have hfails : (c.perform b).1 = false ↔ getFreeSpace b < c.encoding.length := by
    rw [hok, decide_eq_false_iff_not, hfree, Nat.not_le]
  refine ⟨fun hf => Unchanged.of_contents ?_, hfails⟩
  rw [hafter, Fifo.append_rejected (by rw [← hfree]; exact hfails.mp hf)]

/-- In any buffer, a call of a writer is clean if and only if it does not split a string. -/
theorem failed_write_clean_iff (c : WriteCall) (b : ByteBuffer) : Clean c b ↔ ¬c.Splits (getFreeSpace b) := by
  have hfree : getFreeSpace b = b.contents.free := (contents_hom.getFreeSpace b).symm
  by_cases hs : ∀ s, c ≠ .value (.varUTF8String s)
  · have hno : ¬c.Splits (getFreeSpace b) := by
      intro hsplits
      unfold WriteCall.Splits at hsplits
      split at hsplits
      next s => exact hs s rfl
      next => exact hsplits
    exact ⟨fun _ => hno, fun _ => Clean.of_fifo (.inl (WriteCall.perform_fifo hs _))⟩
  · push Not at hs
    obtain ⟨s, rfl⟩ := hs
    constructor
    · rintro ⟨hunchanged, -⟩ ⟨hguard, hfull⟩
      rw [hfree] at hguard hfull
      have hpos := varInt_length_pos (UInt32.ofNat s.length)
      have hsplit := (WriteCall.perform_commutes contents_hom (.value (.varUTF8String s)) b).symm.trans
        (WriteCall.writeVarUTF8String_split hguard hfull)
      obtain ⟨hfst, hafter⟩ := Prod.mk.inj hsplit
      have hsame := congrArg Fifo.free (hunchanged hfst).stored
      rw [hafter, Fifo.append_free ((WriteCall.length_prefix_le s).trans hguard)] at hsame
      omega
    · intro hno
      have hsplits : ¬(s.length + 1 ≤ getFreeSpace b ∧
          getFreeSpace b < (varInt (UInt32.ofNat s.length)).length + s.length) := hno
      have hpos := varInt_length_pos (UInt32.ofNat s.length)
      have hlen : (WriteCall.encoding (.value (.varUTF8String s))).length =
          (varInt (UInt32.ofNat s.length)).length + s.length := List.length_append
      apply Clean.of_fifo
      by_cases hguard : getFreeSpace b < s.length + 1
      · exact .inr ⟨by omega, WriteCall.writeVarUTF8String_rejected (by omega)⟩
      · refine .inl (((writeVarUTF8String_appends s _).1 ?_).trans ?_)
        · rw [List.length_append]
          omega
        · exact ((append_appends _ _).1 (by rw [List.length_append]; omega)).symm

omit [Platform] in
/-- Of 130 characters, the two bytes of their number alone are stored in the 131 that are free. -/
theorem failed_write_stores :
    letI := zeroPlatform
    ((WriteCall.value (.varUTF8String (List.replicate 130 65))).perform
        (emptyAt (fun _ => 0) 131 0 (by decide))).1 = false ∧
      getReadableSpace (emptyAt (fun _ => 0) 131 0 (by decide)) = 0 ∧
        getReadableSpace ((WriteCall.value (.varUTF8String (List.replicate 130 65))).perform
          (emptyAt (fun _ => 0) 131 0 (by decide))).2 = 2 := by
  let : Platform := zeroPlatform
  decide +kernel

end ByteBuffer

end P2PChat

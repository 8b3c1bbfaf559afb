import P2PChat.CodecRoundTrip

namespace P2PChat

open ByteQueue

/-- Why a call does not return: a `VERIFY` that failed ends the process, a signed counter
overflows, a null pointer is followed; `rounds` is the bound of the loops modelled with one. -/
inductive Halt where
  | verify
  | overflow
  | nullPointer
  | rounds
  deriving DecidableEq, Repr

theorem bind_ok_iff {α δ : Type} {x : Except Halt α} {k : α → Except Halt δ} {d : δ} :
    x >>= k = .ok d ↔ ∃ a, x = .ok a ∧ k a = .ok d := by
  cases x with
  | error e => exact ⟨nofun, fun ⟨_, h, _⟩ => nomatch h⟩
  | ok a => exact ⟨fun h => ⟨a, rfl, h⟩, fun ⟨_, ha, h⟩ => by cases ha; exact h⟩

theorem toOption_eq_some {α : Type} {x : Except Halt α} {a : α} : x.toOption = some a ↔ x = .ok a := by
  cases x with
  | error e => exact ⟨nofun, nofun⟩
  | ok b => exact ⟨fun h => congrArg Except.ok (Option.some.inj h), fun h => by cases h; rfl⟩

/-- One `Write` call on a `cPacketizer`. -/
inductive Field where
  | beInt32 (v : Int32)
  | beUInt32 (v : UInt32)
  | beInt64 (v : Int64)
  | varInt32 (v : UInt32)
  | string (s : AString)
  | buf (s : AString)
  deriving DecidableEq, Repr

/-- What is composed through one `cPacketizer`, from its constructor to its destructor. -/
structure Packet where
  type : UInt32
  fields : List Field
  deriving DecidableEq, Repr

/-- `"p2pchat"`. -/
def appP2pchat : AString := [0x70, 0x32, 0x70, 0x63, 0x68, 0x61, 0x74]

/-- The packet of `OnConnect`. -/
def statusRequestPacket (appName server : AString) (port state : Int32) : Packet :=
  ⟨0x00, [.string appName, .string server, .beInt32 port, .beInt32 state]⟩

/-- The packet with which the client answers the status. -/
def loginInfoPacket (username password : AString) : Packet :=
  ⟨0x00, [.string username, .string password]⟩

/-- The packet of `RequestToPeer`, of the answer to it, and of `ForwardMedia`. -/
def mediaPacket (id type : UInt32) : Packet := ⟨0x11, [.varInt32 id, .varInt32 type]⟩

/-- The packet of `SendToPeer` and of `ForwardMediaMsg`. -/
def mediaMsgPacket (id : UInt32) (msg : AString) : Packet := ⟨0x12, [.varInt32 id, .string msg]⟩

section Packetizer

variable {β : Type} [ByteQueue β]

def Field.write : Field → Writer β
  | .beInt32 v => writeBEInt32 v
  | .beUInt32 v => writeBE 4 v.toNat
  | .beInt64 v => writeBEInt64 v
  | .varInt32 v => writeVarInt32 v
  | .string s => writeVarUTF8String s
  | .buf s => ByteQueue.write s

/-- The `Write` calls of `cPacketizer`, each in a `VERIFY`. -/
def writeFields : List Field → β → Except Halt β
  | [], out => .ok out
  | field :: fields, out =>
    match field.write out with
    | (true, out) => writeFields fields out
    | (false, _) => .error .verify

/-- The constructor does not look at what writing the type answers. -/
def packetize (p : Packet) (out : β) : Except Halt β :=
  writeFields p.fields (writeVarInt32 p.type out).2

/-- `SendPacket` of the server up to its call of `SendData`: what it passes there, and the two
buffers after it. -/
def takePacket (out len : β) : AString × β × β :=
  let packetLen := UInt32.ofNat (getUsedSpace out)
  let (lenToSend, len) := readAll (writeVarInt32 packetLen len).2
  let len := commitRead len
  let (dataToSend, out) := readAll out
  (lenToSend ++ dataToSend, commitRead out, len)

/-- The destructor of the client's `cPacketizer`: the two strings it passes to `SendData`, the
first of them through a buffer of its own. -/
def takePacketClient (out : β) : AString × AString × β :=
  let packetLen := UInt32.ofNat (getUsedSpace out)
  let (lenToSend, _) := readAll (writeVarInt32 packetLen (new 20 : β)).2
  let (dataToSend, out) := readAll out
  (lenToSend, dataToSend, commitRead out)

end Packetizer

namespace Field

def bytes : Field → AString
  | .beInt32 v => bigEndianBytes 4 v.toUInt32.toNat
  | .beUInt32 v => bigEndianBytes 4 v.toNat
  | .beInt64 v => bigEndianBytes 8 v.toUInt64.toNat
  | .varInt32 v => varInt v
  | .string s => varInt (UInt32.ofNat s.length) ++ s
  | .buf s => s

end Field

namespace Packet

def fieldBytes (p : Packet) : AString := p.fields.flatMap Field.bytes

/-- Type and fields, as they follow the length on the wire. -/
def body (p : Packet) : AString := varInt p.type ++ p.fieldBytes

end Packet

/-- A packet body behind its length. -/
def frame (body : AString) : AString := varInt (UInt32.ofNat body.length) ++ body

theorem frame_length_pos (body : AString) : 0 < (frame body).length := by
  have := varInt_length_pos (UInt32.ofNat body.length)
  rw [frame, List.length_append]
  omega

/-- Writes that append `bytes` or, without room for them, fail. -/
def Appends (w : Writer Fifo) (bytes : AString) : Prop :=
  ∀ q : Fifo, (bytes.length ≤ q.free → w q = (true, (q.append bytes).2)) ∧
    (q.free < bytes.length → (w q).1 = false)

theorem append_appends (bytes : AString) : Appends (Fifo.append bytes) bytes := by
  intro q
  have hfst := @Fifo.append_fst bytes q
  refine ⟨fun h => ?_, fun h => ?_⟩
  · rw [decide_eq_true h] at hfst
    exact Prod.ext hfst rfl
  · rw [hfst, decide_eq_false_iff_not]
    omega

/-- To ask for the room first makes no difference to what is appended. -/
theorem guarded_appends {width : Nat} {bytes : AString} (hlen : bytes.length = width) :
    Appends (fun q => if !canWriteBytes width q then (false, q) else writeBuf bytes q) bytes := by
  intro q
  obtain ⟨hok, _⟩ := append_appends bytes q
  have hcan : canWriteBytes width q = decide (bytes.length ≤ q.free) := by
    rw [hlen]
    rfl
  refine ⟨fun h => ?_, fun h => ?_⟩
  · simp only [hcan, decide_eq_true h, Bool.not_true, Bool.false_eq_true, if_false]
    exact hok h
  · have hfalse : decide (bytes.length ≤ q.free) = false := by
      rw [decide_eq_false_iff_not]
      omega
    simp only [hcan, hfalse, Bool.not_false, if_true]

theorem writeBE_appends (width n : Nat) : Appends (writeBE width n) (bigEndianBytes width n) :=
  guarded_appends (bigEndianBytes_length width n)

theorem writeVarInt32_appends (v : UInt32) : Appends (writeVarInt32 v) (varInt v) := by
  intro q
  rw [writeVarInt32_fifo]
  exact append_appends (varInt v) q

theorem Fifo.append_free {bytes : AString} {q : Fifo} (h : bytes.length ≤ q.free) :
    (q.append bytes).2.free = q.free - bytes.length := by
  obtain ⟨hcap, hread, hunread⟩ := Fifo.append_snd h
  unfold Fifo.free at h ⊢
  rw [hcap, hread, hunread, List.length_append]
  omega

/-- The guard of the source asks for one byte for the length, the writes for all of them. -/
theorem writeVarUTF8String_appends (s : AString) :
    Appends (writeVarUTF8String s) (varInt (UInt32.ofNat s.length) ++ s) := by
  intro q
  have hpos := varInt_length_pos (UInt32.ofNat s.length)
  have hlen := @List.length_append _ (varInt (UInt32.ofNat s.length)) s
  have hcan : canWriteBytes (s.length + 1) q = decide (s.length + 1 ≤ q.free) := rfl
  obtain ⟨hlenOk, hlenNo⟩ := writeVarInt32_appends (UInt32.ofNat s.length) q
  refine ⟨fun h => ?_, fun h => ?_⟩
  · have hroom : (varInt (UInt32.ofNat s.length)).length ≤ q.free := by omega
    have hfree := Fifo.append_free hroom
    have hrest := (append_appends s (q.append (varInt (UInt32.ofNat s.length))).2).1 (by omega)
    have htrue : decide (s.length + 1 ≤ q.free) = true := decide_eq_true (by omega)
    simp only [writeVarUTF8String, hcan, htrue, Bool.not_true, Bool.false_eq_true, if_false,
      hlenOk hroom]
    exact hrest.trans (by rw [Fifo.append_append h])
  · by_cases hguard : s.length + 1 ≤ q.free
    · simp only [writeVarUTF8String, hcan, decide_eq_true hguard, Bool.not_true, Bool.false_eq_true,
        if_false]
      by_cases hroom : (varInt (UInt32.ofNat s.length)).length ≤ q.free
      · have hfree := Fifo.append_free hroom
        rw [hlenOk hroom]
        exact (append_appends s _).2 (by omega)
      · have hfst := hlenNo (Nat.lt_of_not_le hroom)
        rcases hw : writeVarInt32 (UInt32.ofNat s.length) q with ⟨_ | _, q'⟩
        · rfl
        · rw [hw] at hfst
          cases hfst
    · simp only [writeVarUTF8String, hcan, decide_eq_false hguard, Bool.not_false, if_true]

theorem field_appends (field : Field) : Appends field.write field.bytes := by
  cases field with
  | beInt32 v => exact writeBE_appends 4 v.toUInt32.toNat
  | beUInt32 v => exact writeBE_appends 4 v.toNat
  | beInt64 v => exact writeBE_appends 8 v.toUInt64.toNat
  | varInt32 v => exact writeVarInt32_appends v
  | string s => exact writeVarUTF8String_appends s
  | buf s => exact append_appends s

theorem writeFields_ok {fields : List Field} {q : Fifo}
    (h : (fields.flatMap Field.bytes).length ≤ q.free) :
    writeFields fields q = .ok (q.append (fields.flatMap Field.bytes)).2 := by
  induction fields generalizing q with
  | nil => simp [writeFields, Fifo.append, q.fits]
  | cons field fields ih =>
    rw [List.flatMap_cons, List.length_append] at h
    have hone := (field_appends field q).1 (by omega)
    have hfree := @Fifo.append_free field.bytes q (by omega)
    rw [writeFields, hone]
    dsimp only
    rw [ih (by omega), List.flatMap_cons, Fifo.append_append]
    rw [List.length_append]
    exact h

theorem writeFields_verify {fields : List Field} {q : Fifo}
    (h : q.free < (fields.flatMap Field.bytes).length) : writeFields fields q = .error .verify := by
  induction fields generalizing q with
  | nil => simp at h
  | cons field fields ih =>
    rw [List.flatMap_cons, List.length_append] at h
    obtain ⟨hok, hno⟩ := field_appends field q
    by_cases hroom : field.bytes.length ≤ q.free
    · have hfree := Fifo.append_free hroom
      rw [writeFields, hok hroom]
      exact ih (by omega)
    · have hfst := hno (Nat.lt_of_not_le hroom)
      rcases hw : field.write q with ⟨_ | _, q'⟩
      · simp only [writeFields, hw]
      · rw [hw] at hfst
        cases hfst

end P2PChat

import P2PChat.CodecRoundTrip
import P2PChat.Endianness

namespace P2PChat

open ByteQueue

namespace HostOrder

section Readers

variable {β : Type} [ByteQueue β]

/-- `NEEDBYTES` and `ReadBuf` into an integer variable of the host. -/
def readInteger (width : Nat) : Reader β Nat := fun b =>
  if !canReadBytes width b then (none, b)
  else ((readBuf width b).1.map LittleEndian.value, (readBuf width b).2)

def readBEInt8 : Reader β Int8 := (readInteger 1).map (fun n => (UInt8.ofNat n).toInt8)

def readBEUInt8 : Reader β UInt8 := (readInteger 1).map UInt8.ofNat

def readBEInt16 : Reader β Int16 := (readInteger 2).map (fun n => (ntohs (UInt16.ofNat n)).toInt16)

def readBEUInt16 : Reader β UInt16 := (readInteger 2).map (fun n => ntohs (UInt16.ofNat n))

def readBEInt32 : Reader β Int32 := (readInteger 4).map (fun n => (ntohl (UInt32.ofNat n)).toInt32)

def readBEUInt32 : Reader β UInt32 := (readInteger 4).map (fun n => ntohl (UInt32.ofNat n))

def readBEInt64 : Reader β Int64 := (readInteger 8).map (fun n => networkToHostLong8 (UInt64.ofNat n))

def readBEUInt64 : Reader β UInt64 := (readInteger 8).map (fun n => networkToHostULong8 (UInt64.ofNat n))

def readBool : Reader β Bool := (readInteger 1).map (fun n => UInt8.ofNat n != 0)

def readLEInt : Reader β Int32 := (readInteger 4).map (fun n => (UInt32.ofNat n).toInt32)

end Readers

section Writers

variable {β : Type} [ByteQueue β]

/-- `PUTBYTES` and `WriteBuf` of an integer variable of the host. -/
def writeInteger (width n : Nat) : Writer β := fun b =>
  if !canWriteBytes width b then (false, b) else writeBuf (LittleEndian.bytes width n) b

def writeBEInt8 (v : Int8) : Writer β := writeInteger 1 v.toUInt8.toNat

def writeBEUInt8 (v : UInt8) : Writer β := writeInteger 1 v.toNat

def writeBEInt16 (v : Int16) : Writer β := writeInteger 2 (htons v.toUInt16).toNat

def writeBEUInt16 (v : UInt16) : Writer β := writeInteger 2 (htons v).toNat

def writeBEInt32 (v : Int32) : Writer β := writeInteger 4 (hostToNetwork4 v.toUInt32).toNat

def writeBEUInt32 (v : UInt32) : Writer β := writeInteger 4 (hostToNetwork4 v).toNat

def writeBEInt64 (v : Int64) : Writer β := writeInteger 8 (hostToNetwork8 v.toUInt64).toNat

def writeBEUInt64 (v : UInt64) : Writer β := writeInteger 8 (hostToNetwork8 v).toNat

/-- Through `Write`, with no check of its own. -/
def writeBool (v : Bool) : Writer β := write [if v then 1 else 0]

def writeLEInt32 (v : Int32) : Writer β := writeBuf (LittleEndian.bytes 4 v.toUInt32.toNat)

/-- The loop that fills `b[10]` in `WriteVarInt64`. -/
def varInt64Bytes : Nat → UInt64 → AString
  | 0, _ => []
  | rounds + 1, v =>
    let byte := ((v &&& 0x7f) ||| (if 0x7f < v then 0x80 else 0x00)).toUInt8
    if (0 : UInt64) < v >>> 7 then byte :: varInt64Bytes rounds (v >>> 7) else [byte]

def writeVarInt64 (v : UInt64) : Writer β := writeBuf (varInt64Bytes 10 v)

end Writers

end HostOrder

/-- A value with the type it is sent as. -/
inductive TypedValue
  | bool (v : Bool)
  | beInt8 (v : Int8)
  | beUInt8 (v : UInt8)
  | beInt16 (v : Int16)
  | beUInt16 (v : UInt16)
  | beInt32 (v : Int32)
  | beUInt32 (v : UInt32)
  | beInt64 (v : Int64)
  | beUInt64 (v : UInt64)
  | leInt (v : Int32)
  | varInt32 (v : UInt32)
  | varInt64 (v : UInt64)
  | varUTF8String (s : AString)

inductive ValueType
  | bool | beInt8 | beUInt8 | beInt16 | beUInt16 | beInt32 | beUInt32 | beInt64 | beUInt64 | leInt
  | varInt32 | varInt64 | varUTF8String

namespace TypedValue

def type : TypedValue → ValueType
  | .bool _ => .bool
  | .beInt8 _ => .beInt8
  | .beUInt8 _ => .beUInt8
  | .beInt16 _ => .beInt16
  | .beUInt16 _ => .beUInt16
  | .beInt32 _ => .beInt32
  | .beUInt32 _ => .beUInt32
  | .beInt64 _ => .beInt64
  | .beUInt64 _ => .beUInt64
  | .leInt _ => .leInt
  | .varInt32 _ => .varInt32
  | .varInt64 _ => .varInt64
  | .varUTF8String _ => .varUTF8String

/-- The number of bytes a value takes. -/
def size : TypedValue → Nat
  | .bool _ | .beInt8 _ | .beUInt8 _ => 1
  | .beInt16 _ | .beUInt16 _ => 2
  | .beInt32 _ | .beUInt32 _ | .leInt _ => 4
  | .beInt64 _ | .beUInt64 _ => 8
  | .varInt32 v => (Leb128.encode v.toNat).length
  | .varInt64 v => (Leb128.encode v.toNat).length
  | .varUTF8String s => (Leb128.encode s.length).length + s.length

/-- A string's size is sent in 32 bits. -/
def Sendable : TypedValue → Prop
  | .varUTF8String s => s.length < 2 ^ 32
  | _ => True

variable {β : Type} [ByteQueue β]

def writeValue : TypedValue → Writer β
  | .bool v => HostOrder.writeBool v
  | .beInt8 v => HostOrder.writeBEInt8 v
  | .beUInt8 v => HostOrder.writeBEUInt8 v
  | .beInt16 v => HostOrder.writeBEInt16 v
  | .beUInt16 v => HostOrder.writeBEUInt16 v
  | .beInt32 v => HostOrder.writeBEInt32 v
  | .beUInt32 v => HostOrder.writeBEUInt32 v
  | .beInt64 v => HostOrder.writeBEInt64 v
  | .beUInt64 v => HostOrder.writeBEUInt64 v
  | .leInt v => HostOrder.writeLEInt32 v
  | .varInt32 v => writeVarInt32 v
  | .varInt64 v => HostOrder.writeVarInt64 v
  | .varUTF8String s => writeVarUTF8String s

def writeValues : List TypedValue → Writer β
  | [], b => (true, b)
  | v :: values, b =>
    match writeValue v b with
    | (true, b) => writeValues values b
    | (false, b) => (false, b)

variable [Platform]

def readValue : ValueType → Reader β TypedValue
  | .bool => HostOrder.readBool.map .bool
  | .beInt8 => HostOrder.readBEInt8.map .beInt8
  | .beUInt8 => HostOrder.readBEUInt8.map .beUInt8
  | .beInt16 => HostOrder.readBEInt16.map .beInt16
  | .beUInt16 => HostOrder.readBEUInt16.map .beUInt16
  | .beInt32 => HostOrder.readBEInt32.map .beInt32
  | .beUInt32 => HostOrder.readBEUInt32.map .beUInt32
  | .beInt64 => HostOrder.readBEInt64.map .beInt64
  | .beUInt64 => HostOrder.readBEUInt64.map .beUInt64
  | .leInt => HostOrder.readLEInt.map .leInt
  | .varInt32 => readVarInt32.map .varInt32
  | .varInt64 => readVarInt64.map .varInt64
  | .varUTF8String => readVarUTF8String.map .varUTF8String

def readValues : List ValueType → Reader β (List TypedValue)
  | [] => Reader.ret []
  | t :: types => (readValue t).andThen (fun v => (readValues types).map (v :: ·))

end TypedValue

end P2PChat

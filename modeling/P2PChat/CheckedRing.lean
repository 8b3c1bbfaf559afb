import P2PChat.Checked
import P2PChat.TypedCodec

namespace P2PChat

/-- How many values a `size_t` has. -/
class SizeType where
  values : Nat

/-- `cByteBuffer` with everything it takes for granted: its assertions hold, it copies within its
memory, and no subtraction of sizes goes below zero. Sums of sizes wrap. -/
abbrev CheckedRing (α : Type) := Checked Ring α

namespace CheckedRing

open Checked

section Positions

variable [SizeType]

def plus (a b : Nat) : Nat := (a + b) % SizeType.values

def times (a b : Nat) : Nat := a * b % SizeType.values

def minus (a b : Nat) : CheckedRing Nat := do
  check (b ≤ a)
  pure (a - b)

/-- `memcpy` to the memory at `pos`. -/
def store (pos : Nat) (bytes : AString) : CheckedRing Unit := do
  let r ← get
  check (pos + bytes.length ≤ r.bufferSize)
  set { r with buffer := memcpy r.buffer pos bytes }

/-- `memcpy`, `assign` or `append` from the memory at `pos`. -/
def load (pos count : Nat) : CheckedRing AString := do
  let r ← get
  check (pos + count ≤ r.bufferSize)
  pure (peek r.buffer pos count)

def checkValid : CheckedRing Unit := do
  let r ← get
  check (r.readPos < r.bufferSize)
  check (r.writePos < r.bufferSize)

def clearAll : CheckedRing Unit := modify Ring.clearAll

def getFreeSpace : CheckedRing Nat := do
  checkValid
  let r ← get
  if r.dataStart ≤ r.writePos then
    check (r.writePos ≤ r.bufferSize)
    let tillEnd ← minus r.bufferSize r.writePos
    check (1 ≤ plus tillEnd r.dataStart)
    minus (plus tillEnd r.dataStart) 1
  else
    check (r.writePos ≤ r.bufferSize)
    let tillEnd ← minus r.bufferSize r.writePos
    check (1 ≤ tillEnd)
    let space ← minus r.dataStart r.writePos
    minus space 1

def getUsedSpace : CheckedRing Nat := do
  checkValid
  let r ← get
  let free ← getFreeSpace
  check (free ≤ r.bufferSize)
  let rest ← minus r.bufferSize free
  check (1 ≤ rest)
  minus rest 1

def getReadableSpace : CheckedRing Nat := do
  checkValid
  let r ← get
  if r.writePos < r.readPos then
    check (r.readPos ≤ r.bufferSize)
    let tillEnd ← minus r.bufferSize r.readPos
    pure (plus tillEnd r.writePos)
  else
    check (r.readPos ≤ r.writePos)
    minus r.writePos r.readPos

def canReadBytes (count : Nat) : CheckedRing Bool := do
  checkValid
  let space ← getReadableSpace
  pure (decide (count ≤ space))

def canWriteBytes (count : Nat) : CheckedRing Bool := do
  checkValid
  let space ← getFreeSpace
  pure (decide (count ≤ space))

/-- The last `memcpy` of `Write` and `WriteBuf`. -/
def storeRest (bytes : AString) : CheckedRing Unit := do
  if 0 < bytes.length then
    let r ← get
    store r.writePos bytes
    modify (fun s => { s with writePos := plus r.writePos bytes.length })
  else pure ()

/-- The answer of the source's copying part is the number of bytes it wrote. -/
def write (bytes : AString) : CheckedRing Bool := do
  checkValid
  let curFreeSpace ← getFreeSpace
  let curReadableSpace ← getReadableSpace
  if curFreeSpace < bytes.length then pure false
  else
    let r ← get
    check (r.writePos ≤ r.bufferSize)
    let tillEnd ← minus r.bufferSize r.writePos
    if tillEnd ≤ bytes.length then
      if 0 < tillEnd then store r.writePos (bytes.take tillEnd) else pure ()
      let left ← minus bytes.length tillEnd
      modify (fun s => { s with writePos := 0 })
      storeRest (bytes.drop tillEnd)
      assertWritten curFreeSpace curReadableSpace (plus tillEnd left)
    else
      storeRest bytes
      assertWritten curFreeSpace curReadableSpace bytes.length
where
  /-- The two assertions at the end of `Write`. -/
  assertWritten (curFreeSpace curReadableSpace writtenBytes : Nat) : CheckedRing Bool := do
    let free ← getFreeSpace
    let expected ← minus curFreeSpace writtenBytes
    check (free = expected)
    let readable ← getReadableSpace
    check (readable = plus curReadableSpace writtenBytes)
    pure true

def writeBuf (bytes : AString) : CheckedRing Bool := do
  checkValid
  let can ← canWriteBytes bytes.length
  if !can then pure false
  else
    let r ← get
    check (r.readPos ≤ r.bufferSize)
    let bytesToEndOfBuffer ← minus r.bufferSize r.writePos
    if bytesToEndOfBuffer ≤ bytes.length then
      store r.writePos (bytes.take bytesToEndOfBuffer)
      let _ ← minus bytes.length bytesToEndOfBuffer
      modify (fun s => { s with writePos := 0 })
      storeRest (bytes.drop bytesToEndOfBuffer)
      pure true
    else
      storeRest bytes
      pure true

/-- The last `memcpy` of `ReadBuf`, or `append` of `ReadString`. -/
def loadRest (count : Nat) : CheckedRing AString := do
  if 0 < count then
    let r ← get
    let bytes ← load r.readPos count
    modify (fun s => { s with readPos := plus r.readPos count })
    pure bytes
  else pure []

/-- The copying part shared by `ReadBuf` and `ReadString`; the latter asserts once more that the
count is large enough. -/
def loadAll (count : Nat) : CheckedRing AString := do
  let r ← get
  check (r.readPos ≤ r.bufferSize)
  let bytesToEndOfBuffer ← minus r.bufferSize r.readPos
  if bytesToEndOfBuffer ≤ count then
    let first ← (if 0 < bytesToEndOfBuffer then load r.readPos bytesToEndOfBuffer else pure [])
    check (bytesToEndOfBuffer ≤ count)
    let left ← minus count bytesToEndOfBuffer
    modify (fun s => { s with readPos := 0 })
    let rest ← loadRest left
    pure (first ++ rest)
  else loadRest count

def readBuf (count : Nat) : CheckedRing (Option AString) := do
  checkValid
  let can ← canReadBytes count
  if !can then pure none
  else
    let bytes ← loadAll count
    pure (some bytes)

def readString (count : Nat) : CheckedRing (Option AString) := do
  checkValid
  let can ← canReadBytes count
  if !can then pure none
  else
    let bytes ← loadAll count
    pure (some bytes)

def readAll : CheckedRing AString := do
  checkValid
  let space ← getReadableSpace
  let bytes ← readString space
  pure (bytes.getD [])

def advanceReadPos (count : Nat) : CheckedRing Unit := do
  checkValid
  modify (fun r => { r with readPos := plus r.readPos count })
  let r ← get
  if r.bufferSize ≤ r.readPos then
    let pos ← minus r.readPos r.bufferSize
    modify (fun s => { s with readPos := pos })
  else pure ()

def skipRead (count : Nat) : CheckedRing Bool := do
  checkValid
  let can ← canReadBytes count
  if !can then pure false
  else
    advanceReadPos count
    pure true

def commitRead : CheckedRing Unit := do
  checkValid
  modify Ring.commitRead

def resetRead : CheckedRing Unit := do
  checkValid
  modify Ring.resetRead

def readAgain (out : AString) : CheckedRing AString := do
  checkValid
  let r ← get
  if r.readPos < r.dataStart then
    check (r.dataStart ≤ r.bufferSize)
    let tillEnd ← minus r.bufferSize r.dataStart
    let first ← load r.dataStart tillEnd
    check (0 ≤ r.readPos)
    let count ← minus r.readPos 0
    let second ← load 0 count
    pure (out ++ first ++ second)
  else
    check (r.dataStart ≤ r.readPos)
    let count ← minus r.readPos r.dataStart
    let bytes ← load r.dataStart count
    pure (out ++ bytes)

end Positions

section Typed

variable [SizeType]

/-- `NEEDBYTES` and `ReadBuf` into an integer variable of the host. -/
def readInteger (width : Nat) : CheckedRing (Option Nat) := do
  checkValid
  let can ← canReadBytes width
  if !can then pure none
  else
    let bytes ← readBuf width
    pure (bytes.map LittleEndian.value)

def readBEInt8 : CheckedRing (Option Int8) := do
  let n ← readInteger 1
  pure (n.map (fun n => (UInt8.ofNat n).toInt8))

def readBEUInt8 : CheckedRing (Option UInt8) := do
  let n ← readInteger 1
  pure (n.map UInt8.ofNat)

def readBEInt16 : CheckedRing (Option Int16) := do
  let n ← readInteger 2
  pure (n.map (fun n => (ntohs (UInt16.ofNat n)).toInt16))

def readBEUInt16 : CheckedRing (Option UInt16) := do
  let n ← readInteger 2
  pure (n.map (fun n => ntohs (UInt16.ofNat n)))

def readBEInt32 : CheckedRing (Option Int32) := do
  let n ← readInteger 4
  pure (n.map (fun n => (ntohl (UInt32.ofNat n)).toInt32))

def readBEUInt32 : CheckedRing (Option UInt32) := do
  let n ← readInteger 4
  pure (n.map (fun n => ntohl (UInt32.ofNat n)))

def readBEInt64 : CheckedRing (Option Int64) := do
  let n ← readInteger 8
  pure (n.map (fun n => networkToHostLong8 (UInt64.ofNat n)))

def readBEUInt64 : CheckedRing (Option UInt64) := do
  let n ← readInteger 8
  pure (n.map (fun n => networkToHostULong8 (UInt64.ofNat n)))

/-- The bits of the `float`. -/
def readBEFloat : CheckedRing (Option UInt32) := do
  let n ← readInteger 4
  pure (n.map (fun n => ntohl (UInt32.ofNat n)))

/-- The bits of the `double`. -/
def readBEDouble : CheckedRing (Option UInt64) := do
  let n ← readInteger 8
  pure (n.map (fun n => ntohll (UInt64.ofNat n)))

def readBool : CheckedRing (Option Bool) := do
  let n ← readInteger 1
  pure (n.map (fun n => UInt8.ofNat n != 0))

def readLEInt : CheckedRing (Option Int32) := do
  let n ← readInteger 4
  pure (n.map (fun n => (UInt32.ofNat n).toInt32))

/-- The raw string and the number of characters that are converted from it. -/
def readUTF16String (numChars : Nat) : CheckedRing (Option (AString × Nat)) := do
  checkValid
  let rawData ← readString (times numChars 2)
  pure (rawData.map (fun raw => (raw, numChars)))

def readBEUTF16String16 : CheckedRing (Option (AString × Nat)) := do
  checkValid
  let length ← readBEUInt16
  match length with
  | none => pure none
  | some length => readUTF16String length.toNat

/-- The loop of the VarInt readers, with more rounds allowed than there are bytes to read. -/
def readVarIntLoop {α : Type} (join : α → UInt8 → Nat → α) : Nat → α → Nat → CheckedRing (Option α)
  | 0, _, _ => failure
  | rounds + 1, value, shift => do
    let can ← canReadBytes 1
    if !can then pure none
    else
      let bytes ← readBuf 1
      let b := (bytes.getD []).headD 0
      if b &&& 0x80 != 0 then readVarIntLoop join rounds (join value b shift) (shift + 7)
      else pure (some (join value b shift))

variable [Platform]

def readVarInt32 : CheckedRing (Option UInt32) := do
  checkValid
  let r ← get
  readVarIntLoop (fun v b s => v ||| shiftLeft32 (b &&& 0x7f).toUInt32 s) (r.getReadableSpace + 1) 0 0

def readVarInt64 : CheckedRing (Option UInt64) := do
  checkValid
  let r ← get
  readVarIntLoop (fun v b s => v ||| shiftLeft64 (b &&& 0x7f).toUInt64 s) (r.getReadableSpace + 1) 0 0

def readVarUTF8String : CheckedRing (Option AString) := do
  checkValid
  let size ← readVarInt64
  match size with
  | none => pure none
  | some size => readString size.toUInt32.toNat

/-- A coordinate whose highest bit is set is negative. -/
def signedCoordinate (raw highBit : UInt32) (range : Int) : Int :=
  if raw &&& highBit == 0 then raw.toNat else -(range - raw.toNat)

def readPosition64 : CheckedRing (Option (Int × Int × Int)) := do
  let value ← readBEInt64
  pure (value.map (fun (value : Int64) =>
    let blockXRaw := ((value >>> 38) &&& 0x03ffffff).toUInt64.toUInt32
    let blockYRaw := ((value >>> 26) &&& 0x0fff).toUInt64.toUInt32
    let blockZRaw := (value &&& 0x03ffffff).toUInt64.toUInt32
    (signedCoordinate blockXRaw 0x02000000 0x04000000, signedCoordinate blockYRaw 0x0800 0x0800,
      signedCoordinate blockZRaw 0x02000000 0x04000000)))

omit [Platform]

/-- `PUTBYTES` and `WriteBuf` of an integer variable of the host. -/
def writeInteger (width n : Nat) : CheckedRing Bool := do
  checkValid
  let can ← canWriteBytes width
  if !can then pure false else writeBuf (LittleEndian.bytes width n)

def writeBEInt8 (v : Int8) : CheckedRing Bool := writeInteger 1 v.toUInt8.toNat

def writeBEUInt8 (v : UInt8) : CheckedRing Bool := writeInteger 1 v.toNat

def writeBEInt16 (v : Int16) : CheckedRing Bool := writeInteger 2 (htons v.toUInt16).toNat

def writeBEUInt16 (v : UInt16) : CheckedRing Bool := writeInteger 2 (htons v).toNat

def writeBEInt32 (v : Int32) : CheckedRing Bool := writeInteger 4 (hostToNetwork4 v.toUInt32).toNat

def writeBEUInt32 (v : UInt32) : CheckedRing Bool := writeInteger 4 (hostToNetwork4 v).toNat

def writeBEInt64 (v : Int64) : CheckedRing Bool := writeInteger 8 (hostToNetwork8 v.toUInt64).toNat

def writeBEUInt64 (v : UInt64) : CheckedRing Bool := writeInteger 8 (hostToNetwork8 v).toNat

def writeBEFloat (bits : UInt32) : CheckedRing Bool := writeInteger 4 (hostToNetwork4 bits).toNat

def writeBEDouble (bits : UInt64) : CheckedRing Bool := writeInteger 8 (hostToNetwork8 bits).toNat

def writeBool (v : Bool) : CheckedRing Bool := do
  checkValid
  write [if v then 1 else 0]

def writeVarInt32 (v : UInt32) : CheckedRing Bool := do
  checkValid
  writeBuf (varInt32Bytes 5 v)

def writeVarInt64 (v : UInt64) : CheckedRing Bool := do
  checkValid
  writeBuf (HostOrder.varInt64Bytes 10 v)

def writeVarUTF8String (s : AString) : CheckedRing Bool := do
  checkValid
  let can ← canWriteBytes (plus s.length 1)
  if !can then pure false
  else
    let res ← writeVarInt32 (UInt32.ofNat s.length)
    if !res then pure false else writeBuf s

def writeLEInt32 (v : Int32) : CheckedRing Bool := do
  checkValid
  writeBuf (LittleEndian.bytes 4 v.toUInt32.toNat)

def writePosition64 (blockX blockY blockZ : Int32) : CheckedRing Bool := do
  checkValid
  writeBEInt64 (((blockX &&& 0x3FFFFFF).toInt64 <<< 38) ||| ((blockY &&& 0xFFF).toInt64 <<< 26) |||
    (blockZ &&& 0x3FFFFFF).toInt64)

end Typed

section Transfer

variable {ι : Type} [DecidableEq ι] [SizeType]

/-- The loop of `ReadToByteBuffer`; the buffers may be one and the same. -/
def transfer (i dst : ι) : Nat → Nat → Checked (ι → Ring) Unit
  | 0, numBytes => check (numBytes = 0)
  | rounds + 1, numBytes =>
    if numBytes = 0 then pure ()
    else do
      let num := if 1024 < numBytes then 1024 else numBytes
      let buf ← part i (readBuf num)
      check (buf.isSome = true)
      let written ← part dst (write (buf.getD []))
      check (written = true)
      check (num ≤ numBytes)
      transfer i dst rounds (numBytes - num)

def readToByteBuffer (i dst : ι) (numBytes : Nat) : Checked (ι → Ring) Bool := do
  let canWrite ← part dst (canWriteBytes numBytes)
  if !canWrite then pure false
  else
    let canRead ← part i (canReadBytes numBytes)
    if !canRead then pure false
    else
      transfer i dst numBytes numBytes
      pure true

end Transfer

end CheckedRing

end P2PChat

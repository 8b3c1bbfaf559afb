import Mathlib.Data.List.Basic

namespace P2PChat

abbrev AString := List UInt8

/-- That of the C locale. -/
def tolower (c : UInt8) : UInt8 := if 65 ≤ c ∧ c ≤ 90 then c + 32 else c

/-- `memcpy` of `src` to the address `pos`. -/
def memcpy (dst : Nat → UInt8) (pos : Nat) (src : AString) : Nat → UInt8 :=
  fun i => if pos ≤ i then (src[i - pos]?).getD (dst i) else dst i

/-- The `count` bytes that start at the address `pos`. -/
def peek (src : Nat → UInt8) (pos count : Nat) : AString :=
  (List.range count).map (fun i => src (pos + i))

/-- The members of `cByteBuffer`. -/
structure Ring where
  buffer : Nat → UInt8
  bufferSize : Nat
  dataStart : Nat
  writePos : Nat
  readPos : Nat

namespace Ring

/-- The constructor allocates one byte more than asked for, to tell full from empty;
`fresh` is what the allocated memory happens to contain. -/
def new (fresh : Nat → UInt8) (size : Nat) : Ring := ⟨fresh, size + 1, 0, 0, 0⟩

/-- The source's `memset` has its count and value swapped: it sets no byte. -/
def clearAll (r : Ring) : Ring := { r with dataStart := 0, writePos := 0, readPos := 0 }

def getFreeSpace (r : Ring) : Nat :=
  if r.dataStart ≤ r.writePos then r.bufferSize - r.writePos + r.dataStart - 1
  else r.dataStart - r.writePos - 1

def getUsedSpace (r : Ring) : Nat := r.bufferSize - r.getFreeSpace - 1

def getReadableSpace (r : Ring) : Nat :=
  if r.writePos < r.readPos then r.bufferSize - r.readPos + r.writePos
  else r.writePos - r.readPos

def canReadBytes (count : Nat) (r : Ring) : Bool := count ≤ r.getReadableSpace

def canWriteBytes (count : Nat) (r : Ring) : Bool := count ≤ r.getFreeSpace

/-- The copying part shared by `Write` and `WriteBuf`: up to the end of the memory,
then from its start. -/
def put (bytes : AString) (r : Ring) : Ring :=
  let tillEnd := r.bufferSize - r.writePos
  let rest := if tillEnd ≤ bytes.length then bytes.drop tillEnd else bytes
  let r := if tillEnd ≤ bytes.length then
      { r with buffer := memcpy r.buffer r.writePos (bytes.take tillEnd), writePos := 0 }
    else r
  if 0 < rest.length then
    { r with buffer := memcpy r.buffer r.writePos rest, writePos := r.writePos + rest.length }
  else r

def write (bytes : AString) (r : Ring) : Bool × Ring :=
  if r.getFreeSpace < bytes.length then (false, r) else (true, r.put bytes)

def writeBuf (bytes : AString) (r : Ring) : Bool × Ring :=
  if !r.canWriteBytes bytes.length then (false, r) else (true, r.put bytes)

/-- The copying part shared by `ReadBuf` and `ReadString`. -/
def get (count : Nat) (r : Ring) : AString × Ring :=
  let bytesToEndOfBuffer := r.bufferSize - r.readPos
  if bytesToEndOfBuffer ≤ count then
    (peek r.buffer r.readPos bytesToEndOfBuffer ++ peek r.buffer 0 (count - bytesToEndOfBuffer),
      { r with readPos := count - bytesToEndOfBuffer })
  else (peek r.buffer r.readPos count, { r with readPos := r.readPos + count })

def readBuf (count : Nat) (r : Ring) : Option AString × Ring :=
  if !r.canReadBytes count then (none, r) else (some (r.get count).1, (r.get count).2)

def readString (count : Nat) (r : Ring) : Option AString × Ring :=
  if !r.canReadBytes count then (none, r) else (some (r.get count).1, (r.get count).2)

def readAll (r : Ring) : AString × Ring :=
  ((r.readString r.getReadableSpace).1.getD [], (r.readString r.getReadableSpace).2)

def advanceReadPos (count : Nat) (r : Ring) : Ring :=
  if r.bufferSize ≤ r.readPos + count then { r with readPos := r.readPos + count - r.bufferSize }
  else { r with readPos := r.readPos + count }

def skipRead (count : Nat) (r : Ring) : Bool × Ring :=
  if !r.canReadBytes count then (false, r) else (true, r.advanceReadPos count)

def commitRead (r : Ring) : Ring := { r with dataStart := r.readPos }

def resetRead (r : Ring) : Ring := { r with readPos := r.dataStart }

/-- The bytes read since the last commit, appended to `out`. -/
def readAgain (out : AString) (r : Ring) : AString :=
  if r.readPos < r.dataStart then
    out ++ peek r.buffer r.dataStart (r.bufferSize - r.dataStart) ++ peek r.buffer 0 r.readPos
  else out ++ peek r.buffer r.dataStart (r.readPos - r.dataStart)

/-- The loop of `ReadToByteBuffer`: through a local buffer of 1024 bytes, as many rounds as
`fuel` allows; it answers `false` where a `VERIFY` of the source would end the process. -/
def transfer : Nat → Nat → Ring → Ring → Bool × Ring × Ring
  | 0, numBytes, dst, r => (numBytes == 0, dst, r)
  | fuel + 1, numBytes, dst, r =>
    if numBytes = 0 then (true, dst, r)
    else
      let num := if 1024 < numBytes then 1024 else numBytes
      match r.readBuf num with
      | (none, r) => (false, dst, r)
      | (some buf, r) =>
        match dst.write buf with
        | (false, dst) => (false, dst, r)
        | (true, dst) => transfer fuel (numBytes - num) dst r

def readToByteBuffer (numBytes : Nat) (dst r : Ring) : Bool × Ring × Ring :=
  if !dst.canWriteBytes numBytes || !r.canReadBytes numBytes then (false, dst, r)
  else transfer numBytes numBytes dst r

end Ring

end P2PChat

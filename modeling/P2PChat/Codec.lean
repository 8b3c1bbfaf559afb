import P2PChat.ByteBuffer
import Mathlib.Algebra.Group.Nat.Defs

namespace P2PChat

open ByteQueue

/-- A reading call: the value, if it answered `true`, and the buffer after it. -/
def Reader (β α : Type) := β → Option α × β

/-- A writing call: its answer, and the buffer after it. -/
def Writer (β : Type) := β → Bool × β

namespace Reader

variable {β γ α δ : Type}

def ret (a : α) : Reader β α := fun b => (some a, b)

/-- `HANDLE_READ`: go on with the value, or leave the function. -/
def andThen (r : Reader β α) (k : α → Reader β δ) : Reader β δ := fun b =>
  match r b with
  | (some a, b) => k a b
  | (none, b) => (none, b)

def map (g : α → δ) (r : Reader β α) : Reader β δ := fun b => ((r b).1.map g, (r b).2)

end Reader

section Readers

variable {β : Type} [ByteQueue β]

def bigEndian (bytes : AString) : Nat := bytes.foldl (fun n b => 256 * n + b.toNat) 0

def bigEndianBytes (width n : Nat) : AString :=
  (List.range width).reverse.map (fun i => UInt8.ofNat (n / 256 ^ i))

/-- The fixed-width readers: the bytes are those of the number in network order. -/
def readBE (width : Nat) : Reader β Nat := fun b =>
  if !canReadBytes width b then (none, b)
  else ((readBuf width b).1.map bigEndian, (readBuf width b).2)

def readBEInt32 : Reader β Int32 := (readBE 4).map (fun n => (UInt32.ofNat n).toInt32)

def readBEInt64 : Reader β Int64 := (readBE 8).map (fun n => (UInt64.ofNat n).toInt64)

/-- The loop of the two VarInt readers; `join` puts seven more bits into the value. -/
def readVarIntLoop {α : Type} (join : α → UInt8 → Nat → α) : Nat → α → Nat → Reader β α
  | 0, _, _ => fun b => (none, b)
  | fuel + 1, value, shift => fun b =>
    if !canReadBytes 1 b then (none, b)
    else
      match readBuf 1 b with
      | (some [byte], b) =>
        if byte &&& 0x80 != 0 then readVarIntLoop join fuel (join value byte shift) (shift + 7) b
        else (some (join value byte shift), b)
      | (_, b) => (none, b)

variable [Platform]

def shiftLeft64 (v : UInt64) (s : Nat) : UInt64 :=
  if s < 64 then v <<< UInt64.ofNat s else Platform.shiftedOut64 v s

def shiftLeft32 (v : UInt32) (s : Nat) : UInt32 :=
  if s < 32 then v <<< UInt32.ofNat s else Platform.shiftedOut32 v s

def readVarInt32 : Reader β UInt32 := fun b =>
  readVarIntLoop (fun v byte s => v ||| shiftLeft32 (byte &&& 0x7f).toUInt32 s)
    (getReadableSpace b + 1) 0 0 b

def readVarInt64 : Reader β UInt64 := fun b =>
  readVarIntLoop (fun v byte s => v ||| shiftLeft64 (byte &&& 0x7f).toUInt64 s)
    (getReadableSpace b + 1) 0 0 b

/-- `ReadVarInt<UInt32>`: the 64-bit value, cut to 32 bits. -/
def readVarInt : Reader β UInt32 := readVarInt64.map UInt64.toUInt32

def readVarUTF8String : Reader β AString :=
  readVarInt.andThen (fun size => readString size.toNat)

end Readers

section Writers

variable {β : Type} [ByteQueue β]

def writeBE (width n : Nat) : Writer β := fun b =>
  if !canWriteBytes width b then (false, b) else writeBuf (bigEndianBytes width n) b

def writeBEInt32 (v : Int32) : Writer β := writeBE 4 v.toUInt32.toNat

def writeBEInt64 (v : Int64) : Writer β := writeBE 8 v.toUInt64.toNat

/-- The loop that fills `b[5]` in `WriteVarInt32`. -/
def varInt32Bytes : Nat → UInt32 → AString
  | 0, _ => []
  | rounds + 1, v =>
    let byte := ((v &&& 0x7f) ||| (if 0x7f < v then 0x80 else 0x00)).toUInt8
    if (0 : UInt32) < v >>> 7 then byte :: varInt32Bytes rounds (v >>> 7) else [byte]

def writeVarInt32 (v : UInt32) : Writer β := writeBuf (varInt32Bytes 5 v)

def writeVarUTF8String (s : AString) : Writer β := fun b =>
  if !canWriteBytes (s.length + 1) b then (false, b)
  else
    match writeVarInt32 (UInt32.ofNat s.length) b with
    | (false, b) => (false, b)
    | (true, b) => writeBuf s b

end Writers

section Refinement

variable {β γ δ : Type}

/-- Two calls do the same through `f`. -/
def Commutes (f : β → γ) (g : β → δ × β) (h : γ → δ × γ) : Prop :=
  ∀ b, h (f b) = ((g b).1, f (g b).2)

theorem Commutes.andThen {α : Type} {f : β → γ} {r : Reader β α} {s : Reader γ α}
    {k : α → Reader β δ} {l : α → Reader γ δ} (hr : Commutes f r s)
    (hk : ∀ a, Commutes f (k a) (l a)) : Commutes f (r.andThen k) (s.andThen l) := by
  intro b
  simp only [Reader.andThen, hr b]
  rcases hrb : r b with ⟨_ | a, b'⟩
  · rfl
  · exact hk a b'

theorem Commutes.map {α : Type} {f : β → γ} {r : Reader β α} {s : Reader γ α} (g : α → δ)
    (hr : Commutes f r s) : Commutes f (r.map g) (s.map g) := by
  intro b
  simp only [Reader.map, hr b]

variable [ByteQueue β] [ByteQueue γ] {f : β → γ} (hf : Hom f)

include hf

theorem readBE_commutes (width : Nat) : Commutes f (readBE width) (readBE width) := by
  intro b
  simp only [readBE, hf.canReadBytes, hf.readBuf]
  split <;> rfl

theorem readBEInt32_commutes : Commutes f readBEInt32 readBEInt32 :=
  (readBE_commutes hf 4).map _

theorem readBEInt64_commutes : Commutes f readBEInt64 readBEInt64 :=
  (readBE_commutes hf 8).map _

theorem readVarIntLoop_commutes {α : Type} (join : α → UInt8 → Nat → α) (fuel : Nat) (value : α)
    (shift : Nat) :
    Commutes f (readVarIntLoop join fuel value shift) (readVarIntLoop join fuel value shift) := by
  induction fuel generalizing value shift with
  | zero => intro b; rfl
  | succ fuel ih =>
    intro b
    simp only [readVarIntLoop, hf.canReadBytes, hf.readBuf]
    split
    next => rfl
    next =>
      rcases hb : readBuf 1 b with ⟨_ | bytes, b'⟩
      · rfl
      · rcases bytes with _ | ⟨byte, _ | ⟨_, _⟩⟩
        · rfl
        · dsimp only
          split
          next => exact ih _ _ b'
          next => rfl
        · rfl

theorem writeBE_commutes (width n : Nat) : Commutes f (writeBE width n) (writeBE width n) := by
  intro b
  simp only [writeBE, hf.canWriteBytes, hf.writeBuf]
  split <;> rfl

theorem writeVarInt32_commutes (v : UInt32) : Commutes f (writeVarInt32 v) (writeVarInt32 v) :=
  hf.writeBuf _

theorem writeVarUTF8String_commutes (s : AString) :
    Commutes f (writeVarUTF8String s) (writeVarUTF8String s) := by
  intro b
  simp only [writeVarUTF8String, hf.canWriteBytes, writeVarInt32_commutes hf _ b]
  split
  next => rfl
  next =>
    rcases writeVarInt32 (UInt32.ofNat s.length) b with ⟨_ | _, b'⟩
    · rfl
    · exact hf.writeBuf s b'

variable [Platform]

theorem readVarInt32_commutes : Commutes f readVarInt32 readVarInt32 := by
  intro b
  simp only [readVarInt32, hf.getReadableSpace]
  exact readVarIntLoop_commutes hf _ _ _ _ b

theorem readVarInt64_commutes : Commutes f readVarInt64 readVarInt64 := by
  intro b
  simp only [readVarInt64, hf.getReadableSpace]
  exact readVarIntLoop_commutes hf _ _ _ _ b

theorem readVarInt_commutes : Commutes f readVarInt readVarInt :=
  (readVarInt64_commutes hf).map _

theorem readVarUTF8String_commutes : Commutes f readVarUTF8String readVarUTF8String :=
  (readVarInt_commutes hf).andThen (fun size => hf.readString size.toNat)

end Refinement

end P2PChat

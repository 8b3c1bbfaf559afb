import P2PChat.Codec
import P2PChat.Leb128

namespace P2PChat

open ByteQueue

/-- What a reading call finds in the unread bytes, and how many of them it uses up. -/
def Parser (α : Type) := AString → Option α × Nat

namespace Parser

variable {α δ : Type}

def andThen (p : Parser α) (k : α → Parser δ) : Parser δ := fun u =>
  match p u with
  | (some a, n) => ((k a (u.drop n)).1, n + (k a (u.drop n)).2)
  | (none, n) => (none, n)

def map (g : α → δ) (p : Parser α) : Parser δ := fun u => ((p u).1.map g, (p u).2)

def bytes (count : Nat) : Parser AString := fun u =>
  if count ≤ u.length then (some (u.take count), count) else (none, 0)

end Parser

/-- The reader takes from the queue what the parser takes from its unread bytes. -/
def Reads {α : Type} (r : Reader Fifo α) (p : Parser α) : Prop :=
  ∀ q, r q = ((p q.unread).1, q.advance (p q.unread).2)

theorem Reads.andThen {α δ : Type} {r : Reader Fifo α} {p : Parser α} {k : α → Reader Fifo δ}
    {l : α → Parser δ} (hr : Reads r p) (hk : ∀ a, Reads (k a) (l a)) :
    Reads (r.andThen k) (p.andThen l) := by
  intro q
  simp only [Reader.andThen, Parser.andThen, hr q]
  rcases hp : p q.unread with ⟨_ | a, n⟩
  · rfl
  · simp only [hk a (q.advance n), Fifo.advance_advance]
    rfl

theorem Reads.map {α δ : Type} {r : Reader Fifo α} {p : Parser α} (g : α → δ) (hr : Reads r p) :
    Reads (r.map g) (p.map g) := by
  intro q
  simp only [Reader.map, Parser.map, hr q]

theorem Fifo.advance_zero (q : Fifo) : q.advance 0 = q := by
  apply Fifo.ext
  · rfl
  · simp [Fifo.advance]
  · simp [Fifo.advance]

theorem readBuf_reads (count : Nat) : Reads (readBuf count) (Parser.bytes count) := by
  intro q
  change q.take count = _
  unfold Fifo.take Parser.bytes
  split
  next => rfl
  next => rw [Fifo.advance_zero]

def parseBE (width : Nat) : Parser Nat := (Parser.bytes width).map bigEndian

theorem readBE_reads (width : Nat) : Reads (readBE width) (parseBE width) := by
  intro q
  have hr := readBuf_reads width q
  simp only [readBE, hr, parseBE, Parser.map]
  by_cases hw : width ≤ q.unread.length
  · simp [canReadBytes, getReadableSpace, hw]
  · simp [canReadBytes, getReadableSpace, hw, Parser.bytes, Fifo.advance_zero]

/-- The value after joining the bytes one by one. -/
def joinAll {α : Type} (join : α → UInt8 → Nat → α) : α → Nat → AString → α
  | value, _, [] => value
  | value, shift, b :: bytes => joinAll join (join value b shift) (shift + 7) bytes

def parseVarIntWith {α : Type} (join : α → UInt8 → Nat → α) (value : α) (shift : Nat) : Parser α :=
  fun u =>
    match Leb128.firstLength u with
    | some k => (some (joinAll join value shift (u.take k)), k)
    | none => (none, u.length)

/-- What a loop that reads byte after byte finds in a round: nothing, or the next byte. -/
theorem readByte_nil {q : Fifo} (hu : q.unread = []) : canReadBytes 1 q = false := by
  simp [canReadBytes, getReadableSpace, hu]

theorem readByte_cons {q : Fifo} {b : UInt8} {rest : AString} (hu : q.unread = b :: rest) :
    canReadBytes 1 q = true ∧ readBuf 1 q = (some [b], q.advance 1) ∧ (q.advance 1).unread = rest := by
  refine ⟨by simp [canReadBytes, getReadableSpace, hu], ?_, by simp [Fifo.advance, hu]⟩
  rw [readBuf_reads 1 q]
  simp [Parser.bytes, hu]

/-- The loops go on as long as the top bit is set. -/
theorem topBit_eq (b : UInt8) : (b &&& 0x80 != 0) = !Leb128.isLast b := rfl

theorem readVarIntLoop_reads {α : Type} (join : α → UInt8 → Nat → α) {fuel : Nat} (value : α)
    (shift : Nat) {q : Fifo} (hq : q.unread.length < fuel) :
    readVarIntLoop join fuel value shift q =
      ((parseVarIntWith join value shift q.unread).1,
        q.advance (parseVarIntWith join value shift q.unread).2) := by
  induction fuel generalizing value shift q with
  | zero => omega
  | succ fuel ih =>
    rcases hu : q.unread with _ | ⟨b, rest⟩
    · simp [readVarIntLoop, readByte_nil hu, parseVarIntWith, Leb128.firstLength, Fifo.advance_zero]
    · obtain ⟨hyes, hread, hrest⟩ := readByte_cons hu
      simp only [readVarIntLoop, hyes, Bool.not_true, Bool.false_eq_true, if_false, hread, topBit_eq, parseVarIntWith,
        Leb128.firstLength_cons]
      by_cases hlast : Leb128.isLast b = true
      · simp [hlast, joinAll]
      · have hlen : (q.advance 1).unread.length < fuel := by
          rw [hrest]
          rw [hu, List.length_cons] at hq
          omega
        simp only [Bool.eq_false_iff.mpr hlast, Bool.not_false, Bool.false_eq_true, if_true, if_false]
        rw [ih _ _ hlen, hrest, parseVarIntWith]
        rcases Leb128.firstLength rest with _ | k
        · simp [Fifo.advance_advance, Nat.add_comm]
        · simp only [Option.map_some, Fifo.advance_advance, List.take_succ_cons, joinAll, Nat.add_comm 1]

section Parsers

variable [Platform]

def join64 (v : UInt64) (byte : UInt8) (s : Nat) : UInt64 :=
  v ||| shiftLeft64 (byte &&& 0x7f).toUInt64 s

def join32 (v : UInt32) (byte : UInt8) (s : Nat) : UInt32 :=
  v ||| shiftLeft32 (byte &&& 0x7f).toUInt32 s

def parseVarInt32 : Parser UInt32 := parseVarIntWith join32 0 0

def parseVarInt : Parser UInt32 := (parseVarIntWith join64 0 0).map UInt64.toUInt32

def parseString : Parser AString := parseVarInt.andThen (fun size => Parser.bytes size.toNat)

theorem readVarInt32_reads : Reads readVarInt32 parseVarInt32 := fun _ =>
  readVarIntLoop_reads join32 0 0 (Nat.lt_succ_self _)

theorem readVarInt_reads : Reads readVarInt parseVarInt :=
  Reads.map UInt64.toUInt32 (fun _ => readVarIntLoop_reads join64 0 0 (Nat.lt_succ_self _))

theorem readVarUTF8String_reads : Reads readVarUTF8String parseString :=
  readVarInt_reads.andThen (fun size => readBuf_reads size.toNat)

end Parsers

end P2PChat

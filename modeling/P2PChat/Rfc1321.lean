import P2PChat.Blocks
import P2PChat.LittleEndian
import P2PChat.SineTable

namespace Rfc1321

abbrev Word := BitVec 32

structure Registers where
  A : Word
  B : Word
  C : Word
  D : Word

def F (x y z : Word) : Word := (x &&& y) ||| (~~~x &&& z)

def G (x y z : Word) : Word := (x &&& z) ||| (y &&& ~~~z)

def H (x y z : Word) : Word := x ^^^ y ^^^ z

def I (x y z : Word) : Word := y ^^^ (x ||| ~~~z)

/-- The integer part of 4294967296 times the absolute value of the sine of `i` radians. -/
noncomputable def T (i : Nat) : Word := BitVec.ofNat 32 ⌊2 ^ 32 * |Real.sin i|⌋₊

/-- The function of the round that an operation is in; there are 64 operations in four rounds. -/
def auxiliary (i : Nat) : Word → Word → Word → Word :=
  if i < 16 then F else if i < 32 then G else if i < 48 then H else I

/-- The word that an operation adds. -/
def wordIndex (i : Nat) : Nat :=
  if i < 16 then i else if i < 32 then (1 + 5 * i) % 16 else if i < 48 then (5 + 3 * i) % 16 else 7 * i % 16

/-- How far an operation rotates. -/
def amount (i : Nat) : Nat :=
  ([7, 12, 17, 22, 5, 9, 14, 20, 4, 11, 16, 23, 6, 10, 15, 21].getD (i / 16 * 4 + i % 4) 0 : Nat)

/-- One operation on the words `X`, with the four registers in turn as its `a`. -/
noncomputable def operation (X : Nat → Word) (r : Registers) (i : Nat) : Registers :=
  let op a b c d := b + (a + auxiliary i b c d + X (wordIndex i) + T (i + 1)).rotateLeft (amount i)
  if i % 4 = 0 then { r with A := op r.A r.B r.C r.D }
  else if i % 4 = 1 then { r with D := op r.D r.A r.B r.C }
  else if i % 4 = 2 then { r with C := op r.C r.D r.A r.B }
  else { r with B := op r.B r.C r.D r.A }

/-- The words of a block of 64 bytes. -/
def words (block : List UInt8) (j : Nat) : Word := BitVec.ofNat 32 (LittleEndian.value ((block.drop (4 * j)).take 4))

/-- The compression function. -/
noncomputable def compress (r : Registers) (block : List UInt8) : Registers :=
  let s := (List.range 64).foldl (operation (words block)) r
  ⟨r.A + s.A, r.B + s.B, r.C + s.C, r.D + s.D⟩

def start : Registers := ⟨0x67452301, 0xefcdab89, 0x98badcfe, 0x10325476⟩

/-- A message with 0x80, zeros up to 56 modulo 64, and the number of its bits modulo 2^64 in eight bytes. -/
def padded (message : List UInt8) : List UInt8 :=
  message ++ (0x80 :: List.replicate ((119 - message.length % 64) % 64) 0) ++
    LittleEndian.bytes 8 (8 * message.length)

/-- The message digest. -/
noncomputable def digest (message : List UInt8) : List UInt8 :=
  let r := (Blocks.blocks 64 (padded message)).foldl compress start
  LittleEndian.bytes 4 r.A.toNat ++ LittleEndian.bytes 4 r.B.toNat ++ LittleEndian.bytes 4 r.C.toNat ++
    LittleEndian.bytes 4 r.D.toNat

/-- Which word is in the table, where the rotated sine is far enough from the next ones. -/
theorem T_eq {i t : Nat} (hlow : t * 2 ^ 96 + SineTable.slack i ≤ (SineTable.rotated i).1.natAbs)
    (hhigh : (SineTable.rotated i).1.natAbs + SineTable.slack i < (t + 1) * 2 ^ 96) : T i = BitVec.ofNat 32 t := by
  rw [T, SineTable.floor_sin hlow hhigh]

end Rfc1321

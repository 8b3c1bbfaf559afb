import P2PChat.ByteBuffer

namespace P2PChat

/-- The members of `MD5`; the arrays of bytes as lists of their full length. -/
structure MD5 where
  state : UInt32 × UInt32 × UInt32 × UInt32
  count : UInt32 × UInt32
  buffer : AString
  digest : AString
  finished : Bool

namespace MD5

def rotateLeft (x : UInt32) (n : UInt32) : UInt32 := (x <<< n) ||| (x >>> (32 - n))

def auxF (x y z : UInt32) : UInt32 := (x &&& y) ||| (~~~x &&& z)

def auxG (x y z : UInt32) : UInt32 := (x &&& z) ||| (y &&& ~~~z)

def auxH (x y z : UInt32) : UInt32 := x ^^^ y ^^^ z

def auxI (x y z : UInt32) : UInt32 := y ^^^ (x ||| ~~~z)

/-- One of `FF`, `GG`, `HH` and `II`, and the registers in the order in which the next line of the
source names them. -/
def step (aux : UInt32 → UInt32 → UInt32 → UInt32) (x : List UInt32)
    (r : UInt32 × UInt32 × UInt32 × UInt32) (row : Nat × UInt32 × UInt32) :
    UInt32 × UInt32 × UInt32 × UInt32 :=
  let (a, b, c, d) := r
  let a := a + (aux b c d + x.getD row.1 0 + row.2.2)
  let a := rotateLeft a row.2.1
  (d, a + b, b, c)

/-- Word, rotation and constant of the sixteen lines of a round. -/
def stepsFF : List (Nat × UInt32 × UInt32) :=
  [(0, 7, 0xd76aa478), (1, 12, 0xe8c7b756), (2, 17, 0x242070db), (3, 22, 0xc1bdceee),
   (4, 7, 0xf57c0faf), (5, 12, 0x4787c62a), (6, 17, 0xa8304613), (7, 22, 0xfd469501),
   (8, 7, 0x698098d8), (9, 12, 0x8b44f7af), (10, 17, 0xffff5bb1), (11, 22, 0x895cd7be),
   (12, 7, 0x6b901122), (13, 12, 0xfd987193), (14, 17, 0xa679438e), (15, 22, 0x49b40821)]

def stepsGG : List (Nat × UInt32 × UInt32) :=
  [(1, 5, 0xf61e2562), (6, 9, 0xc040b340), (11, 14, 0x265e5a51), (0, 20, 0xe9b6c7aa),
   (5, 5, 0xd62f105d), (10, 9, 0x2441453), (15, 14, 0xd8a1e681), (4, 20, 0xe7d3fbc8),
   (9, 5, 0x21e1cde6), (14, 9, 0xc33707d6), (3, 14, 0xf4d50d87), (8, 20, 0x455a14ed),
   (13, 5, 0xa9e3e905), (2, 9, 0xfcefa3f8), (7, 14, 0x676f02d9), (12, 20, 0x8d2a4c8a)]

def stepsHH : List (Nat × UInt32 × UInt32) :=
  [(5, 4, 0xfffa3942), (8, 11, 0x8771f681), (11, 16, 0x6d9d6122), (14, 23, 0xfde5380c),
   (1, 4, 0xa4beea44), (4, 11, 0x4bdecfa9), (7, 16, 0xf6bb4b60), (10, 23, 0xbebfbc70),
   (13, 4, 0x289b7ec6), (0, 11, 0xeaa127fa), (3, 16, 0xd4ef3085), (6, 23, 0x4881d05),
   (9, 4, 0xd9d4d039), (12, 11, 0xe6db99e5), (15, 16, 0x1fa27cf8), (2, 23, 0xc4ac5665)]

def stepsII : List (Nat × UInt32 × UInt32) :=
  [(0, 6, 0xf4292244), (7, 10, 0x432aff97), (14, 15, 0xab9423a7), (5, 21, 0xfc93a039),
   (12, 6, 0x655b59c3), (3, 10, 0x8f0ccc92), (10, 15, 0xffeff47d), (1, 21, 0x85845dd1),
   (8, 6, 0x6fa87e4f), (15, 10, 0xfe2ce6e0), (6, 15, 0xa3014314), (13, 21, 0x4e0811a1),
   (4, 6, 0xf7537e82), (11, 10, 0xbd3af235), (2, 15, 0x2ad7d2bb), (9, 21, 0xeb86d391)]

def decode : AString → List UInt32
  | b0 :: b1 :: b2 :: b3 :: input =>
    (b0.toUInt32 ||| (b1.toUInt32 <<< 8) ||| (b2.toUInt32 <<< 16) ||| (b3.toUInt32 <<< 24)) ::
      decode input
  | _ => []

def encode (input : List UInt32) : AString :=
  input.flatMap (fun (w : UInt32) =>
    [(w &&& 0xff).toUInt8, ((w >>> 8) &&& 0xff).toUInt8, ((w >>> 16) &&& 0xff).toUInt8,
      ((w >>> 24) &&& 0xff).toUInt8])

def transform (s : UInt32 × UInt32 × UInt32 × UInt32) (block : AString) :
    UInt32 × UInt32 × UInt32 × UInt32 :=
  let x := decode block
  let r := stepsFF.foldl (step auxF x) s
  let r := stepsGG.foldl (step auxG x) r
  let r := stepsHH.foldl (step auxH x) r
  let r := stepsII.foldl (step auxI x) r
  (s.1 + r.1, s.2.1 + r.2.1, s.2.2.1 + r.2.2.1, s.2.2.2 + r.2.2.2)

/-- `memcpy` of `input` to the place `index` of an array. -/
def overwrite (array : AString) (index : Nat) (input : AString) : AString :=
  array.take index ++ input ++ array.drop (index + input.length)

/-- The loop over the whole blocks of `input` from the place `i` on. -/
def transformBlocks (input : AString) :
    Nat → UInt32 × UInt32 × UInt32 × UInt32 → UInt32 → (UInt32 × UInt32 × UInt32 × UInt32) × UInt32
  | 0, s, i => (s, i)
  | rounds + 1, s, i =>
    if (i + 63).toNat < input.length then
      transformBlocks input rounds (transform s ((input.drop i.toNat).take 64)) (i + 64)
    else (s, i)

def update (input : AString) (m : MD5) : MD5 :=
  let length := UInt32.ofNat input.length
  let index := (m.count.1 >>> 3) &&& 0x3f
  let low := m.count.1 + (length <<< 3)
  let high := if low < length <<< 3 then m.count.2 + 1 else m.count.2
  let high := high + (length >>> 29)
  let partLen := 64 - index
  if partLen.toNat ≤ input.length then
    let block := overwrite m.buffer index.toNat (input.take partLen.toNat)
    let (s, i) := transformBlocks input input.length (transform m.state block) partLen
    { m with
      state := s
      count := (low, high)
      buffer := overwrite block 0 (input.drop i.toNat)
      finished := false }
  else
    { m with
      count := (low, high)
      buffer := overwrite m.buffer index.toNat input
      finished := false }

def padding : AString := 0x80 :: List.replicate 63 0

/-- State and count are put back at the end, the buffer is not. -/
def final (m : MD5) : MD5 :=
  let bits := encode [m.count.1, m.count.2]
  let index := (m.count.1 >>> 3) &&& 0x3f
  let padLen := if index < 56 then 56 - index else 120 - index
  let padded := update bits (update (padding.take padLen.toNat) m)
  { padded with
    digest := encode [padded.state.1, padded.state.2.1, padded.state.2.2.1, padded.state.2.2.2]
    state := m.state
    count := m.count }

def getDigest (m : MD5) : AString × MD5 :=
  let m := if !m.finished then final { m with finished := true } else m
  (m.digest, m)

def reset (m : MD5) : MD5 :=
  { m with finished := false, count := (0, 0), state := (0x67452301, 0xefcdab89, 0x98badcfe, 0x10325476) }

/-- The constructor leaves the arrays of bytes as the memory has them. -/
def new [Platform] : MD5 :=
  reset
    { state := (0, 0, 0, 0), count := (0, 0), finished := false
      buffer := (List.range 64).map Platform.uninitialised
      digest := (List.range 16).map Platform.uninitialised }

/-- The digits from 0 to f. -/
def hex : AString :=
  [0x30, 0x31, 0x32, 0x33, 0x34, 0x35, 0x36, 0x37, 0x38, 0x39, 0x61, 0x62, 0x63, 0x64, 0x65, 0x66]

def bytesToHexString (input : AString) : AString :=
  input.flatMap (fun t => [hex.getD (t.toNat / 16) 0, hex.getD (t.toNat % 16) 0])

def toString (m : MD5) : AString × MD5 :=
  let (digest, m) := m.getDigest
  (bytesToHexString digest, m)

theorem bytesToHexString_length (input : AString) :
    (bytesToHexString input).length = 2 * input.length := by
  induction input with
  | nil => rfl
  | cons t input ih =>
    simp only [bytesToHexString, List.flatMap_cons, List.length_append, List.length_cons,
      List.length_nil] at ih ⊢
    omega

end MD5

end P2PChat

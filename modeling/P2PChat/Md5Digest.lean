import P2PChat.Md5Compression
import P2PChat.Blocks

namespace P2PChat

open Blocks (absorb absorb_append absorb_short absorb_single absorb_left)

namespace MD5

section Definitions

def initial : UInt32 × UInt32 × UInt32 × UInt32 := (0x67452301, 0xefcdab89, 0x98badcfe, 0x10325476)

def encodeState (s : UInt32 × UInt32 × UInt32 × UInt32) : AString := encode [s.1, s.2.1, s.2.2.1, s.2.2.2]

/-- The result for a whole message: `transform` of the blocks of the padded message, one after the other. -/
def digestOf (message : AString) : AString :=
  encodeState ((Blocks.blocks 64 (Rfc1321.padded message)).foldl transform initial)

/-- The four words of a state, each in four bytes, lowest first. -/
def littleEndian (s : UInt32 × UInt32 × UInt32 × UInt32) : AString :=
  [s.1, s.2.1, s.2.2.1, s.2.2.2].flatMap fun w => LittleEndian.bytes 4 w.toNat

/-- The object has been fed these bytes since it was reset. -/
structure Fed (m : MD5) (fed : AString) : Prop where
  state : m.state = absorb 64 transform initial fed
  length : m.buffer.length = 64
  buffer : m.buffer.take (fed.length % 64) = fed.drop (64 * (fed.length / 64))
  count : m.count.1.toNat + 2 ^ 32 * m.count.2.toNat = 8 * fed.length % 2 ^ 64
  finished : m.finished = false

end Definitions

section Counting

variable {m : MD5} {fed input : AString}

theorem reset_fed (h : m.buffer.length = 64) : Fed (reset m) [] := by
  refine ⟨?_, h, ?_, rfl, rfl⟩
  · rw [absorb_short (by decide)]
    rfl
  · rw [List.length_nil, Nat.zero_mod, List.take_zero]
    rfl

/-- How many bytes wait in the buffer. -/
theorem Fed.index (h : Fed m fed) : ((m.count.1 >>> 3) &&& 0x3f).toNat = fed.length % 64 := by
  have hcount := h.count
  have hlow := m.count.1.toNat_lt
  rw [UInt32.toNat_and, UInt32.toNat_shiftRight]
  show m.count.1.toNat >>> 3 &&& (2 ^ 6 - 1) = fed.length % 64
  rw [Nat.and_two_pow_sub_one_eq_mod, Nat.shiftRight_eq_div_pow]
  omega

theorem Fed.partLen (h : Fed m fed) : ((64 : UInt32) - ((m.count.1 >>> 3) &&& 0x3f)).toNat = 64 - fed.length % 64 := by
  have hindex := h.index
  have hle : (m.count.1 >>> 3) &&& 0x3f ≤ 64 := by
    rw [UInt32.le_iff_toNat_le, hindex]
    show fed.length % 64 ≤ 64
    omega
  rw [UInt32.toNat_sub_of_le _ _ hle, hindex]
  rfl

/-- The two words of the count together count the bits. -/
theorem count_add (low high : UInt32) {length : Nat} (hlength : length < 2 ^ 32) :
    let bits := UInt32.ofNat length <<< 3
    let carried := if low + bits < bits then high + 1 else high
    (low + bits).toNat + 2 ^ 32 * (carried + (UInt32.ofNat length >>> 29)).toNat =
      (low.toNat + 2 ^ 32 * high.toNat + 8 * length) % 2 ^ 64 := by
  intro bits carried
  have hbits : bits.toNat = 8 * length % 2 ^ 32 := by
    rw [UInt32.toNat_shiftLeft, UInt32.toNat_ofNat_of_lt' hlength, Nat.shiftLeft_eq]
    show length * 2 ^ 3 % 2 ^ 32 = 8 * length % 2 ^ 32
    omega
  have hhigh : (UInt32.ofNat length >>> 29).toNat = length / 2 ^ 29 := by
    rw [UInt32.toNat_shiftRight, UInt32.toNat_ofNat_of_lt' hlength, Nat.shiftRight_eq_div_pow]
    rfl
  have hlow := low.toNat_lt
  have hup := high.toNat_lt
  have hsum : (low + bits).toNat = (low.toNat + bits.toNat) % 2 ^ 32 := UInt32.toNat_add _ _
  have hcarried : (carried + (UInt32.ofNat length >>> 29)).toNat =
      (high.toNat + (low.toNat + bits.toNat) / 2 ^ 32 + length / 2 ^ 29) % 2 ^ 32 := by
    rw [UInt32.toNat_add, hhigh]
    show ((if low + bits < bits then high + 1 else high).toNat + length / 2 ^ 29) % 2 ^ 32 = _
    split
    next hlt =>
      rw [UInt32.lt_iff_toNat_lt, hsum] at hlt
      rw [UInt32.toNat_add]
      show ((high.toNat + 1) % 2 ^ 32 + length / 2 ^ 29) % 2 ^ 32 = _
      omega
    next hge =>
      rw [UInt32.lt_iff_toNat_lt, hsum] at hge
      omega
  rw [hsum, hcarried]
  omega

end Counting

section Blocks

variable {input : AString} {i : UInt32} {index : Nat}

/-- The loop takes all whole blocks, and stops before its counter wraps. -/
theorem transformBlocks_eq (rounds : Nat) (s : UInt32 × UInt32 × UInt32 × UInt32)
    (hfit : index + input.length < 2 ^ 32) (hle : i.toNat ≤ input.length) (halign : (index + i.toNat) % 64 = 0)
    (hrounds : (input.length - i.toNat) / 64 ≤ rounds) :
    ∃ next, transformBlocks input rounds s i = (absorb 64 transform s (input.drop i.toNat), next) ∧
      next.toNat = i.toNat + 64 * ((input.length - i.toNat) / 64) := by
  have hi : (i + 63).toNat = i.toNat + 63 := by
    rw [UInt32.toNat_add]
    show (i.toNat + 63) % 2 ^ 32 = i.toNat + 63
    omega
  induction rounds generalizing i s with
  | zero =>
    refine ⟨i, ?_, by omega⟩
    rw [transformBlocks, absorb_short (by rw [List.length_drop]; omega)]
  | succ rounds ih =>
    rw [transformBlocks, hi]
    by_cases hmore : i.toNat + 63 < input.length
    · have hnext : (i + 64).toNat = i.toNat + 64 := by
        rw [UInt32.toNat_add]
        show (i.toNat + 64) % 2 ^ 32 = i.toNat + 64
        omega
      have hnext63 : (i + 64 + 63).toNat = (i + 64).toNat + 63 := by
        rw [UInt32.toNat_add, hnext]
        show (i.toNat + 64 + 63) % 2 ^ 32 = i.toNat + 64 + 63
        omega
      obtain ⟨next, hblocks, hend⟩ := ih (transform s ((input.drop i.toNat).take 64)) (by omega) (by omega)
        (by omega) hnext63
      rw [if_pos hmore, hblocks]
      have hblock : ((input.drop i.toNat).take 64).length = 64 := by
        rw [List.length_take, List.length_drop]
        omega
      refine ⟨next, ?_, by omega⟩
      rw [hnext]
      conv_rhs => rw [← List.take_append_drop 64 (input.drop i.toNat)]
      rw [absorb_append (by decide) (by rw [hblock]), absorb_single (by decide) hblock, List.drop_drop]
    · rw [if_neg hmore]
      exact ⟨i, by rw [absorb_short (by rw [List.length_drop]; omega)], by omega⟩

end Blocks

section Feeding

variable {m : MD5} {fed input : AString}

theorem overwrite_length (array : AString) (index : Nat) (input : AString)
    (h : index + input.length ≤ array.length) : (overwrite array index input).length = array.length := by
  rw [overwrite, List.length_append, List.length_append, List.length_take, List.length_drop]
  omega

theorem overwrite_take (array : AString) (index : Nat) (input : AString)
    (h : index + input.length ≤ array.length) :
    (overwrite array index input).take (index + input.length) = array.take index ++ input := by
  have hlength : (array.take index ++ input).length = index + input.length := by
    rw [List.length_append, List.length_take]
    omega
  rw [overwrite, ← hlength, List.take_left]

/-- What is fed is the whole blocks and what waits in the buffer. -/
theorem Fed.split (h : Fed m fed) : fed = fed.take (64 * (fed.length / 64)) ++ m.buffer.take (fed.length % 64) := by
  rw [h.buffer, List.take_append_drop]

theorem whole_length (fed : AString) : (fed.take (64 * (fed.length / 64))).length = 64 * (fed.length / 64) := by
  rw [List.length_take]
  omega

theorem whole_dvd (fed : AString) : 64 ∣ (fed.take (64 * (fed.length / 64))).length := by
  rw [whole_length]
  exact Nat.dvd_mul_right _ _

theorem Fed.whole (h : Fed m fed) : absorb 64 transform initial (fed.take (64 * (fed.length / 64))) = m.state := by
  rw [h.state]
  conv_rhs => rw [h.split]
  exact (absorb_left (by decide) (whole_dvd fed) (by rw [List.length_take]; omega)).symm

/-- The first block: what waits in the buffer and the input up to the next 64 bytes. -/
theorem Fed.block_length (h : Fed m fed) (hfull : 64 - fed.length % 64 ≤ input.length) :
    (m.buffer.take (fed.length % 64) ++ input.take (64 - fed.length % 64)).length = 64 := by
  have hlength := h.length
  rw [List.length_append, List.length_take, List.length_take]
  omega

theorem Fed.block_eq (h : Fed m fed) (hfull : 64 - fed.length % 64 ≤ input.length) :
    overwrite m.buffer (fed.length % 64) (input.take (64 - fed.length % 64)) =
      m.buffer.take (fed.length % 64) ++ input.take (64 - fed.length % 64) := by
  have hlength := h.length
  rw [overwrite, List.drop_eq_nil_of_le (by rw [List.length_take]; omega), List.append_nil]

theorem Fed.absorb_block (h : Fed m fed) (hfull : 64 - fed.length % 64 ≤ input.length) :
    absorb 64 transform (transform m.state (m.buffer.take (fed.length % 64) ++ input.take (64 - fed.length % 64)))
      (input.drop (64 - fed.length % 64)) = absorb 64 transform initial (fed ++ input) := by
  have hblock := h.block_length hfull
  have hwhole : fed ++ input = fed.take (64 * (fed.length / 64)) ++
      (m.buffer.take (fed.length % 64) ++ input.take (64 - fed.length % 64)) ++
        input.drop (64 - fed.length % 64) := by
    conv_lhs => rw [h.split, ← List.take_append_drop (64 - fed.length % 64) input]
    simp only [List.append_assoc]
  rw [hwhole, absorb_append (by decide) (by rw [List.length_append, whole_length, hblock]; omega),
    absorb_append (by decide) (whole_dvd fed), absorb_single (by decide) hblock, h.whole]

/-- A call of `update` that returns feeds its bytes. -/
theorem Fed.update (h : Fed m fed) (hfit : fed.length % 64 + input.length < 2 ^ 32) :
    Fed (update input m) (fed ++ input) := by
  have hcount := count_add m.count.1 m.count.2 (by omega : input.length < 2 ^ 32)
  simp only at hcount
  rw [h.count] at hcount
  have hindex := h.index
  have hpartLen := h.partLen
  have hlength := h.length
  rw [MD5.update]
  simp only [hindex, hpartLen]
  split
  next hfull =>
    have hblockLength := h.block_length hfull
    obtain ⟨next, hblocks, hnext⟩ := transformBlocks_eq input.length
      (transform m.state (m.buffer.take (fed.length % 64) ++ input.take (64 - fed.length % 64)))
      hfit (by rw [hpartLen]; exact hfull) (by rw [hpartLen]; omega) (by omega)
    rw [hpartLen] at hblocks hnext
    have hrest : (input.drop next.toNat).length = (fed ++ input).length % 64 := by
      rw [List.length_drop, List.length_append]
      omega
    rw [h.block_eq hfull, hblocks]
    refine ⟨?_, ?_, ?_, ?_, rfl⟩
    · exact h.absorb_block hfull
    · exact (overwrite_length _ _ _ (by rw [hblockLength, hrest]; omega)).trans hblockLength
    · have hkept := overwrite_take (m.buffer.take (fed.length % 64) ++ input.take (64 - fed.length % 64)) 0
        (input.drop next.toNat) (by rw [hblockLength, hrest]; omega)
      rw [Nat.zero_add, hrest, List.take_zero, List.nil_append] at hkept
      show (overwrite _ 0 (input.drop next.toNat)).take _ = _
      have hpassed : fed.drop (64 * ((fed ++ input).length / 64)) = [] :=
        List.drop_eq_nil_of_le (by rw [List.length_append]; omega)
      rw [hkept, List.drop_append, hpassed, List.nil_append]
      congr 1
      rw [List.length_append]
      omega
    · show (_ : UInt32).toNat + 2 ^ 32 * (_ : UInt32).toNat = _
      rw [hcount, List.length_append]
      omega
  next hpart =>
    have hroom : fed.length % 64 + input.length ≤ m.buffer.length := by omega
    have hmod : (fed ++ input).length % 64 = fed.length % 64 + input.length := by
      rw [List.length_append]
      omega
    have hdiv : (fed ++ input).length / 64 = fed.length / 64 := by
      rw [List.length_append]
      omega
    refine ⟨?_, ?_, ?_, ?_, rfl⟩
    · show m.state = _
      conv_rhs => rw [h.split, List.append_assoc]
      rw [absorb_left (by decide) (whole_dvd fed) (by rw [List.length_append, List.length_take]; omega), h.whole]
    · exact (overwrite_length _ _ _ hroom).trans hlength
    · rw [hmod, hdiv, overwrite_take _ _ _ hroom, h.buffer, List.drop_append_of_le_length (by omega)]
    · show (_ : UInt32).toNat + 2 ^ 32 * (_ : UInt32).toNat = _
      rw [hcount, List.length_append]
      omega

end Feeding

section Digests

variable {m : MD5} {fed : AString}

theorem encode_cons (w : UInt32) (input : List UInt32) :
    encode (w :: input) = LittleEndian.bytes 4 w.toNat ++ encode input := by
  have hbyte : ∀ v : UInt32, (v &&& 0xff).toUInt8 = UInt8.ofNat v.toNat := by
    intro v
    apply UInt8.toNat_inj.mp
    rw [UInt32.toNat_toUInt8, UInt32.toNat_and, UInt8.toNat_ofNat']
    show (v.toNat &&& (2 ^ 8 - 1)) % 2 ^ 8 = v.toNat % 2 ^ 8
    rw [Nat.and_two_pow_sub_one_eq_mod, Nat.mod_mod]
  have hshift : ∀ (k : UInt32) (j : Nat), k.toNat % 32 = j → (w >>> k).toNat = w.toNat / 2 ^ j := by
    intro k j hk
    rw [UInt32.toNat_shiftRight, hk, Nat.shiftRight_eq_div_pow]
  rw [encode, List.flatMap_cons, ← encode, hbyte, hbyte, hbyte, hbyte, hshift 8 8 rfl, hshift 16 16 rfl,
    hshift 24 24 rfl]
  simp only [LittleEndian.bytes, Nat.div_div_eq_div_mul]
  rfl

theorem encodeState_eq (s : UInt32 × UInt32 × UInt32 × UInt32) : encodeState s = littleEndian s := by
  have hnil : encode [] = [] := rfl
  rw [encodeState, encode_cons, encode_cons, encode_cons, encode_cons, hnil]
  rfl

/-- The length is appended as it is before the padding. -/
theorem Fed.bits (h : Fed m fed) : encode [m.count.1, m.count.2] = LittleEndian.bytes 8 (8 * fed.length) := by
  have hcount := h.count
  have hlow := m.count.1.toNat_lt
  have hhigh := m.count.2.toNat_lt
  have hfirst : m.count.1.toNat = 8 * fed.length % 256 ^ 8 % 256 ^ 4 := by omega
  have hsecond : m.count.2.toNat = 8 * fed.length % 256 ^ 8 / 256 ^ 4 := by omega
  have hnil : encode [] = [] := rfl
  rw [encode_cons, encode_cons, hnil, List.append_nil, ← LittleEndian.bytes_mod 8, LittleEndian.bytes_add 4 4,
    hfirst, hsecond, LittleEndian.bytes_mod]

/-- How much `final` pads. -/
def padLen (m : MD5) : UInt32 :=
  let index := (m.count.1 >>> 3) &&& 0x3f
  if index < 56 then 56 - index else 120 - index

/-- The object after the padding and the length, in `final`. -/
def filled (m : MD5) : MD5 := MD5.update (encode [m.count.1, m.count.2]) (MD5.update (padding.take (padLen m).toNat) m)

theorem final_eq (m : MD5) : final m =
    { filled m with digest := encodeState (filled m).state, state := m.state, count := m.count } := rfl

theorem Fed.padLen (h : Fed m fed) : (padLen m).toNat = (119 - fed.length % 64) % 64 + 1 := by
  have hindex := h.index
  rw [MD5.padLen]
  simp only [UInt32.lt_iff_toNat_lt, hindex]
  split
  next hlt =>
    have hlt' : fed.length % 64 < 56 := hlt
    rw [UInt32.toNat_sub_of_le _ _ (UInt32.le_iff_toNat_le.mpr (by rw [hindex]; exact Nat.le_of_lt hlt)), hindex]
    show 56 - fed.length % 64 = _
    omega
  next hge =>
    have hge' : ¬fed.length % 64 < 56 := hge
    rw [UInt32.toNat_sub_of_le _ _ (UInt32.le_iff_toNat_le.mpr (by rw [hindex]; show _ ≤ 120; omega)), hindex]
    show 120 - fed.length % 64 = _
    omega

theorem padding_take {k : Nat} (h : k < 64) : padding.take (k + 1) = 0x80 :: List.replicate k 0 := by
  rw [padding, List.take_succ_cons, List.take_replicate, Nat.min_eq_left (by omega)]

theorem Fed.filled (h : Fed m fed) : Fed (filled m) (Rfc1321.padded fed) := by
  rw [MD5.filled, Rfc1321.padded, h.padLen, padding_take (by omega), h.bits]
  refine (h.update ?_).update ?_
  · rw [List.length_cons, List.length_replicate]
    omega
  · rw [LittleEndian.bytes_length]
    omega

/-- The digest is that of the bytes which were fed. -/
theorem Fed.final_digest (h : Fed m fed) : (final m).digest = digestOf fed := by
  rw [final_eq, digestOf, ← absorb, ← h.filled.state]

theorem Fed.getDigest (h : Fed m fed) : (getDigest m).1 = digestOf fed := by
  rw [MD5.getDigest, h.finished]
  exact h.final_digest

/-- It is the digest of the standard. -/
theorem digestOf_eq (message : AString) : digestOf message = Rfc1321.digest message := by
  have hfold : ∀ (blocks : List AString) (s : UInt32 × UInt32 × UInt32 × UInt32),
      (∀ block ∈ blocks, block.length = 64) →
        registers (blocks.foldl transform s) = blocks.foldl Rfc1321.compress (registers s) := by
    intro blocks
    induction blocks with
    | nil => exact fun s _ => rfl
    | cons block blocks ih =>
      intro s hall
      obtain ⟨hblock, hrest⟩ := List.forall_mem_cons.mp hall
      rw [List.foldl_cons, List.foldl_cons, ih _ hrest, transform_eq s hblock]
  have hstart : registers initial = Rfc1321.start := rfl
  rw [digestOf, Rfc1321.digest, ← hstart, ← hfold _ _ fun _ => Blocks.length_of_mem_blocks, encodeState_eq,
    littleEndian, List.flatMap_cons, List.flatMap_cons, List.flatMap_cons, List.flatMap_cons, List.flatMap_nil,
    List.append_nil]
  simp only [List.append_assoc]
  rfl

/-- For all ways to feed a message to an object that was reset, the first digest is that of the message: `transform`
of the blocks of the padded message, one after the other, and the words of the result, lowest bytes first. This is
the digest of the standard, and `transform` is its compression function. -/
theorem getDigest_eq :
    (∀ (m : MD5) (parts : List AString), m.buffer.length = 64 → (∀ part ∈ parts, part.length < 2 ^ 32 - 64) →
      (MD5.getDigest (parts.foldl (fun m part => MD5.update part m) (reset m))).1 =
          littleEndian ((Blocks.blocks 64 (Rfc1321.padded parts.flatten)).foldl transform
            (0x67452301, 0xefcdab89, 0x98badcfe, 0x10325476)) ∧
        (MD5.getDigest (parts.foldl (fun m part => MD5.update part m) (reset m))).1 =
          Rfc1321.digest parts.flatten) ∧
      ∀ (s : UInt32 × UInt32 × UInt32 × UInt32) (block : AString), block.length = 64 →
        registers (transform s block) = Rfc1321.compress (registers s) block := by
  refine ⟨fun m parts hbuffer hparts => ?_, fun s block hblock => transform_eq s hblock⟩
  have hfed : ∀ (parts : List AString) (m : MD5) (fed : AString), (∀ part ∈ parts, part.length < 2 ^ 32 - 64) →
      Fed m fed → Fed (parts.foldl (fun m part => MD5.update part m) m) (fed ++ parts.flatten) := by
    intro parts
    induction parts with
    | nil =>
      intro m fed _ h
      rw [List.flatten_nil, List.append_nil]
      exact h
    | cons part parts ih =>
      intro m fed hparts h
      obtain ⟨hpart, hrest⟩ := List.forall_mem_cons.mp hparts
      rw [List.foldl_cons, List.flatten_cons, ← List.append_assoc]
      exact ih _ _ hrest (h.update (by omega))
  have hdigest := (hfed parts _ [] hparts (reset_fed hbuffer)).getDigest
  rw [hdigest, List.nil_append, ← digestOf_eq]
  exact ⟨encodeState_eq _, rfl⟩

/-- The test suite of the standard: `"abc"`, fed in two parts. -/
theorem getDigest_abc :
    Rfc1321.digest [0x61, 0x62, 0x63] =
        [0x90, 0x01, 0x50, 0x98, 0x3c, 0xd2, 0x4f, 0xb0, 0xd6, 0x96, 0x3f, 0x7d, 0x28, 0xe1, 0x7f, 0x72] ∧
      registers (transform initial (List.replicate 64 0)) = Rfc1321.compress Rfc1321.start (List.replicate 64 0) := by
  have hparts : ∀ part ∈ [[0x61, 0x62], ([0x63] : AString)], part.length < 2 ^ 32 - 64 := by decide
  have hdigest := (getDigest_eq.1 ⟨(0, 0, 0, 0), (0, 0), List.replicate 64 0, [], false⟩ _ rfl hparts).2
  have hcode : (MD5.getDigest ([[0x61, 0x62], ([0x63] : AString)].foldl (fun m part => MD5.update part m)
      (reset ⟨(0, 0, 0, 0), (0, 0), List.replicate 64 0, [], false⟩))).1 =
        [0x90, 0x01, 0x50, 0x98, 0x3c, 0xd2, 0x4f, 0xb0, 0xd6, 0x96, 0x3f, 0x7d, 0x28, 0xe1, 0x7f, 0x72] := by
    decide +kernel
  exact ⟨hdigest.symm.trans hcode, getDigest_eq.2 initial _ List.length_replicate⟩

end Digests

end MD5

end P2PChat

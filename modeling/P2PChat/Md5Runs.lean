import P2PChat.Md5Digest

namespace P2PChat

namespace MD5

section Definitions

/-- The calls on an object. -/
inductive Call
  | update (input : AString)
  | digest
  | toString

/-- The object after a call. -/
def call (m : MD5) : Call → MD5
  | .update input => update input m
  | .digest => m.getDigest.2
  | .toString => m.toString.2

/-- What a call returns. -/
def answer (m : MD5) : Call → Option AString
  | .update _ => none
  | .digest => some m.getDigest.1
  | .toString => some m.toString.1

def Call.isUpdate : Call → Bool
  | .update _ => true
  | _ => false

/-- Each answer is the one that the updates before it would have alone. -/
def Undisturbed (m : MD5) (calls : List Call) : Prop :=
  ∀ before c rest, calls = before ++ c :: rest →
    answer (before.foldl call m) c = answer ((before.filter Call.isUpdate).foldl call m) c

/-- The bytes that were fed. -/
def feed (fed : AString) : Call → AString
  | .update input => fed ++ input
  | .digest => fed
  | .toString => fed

/-- What a digest leaves of a message: in the place of a last block of 56 or more bytes stand zeros and the length. -/
def digested (held : AString) : AString :=
  if held.length % 64 < 56 then held
  else held.take (64 * (held.length / 64)) ++
    (List.replicate 56 0 ++ LittleEndian.bytes 8 (8 * held.length)).take (held.length % 64)

/-- The bytes that the object holds. -/
def hold (held : AString) : Call → AString
  | .update input => held ++ input
  | .digest => digested held
  | .toString => digested held

/-- No update is so long that its loop never ends. -/
def Returning (calls : List Call) : Prop :=
  ∀ before input rest, calls = before ++ .update input :: rest →
    (before.foldl feed []).length % 64 + input.length < 2 ^ 32

end Definitions

section Buffers

variable {m : MD5} {fed held input : AString}

/-- The counter of the loop in `update` never reaches the end of an input that is too long. -/
theorem transformBlocks_endless {index : Nat} {i : UInt32} (hindex : index < 64)
    (hlong : 2 ^ 32 ≤ index + input.length) (halign : (index + i.toNat) % 64 = 0) :
    (i + 63).toNat < input.length ∧ (index + (i + 64).toNat) % 64 = 0 := by
  have hlt := i.toNat_lt
  constructor
  · rw [UInt32.toNat_add]
    show (i.toNat + 63) % 2 ^ 32 < input.length
    omega
  · rw [UInt32.toNat_add]
    show (index + (i.toNat + 64) % 2 ^ 32) % 64 = 0
    omega

theorem Fed.update_part (h : Fed m fed) (hpart : fed.length % 64 + input.length < 64) :
    (MD5.update input m).buffer = overwrite m.buffer (fed.length % 64) input := by
  rw [MD5.update]
  simp only [h.index, h.partLen]
  rw [if_neg (by omega)]

theorem Fed.update_full (h : Fed m fed) (hfull : 64 ≤ fed.length % 64 + input.length)
    (hsingle : fed.length % 64 + input.length < 128) : (MD5.update input m).buffer =
      overwrite (overwrite m.buffer (fed.length % 64) (input.take (64 - fed.length % 64))) 0
        (input.drop (64 - fed.length % 64)) := by
  have hpartLen := h.partLen
  have hstop : ¬((64 : UInt32) - ((m.count.1 >>> 3) &&& 0x3f) + 63).toNat < input.length := by
    rw [UInt32.toNat_add, hpartLen]
    show ¬(64 - fed.length % 64 + 63) % 2 ^ 32 < input.length
    omega
  obtain ⟨rounds, hrounds⟩ := Nat.exists_eq_succ_of_ne_zero (by omega : input.length ≠ 0)
  rw [MD5.update]
  simp only [h.index, hpartLen]
  rw [if_pos (by omega), hrounds, transformBlocks, ← hrounds, if_neg hstop]
  simp only [hpartLen]

theorem overwrite_end {array : AString} {index : Nat} (h : index + input.length = array.length) :
    overwrite array index input = array.take index ++ input := by
  rw [overwrite, List.drop_eq_nil_of_le (by omega), List.append_nil]

theorem padding_drop {k : Nat} (hpos : 0 < k) (hle : k ≤ 8) : (padding.take (k + 56)).drop k = List.replicate 56 0 := by
  obtain ⟨k, rfl⟩ := Nat.exists_eq_succ_of_ne_zero (Nat.pos_iff_ne_zero.mp hpos)
  rw [Nat.succ_add, padding, List.take_succ_cons, List.drop_succ_cons, List.take_replicate, List.drop_replicate]
  congr 1
  omega

theorem overwrite_take_before {array : AString} {index k : Nat} (h : k ≤ index) (hlength : index ≤ array.length) :
    (overwrite array index input).take k = array.take k := by
  rw [overwrite, List.append_assoc, List.take_append_of_le_length (by rw [List.length_take]; omega), List.take_take,
    Nat.min_eq_left h]

theorem overwrite_nil (array : AString) : overwrite array 0 [] = array := by
  rw [overwrite, List.take_zero, List.nil_append, List.nil_append, List.length_nil, Nat.add_zero, List.drop_zero]

/-- The length fills up a block in which 56 bytes wait. -/
theorem Fed.update_bits (h : Fed m fed) (hwait : fed.length % 64 = 56) {bits : AString} (hbits : bits.length = 8) :
    (MD5.update bits m).buffer = m.buffer.take 56 ++ bits := by
  have hlength := h.length
  rw [h.update_full (by omega) (by omega), hwait, List.take_of_length_le (by omega), List.drop_eq_nil_of_le (by omega),
    overwrite_nil, overwrite_end (by omega)]

/-- What is in the buffer after a digest. -/
theorem Fed.filled_buffer (h : Fed m fed) : (MD5.filled m).buffer.take (fed.length % 64) =
    if fed.length % 64 < 56 then m.buffer.take (fed.length % 64)
    else (List.replicate 56 0 ++ LittleEndian.bytes 8 (8 * fed.length)).take (fed.length % 64) := by
  have hlength := h.length
  have hpadLen := h.padLen
  have hpad : (padding.take (MD5.padLen m).toNat).length = (119 - fed.length % 64) % 64 + 1 := by
    rw [List.length_take, hpadLen, padding, List.length_cons, List.length_replicate]
    omega
  have hpadded := h.update (by rw [hpad]; omega : fed.length % 64 + (padding.take (MD5.padLen m).toNat).length < 2 ^ 32)
  have hwait : (fed ++ padding.take (MD5.padLen m).toNat).length % 64 = 56 := by
    rw [List.length_append, hpad]
    omega
  have hbits : (LittleEndian.bytes 8 (8 * fed.length)).length = 8 := LittleEndian.bytes_length 8 _
  rw [MD5.filled, h.bits, hpadded.update_bits hwait hbits]
  split
  next hroom =>
    rw [List.take_append_of_le_length (by rw [List.length_take, hpadded.length]; omega), List.take_take,
      Nat.min_eq_left (by omega), h.update_part (by rw [hpad]; omega),
      overwrite_take_before (Nat.le_refl _) (by omega)]
  next hfull =>
    have hzeros : (padding.take (MD5.padLen m).toNat).drop (64 - fed.length % 64) = List.replicate 56 0 := by
      rw [hpadLen, show (119 - fed.length % 64) % 64 + 1 = 64 - fed.length % 64 + 56 by omega]
      exact padding_drop (by omega) (by omega)
    have hblock : 56 ≤ (overwrite m.buffer (fed.length % 64)
        ((padding.take (MD5.padLen m).toNat).take (64 - fed.length % 64))).length := by
      rw [overwrite_length _ _ _ (by rw [List.length_take]; omega)]
      omega
    have hkept := overwrite_take (overwrite m.buffer (fed.length % 64)
      ((padding.take (MD5.padLen m).toNat).take (64 - fed.length % 64))) 0 (List.replicate 56 0)
      (by rw [List.length_replicate]; omega)
    rw [List.length_replicate, Nat.zero_add, List.take_zero, List.nil_append] at hkept
    rw [h.update_full (by rw [hpad]; omega) (by rw [hpad]; omega), hzeros, hkept]

end Buffers

section Runs

variable {m : MD5} {held : AString} {calls : List Call}

theorem digested_length (held : AString) : (digested held).length = held.length := by
  rw [digested]
  split
  next => rfl
  next =>
    rw [List.length_append, List.length_take, List.length_take, List.length_append, List.length_replicate,
      LittleEndian.bytes_length]
    omega

theorem hold_length (fed held : AString) (c : Call) (h : held.length = fed.length) :
    (hold held c).length = (feed fed c).length := by
  cases c with
  | update input => rw [hold, feed, List.length_append, List.length_append, h]
  | digest => rw [hold, feed, digested_length, h]
  | toString => rw [hold, feed, digested_length, h]

theorem foldl_hold_length (calls : List Call) (fed held : AString) (h : held.length = fed.length) :
    (calls.foldl hold held).length = (calls.foldl feed fed).length := by
  induction calls generalizing fed held with
  | nil => exact h
  | cons c calls ih => exact ih _ _ (hold_length fed held c h)

/-- The object after a digest. -/
theorem Fed.digested (h : Fed m held) : Fed m.getDigest.2 (digested held) := by
  have hnext : m.getDigest.2 = final { m with finished := true } := by
    rw [MD5.getDigest, h.finished]
    rfl
  have hfinal : final { m with finished := true } = final m := rfl
  have hlen := digested_length held
  rw [hnext, hfinal, final_eq]
  refine ⟨?_, h.filled.length, ?_, ?_, h.filled.finished⟩
  · show m.state = _
    rw [MD5.digested]
    split
    next => exact h.state
    next => rw [Blocks.absorb_left (by decide) (whole_dvd held) (by rw [List.length_take]; omega), h.whole]
  · show (MD5.filled m).buffer.take _ = _
    rw [hlen, h.filled_buffer, MD5.digested]
    split
    next => exact h.buffer
    next => exact (List.drop_left' (whole_length held)).symm
  · rw [hlen]
    exact h.count

theorem Fed.call (h : Fed m held) (c : Call)
    (hret : ∀ input, c = .update input → held.length % 64 + input.length < 2 ^ 32) : Fed (m.call c) (hold held c) := by
  cases c with
  | update input => exact h.update (hret input rfl)
  | digest => exact h.digested
  | toString => exact h.digested

theorem Returning.tail {c : Call} (h : Returning (calls ++ [c])) : Returning calls := by
  rintro before input rest rfl
  exact h before input (rest ++ [c]) (by simp)

/-- The object holds what the calls left. -/
theorem run_fed (hbuffer : m.buffer.length = 64) (hret : Returning calls) :
    Fed (calls.foldl call (reset m)) (calls.foldl hold []) := by
  induction calls using List.reverseRecOn with
  | nil => exact reset_fed hbuffer
  | append_singleton calls c ih =>
    rw [List.foldl_append, List.foldl_append]
    refine (ih hret.tail).call c fun input hc => ?_
    rw [foldl_hold_length calls [] [] rfl]
    exact hret calls input [] (by rw [hc])

/-- Without the digests it holds what was fed. -/
theorem updates_fed (hbuffer : m.buffer.length = 64) (hret : Returning calls) :
    Fed ((calls.filter Call.isUpdate).foldl call (reset m)) (calls.foldl feed []) := by
  induction calls using List.reverseRecOn with
  | nil => exact reset_fed hbuffer
  | append_singleton calls c ih =>
    have hfed := ih hret.tail
    rw [List.filter_append, List.foldl_append, List.foldl_append]
    cases c with
    | update input => exact hfed.update (hret calls input [] rfl)
    | digest => exact hfed
    | toString => exact hfed

theorem Returning.before {before rest : List Call} (h : Returning (before ++ rest)) : Returning before := by
  rintro first input last rfl
  exact h first input (last ++ rest) (by simp)

theorem hex_digits (a b : UInt8) (h : hex.getD (a.toNat / 16) 0 = hex.getD (b.toNat / 16) 0)
    (h' : hex.getD (a.toNat % 16) 0 = hex.getD (b.toNat % 16) 0) : a = b := by
  have hdistinct : ∀ i < 16, ∀ j < 16, hex.getD i 0 = hex.getD j 0 → i = j := by decide
  have ha := a.toNat_lt
  have hb := b.toNat_lt
  have hhigh := hdistinct _ (by omega) _ (by omega) h
  have hlow := hdistinct _ (by omega) _ (by omega) h'
  apply UInt8.toNat_inj.mp
  omega

/-- The text of a digest tells it. -/
theorem bytesToHexString_injective {first second : AString} (h : bytesToHexString first = bytesToHexString second) :
    first = second := by
  induction first generalizing second with
  | nil =>
    cases second with
    | nil => rfl
    | cons b second => exact absurd h nofun
  | cons a first ih =>
    cases second with
    | nil => exact absurd h nofun
    | cons b second =>
      rw [bytesToHexString, bytesToHexString, List.flatMap_cons, List.flatMap_cons] at h
      simp only [List.cons_append, List.nil_append, List.cons.injEq] at h
      rw [hex_digits a b h.1 h.2.1, ih h.2.2]

theorem answer_iff {m' : MD5} {fed : AString} (h : Fed m held) (h' : Fed m' fed) {c : Call}
    (hc : c.isUpdate = false) : answer m c = answer m' c ↔ Rfc1321.digest held = Rfc1321.digest fed := by
  rw [← digestOf_eq, ← digestOf_eq]
  cases c with
  | update input => exact absurd hc nofun
  | digest => rw [answer, answer, Option.some_inj, h.getDigest, h'.getDigest]
  | toString =>
    rw [answer, answer, Option.some_inj, MD5.toString, MD5.toString]
    simp only [h.getDigest, h'.getDigest]
    exact ⟨bytesToHexString_injective, congrArg _⟩

/-- Every answer is that of the updates alone if the object holds what was fed to it whenever it is asked. Where it
does not, the answer is another one, unless the two messages have the same digest. -/
theorem digests_undisturbed (m : MD5) (calls : List Call) (hbuffer : m.buffer.length = 64)
    (hret : Returning calls) :
    ((∀ before c rest, calls = before ++ c :: rest → c.isUpdate = false →
        before.foldl hold [] = before.foldl feed []) → Undisturbed (reset m) calls) ∧
      (Undisturbed (reset m) calls → ∀ before c rest, calls = before ++ c :: rest → c.isUpdate = false →
        before.foldl hold [] ≠ before.foldl feed [] →
          Rfc1321.digest (before.foldl hold []) = Rfc1321.digest (before.foldl feed [])) := by
  constructor
  · rintro h before c rest rfl
    rcases hc : c.isUpdate with _ | _
    · rw [answer_iff (run_fed hbuffer hret.before) (updates_fed hbuffer hret.before) hc]
      exact congrArg _ (h before c rest rfl hc)
    · cases c with
      | update input => rfl
      | digest => exact absurd hc nofun
      | toString => exact absurd hc nofun
  · rintro h before c rest rfl hc _
    rw [← answer_iff (run_fed hbuffer hret.before) (updates_fed hbuffer hret.before) hc]
    exact h before c rest rfl

theorem digests_undisturbed_short :
    Undisturbed (reset ⟨(0, 0, 0, 0), (0, 0), List.replicate 64 0, [], false⟩) [.update [0x61], .digest, .digest] := by
  refine (digests_undisturbed ⟨(0, 0, 0, 0), (0, 0), List.replicate 64 0, [], false⟩ _ rfl ?_).1 ?_
  · rintro (_ | ⟨c, _ | ⟨c', _ | ⟨c'', before⟩⟩⟩) input rest hsplit
    · simp only [List.nil_append, List.cons.injEq, Call.update.injEq] at hsplit
      rw [← hsplit.1]
      decide
    · simp at hsplit
    · simp at hsplit
    · simp at hsplit
  · rintro (_ | ⟨c, _ | ⟨c', _ | ⟨c'', before⟩⟩⟩) d rest hsplit hd
    · rfl
    · simp only [List.cons_append, List.nil_append, List.cons.injEq] at hsplit
      rw [← hsplit.1]
      rfl
    · simp only [List.cons_append, List.nil_append, List.cons.injEq] at hsplit
      rw [← hsplit.1, ← hsplit.2.1]
      rfl
    · simp at hsplit

/-- After 56 bytes the second digest is another one. -/
theorem digests_disturbed : ¬Undisturbed (reset ⟨(0, 0, 0, 0), (0, 0), List.replicate 64 0, [], false⟩)
    [.update (List.replicate 56 0x61), .digest, .digest] := by
  intro h
  have hsecond := h [.update (List.replicate 56 0x61), .digest] .digest [] rfl
  rw [answer, answer, Option.some_inj] at hsecond
  revert hsecond
  decide +kernel

/-- Nothing is damaged where no digest is taken with 56 or more bytes in the last block. -/
theorem hold_eq_feed (h : ∀ before c rest, calls = before ++ c :: rest → c.isUpdate = false →
    (before.foldl feed []).length % 64 < 56) : calls.foldl hold [] = calls.foldl feed [] := by
  induction calls using List.reverseRecOn with
  | nil => rfl
  | append_singleton calls c ih =>
    have hbefore := ih fun before c' rest hsplit => h before c' (rest ++ [c]) (by rw [hsplit]; simp)
    rw [List.foldl_append, List.foldl_append, hbefore]
    cases c with
    | update input => rfl
    | digest => exact if_pos (h calls .digest [] rfl rfl)
    | toString => exact if_pos (h calls .toString [] rfl rfl)

end Runs

end MD5

end P2PChat

import P2PChat.BufferRefinement
import P2PChat.CodecRoundTrip
import P2PChat.Framing

namespace P2PChat

open ByteQueue

section Definitions

variable {β : Type} [ByteQueue β]

/-- The amounts by which the loop of the VarInt readers shifts, from this one on. -/
def varIntShifts : Nat → Nat → β → List Nat
  | 0, _, _ => []
  | fuel + 1, shift, b =>
    if !canReadBytes 1 b then []
    else
      match readBuf 1 b with
      | (some [byte], b) => shift :: if byte &&& 0x80 != 0 then varIntShifts fuel (shift + 7) b else []
      | _ => []

/-- The bytes that a reader takes. -/
def consumed {α : Type} (r : Reader β α) (b : β) : AString :=
  (readAll b).1.take (getReadableSpace b - getReadableSpace (r b).2)

/-- The reader of a value of `width` bits shifts by less than that, and what it accepts is the number that
the bytes stand for, which therefore fits. -/
structure Decodes {α : Type} (width : Nat) (toNat : α → Nat) (r : Reader β α) (b : β) : Prop where
  shifts : ∀ s ∈ varIntShifts (getReadableSpace b + 1) 0 b, s < width
  value : ∀ v, (r b).1 = some v → toNat v = Leb128.value (consumed r b)
  rejects : 2 ^ width ≤ Leb128.value (consumed r b) → (r b).1 = none

/-- The bytes up to the first that ends a number, or all if there is none. -/
def varIntBytes (b : β) : AString :=
  (readAll b).1.take ((Leb128.firstLength (readAll b).1).getD (readAll b).1.length)

/-- The loop ends within so many bytes, and a number that ends fits its type. -/
structure Short (rounds width : Nat) (b : β) : Prop where
  rounds : (varIntBytes b).length ≤ rounds
  fits : (Leb128.firstLength (readAll b).1).isSome → Leb128.value (varIntBytes b) < 2 ^ width

end Definitions

section Loops

theorem varIntShifts_commutes {β γ : Type} [ByteQueue β] [ByteQueue γ] {f : β → γ} (hf : Hom f)
    (fuel shift : Nat) (b : β) : varIntShifts fuel shift (f b) = varIntShifts fuel shift b := by
  induction fuel generalizing shift b with
  | zero => rfl
  | succ fuel ih =>
    simp only [varIntShifts, hf.canReadBytes, hf.readBuf]
    split
    next => rfl
    next =>
      rcases readBuf 1 b with ⟨_ | bytes, b'⟩
      · rfl
      · rcases bytes with _ | ⟨byte, _ | ⟨_, _⟩⟩
        · rfl
        · dsimp only
          rw [ih]
        · rfl

/-- The loop shifts once for every byte that it takes, seven bits more each time. -/
theorem varIntShifts_fifo {fuel shift : Nat} {q : Fifo} (hq : q.unread.length < fuel) :
    varIntShifts fuel shift q =
      (List.range ((Leb128.firstLength q.unread).getD q.unread.length)).map (shift + 7 * ·) := by
  induction fuel generalizing shift q with
  | zero => omega
  | succ fuel ih =>
    rcases hu : q.unread with _ | ⟨b, rest⟩
    · simp [varIntShifts, readByte_nil hu, Leb128.firstLength]
    · obtain ⟨hyes, hread, hrest⟩ := readByte_cons hu
      simp only [varIntShifts, hyes, Bool.not_true, Bool.false_eq_true, if_false, hread, topBit_eq,
        Leb128.firstLength_cons]
      by_cases hlast : Leb128.isLast b = true
      · simp [hlast]
      · have hlen : (q.advance 1).unread.length < fuel := by
          rw [hrest]
          rw [hu, List.length_cons] at hq
          omega
        have hnext : ((Leb128.firstLength rest).map (· + 1)).getD (b :: rest).length =
            (Leb128.firstLength rest).getD rest.length + 1 := by
          rcases Leb128.firstLength rest with _ | k
          · rfl
          · rfl
        simp only [Bool.eq_false_iff.mpr hlast, Bool.not_false, Bool.false_eq_true, if_true, if_false]
        rw [ih hlen, hrest, hnext, List.range_succ_eq_map, List.map_cons, List.map_map]
        refine congrArg₂ List.cons (by omega) (List.map_congr_left fun i _ => ?_)
        simp only [Function.comp_apply]
        omega

end Loops

section Limits

variable {α : Type} {toNat : α → Nat} {width rounds : Nat} {join : α → UInt8 → Nat → α} {zero : α}

/-- One of the two VarInt readers. -/
def readVarIntWith {β : Type} [ByteQueue β] (join : α → UInt8 → Nat → α) (zero : α) : Reader β α :=
  fun b => readVarIntLoop join (getReadableSpace b + 1) zero 0 b

theorem readVarIntWith_fifo (q : Fifo) : readVarIntWith join zero q =
    ((parseVarIntWith join zero 0 q.unread).1, q.advance (parseVarIntWith join zero 0 q.unread).2) :=
  readVarIntLoop_reads join zero 0 (Nat.lt_succ_self _)

theorem varIntBytes_fifo (q : Fifo) : varIntBytes q =
    q.unread.take ((Leb128.firstLength q.unread).getD q.unread.length) := by
  rw [varIntBytes, readAll_fifo]

theorem varIntBytes_length (q : Fifo) :
    (varIntBytes q).length = (Leb128.firstLength q.unread).getD q.unread.length := by
  rw [varIntBytes_fifo, List.length_take]
  rcases hfirst : Leb128.firstLength q.unread with _ | k
  · simp
  · have hle := (Leb128.firstLength_le hfirst).2
    simp [hle]

/-- The reader takes the bytes of the number. -/
theorem consumed_fifo (q : Fifo) : consumed (readVarIntWith join zero) q = varIntBytes q := by
  have hparsed : (parseVarIntWith join zero 0 q.unread).2 =
      (Leb128.firstLength q.unread).getD q.unread.length := by
    unfold parseVarIntWith
    rcases Leb128.firstLength q.unread with _ | k
    · rfl
    · rfl
  have hlen := varIntBytes_length q
  rw [varIntBytes_fifo, List.length_take] at hlen
  rw [consumed, readVarIntWith_fifo, readAll_fifo, varIntBytes_fifo, hparsed]
  have hleft : getReadableSpace (q.advance ((Leb128.firstLength q.unread).getD q.unread.length)) =
      q.unread.length - (Leb128.firstLength q.unread).getD q.unread.length := List.length_drop
  have hall : getReadableSpace q = q.unread.length := rfl
  rw [hleft, hall]
  exact congrArg q.unread.take (by omega)

theorem decodes_fifo_iff (hjoin : ∀ v b s, s < width → toNat v < 2 ^ s → b.toNat % 128 * 2 ^ s < 2 ^ width →
      toNat (join v b s) = toNat v + b.toNat % 128 * 2 ^ s) (hlt : ∀ v, toNat v < 2 ^ width)
    (hzero : toNat zero = 0) (hrounds : ∀ n, 7 * n < width ↔ n < rounds) (q : Fifo) :
    Decodes width toNat (readVarIntWith join zero) q ↔ Short rounds width q := by
  have hshifts : (∀ s ∈ varIntShifts (getReadableSpace q + 1) 0 q, s < width) ↔
      ∀ i < (varIntBytes q).length, i < rounds := by
    have hall : getReadableSpace q = q.unread.length := rfl
    rw [hall, varIntShifts_fifo (Nat.lt_succ_self _), varIntBytes_length]
    simp only [List.mem_map, List.mem_range, Nat.zero_add]
    constructor
    · exact fun h i hi => (hrounds i).mp (h _ ⟨i, hi, rfl⟩)
    · rintro h _ ⟨i, hi, rfl⟩
      exact (hrounds i).mpr (h i hi)
  have hfirst : (readVarIntWith join zero q).1 =
      if (Leb128.firstLength (readAll q).1).isSome then some (joinAll join zero 0 (varIntBytes q)) else none := by
    rw [readVarIntWith_fifo, readAll_fifo, varIntBytes_fifo, parseVarIntWith]
    rcases Leb128.firstLength q.unread with _ | k
    · rfl
    · rfl
  constructor
  · intro h
    refine ⟨?_, fun hends => ?_⟩
    · by_contra hlong
      have hlast := hshifts.mp h.shifts rounds (Nat.lt_of_not_le hlong)
      omega
    · rw [if_pos hends] at hfirst
      have hvalue := h.value _ hfirst
      rw [consumed_fifo] at hvalue
      rw [← hvalue]
      exact hlt _
  · intro h
    have hrange : ∀ i < (varIntBytes q).length, i < rounds := fun i hi => Nat.lt_of_lt_of_le hi h.rounds
    refine ⟨hshifts.mpr hrange, fun v hv => ?_, fun hlarge => ?_⟩
    · rw [hfirst] at hv
      split at hv
      next hends =>
        have hfits := h.fits hends
        have hall := joinAll_bytes toNat width join hjoin (varIntBytes q) (v := zero) (s := 0)
          (fun i hi => by rw [Nat.zero_add]; exact (hrounds i).mpr (hrange i hi)) (by simp [hzero]) (by simpa using hfits)
        rw [← Option.some.inj hv, consumed_fifo, hall, hzero]
        simp
      next => cases hv
    · rw [consumed_fifo] at hlarge
      rw [hfirst, if_neg fun hends => ?_]
      have hfits := h.fits hends
      omega

end Limits

section Buffers

variable {β γ α : Type} [ByteQueue β] [ByteQueue γ] {f : β → γ} (hf : Hom f) {b : β} {width rounds : Nat}

include hf

theorem consumed_map {r : Reader β α} {t : Reader γ α} (hcommutes : Commutes f r t) :
    consumed t (f b) = consumed r b := by
  rw [consumed, consumed, hcommutes, hf.readAll, hf.getReadableSpace, hf.getReadableSpace]

theorem decodes_map {toNat : α → Nat} {r : Reader β α} {t : Reader γ α} (hcommutes : Commutes f r t) :
    Decodes width toNat t (f b) ↔ Decodes width toNat r b := by
  have hshifts : varIntShifts (getReadableSpace (f b) + 1) 0 (f b) =
      varIntShifts (getReadableSpace b + 1) 0 b := by
    rw [hf.getReadableSpace, varIntShifts_commutes hf]
  have hfirst : (t (f b)).1 = (r b).1 := congrArg Prod.fst (hcommutes b)
  have hconsumed := consumed_map hf hcommutes (b := b)
  constructor
  · rintro ⟨hin, hvalue, hrejects⟩
    rw [hshifts] at hin
    rw [hfirst, hconsumed] at hvalue hrejects
    exact ⟨hin, hvalue, hrejects⟩
  · rintro ⟨hin, hvalue, hrejects⟩
    rw [← hshifts] at hin
    rw [← hfirst, ← hconsumed] at hvalue hrejects
    exact ⟨hin, hvalue, hrejects⟩

theorem short_map : Short rounds width (f b) ↔ Short rounds width b := by
  have hbytes : varIntBytes (f b) = varIntBytes b := by
    rw [varIntBytes, varIntBytes, hf.readAll]
  have hall : (readAll (f b)).1 = (readAll b).1 := by rw [hf.readAll]
  constructor
  · rintro ⟨hrounds, hfits⟩
    rw [hbytes] at hrounds hfits
    rw [hall] at hfits
    exact ⟨hrounds, hfits⟩
  · rintro ⟨hrounds, hfits⟩
    rw [← hbytes] at hrounds hfits
    rw [← hall] at hfits
    exact ⟨hrounds, hfits⟩

end Buffers

namespace ByteBuffer

/-- For every content of the buffer the readers decode as they should if and only if at most 5 or 10 bytes
come up to the first that ends a number, or in all, and the number fits. -/
theorem varInt_decodes_iff [Platform] (b : ByteBuffer) :
    (Decodes 32 UInt32.toNat readVarInt32 b ↔ Short 5 32 b) ∧
      (Decodes 64 UInt64.toNat readVarInt64 b ↔ Short 10 64 b) := by
  have h32 : Decodes 32 UInt32.toNat (readVarIntWith join32 0) b.contents ↔ Short 5 32 b.contents :=
    decodes_fifo_iff join32_toNat UInt32.toNat_lt UInt32.toNat_zero (by omega) b.contents
  have h64 : Decodes 64 UInt64.toNat (readVarIntWith join64 0) b.contents ↔ Short 10 64 b.contents :=
    decodes_fifo_iff join64_toNat UInt64.toNat_lt UInt64.toNat_zero (by omega) b.contents
  constructor
  · rw [← decodes_map contents_hom (readVarInt32_commutes contents_hom), ← short_map contents_hom]
    exact h32
  · rw [← decodes_map contents_hom (readVarInt64_commutes contents_hom), ← short_map contents_hom]
    exact h64

/-- Six bytes make the reader shift by 35, and with 2 ^ 32 it reads 0. -/
theorem varInt_overlong :
    letI := zeroPlatform
    (¬Decodes 32 UInt32.toNat readVarInt32
        (write [0x80, 0x80, 0x80, 0x80, 0x80, 0x00] (new 64 : ByteBuffer)).2) ∧
      (readVarInt32 (write [0x80, 0x80, 0x80, 0x80, 0x10] (new 64 : ByteBuffer)).2).1 = some 0 ∧
      Leb128.value [0x80, 0x80, 0x80, 0x80, 0x10] = 2 ^ 32 := by
  let : Platform := zeroPlatform
  refine ⟨fun h => ?_, by decide +kernel, by decide⟩
  have hlast := h.shifts 35 (by decide +kernel)
  omega

end ByteBuffer

end P2PChat

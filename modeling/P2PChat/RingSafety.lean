import P2PChat.RingCalls

namespace P2PChat

namespace CheckedRing

open Checked

variable [SizeType] {size : Nat} (hsize : size + 1 < SizeType.values)

section Typed

include hsize

omit [SizeType] hsize in
/-- A call that first makes sure of the bytes it needs, or of the room. -/
theorem guarded_keeps {α : Type} {can : CheckedRing Bool} {m : CheckedRing α} {no : α}
    (hcan : Keeps (Sound size) can) (hm : Keeps (Sound size) m) :
    Keeps (Sound size) (do
      checkValid
      let can ← can
      if !can then pure no else m) := by
  apply checkValid_keeps.bind
  intro _
  apply hcan.bind
  intro can
  exact Keeps.ite (Keeps.pure no) hm

theorem readInteger_keeps (width : Nat) : Keeps (Sound size) (readInteger width) := by
  apply guarded_keeps (canReadBytes_keeps hsize width)
  exact (readBuf_keeps hsize width).bind (fun bytes => Keeps.pure _)

theorem readConverted_keeps {α : Type} (width : Nat) (g : Option Nat → α) :
    Keeps (Sound size) (do
      let n ← readInteger width
      pure (g n)) :=
  (readInteger_keeps hsize width).bind (fun n => Keeps.pure (g n))

theorem readUTF16String_keeps (numChars : Nat) : Keeps (Sound size) (readUTF16String numChars) := by
  apply checkValid_keeps.bind
  intro _
  exact (readString_keeps hsize _).bind (fun rawData => Keeps.pure _)

theorem readBEUTF16String16_keeps : Keeps (Sound size) readBEUTF16String16 := by
  apply checkValid_keeps.bind
  intro _
  apply (readConverted_keeps hsize 2 (·.map (fun n => ntohs (UInt16.ofNat n)))).bind
  intro length
  cases length with
  | none => exact Keeps.pure none
  | some length => exact readUTF16String_keeps hsize _

/-- Each round reads a byte, so the rounds do not outnumber the readable bytes. -/
theorem readVarIntLoop_meets {α : Type} (join : α → UInt8 → Nat → α) (rounds : Nat) (value : α)
    (shift : Nat) :
    Meets (fun r => Sound size r ∧ r.unread.length < rounds) (readVarIntLoop join rounds value shift)
      (fun _ => Sound size) := by
  induction rounds generalizing value shift with
  | zero => exact fun r hr => absurd hr.2 (Nat.not_lt_zero _)
  | succ rounds ih =>
    intro r hr
    have hv := hr.1.valid
    have hfits := hr.1.fits hsize
    unfold readVarIntLoop
    simp only [StateT.run_bind, canReadBytes_run hfits hv, Option.bind_eq_bind, Option.bind_some]
    by_cases hc : r.canReadBytes 1 = true
    · have hspace := (Ring.canReadBytes_iff 1 r).mp hc
      have hbuf : r.readBuf 1 = (some (r.get 1).1, (r.get 1).2) := by
        simp only [Ring.readBuf, hc, Bool.not_true, Bool.false_eq_true, if_false]
      obtain ⟨hv', _, hunread⟩ := Ring.get_advance hv hspace
      have hsound : Sound size (r.get 1).2 := ⟨hv', (Ring.get_bufferSize 1 r).trans hr.1.bufferSize⟩
      have hless : (r.get 1).2.unread.length < rounds := by
        have hlt := hr.2
        rw [hunread, List.length_drop]
        omega
      simp only [hc, Bool.not_true, Bool.false_eq_true, if_false, StateT.run_bind, readBuf_run hfits hv, hbuf,
        Option.bind_eq_bind, Option.bind_some]
      split
      next => exact ih _ _ _ ⟨hsound, hless⟩
      next => exact ⟨_, _, rfl, hsound⟩
    · have hno : r.canReadBytes 1 = false := Bool.eq_false_iff.mpr hc
      simp only [hno, Bool.not_false, if_true]
      exact ⟨_, _, rfl, hr.1⟩

theorem readVarInt_keeps {α : Type} (join : α → UInt8 → Nat → α) (zero : α) :
    Keeps (Sound size) (do
      checkValid
      let r ← get
      readVarIntLoop join (r.getReadableSpace + 1) zero 0) := by
  intro r hr
  simp only [StateT.run_bind, checkValid_run hr.valid, StateT.run_get, Option.bind_eq_bind, Option.bind_some,
    Option.pure_def]
  apply readVarIntLoop_meets hsize join _ zero 0 r
  refine ⟨hr, ?_⟩
  rw [Ring.getReadableSpace_eq]
  exact Nat.lt_succ_self _

theorem readVarUTF8String_keeps [Platform] : Keeps (Sound size) readVarUTF8String := by
  apply checkValid_keeps.bind
  intro _
  apply (readVarInt_keeps hsize _ 0).bind
  intro length
  cases length with
  | none => exact Keeps.pure none
  | some length => exact readString_keeps hsize _

theorem readPosition64_keeps : Keeps (Sound size) readPosition64 := by
  apply (readConverted_keeps hsize 8 (·.map (fun n => networkToHostLong8 (UInt64.ofNat n)))).bind
  intro value
  exact Keeps.pure _

theorem writeInteger_keeps (width n : Nat) : Keeps (Sound size) (writeInteger width n) :=
  guarded_keeps (canWriteBytes_keeps hsize width) (writeBuf_keeps hsize _)

theorem writeBytes_keeps (bytes : AString) :
    Keeps (Sound size) (do
      checkValid
      writeBuf bytes) := by
  apply checkValid_keeps.bind
  intro _
  exact writeBuf_keeps hsize bytes

theorem writeVarUTF8String_keeps (s : AString) : Keeps (Sound size) (writeVarUTF8String s) := by
  apply guarded_keeps (canWriteBytes_keeps hsize _)
  apply (writeBytes_keeps hsize _).bind
  intro res
  exact Keeps.ite (Keeps.pure false) (writeBuf_keeps hsize s)

theorem perform_keeps [Platform] (call : RingCall) : Keeps (Sound size) (perform call) := by
  cases call with
  | write bytes => exact (write_keeps hsize bytes).void
  | getFreeSpace => exact (getFreeSpace_keeps hsize).void
  | getUsedSpace => exact (getUsedSpace_keeps hsize).void
  | getReadableSpace => exact (getReadableSpace_keeps hsize).void
  | canReadBytes count => exact (canReadBytes_keeps hsize count).void
  | canWriteBytes count => exact (canWriteBytes_keeps hsize count).void
  | readBEInt8 | readBEUInt8 | readBool => exact (readConverted_keeps hsize 1 _).void
  | readBEInt16 | readBEUInt16 => exact (readConverted_keeps hsize 2 _).void
  | readBEInt32 | readBEUInt32 | readBEFloat | readLEInt => exact (readConverted_keeps hsize 4 _).void
  | readBEInt64 | readBEUInt64 | readBEDouble => exact (readConverted_keeps hsize 8 _).void
  | readBEUTF16String16 => exact (readBEUTF16String16_keeps hsize).void
  | readVarInt32 => exact (readVarInt_keeps hsize _ 0).void
  | readVarInt64 => exact (readVarInt_keeps hsize _ 0).void
  | readVarUTF8String => exact (readVarUTF8String_keeps hsize).void
  | readPosition64 => exact (readPosition64_keeps hsize).void
  | writeBEInt8 v | writeBEUInt8 v => exact (writeInteger_keeps hsize 1 _).void
  | writeBEInt16 v | writeBEUInt16 v => exact (writeInteger_keeps hsize 2 _).void
  | writeBEInt32 v | writeBEUInt32 v | writeBEFloat v => exact (writeInteger_keeps hsize 4 _).void
  | writeBEInt64 v | writeBEUInt64 v | writeBEDouble v => exact (writeInteger_keeps hsize 8 _).void
  | writeBool v => exact (checkValid_keeps.bind (fun _ => write_keeps hsize _)).void
  | writeVarInt32 v | writeVarInt64 v | writeLEInt32 v => exact (writeBytes_keeps hsize _).void
  | writeVarUTF8String s => exact (writeVarUTF8String_keeps hsize s).void
  | writePosition64 x y z => exact (checkValid_keeps.bind (fun _ => writeInteger_keeps hsize 8 _)).void
  | readBuf count => exact (readBuf_keeps hsize count).void
  | writeBuf bytes => exact (writeBuf_keeps hsize bytes).void
  | readString count => exact (readString_keeps hsize count).void
  | readUTF16String numChars => exact (readUTF16String_keeps hsize numChars).void
  | skipRead count => exact (skipRead_keeps hsize count).void
  | readAll => exact (readAll_keeps hsize).void
  | commitRead => exact commitRead_keeps
  | resetRead => exact resetRead_keeps
  | readAgain out => exact (readAgain_keeps out).void
  | checkValid => exact checkValid_keeps
  | clearAll => exact clearAll_keeps

end Typed

omit [SizeType] in
theorem get_spaces {r : Ring} (h : r.Valid) {count : Nat} (hc : count ≤ r.getReadableSpace) :
    (r.get count).2.getFreeSpace = r.getFreeSpace ∧
      (r.get count).2.getReadableSpace = r.getReadableSpace - count := by
  rw [Ring.getReadableSpace_eq] at hc
  obtain ⟨hv, hread, hunread⟩ := Ring.get_advance h hc
  constructor
  · rw [hv.getFreeSpace, h.getFreeSpace, hread, hunread, Ring.get_bufferSize, List.length_append,
      List.length_take, List.length_drop]
    omega
  · rw [Ring.getReadableSpace_eq, Ring.getReadableSpace_eq, hunread, List.length_drop]

section Transfer

variable {ι : Type} [DecidableEq ι] {sizes : ι → Nat} (hsizes : ∀ i, sizes i + 1 < SizeType.values)

omit [SizeType] in
theorem sound_update {rings : ι → Ring} (h : ∀ j, Sound (sizes j) (rings j)) {i : ι} {r : Ring}
    (hr : Sound (sizes i) r) (j : ι) : Sound (sizes j) (Function.update rings i r j) := by
  by_cases hj : j = i
  · subst hj
    simpa using hr
  · simpa [hj] using h j

include hsizes

/-- Reading takes from what is readable and leaves what is free. -/
theorem part_readBuf {rings : ι → Ring} (h : ∀ j, Sound (sizes j) (rings j)) {i : ι} {count : Nat}
    (hc : count ≤ (rings i).getReadableSpace) :
    ∃ bytes rings', (part i (readBuf count)).run rings = some (some bytes, rings') ∧ bytes.length = count ∧
      (∀ j, Sound (sizes j) (rings' j)) ∧
      (rings' i).getReadableSpace = (rings i).getReadableSpace - count ∧
      ∀ j, (rings' j).getFreeSpace = (rings j).getFreeSpace := by
  have hv := (h i).valid
  have hcan : (rings i).canReadBytes count = true := by simpa [Ring.canReadBytes] using hc
  have hbuf : (rings i).readBuf count = (some ((rings i).get count).1, ((rings i).get count).2) := by
    simp only [Ring.readBuf, hcan, Bool.not_true, Bool.false_eq_true, if_false]
  have hunread : count ≤ (rings i).unread.length := by rwa [← Ring.getReadableSpace_eq]
  obtain ⟨hfree, hread⟩ := get_spaces hv hc
  have hrun := part_run ((readBuf_run ((h i).fits (hsizes i)) hv count).trans (congrArg some hbuf))
  refine ⟨_, _, hrun, ?_, ?_, ?_, fun j => ?_⟩
  · rw [Ring.get_fst hv hunread, List.length_take]
    omega
  · exact sound_update h ⟨(Ring.get_advance hv hunread).1, (Ring.get_bufferSize count _).trans (h i).bufferSize⟩
  · rw [Function.update_self, hread]
  · by_cases hj : j = i
    · subst hj
      rw [Function.update_self, hfree]
    · rw [Function.update_of_ne hj]

/-- Writing takes from what is free and leaves what is readable. -/
theorem part_write {rings : ι → Ring} (h : ∀ j, Sound (sizes j) (rings j)) {dst : ι} {bytes : AString}
    (hroom : bytes.length ≤ (rings dst).getFreeSpace) :
    ∃ rings', (part dst (write bytes)).run rings = some (true, rings') ∧
      (∀ j, Sound (sizes j) (rings' j)) ∧
      (rings' dst).getFreeSpace = (rings dst).getFreeSpace - bytes.length ∧
      ∀ j, (rings j).getReadableSpace ≤ (rings' j).getReadableSpace := by
  have hv := (h dst).valid
  have hw : (rings dst).write bytes = (true, (rings dst).put bytes) := if_neg (by omega)
  obtain ⟨hfree, hread⟩ := put_spaces hv hroom
  have hrun := part_run ((write_run ((h dst).fits (hsizes dst)) hv bytes).trans (congrArg some hw))
  refine ⟨_, hrun, ?_, ?_, fun j => ?_⟩
  · exact sound_update h ⟨Ring.put_valid hv hroom, (Ring.put_bufferSize bytes _).trans (h dst).bufferSize⟩
  · rw [Function.update_self, hfree]
  · by_cases hj : j = dst
    · subst hj
      rw [Function.update_self, hread]
      exact Nat.le_add_right _ _
    · rw [Function.update_of_ne hj]

/-- A round of the loop moves bytes that are there to a place that is free, also within one buffer. -/
theorem transfer_meets (i dst : ι) (rounds numBytes : Nat) :
    Meets (fun rings => (∀ j, Sound (sizes j) (rings j)) ∧ numBytes ≤ rounds ∧
        numBytes ≤ (rings i).getReadableSpace ∧ numBytes ≤ (rings dst).getFreeSpace)
      (transfer i dst rounds numBytes) (fun _ rings => ∀ j, Sound (sizes j) (rings j)) := by
  induction rounds generalizing numBytes with
  | zero =>
    rintro rings ⟨hsound, hzero, -, -⟩
    exact ⟨(), rings, check_run _ rings (Nat.le_zero.mp hzero), hsound⟩
  | succ rounds ih =>
    rintro rings ⟨hsound, hrounds, hread, hfree⟩
    unfold transfer
    split
    next => exact ⟨(), rings, rfl, hsound⟩
    next hpos =>
      obtain ⟨num, hnum⟩ : ∃ num, num = if 1024 < numBytes then 1024 else numBytes := ⟨_, rfl⟩
      have hle : num ≤ numBytes ∧ 0 < num := by rw [hnum]; split <;> omega
      obtain ⟨bytes, rings₁, hrun₁, hlen, hsound₁, hread₁, hfree₁⟩ :=
        part_readBuf hsizes hsound (i := i) (show num ≤ (rings i).getReadableSpace by omega)
      obtain ⟨rings₂, hrun₂, hsound₂, hfree₂, hread₂⟩ :=
        @part_write _ _ _ _ hsizes rings₁ hsound₁ dst bytes (by rw [hfree₁]; omega)
      have hnum' : (if 1024 < numBytes then 1024 else numBytes) ≤ numBytes := by split <;> omega
      have hmore := hread₂ i
      have hless := hfree₁ dst
      simp only [← hnum, StateT.run_bind, hrun₁, check_run _ _ (show (some bytes).isSome = true from rfl),
        Option.getD_some, hrun₂, check_run _ _ (show true = true from rfl), check_run _ _ hnum',
        Option.bind_eq_bind, Option.bind_some]
      exact ih (numBytes - num) rings₂ ⟨hsound₂, by omega, by omega, by omega⟩

theorem readToByteBuffer_keeps (i dst : ι) (numBytes : Nat) :
    Keeps (fun rings => ∀ j, Sound (sizes j) (rings j)) (readToByteBuffer i dst numBytes) := by
  intro rings h
  have hwrite := part_run (canWriteBytes_run ((h dst).fits (hsizes dst)) (h dst).valid numBytes)
  have hread := part_run (canReadBytes_run ((h i).fits (hsizes i)) (h i).valid numBytes)
  rw [Function.update_eq_self] at hwrite hread
  unfold readToByteBuffer
  simp only [StateT.run_bind, hwrite, Option.bind_eq_bind, Option.bind_some]
  split
  next => exact ⟨_, _, rfl, h⟩
  next hcanWrite =>
    simp only [StateT.run_bind, hread, Option.bind_eq_bind, Option.bind_some]
    split
    next => exact ⟨_, _, rfl, h⟩
    next hcanRead =>
      have hfree : numBytes ≤ (rings dst).getFreeSpace := by simpa [Ring.canWriteBytes] using hcanWrite
      have hspace : numBytes ≤ (rings i).getReadableSpace := by simpa [Ring.canReadBytes] using hcanRead
      obtain ⟨_, rings', hrun, hsound⟩ :=
        transfer_meets hsizes i dst numBytes numBytes rings ⟨h, Nat.le_refl _, hspace, hfree⟩
      simp only [StateT.run_bind, hrun, StateT.run_pure, Option.bind_eq_bind, Option.bind_some, Option.pure_def]
      exact ⟨_, _, rfl, hsound⟩

theorem performAll_keeps [Platform] (calls : List (BufferCall ι)) :
    Keeps (fun rings => ∀ j, Sound (sizes j) (rings j)) (performAll calls) := by
  induction calls with
  | nil => exact Keeps.pure ()
  | cons call calls ih =>
    cases call with
    | on i call =>
      have hone := Keeps.part (J := fun j => Sound (sizes j)) (perform_keeps (hsizes i) call)
      exact hone.bind (fun _ => ih)
    | readToByteBuffer i dst numBytes =>
      exact (readToByteBuffer_keeps hsizes i dst numBytes).void.bind (fun _ => ih)

end Transfer

/-- Whatever is called on buffers whose memory a `size_t` can count: no assertion fails, nothing
outside of the memory is copied, no size goes below zero, and the positions stay in the memory, the
read position between the start and the end of the data. -/
theorem stays_in_bounds [Platform] {ι : Type} [DecidableEq ι] {sizes : ι → Nat}
    (hsizes : ∀ i, sizes i + 1 < SizeType.values) (fresh : ι → Nat → UInt8) (calls : List (BufferCall ι)) :
    ∃ rings, (performAll calls).run (fun i => Ring.new (fresh i) (sizes i)) = some ((), rings) ∧
      ∀ i, (rings i).bufferSize = sizes i + 1 ∧ (rings i).dataStart < (rings i).bufferSize ∧
        (rings i).writePos < (rings i).bufferSize ∧ (rings i).readPos < (rings i).bufferSize ∧
        (rings i).gap (rings i).dataStart (rings i).readPos ≤
          (rings i).gap (rings i).dataStart (rings i).writePos := by
  obtain ⟨_, rings, hrun, h⟩ := performAll_keeps hsizes calls (fun i => Ring.new (fresh i) (sizes i))
    (fun i => ⟨Ring.new_valid (fresh i) (sizes i), rfl⟩)
  refine ⟨rings, hrun, fun i => ?_⟩
  have hv := (h i).valid
  exact ⟨(h i).bufferSize, hv.dataStart_lt, hv.writePos_lt, hv.readPos_lt, hv.ordered⟩

omit [SizeType] in
theorem stays_in_bounds_two :
    letI : SizeType := ⟨2 ^ 64⟩
    letI := zeroPlatform
    ∃ rings, (performAll [.on true (.writeBEInt16 5), .readToByteBuffer true false 2]).run
        (fun b => Ring.new (fun _ => 7) (if b then 2 else 3)) = some ((), rings) ∧
      ∀ b, (rings b).bufferSize = (if b then 2 else 3) + 1 ∧ (rings b).dataStart < (rings b).bufferSize ∧
        (rings b).writePos < (rings b).bufferSize ∧ (rings b).readPos < (rings b).bufferSize ∧
        (rings b).gap (rings b).dataStart (rings b).readPos ≤
          (rings b).gap (rings b).dataStart (rings b).writePos := by
  let : SizeType := ⟨2 ^ 64⟩
  let : Platform := zeroPlatform
  apply stays_in_bounds
  intro b
  change (if b = true then 2 else 3) + 1 < 2 ^ 64
  cases b <;> decide

end CheckedRing

end P2PChat

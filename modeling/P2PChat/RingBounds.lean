import P2PChat.CheckedRing
import P2PChat.QueueRefinement

namespace P2PChat

namespace CheckedRing

open Checked

theorem minus_run {a b : Nat} (h : b ≤ a) (r : Ring) : (minus a b).run r = some (a - b, r) := by
  simp [minus, h]

theorem checkValid_run {r : Ring} (h : r.Valid) : checkValid.run r = some ((), r) := by
  simp [checkValid, h.readPos_lt, h.writePos_lt]

section Positions

variable [SizeType] {r : Ring} (hsize : r.bufferSize < SizeType.values)

theorem plus_eq {a b : Nat} (h : a + b < SizeType.values) : plus a b = a + b := Nat.mod_eq_of_lt h

include hsize

theorem getFreeSpace_run (h : r.Valid) : getFreeSpace.run r = some (r.getFreeSpace, r) := by
  have hd := h.dataStart_lt
  have hw := h.writePos_lt
  unfold getFreeSpace Ring.getFreeSpace
  simp only [StateT.run_bind, checkValid_run h, StateT.run_get, Option.bind_eq_bind, Option.bind_some, Option.pure_def]
  by_cases hle : r.dataStart ≤ r.writePos
  · have hplus : plus (r.bufferSize - r.writePos) r.dataStart = r.bufferSize - r.writePos + r.dataStart :=
      plus_eq (by omega)
    rw [if_pos hle, if_pos hle]
    simp (disch := omega) only [StateT.run_bind, check_run, minus_run, hplus, Option.bind_eq_bind, Option.bind_some]
  · rw [if_neg hle, if_neg hle]
    simp (disch := omega) only [StateT.run_bind, check_run, minus_run, Option.bind_eq_bind, Option.bind_some]

theorem getUsedSpace_run (h : r.Valid) : getUsedSpace.run r = some (r.getUsedSpace, r) := by
  have hfree := h.getFreeSpace
  have hd := h.dataStart_lt
  unfold getUsedSpace Ring.getUsedSpace
  simp (disch := omega) only [StateT.run_bind, checkValid_run h, getFreeSpace_run hsize h, StateT.run_get, check_run,
    minus_run, Option.bind_eq_bind, Option.bind_some, Option.pure_def]

theorem getReadableSpace_run (h : r.Valid) : getReadableSpace.run r = some (r.getReadableSpace, r) := by
  have hr := h.readPos_lt
  have hw := h.writePos_lt
  unfold getReadableSpace Ring.getReadableSpace
  simp only [StateT.run_bind, checkValid_run h, StateT.run_get, Option.bind_eq_bind, Option.bind_some, Option.pure_def]
  by_cases hlt : r.writePos < r.readPos
  · have hplus : plus (r.bufferSize - r.readPos) r.writePos = r.bufferSize - r.readPos + r.writePos :=
      plus_eq (by omega)
    rw [if_pos hlt, if_pos hlt]
    simp (disch := omega) only [StateT.run_bind, check_run, minus_run, hplus, StateT.run_pure, Option.bind_eq_bind,
      Option.bind_some, Option.pure_def]
  · rw [if_neg hlt, if_neg hlt]
    simp (disch := omega) only [StateT.run_bind, check_run, minus_run, Option.bind_eq_bind, Option.bind_some]

theorem canReadBytes_run (h : r.Valid) (count : Nat) :
    (canReadBytes count).run r = some (r.canReadBytes count, r) := by
  unfold canReadBytes
  simp only [StateT.run_bind, checkValid_run h, getReadableSpace_run hsize h, StateT.run_pure, Option.bind_eq_bind,
    Option.bind_some, Option.pure_def, Ring.canReadBytes]

theorem canWriteBytes_run (h : r.Valid) (count : Nat) :
    (canWriteBytes count).run r = some (r.canWriteBytes count, r) := by
  unfold canWriteBytes
  simp only [StateT.run_bind, checkValid_run h, getFreeSpace_run hsize h, StateT.run_pure, Option.bind_eq_bind,
    Option.bind_some, Option.pure_def, Ring.canWriteBytes]

omit [SizeType] hsize in
theorem store_run {pos : Nat} {bytes : AString} (hroom : pos + bytes.length ≤ r.bufferSize) :
    (store pos bytes).run r = some ((), { r with buffer := memcpy r.buffer pos bytes }) := by
  unfold store
  simp only [StateT.run_bind, StateT.run_get, check_run _ _ hroom, StateT.run_set, Option.bind_eq_bind,
    Option.bind_some, Option.pure_def]

omit [SizeType] hsize in
theorem load_run {pos count : Nat} (hroom : pos + count ≤ r.bufferSize) :
    (load pos count).run r = some (peek r.buffer pos count, r) := by
  unfold load
  simp only [StateT.run_bind, StateT.run_get, check_run _ _ hroom, StateT.run_pure, Option.bind_eq_bind,
    Option.bind_some, Option.pure_def]

theorem storeRest_run {bytes : AString} (hroom : r.writePos + bytes.length ≤ r.bufferSize) :
    (storeRest bytes).run r = some ((), if 0 < bytes.length then
      { r with buffer := memcpy r.buffer r.writePos bytes, writePos := r.writePos + bytes.length }
    else r) := by
  have hplus : plus r.writePos bytes.length = r.writePos + bytes.length := plus_eq (by omega)
  unfold storeRest
  by_cases hpos : 0 < bytes.length
  · rw [if_pos hpos, if_pos hpos]
    simp only [StateT.run_bind, StateT.run_get, store_run hroom, hplus, StateT.run_modify, Option.bind_eq_bind,
      Option.bind_some, Option.pure_def]
  · rw [if_neg hpos, if_neg hpos]
    rfl

omit [SizeType] hsize in
theorem put_spaces {bytes : AString} (h : r.Valid) (hfree : bytes.length ≤ r.getFreeSpace) :
    (r.put bytes).getFreeSpace = r.getFreeSpace - bytes.length ∧
      (r.put bytes).getReadableSpace = r.getReadableSpace + bytes.length := by
  obtain ⟨hread, hunread⟩ := Ring.put_contents h hfree
  constructor
  · rw [(Ring.put_valid h hfree).getFreeSpace, h.getFreeSpace, hread, hunread, Ring.put_bufferSize,
      List.length_append]
    omega
  · rw [Ring.getReadableSpace_eq, Ring.getReadableSpace_eq, hunread, List.length_append]

theorem assertWritten_run {bytes : AString} (h : r.Valid) (hfree : bytes.length ≤ r.getFreeSpace) :
    (write.assertWritten r.getFreeSpace r.getReadableSpace bytes.length).run (r.put bytes) =
      some (true, r.put bytes) := by
  obtain ⟨hf, hr⟩ := put_spaces h hfree
  have hv := Ring.put_valid h hfree
  have hsize' : (r.put bytes).bufferSize < SizeType.values := by simpa using hsize
  have hbound := hv.fits
  have hplus : plus r.getReadableSpace bytes.length = r.getReadableSpace + bytes.length := by
    apply plus_eq
    rw [← hr, Ring.getReadableSpace_eq]
    omega
  unfold write.assertWritten
  simp only [StateT.run_bind, getFreeSpace_run hsize' hv, minus_run hfree, check_run _ _ hf,
    getReadableSpace_run hsize' hv, check_run _ _ (hr.trans hplus.symm), StateT.run_pure, Option.bind_eq_bind,
    Option.bind_some, Option.pure_def]

omit [SizeType] hsize in
/-- Where the bytes go round the end of the memory, the copying starts again at its beginning. -/
theorem put_wrap {bytes : AString} (hwrap : r.bufferSize - r.writePos ≤ bytes.length) :
    r.put bytes = if 0 < (bytes.drop (r.bufferSize - r.writePos)).length then
        { r with
          buffer := memcpy (memcpy r.buffer r.writePos (bytes.take (r.bufferSize - r.writePos))) 0
            (bytes.drop (r.bufferSize - r.writePos))
          writePos := 0 + (bytes.drop (r.bufferSize - r.writePos)).length }
      else
        { r with
          buffer := memcpy r.buffer r.writePos (bytes.take (r.bufferSize - r.writePos))
          writePos := 0 } := by
  simp only [Ring.put, if_pos hwrap]

omit [SizeType] hsize in
theorem put_straight {bytes : AString} (hwrap : ¬r.bufferSize - r.writePos ≤ bytes.length) :
    r.put bytes = if 0 < bytes.length then
        { r with buffer := memcpy r.buffer r.writePos bytes, writePos := r.writePos + bytes.length }
      else r := by
  simp only [Ring.put, if_neg hwrap]

/-- The second half of a copy that goes round the end. -/
theorem storeRest_wrapped {bytes : AString} (h : r.Valid) (hfree : bytes.length ≤ r.getFreeSpace)
    (hwrap : r.bufferSize - r.writePos ≤ bytes.length) :
    (storeRest (bytes.drop (r.bufferSize - r.writePos))).run
      { r with
        buffer := memcpy r.buffer r.writePos (bytes.take (r.bufferSize - r.writePos))
        writePos := 0 } = some ((), r.put bytes) := by
  have hbound := h.getFreeSpace
  rw [storeRest_run, put_wrap hwrap]
  · exact hsize
  · simp only [List.length_drop]
    omega

theorem write_run (h : r.Valid) (bytes : AString) : (write bytes).run r = some (r.write bytes) := by
  have hw := h.writePos_lt
  have hbound := h.getFreeSpace
  unfold write Ring.write
  simp only [StateT.run_bind, checkValid_run h, getFreeSpace_run hsize h, getReadableSpace_run hsize h,
    Option.bind_eq_bind, Option.bind_some]
  by_cases hroom : r.getFreeSpace < bytes.length
  · rw [if_pos hroom, if_pos hroom]
    rfl
  · rw [if_neg hroom, if_neg hroom]
    have hfree : bytes.length ≤ r.getFreeSpace := by omega
    have hassert := assertWritten_run hsize h hfree
    simp only [StateT.run_bind, StateT.run_get, check_run _ _ hw.le, minus_run hw.le, Option.bind_eq_bind,
      Option.bind_some, Option.pure_def]
    by_cases hwrap : r.bufferSize - r.writePos ≤ bytes.length
    · have htake : (bytes.take (r.bufferSize - r.writePos)).length = r.bufferSize - r.writePos := by
        rw [List.length_take]; omega
      have hall : plus (r.bufferSize - r.writePos) (bytes.length - (r.bufferSize - r.writePos)) =
          bytes.length := by
        rw [plus_eq (by omega)]
        omega
      rw [if_pos hwrap, if_pos (show 0 < r.bufferSize - r.writePos by omega)]
      simp only [StateT.run_bind, store_run (show r.writePos +
        (bytes.take (r.bufferSize - r.writePos)).length ≤ r.bufferSize by omega), minus_run hwrap,
        StateT.run_modify, storeRest_wrapped hsize h hfree hwrap, hall, hassert, Option.bind_eq_bind,
        Option.bind_some, Option.pure_def]
    · rw [if_neg hwrap]
      simp only [StateT.run_bind, storeRest_run hsize (show r.writePos + bytes.length ≤ r.bufferSize by omega),
        ← put_straight hwrap, hassert, Option.bind_eq_bind, Option.bind_some]

theorem writeBuf_run (h : r.Valid) (bytes : AString) :
    (writeBuf bytes).run r = some (r.writeBuf bytes) := by
  have hw := h.writePos_lt
  have hr := h.readPos_lt
  have hbound := h.getFreeSpace
  unfold writeBuf Ring.writeBuf
  simp only [StateT.run_bind, checkValid_run h, canWriteBytes_run hsize h, Option.bind_eq_bind, Option.bind_some]
  by_cases hroom : r.canWriteBytes bytes.length = true
  · have hfree : bytes.length ≤ r.getFreeSpace := by simpa [Ring.canWriteBytes] using hroom
    simp only [hroom, Bool.not_true, Bool.false_eq_true, if_false]
    simp only [StateT.run_bind, StateT.run_get, check_run _ _ hr.le, minus_run hw.le, Option.bind_eq_bind,
      Option.bind_some, Option.pure_def]
    by_cases hwrap : r.bufferSize - r.writePos ≤ bytes.length
    · have htake : (bytes.take (r.bufferSize - r.writePos)).length = r.bufferSize - r.writePos := by
        rw [List.length_take]; omega
      rw [if_pos hwrap]
      simp only [StateT.run_bind, store_run (show r.writePos +
        (bytes.take (r.bufferSize - r.writePos)).length ≤ r.bufferSize by omega), minus_run hwrap,
        StateT.run_modify, storeRest_wrapped hsize h hfree hwrap, StateT.run_pure, Option.bind_eq_bind,
        Option.bind_some, Option.pure_def]
    · rw [if_neg hwrap]
      simp only [StateT.run_bind, storeRest_run hsize (show r.writePos + bytes.length ≤ r.bufferSize by omega),
        ← put_straight hwrap, StateT.run_pure, Option.bind_eq_bind, Option.bind_some, Option.pure_def]
  · have hfull : r.canWriteBytes bytes.length = false := Bool.eq_false_iff.mpr hroom
    simp only [hfull, Bool.not_false, if_true]
    rfl

theorem loadRest_run {count : Nat} (hroom : r.readPos + count ≤ r.bufferSize) :
    (loadRest count).run r =
      some (peek r.buffer r.readPos count, { r with readPos := r.readPos + count }) := by
  have hplus : plus r.readPos count = r.readPos + count := plus_eq (by omega)
  unfold loadRest
  by_cases hpos : 0 < count
  · rw [if_pos hpos]
    simp only [StateT.run_bind, StateT.run_get, load_run hroom, hplus, StateT.run_modify, StateT.run_pure,
      Option.bind_eq_bind, Option.bind_some, Option.pure_def]
  · have hzero : count = 0 := by omega
    subst hzero
    rfl

/-- `ReadBuf` and `ReadString` read as far as the bytes are there. -/
theorem loadAll_run {count : Nat} (h : r.Valid) (hc : count ≤ r.getReadableSpace) :
    (loadAll count).run r = some (r.get count) := by
  have hr := h.readPos_lt
  have hw := h.writePos_lt
  have hspace : r.getReadableSpace = if r.writePos < r.readPos then
      r.bufferSize - r.readPos + r.writePos else r.writePos - r.readPos := rfl
  unfold loadAll Ring.get
  simp only [StateT.run_bind, StateT.run_get, check_run _ _ hr.le, minus_run hr.le, Option.bind_eq_bind,
    Option.bind_some, Option.pure_def]
  by_cases hwrap : r.bufferSize - r.readPos ≤ count
  · have hrest : count - (r.bufferSize - r.readPos) ≤ r.bufferSize := by
      rw [hspace] at hc
      split at hc <;> omega
    have hsize' : ({ r with readPos := 0 } : Ring).bufferSize < SizeType.values := hsize
    have hload := @loadRest_run _ _ hsize' (count - (r.bufferSize - r.readPos))
      (show 0 + (count - (r.bufferSize - r.readPos)) ≤ r.bufferSize by omega)
    rw [if_pos hwrap, if_pos hwrap, if_pos (show 0 < r.bufferSize - r.readPos by omega)]
    simp only [StateT.run_bind, load_run (show r.readPos + (r.bufferSize - r.readPos) ≤ r.bufferSize by omega),
      check_run _ _ hwrap, minus_run hwrap, StateT.run_modify, hload, StateT.run_pure, Option.bind_eq_bind,
      Option.bind_some, Option.pure_def, Nat.zero_add]
  · rw [if_neg hwrap, if_neg hwrap]
    exact loadRest_run hsize (by omega)

theorem readBuf_run (h : r.Valid) (count : Nat) : (readBuf count).run r = some (r.readBuf count) := by
  unfold readBuf Ring.readBuf
  simp only [StateT.run_bind, checkValid_run h, canReadBytes_run hsize h, Option.bind_eq_bind, Option.bind_some]
  by_cases hc : r.canReadBytes count = true
  · have hspace : count ≤ r.getReadableSpace := by simpa [Ring.canReadBytes] using hc
    simp only [hc, Bool.not_true, Bool.false_eq_true, if_false, StateT.run_bind, loadAll_run hsize h hspace,
      StateT.run_pure, Option.bind_eq_bind, Option.bind_some, Option.pure_def]
  · have hno : r.canReadBytes count = false := Bool.eq_false_iff.mpr hc
    simp only [hno, Bool.not_false, if_true]
    rfl

theorem readString_run (h : r.Valid) (count : Nat) :
    (readString count).run r = some (r.readString count) := readBuf_run hsize h count

theorem readAll_run (h : r.Valid) : readAll.run r = some r.readAll := by
  unfold readAll Ring.readAll
  simp only [StateT.run_bind, checkValid_run h, getReadableSpace_run hsize h, readString_run hsize h,
    StateT.run_pure, Option.bind_eq_bind, Option.bind_some, Option.pure_def]

omit [SizeType] hsize in
theorem commitRead_run (h : r.Valid) : commitRead.run r = some ((), r.commitRead) := by
  unfold commitRead
  simp only [StateT.run_bind, checkValid_run h, StateT.run_modify, Option.bind_eq_bind, Option.bind_some,
    Option.pure_def]

omit [SizeType] hsize in
theorem resetRead_run (h : r.Valid) : resetRead.run r = some ((), r.resetRead) := by
  unfold resetRead
  simp only [StateT.run_bind, checkValid_run h, StateT.run_modify, Option.bind_eq_bind, Option.bind_some,
    Option.pure_def]

omit [SizeType] hsize in
theorem readAgain_run (h : r.Valid) (out : AString) : (readAgain out).run r = some (r.readAgain out, r) := by
  have hd := h.dataStart_lt
  have hr := h.readPos_lt
  unfold readAgain Ring.readAgain
  simp only [StateT.run_bind, checkValid_run h, StateT.run_get, Option.bind_eq_bind, Option.bind_some,
    Option.pure_def]
  by_cases hlt : r.readPos < r.dataStart
  · rw [if_pos hlt, if_pos hlt]
    simp only [StateT.run_bind, check_run _ _ hd.le, minus_run hd.le,
      load_run (show r.dataStart + (r.bufferSize - r.dataStart) ≤ r.bufferSize by omega),
      check_run _ _ (Nat.zero_le r.readPos), minus_run (Nat.zero_le r.readPos), Nat.sub_zero,
      load_run (show 0 + r.readPos ≤ r.bufferSize by omega), StateT.run_pure, Option.bind_eq_bind,
      Option.bind_some, Option.pure_def]
  · have hle : r.dataStart ≤ r.readPos := by omega
    rw [if_neg hlt, if_neg hlt]
    simp only [StateT.run_bind, check_run _ _ hle, minus_run hle,
      load_run (show r.dataStart + (r.readPos - r.dataStart) ≤ r.bufferSize by omega), StateT.run_pure,
      Option.bind_eq_bind, Option.bind_some, Option.pure_def]

omit hsize in
/-- Where the read position gets to in `AdvanceReadPos`. -/
def advancedPos (count : Nat) (r : Ring) : Nat :=
  if r.bufferSize ≤ plus r.readPos count then plus r.readPos count - r.bufferSize
  else plus r.readPos count

omit hsize in
theorem advanceReadPos_run (h : r.Valid) (count : Nat) :
    (advanceReadPos count).run r = some ((), { r with readPos := advancedPos count r }) := by
  unfold advanceReadPos advancedPos
  simp only [StateT.run_bind, checkValid_run h, StateT.run_modify, StateT.run_get, Option.bind_eq_bind,
    Option.bind_some, Option.pure_def]
  split
  next hend =>
    simp only [StateT.run_bind, minus_run hend, StateT.run_modify, Option.bind_eq_bind, Option.bind_some,
      Option.pure_def]
  next => rfl

omit hsize in
theorem advancedPos_eq {count : Nat} (hsum : r.readPos + count < SizeType.values) :
    { r with readPos := advancedPos count r } = r.advanceReadPos count := by
  rw [advancedPos, plus_eq hsum, Ring.advanceReadPos]
  split <;> rfl

/-- Where the memory takes more than half of the address space, the sum in `AdvanceReadPos` can wrap:
the read position then falls short of its place, but not back behind the start of the data. -/
theorem advancedPos_valid (h : r.Valid) {count : Nat} (hc : count ≤ r.getReadableSpace) :
    ({ r with readPos := advancedPos count r } : Ring).Valid := by
  have hr := h.readPos_lt
  have hw := h.writePos_lt
  have hord := h.ordered
  have hspace : r.getReadableSpace = if r.writePos < r.readPos then
      r.bufferSize - r.readPos + r.writePos else r.writePos - r.readPos := rfl
  by_cases hsum : r.readPos + count < SizeType.values
  · rw [Ring.getReadableSpace_eq] at hc
    rw [advancedPos_eq hsum]
    exact (Ring.advance_contents h hc (Ring.advanceReadPos_eq count r)).1
  · have hwrap : r.writePos < r.readPos := by
      by_contra hle
      rw [hspace, if_neg hle] at hc
      omega
    rw [hspace, if_pos hwrap] at hc
    have hpos : advancedPos count r = r.readPos + count - SizeType.values := by
      have hplus : plus r.readPos count = r.readPos + count - SizeType.values := by
        rw [plus, Nat.mod_eq_sub_mod (by omega), Nat.mod_eq_of_lt (by omega)]
      rw [advancedPos, hplus, if_neg (by omega)]
    rw [hpos]
    refine ⟨h.dataStart_lt, hw, ?_, ?_⟩
    · change r.readPos + count - SizeType.values < r.bufferSize
      omega
    · simp only [Ring.gap] at hord ⊢
      split_ifs at hord ⊢ <;> omega

end Positions

end CheckedRing

end P2PChat

import P2PChat.RingContents

namespace P2PChat

theorem peek_length (src : Nat → UInt8) (pos count : Nat) : (peek src pos count).length = count := by
  simp [peek]

theorem peek_getElem (src : Nat → UInt8) (pos count i : Nat) (hi : i < (peek src pos count).length) :
    (peek src pos count)[i] = src (pos + i) := by
  simp [peek]

namespace Ring

@[simp] theorem put_bufferSize (bytes : AString) (r : Ring) :
    (r.put bytes).bufferSize = r.bufferSize := by
  simp only [put]; split_ifs <;> rfl

@[simp] theorem put_dataStart (bytes : AString) (r : Ring) :
    (r.put bytes).dataStart = r.dataStart := by
  simp only [put]; split_ifs <;> rfl

@[simp] theorem put_readPos (bytes : AString) (r : Ring) :
    (r.put bytes).readPos = r.readPos := by
  simp only [put]; split_ifs <;> rfl

theorem put_gap (bytes : AString) (r : Ring) (a b : Nat) : (r.put bytes).gap a b = r.gap a b := by
  simp [gap]

theorem put_writePos (bytes : AString) {r : Ring} (hw : r.writePos < r.bufferSize) :
    (r.put bytes).writePos = r.wrap (r.writePos + bytes.length) := by
  by_cases hwrap : r.bufferSize - r.writePos ≤ bytes.length
  · have hdrop : (bytes.drop (r.bufferSize - r.writePos)).length =
        bytes.length - (r.bufferSize - r.writePos) := List.length_drop
    simp only [put, wrap, if_pos hwrap, hdrop, if_neg (show ¬r.writePos + bytes.length < r.bufferSize by omega)]
    split
    next hrest => dsimp only; omega
    next hrest => dsimp only; omega
  · simp only [put, wrap, if_neg hwrap, if_pos (show r.writePos + bytes.length < r.bufferSize by omega)]
    split
    next hrest => rfl
    next hrest => omega

/-- The cell `j` holds the byte with the number of steps from the write position to `j`, if
that many bytes were put. -/
theorem put_buffer {bytes : AString} {r : Ring} {j : Nat} (hw : r.writePos < r.bufferSize)
    (hn : bytes.length < r.bufferSize) (hj : j < r.bufferSize) :
    (r.put bytes).buffer j = (bytes[r.gap r.writePos j]?).getD (r.buffer j) := by
  by_cases hwrap : r.bufferSize - r.writePos ≤ bytes.length
  · by_cases hrest : 0 < (bytes.drop (r.bufferSize - r.writePos)).length
    · simp only [put, if_pos hwrap, if_pos hrest, memcpy, Nat.zero_le, if_true]
      simp only [List.getElem?_drop, gap]
      by_cases hlow : j < r.writePos
      · simp only [if_pos hlow, if_neg (show ¬r.writePos ≤ j by omega)]
        simp
      · have hout : bytes[r.bufferSize - r.writePos + (j - 0)]? = none := by
          apply List.getElem?_eq_none; omega
        simp only [hout, Option.getD_none, if_neg hlow, if_pos (show r.writePos ≤ j by omega)]
        rw [List.getElem?_take_of_lt (by omega)]
    · simp only [put, if_pos hwrap, if_neg hrest, memcpy, gap]
      simp only [List.length_drop] at hrest
      by_cases hlow : j < r.writePos
      · have hout : bytes[r.bufferSize - r.writePos + j]? = none := by
          apply List.getElem?_eq_none; omega
        simp only [if_pos hlow, if_neg (show ¬r.writePos ≤ j by omega), hout, Option.getD_none]
      · simp only [if_neg hlow, if_pos (show r.writePos ≤ j by omega)]
        rw [List.getElem?_take_of_lt (by omega)]
  · by_cases hrest : 0 < bytes.length
    · simp only [put, if_neg hwrap, if_pos hrest, memcpy, gap]
      by_cases hlow : j < r.writePos
      · have hout : bytes[r.bufferSize - r.writePos + j]? = none := by
          apply List.getElem?_eq_none; omega
        simp only [if_pos hlow, if_neg (show ¬r.writePos ≤ j by omega), hout, Option.getD_none]
      · simp only [if_neg hlow, if_pos (show r.writePos ≤ j by omega)]
    · have hnil : bytes = [] := List.length_eq_zero_iff.mp (by omega)
      subst hnil
      simp [put, if_neg (show ¬r.bufferSize - r.writePos = 0 by omega)]

/-- Putting bytes leaves the cells alone that hold data. -/
theorem put_keeps {bytes : AString} {r : Ring} {i : Nat} (h : r.Valid)
    (hfree : bytes.length ≤ r.getFreeSpace) (hi : i < r.gap r.dataStart r.writePos) :
    (r.put bytes).buffer (r.wrap (r.dataStart + i)) = r.buffer (r.wrap (r.dataStart + i)) := by
  have hlt := gap_lt h.dataStart_lt h.writePos_lt
  rw [h.getFreeSpace, h.sum] at hfree
  rw [put_buffer h.writePos_lt (by omega) (wrap_lt h.dataStart_lt (by omega)),
    gap_back h.dataStart_lt h.writePos_lt hi, List.getElem?_eq_none (by omega), Option.getD_none]

theorem put_contents {bytes : AString} {r : Ring} (h : r.Valid)
    (hfree : bytes.length ≤ r.getFreeSpace) :
    (r.put bytes).read = r.read ∧ (r.put bytes).unread = r.unread ++ bytes := by
  have hfits := gap_lt h.dataStart_lt h.writePos_lt
  have hsum := gap_add h.dataStart_lt h.readPos_lt h.writePos_lt h.ordered
  have hroom := hfree
  rw [h.getFreeSpace, h.sum] at hroom
  have hpos := put_writePos bytes h.writePos_lt
  constructor
  · simp only [read, put_dataStart, put_readPos]
    apply slice_congr (put_bufferSize _ _)
    intro i hi
    exact put_keeps h hfree (by omega)
  · have hlen : (r.put bytes).gap r.readPos (r.put bytes).writePos =
        r.gap r.readPos r.writePos + bytes.length := by
      rw [put_gap, hpos, wrap_from h.readPos_lt h.writePos_lt (by omega)]
      exact gap_wrap h.readPos_lt (by omega)
    simp only [unread, put_readPos]
    apply List.ext_getElem (by simp [hlen])
    intro i hi hj
    have hi' : i < r.gap r.readPos r.writePos + bytes.length := by simpa [hlen] using hi
    have hwrap : (r.put bytes).wrap (r.readPos + i) = r.wrap (r.readPos + i) := by simp [wrap]
    rw [slice_getElem, hwrap, List.getElem_append]
    split
    next hlow =>
      rw [slice_length] at hlow
      rw [slice_getElem, wrap_from h.dataStart_lt h.readPos_lt (by omega)]
      exact put_keeps h hfree (by omega)
    next hhigh =>
      simp only [slice_length] at hhigh ⊢
      have hnew : r.wrap (r.readPos + i) =
          r.wrap (r.writePos + (i - r.gap r.readPos r.writePos)) := by
        rw [wrap_from h.readPos_lt h.writePos_lt (by omega),
          show r.gap r.readPos r.writePos + (i - r.gap r.readPos r.writePos) = i by omega]
      rw [hnew, put_buffer h.writePos_lt (by omega) (wrap_lt h.writePos_lt (by omega)),
        gap_wrap h.writePos_lt (by omega)]
      simp [List.getElem?_eq_getElem (show i - r.gap r.readPos r.writePos < bytes.length by omega)]

theorem put_valid {bytes : AString} {r : Ring} (h : r.Valid)
    (hfree : bytes.length ≤ r.getFreeSpace) : (r.put bytes).Valid := by
  have hfits := gap_lt h.dataStart_lt h.writePos_lt
  rw [h.getFreeSpace, h.sum] at hfree
  have hpos := put_writePos bytes h.writePos_lt
  have hmove := wrap_from (i := bytes.length) h.dataStart_lt h.writePos_lt (by omega)
  refine ⟨by simpa using h.dataStart_lt, ?_, by simpa using h.readPos_lt, ?_⟩
  · rw [hpos, put_bufferSize]
    exact wrap_lt h.writePos_lt (by omega)
  · have hord := h.ordered
    rw [hpos, hmove, put_dataStart, put_readPos, put_gap, put_gap, gap_wrap h.dataStart_lt (by omega)]
    omega

theorem get_fst {count : Nat} {r : Ring} (h : r.Valid) (hc : count ≤ r.unread.length) :
    (r.get count).1 = r.unread.take count := by
  have hw := h.writePos_lt
  have hr := h.readPos_lt
  simp only [unread, slice_length] at hc
  apply List.ext_getElem
  · simp only [get]
    split_ifs <;> simp [peek_length, unread] <;> omega
  · intro i hi hj
    have hi' : i < count := by
      simp only [List.length_take, unread, slice_length] at hj; omega
    have hin : i < (r.slice r.readPos r.writePos).length := by simp only [slice_length]; omega
    simp only [unread, List.getElem_take, slice_getElem _ _ _ _ hin, wrap]
    simp only [get]
    split
    next hend =>
      rw [List.getElem_append]
      split
      next hlow =>
        rw [peek_length] at hlow
        rw [peek_getElem, if_pos (by omega)]
      next hhigh =>
        rw [peek_length] at hhigh
        rw [peek_getElem, if_neg (by omega)]
        congr 1
        simp only [peek_length]
        omega
    next hend => rw [peek_getElem, if_pos (by omega)]

theorem get_readPos {count : Nat} {r : Ring} (hr : r.readPos < r.bufferSize) :
    (r.get count).2 = { r with readPos := r.wrap (r.readPos + count) } := by
  by_cases hend : r.bufferSize - r.readPos ≤ count
  · have heq : count - (r.bufferSize - r.readPos) = r.readPos + count - r.bufferSize := by omega
    simp only [get, wrap, if_pos hend, if_neg (show ¬r.readPos + count < r.bufferSize by omega), heq]
  · simp only [get, wrap, if_neg hend, if_pos (show r.readPos + count < r.bufferSize by omega)]

/-- Moving the read position forward by `count` moves that many bytes from unread to read. -/
theorem advance_contents {count : Nat} {r s : Ring} (h : r.Valid) (hc : count ≤ r.unread.length)
    (hs : s = { r with readPos := r.wrap (r.readPos + count) }) :
    s.Valid ∧ s.read = r.read ++ r.unread.take count ∧ s.unread = r.unread.drop count := by
  subst hs
  have hfits := gap_lt h.dataStart_lt h.writePos_lt
  have hsum := gap_add h.dataStart_lt h.readPos_lt h.writePos_lt h.ordered
  rw [unread, slice_length] at hc
  have hlt : r.wrap (r.readPos + count) < r.bufferSize := wrap_lt h.readPos_lt (by omega)
  have hto : r.gap r.readPos (r.wrap (r.readPos + count)) = count :=
    gap_wrap h.readPos_lt (by omega)
  have hfrom : r.gap r.dataStart (r.wrap (r.readPos + count)) =
      r.gap r.dataStart r.readPos + count := by
    rw [wrap_from h.dataStart_lt h.readPos_lt (by omega), gap_wrap h.dataStart_lt (by omega)]
  have hsplit : r.slice r.readPos (r.wrap (r.readPos + count)) ++
      r.slice (r.wrap (r.readPos + count)) r.writePos = r.unread :=
    slice_append h.readPos_lt hlt h.writePos_lt (by omega)
  have hlen : (r.slice r.readPos (r.wrap (r.readPos + count))).length = count := by
    rw [slice_length, hto]
  have htake : r.unread.take count = r.slice r.readPos (r.wrap (r.readPos + count)) := by
    rw [← hsplit, List.take_append_of_le_length (by omega), List.take_of_length_le (by omega)]
  have hdrop : r.unread.drop count = r.slice (r.wrap (r.readPos + count)) r.writePos := by
    rw [← hsplit, List.drop_append_of_le_length (by omega), List.drop_of_length_le (by omega),
      List.nil_append]
  refine ⟨⟨h.dataStart_lt, h.writePos_lt, hlt, ?_⟩, ?_, hdrop.symm⟩
  · change r.gap r.dataStart (r.wrap (r.readPos + count)) ≤ r.gap r.dataStart r.writePos
    omega
  · rw [htake]
    exact (slice_append h.dataStart_lt h.readPos_lt hlt (by omega)).symm

end Ring

end P2PChat

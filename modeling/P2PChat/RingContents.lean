import P2PChat.Ring

namespace P2PChat

namespace Ring

/-- The address reached by counting `i` cells, with `i` below twice the memory's size. -/
def wrap (r : Ring) (i : Nat) : Nat := if i < r.bufferSize then i else i - r.bufferSize

/-- The number of cells from `a` forward to `b`. -/
def gap (r : Ring) (a b : Nat) : Nat := if b < a then r.bufferSize - a + b else b - a

theorem wrap_lt {r : Ring} {a i : Nat} (ha : a < r.bufferSize) (hi : i < r.bufferSize) :
    r.wrap (a + i) < r.bufferSize := by
  unfold wrap; split_ifs <;> omega

theorem gap_lt {r : Ring} {a b : Nat} (ha : a < r.bufferSize) (hb : b < r.bufferSize) :
    r.gap a b < r.bufferSize := by
  unfold gap; split_ifs <;> omega

theorem gap_wrap {r : Ring} {a i : Nat} (ha : a < r.bufferSize) (hi : i < r.bufferSize) :
    r.gap a (r.wrap (a + i)) = i := by
  unfold gap wrap; split_ifs <;> omega

theorem wrap_gap {r : Ring} {a b : Nat} (ha : a < r.bufferSize) (hb : b < r.bufferSize) :
    r.wrap (a + r.gap a b) = b := by
  unfold gap wrap; split_ifs <;> omega

theorem wrap_wrap {r : Ring} {a i j : Nat} (ha : a < r.bufferSize) (hij : i + j < r.bufferSize) :
    r.wrap (r.wrap (a + i) + j) = r.wrap (a + (i + j)) := by
  unfold wrap; split_ifs <;> omega

/-- Counting on from `b` is counting on from `a` past `b`. -/
theorem wrap_from {r : Ring} {a b i : Nat} (ha : a < r.bufferSize) (hb : b < r.bufferSize)
    (hi : r.gap a b + i < r.bufferSize) :
    r.wrap (b + i) = r.wrap (a + (r.gap a b + i)) := by
  rw [← wrap_wrap ha hi, wrap_gap ha hb]

/-- A cell passed on the way from `a` to `b` is reached again from `b` by going round. -/
theorem gap_back {r : Ring} {a b i : Nat} (ha : a < r.bufferSize) (hb : b < r.bufferSize)
    (hi : i < r.gap a b) : r.gap b (r.wrap (a + i)) = r.bufferSize - r.gap a b + i := by
  unfold gap wrap at *; split_ifs at * <;> omega

theorem gap_add {r : Ring} {a b c : Nat} (ha : a < r.bufferSize) (hb : b < r.bufferSize)
    (hc : c < r.bufferSize) (h : r.gap a b ≤ r.gap a c) :
    r.gap a b + r.gap b c = r.gap a c := by
  unfold gap at *; split_ifs at * <;> omega

/-- The bytes stored from `a` forward to `b`. -/
def slice (r : Ring) (a b : Nat) : AString :=
  (List.range (r.gap a b)).map (fun i => r.buffer (r.wrap (a + i)))

/-- Bytes read since the last commit. -/
def read (r : Ring) : AString := r.slice r.dataStart r.readPos

/-- Bytes still to be read. -/
def unread (r : Ring) : AString := r.slice r.readPos r.writePos

/-- Every position lies in the memory, and the read position between start and end of data. -/
structure Valid (r : Ring) : Prop where
  dataStart_lt : r.dataStart < r.bufferSize
  writePos_lt : r.writePos < r.bufferSize
  readPos_lt : r.readPos < r.bufferSize
  ordered : r.gap r.dataStart r.readPos ≤ r.gap r.dataStart r.writePos

@[simp] theorem slice_length (r : Ring) (a b : Nat) : (r.slice a b).length = r.gap a b := by
  simp [slice]

theorem slice_getElem (r : Ring) (a b i : Nat) (hi : i < (r.slice a b).length) :
    (r.slice a b)[i] = r.buffer (r.wrap (a + i)) := by
  simp [slice]

theorem slice_self (r : Ring) (a : Nat) : r.slice a a = [] := by simp [slice, gap]

theorem slice_congr {r s : Ring} {a b : Nat} (hs : s.bufferSize = r.bufferSize)
    (hb : ∀ i, i < r.gap a b → s.buffer (r.wrap (a + i)) = r.buffer (r.wrap (a + i))) :
    s.slice a b = r.slice a b := by
  have hg : s.gap a b = r.gap a b := by simp [gap, hs]
  apply List.ext_getElem (by simp [hg])
  intro i hi _
  have hw : s.wrap (a + i) = r.wrap (a + i) := by simp [wrap, hs]
  rw [slice_getElem, slice_getElem, hw]
  exact hb i (by simpa [hg] using hi)

/-- Adjacent slices join, so long as they do not go round more than once. -/
theorem slice_append {r : Ring} {a b c : Nat} (ha : a < r.bufferSize) (hb : b < r.bufferSize)
    (hc : c < r.bufferSize) (h : r.gap a b ≤ r.gap a c) :
    r.slice a b ++ r.slice b c = r.slice a c := by
  have hsum := gap_add ha hb hc h
  have hlt := gap_lt ha hc
  apply List.ext_getElem (by simp [hsum])
  intro i hi hj
  rw [List.getElem_append]
  split
  next hlow => rw [slice_getElem, slice_getElem]
  next hhigh =>
    simp only [slice_length] at hhigh hj
    have heq : r.wrap (b + (i - r.gap a b)) = r.wrap (a + i) := by
      rw [wrap_from ha hb (by omega), show r.gap a b + (i - r.gap a b) = i by omega]
    simp only [slice_getElem, slice_length, heq]

theorem Valid.sum {r : Ring} (h : r.Valid) :
    r.read.length + r.unread.length = r.gap r.dataStart r.writePos := by
  simp only [read, unread, slice_length]
  exact gap_add h.dataStart_lt h.readPos_lt h.writePos_lt h.ordered

theorem Valid.fits {r : Ring} (h : r.Valid) :
    r.read.length + r.unread.length < r.bufferSize := by
  rw [h.sum]
  exact gap_lt h.dataStart_lt h.writePos_lt

theorem getReadableSpace_eq (r : Ring) : r.getReadableSpace = r.unread.length := by
  simp only [Ring.getReadableSpace, unread, slice_length, gap]

theorem Valid.getFreeSpace {r : Ring} (h : r.Valid) :
    r.getFreeSpace = r.bufferSize - 1 - (r.read.length + r.unread.length) := by
  have hd := h.dataStart_lt
  have hw := h.writePos_lt
  rw [h.sum]
  simp only [Ring.getFreeSpace, gap]
  split_ifs <;> omega

theorem Valid.getUsedSpace {r : Ring} (h : r.Valid) :
    r.getUsedSpace = r.read.length + r.unread.length := by
  have hf := h.fits
  rw [Ring.getUsedSpace, h.getFreeSpace]
  omega

theorem new_valid (fresh : Nat → UInt8) (size : Nat) : (new fresh size).Valid :=
  ⟨Nat.succ_pos _, Nat.succ_pos _, Nat.succ_pos _, Nat.le_refl _⟩

theorem new_contents (fresh : Nat → UInt8) (size : Nat) :
    (new fresh size).read = [] ∧ (new fresh size).unread = [] :=
  ⟨slice_self _ _, slice_self _ _⟩

theorem clearAll_valid {r : Ring} (h : r.Valid) : r.clearAll.Valid := by
  have hd : 0 < r.bufferSize := Nat.lt_of_le_of_lt (Nat.zero_le _) h.dataStart_lt
  exact ⟨hd, hd, hd, Nat.le_refl _⟩

theorem clearAll_contents (r : Ring) : r.clearAll.read = [] ∧ r.clearAll.unread = [] :=
  ⟨slice_self _ _, slice_self _ _⟩

theorem commitRead_valid {r : Ring} (h : r.Valid) : r.commitRead.Valid := by
  refine ⟨h.readPos_lt, h.writePos_lt, h.readPos_lt, ?_⟩
  simp [commitRead, gap]

theorem commitRead_contents (r : Ring) :
    r.commitRead.read = [] ∧ r.commitRead.unread = r.unread :=
  ⟨slice_self _ _, rfl⟩

theorem resetRead_valid {r : Ring} (h : r.Valid) : r.resetRead.Valid := by
  refine ⟨h.dataStart_lt, h.writePos_lt, h.dataStart_lt, ?_⟩
  simp [resetRead, gap]

theorem resetRead_contents {r : Ring} (h : r.Valid) :
    r.resetRead.read = [] ∧ r.resetRead.unread = r.read ++ r.unread := by
  refine ⟨slice_self _ _, ?_⟩
  exact (slice_append h.dataStart_lt h.readPos_lt h.writePos_lt h.ordered).symm

end Ring

end P2PChat

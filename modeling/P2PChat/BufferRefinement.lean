import P2PChat.ByteBuffer

namespace P2PChat

namespace Ring

theorem write_bufferSize (bytes : AString) (r : Ring) :
    (r.write bytes).2.bufferSize = r.bufferSize := by
  unfold write; split_ifs <;> simp

theorem get_bufferSize (count : Nat) (r : Ring) : (r.get count).2.bufferSize = r.bufferSize := by
  simp only [get]
  split <;> rfl

theorem readBuf_bufferSize (count : Nat) (r : Ring) :
    (r.readBuf count).2.bufferSize = r.bufferSize := by
  unfold readBuf
  split_ifs
  · rfl
  · exact get_bufferSize count r

theorem canReadBytes_iff (count : Nat) (r : Ring) :
    r.canReadBytes count = true ↔ count ≤ r.unread.length := by
  simp only [canReadBytes, getReadableSpace_eq, decide_eq_true_eq]

theorem canWriteBytes_iff {count : Nat} {r : Ring} (h : r.Valid) :
    r.canWriteBytes count = true ↔ count ≤ r.bufferSize - 1 - (r.read.length + r.unread.length) := by
  simp only [canWriteBytes, h.getFreeSpace, decide_eq_true_eq]

end Ring

namespace ByteBuffer

theorem contents_readable (b : ByteBuffer) (count : Nat) :
    b.1.canReadBytes count = true ↔ count ≤ b.contents.unread.length :=
  Ring.canReadBytes_iff count b.1

theorem contents_writable (b : ByteBuffer) (count : Nat) :
    b.1.canWriteBytes count = true ↔ count ≤ b.contents.free :=
  Ring.canWriteBytes_iff b.2

variable [Platform]

theorem write_contents (bytes : AString) (b : ByteBuffer) :
    ByteQueue.write bytes b.contents =
      ((ByteQueue.write bytes b).1, (ByteQueue.write bytes b).2.contents) := by
  have hfree := b.2.getFreeSpace
  have hfits := b.contents.fits
  change Fifo.append bytes b.contents =
    ((b.1.write bytes).1, contents ⟨(b.1.write bytes).2, Ring.write_valid b.2⟩)
  by_cases hroom : b.1.getFreeSpace < bytes.length
  · have hw : b.1.write bytes = (false, b.1) := if_pos hroom
    have hno : ¬b.contents.read.length + b.contents.unread.length + bytes.length ≤
        b.contents.capacity := by
      simp only [contents] at hfits ⊢; omega
    simp only [hw, Fifo.append, dif_neg hno]
    rfl
  · have hw : b.1.write bytes = (true, b.1.put bytes) := if_neg hroom
    have hyes : b.contents.read.length + b.contents.unread.length + bytes.length ≤
        b.contents.capacity := by
      simp only [contents] at hfits ⊢; omega
    obtain ⟨hread, hunread⟩ := @Ring.put_contents bytes _ b.2 (by omega)
    simp only [hw, Fifo.append, dif_pos hyes, Prod.mk.injEq, true_and]
    apply Fifo.ext
    · simp [contents]
    · exact hread.symm
    · exact hunread.symm

theorem readBuf_contents (count : Nat) (b : ByteBuffer) :
    ByteQueue.readBuf count b.contents =
      ((ByteQueue.readBuf count b).1, (ByteQueue.readBuf count b).2.contents) := by
  have hread := b.contents_readable count
  change Fifo.take count b.contents =
    ((b.1.readBuf count).1, contents ⟨(b.1.readBuf count).2, Ring.readBuf_valid b.2⟩)
  by_cases hc : count ≤ b.contents.unread.length
  · have hr : b.1.readBuf count = (some (b.1.get count).1, (b.1.get count).2) := by
      simp only [Ring.readBuf, hread.mpr hc, Bool.not_true, Bool.false_eq_true, if_false]
    obtain ⟨_, h1, h2⟩ := Ring.get_advance b.2 hc
    simp only [hr, Fifo.take, if_pos hc, Prod.mk.injEq]
    refine ⟨?_, ?_⟩
    · exact congrArg some (Ring.get_fst b.2 hc).symm
    · apply Fifo.ext
      · simp [contents, Fifo.advance, Ring.get_bufferSize]
      · exact h1.symm
      · exact h2.symm
  · have hr : b.1.readBuf count = (none, b.1) := by
      have hno : b.1.canReadBytes count = false := Bool.eq_false_iff.mpr (mt hread.mp hc)
      simp only [Ring.readBuf, hno, Bool.not_false, if_true]
    simp only [hr, Fifo.take, if_neg hc]
    rfl

theorem readBuf_some {count : Nat} {b : ByteBuffer} (hc : count ≤ b.contents.unread.length) :
    ∃ b' : ByteBuffer, b.1.readBuf count = (some (b.contents.unread.take count), b'.1) ∧
      b'.contents = b.contents.advance count := by
  have h : (some (b.contents.unread.take count), b.contents.advance count) =
      ((ByteQueue.readBuf count b).1, (ByteQueue.readBuf count b).2.contents) := by
    rw [← readBuf_contents]
    exact (if_pos hc).symm
  obtain ⟨hbytes, hrest⟩ := Prod.mk.inj h
  exact ⟨(ByteQueue.readBuf count b).2, Prod.ext hbytes.symm rfl, hrest.symm⟩

theorem write_true {bytes : AString} {b : ByteBuffer} (hroom : bytes.length ≤ b.contents.free) :
    ∃ b' : ByteBuffer, b.1.write bytes = (true, b'.1) ∧
      b'.contents = (b.contents.append bytes).2 := by
  have h : b.contents.append bytes = _ := write_contents bytes b
  have hok : (b.contents.append bytes).1 = true := Fifo.append_fst.trans (decide_eq_true hroom)
  refine ⟨(ByteQueue.write bytes b).2, Prod.ext ?_ rfl, ?_⟩
  · rw [h] at hok
    exact hok
  · rw [h]

/-- The loop moves all it was asked to, when both sides have room for it. -/
theorem transfer_true {fuel count : Nat} {dst b : ByteBuffer} (hf : count ≤ fuel)
    (hd : count ≤ dst.contents.free) (hb : count ≤ b.contents.unread.length) :
    ∃ dst' b' : ByteBuffer, Ring.transfer fuel count dst.1 b.1 = (true, dst'.1, b'.1) ∧
      dst'.contents = (dst.contents.append (b.contents.unread.take count)).2 ∧
      b'.contents = b.contents.advance count := by
  induction fuel generalizing count dst b with
  | zero =>
    have hzero : count = 0 := by omega
    subst hzero
    exact ⟨dst, b, rfl, by simp [Fifo.append, dst.contents.fits], by simp [Fifo.advance]⟩
  | succ fuel ih =>
    by_cases hzero : count = 0
    · subst hzero
      exact ⟨dst, b, rfl, by simp [Fifo.append, dst.contents.fits], by simp [Fifo.advance]⟩
    · obtain ⟨num, hnum⟩ : ∃ num, num = if 1024 < count then 1024 else count := ⟨_, rfl⟩
      have hle : num ≤ count ∧ 0 < num := by rw [hnum]; split <;> omega
      obtain ⟨b1, hread, hb1⟩ := @readBuf_some _ num b (by omega)
      have hlen : (b.contents.unread.take num).length = num := by
        rw [List.length_take]; omega
      obtain ⟨d1, hwrite, hd1⟩ := @write_true _ (b.contents.unread.take num) dst (by omega)
      obtain ⟨hcap, hrd, hun⟩ := Fifo.append_snd (q := dst.contents)
        (show (b.contents.unread.take num).length ≤ dst.contents.free by omega)
      have hfree : count - num ≤ d1.contents.free := by
        unfold Fifo.free at hd ⊢
        rw [hd1, hcap, hrd, hun, List.length_append]
        omega
      have hleft : count - num ≤ b1.contents.unread.length := by
        rw [hb1]
        simp only [Fifo.advance, List.length_drop]
        omega
      obtain ⟨d2, b2, htrans, hd2, hb2⟩ := ih (by omega) hfree hleft
      refine ⟨d2, b2, ?_, ?_, ?_⟩
      · simp only [Ring.transfer, if_neg hzero, ← hnum, hread, hwrite, htrans]
      · have hsplit : b.contents.unread.take count =
            b.contents.unread.take num ++ (b.contents.unread.drop num).take (count - num) := by
          rw [← List.take_add, show num + (count - num) = count by omega]
        rw [hd2, hd1, hb1, hsplit]
        apply Fifo.append_append
        change (b.contents.unread.take num ++ (b.contents.unread.drop num).take (count - num)).length ≤ _
        rw [← hsplit, List.length_take]
        omega
      · rw [hb2, hb1, Fifo.advance_advance, show num + (count - num) = count by omega]

theorem readToByteBuffer_contents (count : Nat) (dst b : ByteBuffer) :
    ByteQueue.readToByteBuffer count dst.contents b.contents =
      ((ByteQueue.readToByteBuffer count dst b).1, (ByteQueue.readToByteBuffer count dst b).2.1.contents,
        (ByteQueue.readToByteBuffer count dst b).2.2.contents) := by
  have hw := dst.contents_writable count
  have hr := b.contents_readable count
  have hsplit : ∀ dst' b' : ByteBuffer, ∀ ok,
      Ring.readToByteBuffer count dst.1 b.1 = (ok, dst'.1, b'.1) →
      ByteQueue.readToByteBuffer count dst b = (ok, dst', b') := by
    intro dst' b' ok h
    obtain ⟨h1, h2⟩ := Prod.mk.inj h
    obtain ⟨h2, h3⟩ := Prod.mk.inj h2
    exact Prod.ext h1 (Prod.ext (Subtype.ext h2) (Subtype.ext h3))
  change Fifo.transfer count dst.contents b.contents = _
  by_cases hok : count ≤ dst.contents.free ∧ count ≤ b.contents.unread.length
  · obtain ⟨dst', b', htrans, hd', hb'⟩ := transfer_true (Nat.le_refl count) hok.1 hok.2
    have hcall : Ring.readToByteBuffer count dst.1 b.1 = (true, dst'.1, b'.1) := by
      simp [Ring.readToByteBuffer, hw.mpr hok.1, hr.mpr hok.2, htrans]
    rw [hsplit dst' b' true hcall, Fifo.transfer, if_pos hok, hd', hb']
  · have hcall : Ring.readToByteBuffer count dst.1 b.1 = (false, dst.1, b.1) := by
      have hno : (!dst.1.canWriteBytes count || !b.1.canReadBytes count) = true := by
        rw [not_and_or] at hok
        rcases hok with hok | hok
        · simp [Bool.eq_false_iff.mpr (mt hw.mp hok)]
        · simp [Bool.eq_false_iff.mpr (mt hr.mp hok)]
      simp only [Ring.readToByteBuffer, hno, if_true]
    rw [hsplit dst b false hcall, Fifo.transfer, if_neg hok]

/-- Every operation of the ring buffer is, on the stored bytes, that of the bounded queue. -/
theorem contents_hom : ByteQueue.Hom contents where
  new n := by
    obtain ⟨hread, hunread⟩ := Ring.new_contents Platform.uninitialised n
    exact Fifo.ext rfl hread hunread
  clearAll b := by
    obtain ⟨hread, hunread⟩ := Ring.clearAll_contents b.1
    exact Fifo.ext rfl hread hunread
  getFreeSpace b := b.2.getFreeSpace.symm
  getUsedSpace b := b.2.getUsedSpace.symm
  getReadableSpace b := (Ring.getReadableSpace_eq b.1).symm
  write := write_contents
  writeBuf bytes b := by
    have hsame := Ring.writeBuf_eq bytes b.1
    have heq : ByteQueue.writeBuf bytes b = ByteQueue.write bytes b :=
      Prod.ext (show (b.1.writeBuf bytes).1 = (b.1.write bytes).1 by rw [hsame])
        (Subtype.ext (show (b.1.writeBuf bytes).2 = (b.1.write bytes).2 by rw [hsame]))
    rw [heq]
    exact write_contents bytes b
  readBuf := readBuf_contents
  readString := readBuf_contents
  readAll b := by
    obtain ⟨b', hread, hb'⟩ := @readBuf_some _ b.contents.unread.length b (Nat.le_refl _)
    have hall : b.1.readAll = (b.contents.unread, b'.1) := by
      have hcount : b.1.getReadableSpace = b.contents.unread.length := Ring.getReadableSpace_eq b.1
      simp only [Ring.readAll, Ring.readString_eq, hcount, hread, List.take_length, Option.getD_some]
    have heq : ByteQueue.readAll b = (b.contents.unread, b') :=
      Prod.ext (show b.1.readAll.1 = b.contents.unread by rw [hall])
        (Subtype.ext (show b.1.readAll.2 = b'.1 by rw [hall]))
    rw [heq, hb']
    rfl
  readToByteBuffer := readToByteBuffer_contents
  commitRead b := by
    obtain ⟨hread, hunread⟩ := Ring.commitRead_contents b.1
    exact Fifo.ext rfl hread hunread
  resetRead b := by
    obtain ⟨hread, hunread⟩ := Ring.resetRead_contents b.2
    exact Fifo.ext rfl hread hunread

end ByteBuffer

end P2PChat

import P2PChat.BufferRefinement
import Mathlib.Logic.Function.Basic

namespace P2PChat

/-- A call on one of several byte buffers, each with its own index. -/
inductive QueueCall (ι : Type)
  | write (i : ι) (bytes : AString)
  | writeBuf (i : ι) (bytes : AString)
  | readBuf (i : ι) (count : Nat)
  | readString (i : ι) (count : Nat)
  | readAll (i : ι)
  | skipRead (i : ι) (count : Nat)
  | readToByteBuffer (i dst : ι) (other : dst ≠ i) (numBytes : Nat)
  | commitRead (i : ι)
  | resetRead (i : ι)
  | readAgain (i : ι) (out : AString)
  | clearAll (i : ι)

/-- What a call gives back: its answer, the bytes it read if it did, or a string that it extended. -/
inductive QueueAnswer
  | done (ok : Bool)
  | got (bytes : Option AString)
  | all (bytes : AString)
  | nothing

namespace Ring

variable {ι : Type} [DecidableEq ι]

def perform (rings : ι → Ring) : QueueCall ι → QueueAnswer × (ι → Ring)
  | .write i bytes =>
    (.done ((rings i).write bytes).1, Function.update rings i ((rings i).write bytes).2)
  | .writeBuf i bytes =>
    (.done ((rings i).writeBuf bytes).1, Function.update rings i ((rings i).writeBuf bytes).2)
  | .readBuf i count =>
    (.got ((rings i).readBuf count).1, Function.update rings i ((rings i).readBuf count).2)
  | .readString i count =>
    (.got ((rings i).readString count).1, Function.update rings i ((rings i).readString count).2)
  | .readAll i => (.all (rings i).readAll.1, Function.update rings i (rings i).readAll.2)
  | .skipRead i count =>
    (.done ((rings i).skipRead count).1, Function.update rings i ((rings i).skipRead count).2)
  | .readToByteBuffer i dst _ numBytes =>
    let moved := Ring.readToByteBuffer numBytes (rings dst) (rings i)
    (.done moved.1, Function.update (Function.update rings dst moved.2.1) i moved.2.2)
  | .commitRead i => (.nothing, Function.update rings i (rings i).commitRead)
  | .resetRead i => (.nothing, Function.update rings i (rings i).resetRead)
  | .readAgain i out => (.all ((rings i).readAgain out), rings)
  | .clearAll i => (.nothing, Function.update rings i (rings i).clearAll)

/-- The answers of a list of calls, and the buffers after it. -/
def performAll (rings : ι → Ring) : List (QueueCall ι) → List QueueAnswer × (ι → Ring)
  | [] => ([], rings)
  | call :: calls =>
    let next := perform rings call
    (next.1 :: (performAll next.2 calls).1, (performAll next.2 calls).2)

end Ring

namespace Fifo

variable {ι : Type} [DecidableEq ι]

def skip (count : Nat) (q : Fifo) : Bool × Fifo := ((q.take count).1.isSome, (q.take count).2)

/-- The same calls on queues. -/
def perform (queues : ι → Fifo) : QueueCall ι → QueueAnswer × (ι → Fifo)
  | .write i bytes | .writeBuf i bytes =>
    (.done ((queues i).append bytes).1, Function.update queues i ((queues i).append bytes).2)
  | .readBuf i count | .readString i count =>
    (.got ((queues i).take count).1, Function.update queues i ((queues i).take count).2)
  | .readAll i =>
    (.all (queues i).unread, Function.update queues i ((queues i).advance (queues i).unread.length))
  | .skipRead i count =>
    (.done ((queues i).skip count).1, Function.update queues i ((queues i).skip count).2)
  | .readToByteBuffer i dst _ numBytes =>
    let moved := Fifo.transfer numBytes (queues dst) (queues i)
    (.done moved.1, Function.update (Function.update queues dst moved.2.1) i moved.2.2)
  | .commitRead i => (.nothing, Function.update queues i (queues i).commit)
  | .resetRead i => (.nothing, Function.update queues i (queues i).reset)
  | .readAgain i out => (.all (out ++ (queues i).read), queues)
  | .clearAll i => (.nothing, Function.update queues i (empty (queues i).capacity))

def performAll (queues : ι → Fifo) : List (QueueCall ι) → List QueueAnswer × (ι → Fifo)
  | [] => ([], queues)
  | call :: calls =>
    let next := perform queues call
    (next.1 :: (performAll next.2 calls).1, (performAll next.2 calls).2)

end Fifo

namespace Ring

theorem advanceReadPos_eq (count : Nat) (r : Ring) :
    r.advanceReadPos count = { r with readPos := r.wrap (r.readPos + count) } := by
  unfold advanceReadPos wrap
  by_cases hend : r.bufferSize ≤ r.readPos + count
  · simp [hend, Nat.not_lt.mpr hend]
  · simp [hend, Nat.not_le.mp hend]

/-- What was read lies in one piece, or up to the end of the memory and on from its start. -/
theorem readAgain_eq {r : Ring} (h : r.Valid) (out : AString) : r.readAgain out = out ++ r.read := by
  have hd := h.dataStart_lt
  have hr := h.readPos_lt
  unfold readAgain
  by_cases hwrap : r.readPos < r.dataStart
  · rw [if_pos hwrap, List.append_assoc]
    congr 1
    apply List.ext_getElem
    · simp only [List.length_append, peek_length, read, slice_length, gap, if_pos hwrap]
    · intro i hi hj
      simp only [List.length_append, peek_length] at hi
      simp only [read]
      rw [slice_getElem, List.getElem_append, wrap]
      split
      next hlow =>
        rw [peek_length] at hlow
        rw [peek_getElem, if_pos (by omega)]
      next hhigh =>
        rw [peek_length] at hhigh
        rw [peek_getElem, if_neg (by omega)]
        congr 1
        simp only [peek_length]
        omega
  · rw [if_neg hwrap]
    congr 1
    apply List.ext_getElem
    · simp only [peek_length, read, slice_length, gap, if_neg hwrap]
    · intro i hi hj
      simp only [peek_length] at hi
      simp only [read]
      rw [slice_getElem, peek_getElem, wrap, if_pos (by omega)]

/-- The ring buffer stores what the queue holds. -/
structure Stores (r : Ring) (q : Fifo) : Prop where
  valid : r.Valid
  contents : ByteBuffer.contents ⟨r, valid⟩ = q

theorem Stores.read {r : Ring} {q : Fifo} (h : r.Stores q) : r.read = q.read := by
  rw [← h.contents]
  rfl

theorem Stores.unread {r : Ring} {q : Fifo} (h : r.Stores q) : r.unread = q.unread := by
  rw [← h.contents]
  rfl

theorem Stores.bufferSize {r : Ring} {q : Fifo} (h : r.Stores q) : r.bufferSize - 1 = q.capacity := by
  rw [← h.contents]
  rfl

theorem Stores.intro {r : Ring} {q : Fifo} (hv : r.Valid) (hc : r.bufferSize - 1 = q.capacity)
    (hr : r.read = q.read) (hu : r.unread = q.unread) : r.Stores q :=
  ⟨hv, Fifo.ext hc hr hu⟩

theorem Stores.of_eq {α : Type} {r : Ring} {q : Fifo} {a b : α} (hv : r.Valid)
    (h : (b, q) = (a, ByteBuffer.contents ⟨r, hv⟩)) : a = b ∧ r.Stores q := by
  obtain ⟨hb, hq⟩ := Prod.mk.inj h
  exact ⟨hb.symm, hv, hq.symm⟩

theorem Stores.write {r : Ring} {q : Fifo} (h : r.Stores q) (bytes : AString) :
    (r.write bytes).1 = (q.append bytes).1 ∧ (r.write bytes).2.Stores (q.append bytes).2 := by
  let : Platform := zeroPlatform
  have hw := ByteBuffer.write_contents bytes ⟨r, h.valid⟩
  rw [h.contents] at hw
  exact Stores.of_eq (write_valid h.valid) hw

theorem Stores.readBuf {r : Ring} {q : Fifo} (h : r.Stores q) (count : Nat) :
    (r.readBuf count).1 = (q.take count).1 ∧ (r.readBuf count).2.Stores (q.take count).2 := by
  let : Platform := zeroPlatform
  have hr := ByteBuffer.readBuf_contents count ⟨r, h.valid⟩
  rw [h.contents] at hr
  exact Stores.of_eq (readBuf_valid h.valid) hr

theorem Stores.readAll {r : Ring} {q : Fifo} (h : r.Stores q) :
    r.readAll.1 = q.unread ∧ r.readAll.2.Stores (q.advance q.unread.length) := by
  let : Platform := zeroPlatform
  have hr := ByteBuffer.contents_hom.readAll ⟨r, h.valid⟩
  rw [h.contents] at hr
  exact Stores.of_eq (readBuf_valid h.valid) hr

theorem Stores.readToByteBuffer {r dst : Ring} {q dq : Fifo} (h : r.Stores q) (hd : dst.Stores dq)
    (numBytes : Nat) :
    (Ring.readToByteBuffer numBytes dst r).1 = (Fifo.transfer numBytes dq q).1 ∧
      (Ring.readToByteBuffer numBytes dst r).2.1.Stores (Fifo.transfer numBytes dq q).2.1 ∧
      (Ring.readToByteBuffer numBytes dst r).2.2.Stores (Fifo.transfer numBytes dq q).2.2 := by
  let : Platform := zeroPlatform
  have hr := ByteBuffer.readToByteBuffer_contents numBytes ⟨dst, hd.valid⟩ ⟨r, h.valid⟩
  rw [h.contents, hd.contents] at hr
  obtain ⟨hok, hrest⟩ := Prod.mk.inj hr
  obtain ⟨hdst, hsrc⟩ := Prod.mk.inj hrest
  obtain ⟨hvd, hv⟩ := @readToByteBuffer_valid numBytes _ _ hd.valid h.valid
  exact ⟨hok.symm, ⟨hvd, hdst.symm⟩, hv, hsrc.symm⟩

theorem Stores.clearAll {r : Ring} {q : Fifo} (h : r.Stores q) :
    r.clearAll.Stores (Fifo.empty q.capacity) := by
  obtain ⟨hread, hunread⟩ := clearAll_contents r
  exact Stores.intro (clearAll_valid h.valid) h.bufferSize hread hunread

theorem Stores.commitRead {r : Ring} {q : Fifo} (h : r.Stores q) : r.commitRead.Stores q.commit := by
  obtain ⟨hread, hunread⟩ := commitRead_contents r
  exact Stores.intro (commitRead_valid h.valid) h.bufferSize hread (hunread.trans h.unread)

theorem Stores.resetRead {r : Ring} {q : Fifo} (h : r.Stores q) : r.resetRead.Stores q.reset := by
  obtain ⟨hread, hunread⟩ := resetRead_contents h.valid
  apply Stores.intro (q := q.reset) (resetRead_valid h.valid) h.bufferSize hread
  rw [hunread, h.read, h.unread]
  rfl

theorem Stores.skipRead {r : Ring} {q : Fifo} (h : r.Stores q) (count : Nat) :
    (r.skipRead count).1 = (q.skip count).1 ∧ (r.skipRead count).2.Stores (q.skip count).2 := by
  have hread := canReadBytes_iff count r
  rw [h.unread] at hread
  unfold Ring.skipRead Fifo.skip Fifo.take
  by_cases hc : count ≤ q.unread.length
  · obtain ⟨hv, h1, h2⟩ := advance_contents h.valid (by rw [h.unread]; exact hc) (advanceReadPos_eq count r)
    have hsize : (r.advanceReadPos count).bufferSize = r.bufferSize := by rw [advanceReadPos_eq]
    simp only [hread.mpr hc, Bool.not_true, Bool.false_eq_true, if_false, if_pos hc, Option.isSome_some, true_and]
    apply Stores.intro hv
    · rw [hsize]
      exact h.bufferSize
    · rw [h1, h.read, h.unread]
      rfl
    · rw [h2, h.unread]
      rfl
  · have hno : r.canReadBytes count = false := Bool.eq_false_iff.mpr (mt hread.mp hc)
    simp only [hno, Bool.not_false, if_true, if_neg hc, Option.isSome_none, true_and]
    exact h

section Calls

variable {ι : Type} [DecidableEq ι] {rings : ι → Ring} {queues : ι → Fifo}

theorem stores_update (h : ∀ i, (rings i).Stores (queues i)) (i : ι) {r : Ring} {q : Fifo}
    (hi : r.Stores q) (j : ι) :
    (Function.update rings i r j).Stores (Function.update queues i q j) := by
  by_cases hj : j = i
  · subst hj
    simpa using hi
  · simpa [hj] using h j

theorem perform_stores (h : ∀ i, (rings i).Stores (queues i)) (call : QueueCall ι) :
    (perform rings call).1 = (Fifo.perform queues call).1 ∧
      ∀ i, ((perform rings call).2 i).Stores ((Fifo.perform queues call).2 i) := by
  cases call with
  | write i bytes =>
    obtain ⟨hok, hs⟩ := (h i).write bytes
    exact ⟨congrArg _ hok, stores_update h i hs⟩
  | writeBuf i bytes =>
    obtain ⟨hok, hs⟩ := (h i).write bytes
    simp only [perform, Fifo.perform, writeBuf_eq]
    exact ⟨congrArg _ hok, stores_update h i hs⟩
  | readBuf i count | readString i count =>
    obtain ⟨hok, hs⟩ := (h i).readBuf count
    exact ⟨congrArg _ hok, stores_update h i hs⟩
  | readAll i =>
    obtain ⟨hok, hs⟩ := (h i).readAll
    exact ⟨congrArg _ hok, stores_update h i hs⟩
  | skipRead i count =>
    obtain ⟨hok, hs⟩ := (h i).skipRead count
    exact ⟨congrArg _ hok, stores_update h i hs⟩
  | readToByteBuffer i dst other numBytes =>
    obtain ⟨hok, hd, hs⟩ := (h i).readToByteBuffer (h dst) numBytes
    exact ⟨congrArg _ hok, stores_update (stores_update h dst hd) i hs⟩
  | commitRead i => exact ⟨rfl, stores_update h i (h i).commitRead⟩
  | resetRead i => exact ⟨rfl, stores_update h i (h i).resetRead⟩
  | readAgain i out =>
    refine ⟨?_, h⟩
    simp only [perform, Fifo.perform, readAgain_eq (h i).valid, (h i).read]
  | clearAll i => exact ⟨rfl, stores_update h i (h i).clearAll⟩

theorem performAll_stores (h : ∀ i, (rings i).Stores (queues i)) (calls : List (QueueCall ι)) :
    (performAll rings calls).1 = (Fifo.performAll queues calls).1 ∧
      ∀ i, ((performAll rings calls).2 i).Stores ((Fifo.performAll queues calls).2 i) := by
  induction calls generalizing rings queues with
  | nil => exact ⟨rfl, h⟩
  | cons call calls ih =>
    obtain ⟨hanswer, hs⟩ := perform_stores h call
    obtain ⟨hanswers, hrest⟩ := ih hs
    simp only [performAll, Fifo.performAll]
    exact ⟨by rw [hanswer, hanswers], hrest⟩

end Calls

theorem new_stores (fresh : Nat → UInt8) (capacity : Nat) :
    (new fresh capacity).Stores (Fifo.empty capacity) := by
  obtain ⟨hread, hunread⟩ := new_contents fresh capacity
  exact Stores.intro (new_valid fresh capacity) rfl hread hunread

theorem Stores.spaces {r : Ring} {q : Fifo} (h : r.Stores q) :
    r.getFreeSpace = q.capacity - (q.read.length + q.unread.length) ∧
      r.getUsedSpace = q.read.length + q.unread.length ∧ r.getReadableSpace = q.unread.length := by
  refine ⟨?_, ?_, ?_⟩
  · rw [h.valid.getFreeSpace, h.bufferSize, h.read, h.unread]
  · rw [h.valid.getUsedSpace, h.read, h.unread]
  · rw [getReadableSpace_eq, h.unread]

end Ring

namespace Fifo

variable {ι : Type} [DecidableEq ι]

theorem capacity_update {queues : ι → Fifo} {j : ι} {q : Fifo} (hq : q.capacity = (queues j).capacity)
    (i : ι) : (Function.update queues j q i).capacity = (queues i).capacity := by
  by_cases hi : i = j
  · subst hi
    simpa using hq
  · simp [hi]

theorem append_capacity (bytes : AString) (q : Fifo) : (q.append bytes).2.capacity = q.capacity := by
  unfold append
  split <;> rfl

theorem take_capacity (count : Nat) (q : Fifo) : (q.take count).2.capacity = q.capacity := by
  unfold take
  split <;> rfl

theorem transfer_capacity (count : Nat) (dst q : Fifo) :
    (transfer count dst q).2.1.capacity = dst.capacity ∧ (transfer count dst q).2.2.capacity = q.capacity := by
  unfold transfer
  split
  next => exact ⟨append_capacity _ dst, rfl⟩
  next => exact ⟨rfl, rfl⟩

theorem perform_capacity (queues : ι → Fifo) (call : QueueCall ι) (i : ι) :
    ((perform queues call).2 i).capacity = (queues i).capacity := by
  cases call with
  | write j bytes | writeBuf j bytes => exact capacity_update (append_capacity bytes _) i
  | readBuf j count | readString j count | skipRead j count =>
    exact capacity_update (take_capacity count _) i
  | readToByteBuffer j dst other numBytes =>
    obtain ⟨hd, hq⟩ := transfer_capacity numBytes (queues dst) (queues j)
    apply (capacity_update _ i).trans (capacity_update hd i)
    rw [Function.update_of_ne other.symm]
    exact hq
  | readAll j | commitRead j | resetRead j | clearAll j =>
    apply capacity_update
    rfl
  | readAgain j out => rfl

theorem performAll_capacity (calls : List (QueueCall ι)) (queues : ι → Fifo) (i : ι) :
    ((performAll queues calls).2 i).capacity = (queues i).capacity := by
  induction calls generalizing queues with
  | nil => rfl
  | cons call calls ih => exact (ih _).trans (perform_capacity queues call i)

end Fifo

/-- Whatever is called on however many buffers, they answer as bounded queues do, hold the same
bytes, and tell their sizes as these have them. -/
theorem Ring.simulates_fifo {ι : Type} [DecidableEq ι] (capacity : ι → Nat) (fresh : ι → Nat → UInt8)
    (calls : List (QueueCall ι)) :
    let rings := performAll (fun i => new (fresh i) (capacity i)) calls
    let queues := Fifo.performAll (fun i => Fifo.empty (capacity i)) calls
    rings.1 = queues.1 ∧ ∀ i,
      (queues.2 i).read.length + (queues.2 i).unread.length ≤ capacity i ∧
      (rings.2 i).read = (queues.2 i).read ∧ (rings.2 i).unread = (queues.2 i).unread ∧
      (rings.2 i).getFreeSpace =
        capacity i - ((queues.2 i).read.length + (queues.2 i).unread.length) ∧
      (rings.2 i).getUsedSpace = (queues.2 i).read.length + (queues.2 i).unread.length ∧
      (rings.2 i).getReadableSpace = (queues.2 i).unread.length := by
  obtain ⟨hanswers, hstores⟩ := performAll_stores (fun i => new_stores (fresh i) (capacity i)) calls
  refine ⟨hanswers, fun i => ?_⟩
  obtain ⟨hfree, hused, hreadable⟩ := (hstores i).spaces
  have hcap := Fifo.performAll_capacity calls (fun i => Fifo.empty (capacity i)) i
  have hfits := ((Fifo.performAll (fun i => Fifo.empty (capacity i)) calls).2 i).fits
  rw [hcap] at hfree hfits
  exact ⟨hfits, (hstores i).read, (hstores i).unread, hfree, hused, hreadable⟩

end P2PChat

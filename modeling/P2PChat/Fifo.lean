import P2PChat.Ring

namespace P2PChat

/-- What the protocol code asks of a `cByteBuffer`. -/
class ByteQueue (β : Type) where
  new : Nat → β
  clearAll : β → β
  getFreeSpace : β → Nat
  getUsedSpace : β → Nat
  getReadableSpace : β → Nat
  write : AString → β → Bool × β
  writeBuf : AString → β → Bool × β
  readBuf : Nat → β → Option AString × β
  readString : Nat → β → Option AString × β
  readAll : β → AString × β
  readToByteBuffer : Nat → β → β → Bool × β × β
  commitRead : β → β
  resetRead : β → β

namespace ByteQueue

variable {β γ : Type} [ByteQueue β] [ByteQueue γ]

def canReadBytes (count : Nat) (b : β) : Bool := count ≤ getReadableSpace b

def canWriteBytes (count : Nat) (b : β) : Bool := count ≤ getFreeSpace b

/-- A map under which every operation of one queue is the same operation of another. -/
structure Hom (f : β → γ) : Prop where
  new : ∀ n, f (new n) = new n
  clearAll : ∀ b, f (clearAll b) = clearAll (f b)
  getFreeSpace : ∀ b, getFreeSpace (f b) = getFreeSpace b
  getUsedSpace : ∀ b, getUsedSpace (f b) = getUsedSpace b
  getReadableSpace : ∀ b, getReadableSpace (f b) = getReadableSpace b
  write : ∀ bytes b, write bytes (f b) = ((write bytes b).1, f (write bytes b).2)
  writeBuf : ∀ bytes b, writeBuf bytes (f b) = ((writeBuf bytes b).1, f (writeBuf bytes b).2)
  readBuf : ∀ n b, readBuf n (f b) = ((readBuf n b).1, f (readBuf n b).2)
  readString : ∀ n b, readString n (f b) = ((readString n b).1, f (readString n b).2)
  readAll : ∀ b, readAll (f b) = ((readAll b).1, f (readAll b).2)
  readToByteBuffer : ∀ n d b, readToByteBuffer n (f d) (f b) =
    ((readToByteBuffer n d b).1, f (readToByteBuffer n d b).2.1, f (readToByteBuffer n d b).2.2)
  commitRead : ∀ b, f (commitRead b) = commitRead (f b)
  resetRead : ∀ b, f (resetRead b) = resetRead (f b)

theorem Hom.canReadBytes {f : β → γ} (h : Hom f) (count : Nat) (b : β) :
    canReadBytes count (f b) = canReadBytes count b := by
  simp only [ByteQueue.canReadBytes, h.getReadableSpace]

theorem Hom.canWriteBytes {f : β → γ} (h : Hom f) (count : Nat) (b : β) :
    canWriteBytes count (f b) = canWriteBytes count b := by
  simp only [ByteQueue.canWriteBytes, h.getFreeSpace]

end ByteQueue

/-- A bounded queue of bytes that remembers what was read since the last commit. -/
@[ext] structure Fifo where
  capacity : Nat
  read : AString
  unread : AString
  fits : read.length + unread.length ≤ capacity

namespace Fifo

def empty (capacity : Nat) : Fifo := ⟨capacity, [], [], Nat.zero_le _⟩

def free (q : Fifo) : Nat := q.capacity - (q.read.length + q.unread.length)

def append (bytes : AString) (q : Fifo) : Bool × Fifo :=
  if h : q.read.length + q.unread.length + bytes.length ≤ q.capacity then
    (true, { q with unread := q.unread ++ bytes, fits := by rw [List.length_append]; omega })
  else (false, q)

/-- The first `count` bytes pass from unread to read. -/
def advance (count : Nat) (q : Fifo) : Fifo :=
  { q with
    read := q.read ++ q.unread.take count
    unread := q.unread.drop count
    fits := by have := q.fits; simp only [List.length_append, List.length_take, List.length_drop]; omega }

def take (count : Nat) (q : Fifo) : Option AString × Fifo :=
  if count ≤ q.unread.length then (some (q.unread.take count), q.advance count) else (none, q)

def commit (q : Fifo) : Fifo :=
  { q with read := [], fits := by have := q.fits; simp only [List.length_nil]; omega }

def reset (q : Fifo) : Fifo :=
  { q with
    read := []
    unread := q.read ++ q.unread
    fits := by have := q.fits; simp only [List.length_append, List.length_nil]; omega }

def transfer (count : Nat) (dst q : Fifo) : Bool × Fifo × Fifo :=
  if count ≤ dst.free ∧ count ≤ q.unread.length then
    (true, (dst.append (q.unread.take count)).2, q.advance count)
  else (false, dst, q)

instance : ByteQueue Fifo where
  new := empty
  clearAll q := empty q.capacity
  getFreeSpace := free
  getUsedSpace q := q.read.length + q.unread.length
  getReadableSpace q := q.unread.length
  write := append
  writeBuf := append
  readBuf := take
  readString := take
  readAll q := (q.unread, q.advance q.unread.length)
  readToByteBuffer := transfer
  commitRead := commit
  resetRead := reset

theorem append_fst {bytes : AString} {q : Fifo} : (q.append bytes).1 = decide (bytes.length ≤ q.free) := by
  have hf := q.fits
  unfold append free
  split
  next h => simp only [Bool.true_eq, decide_eq_true_eq]; omega
  next h => simp only [Bool.false_eq, decide_eq_false_iff_not]; omega

theorem append_snd {bytes : AString} {q : Fifo} (h : bytes.length ≤ q.free) :
    (q.append bytes).2.capacity = q.capacity ∧ (q.append bytes).2.read = q.read ∧
      (q.append bytes).2.unread = q.unread ++ bytes := by
  have hf := q.fits
  unfold free at h
  rw [append, dif_pos (by omega)]
  exact ⟨rfl, rfl, rfl⟩

theorem append_append {u v : AString} {q : Fifo} (h : (u ++ v).length ≤ q.free) :
    ((q.append u).2.append v).2 = (q.append (u ++ v)).2 := by
  have hlen := @List.length_append _ u v
  have hf := q.fits
  unfold free at h
  obtain ⟨hc, hr, hu⟩ := @append_snd u q (by unfold free; omega)
  obtain ⟨hc', hr', hu'⟩ := @append_snd (u ++ v) q h
  have hroom : v.length ≤ (q.append u).2.free := by
    unfold free
    rw [hc, hr, hu, List.length_append]
    omega
  obtain ⟨hc2, hr2, hu2⟩ := append_snd hroom
  apply Fifo.ext
  · rw [hc2, hc, hc']
  · rw [hr2, hr, hr']
  · rw [hu2, hu, hu', List.append_assoc]

theorem advance_advance (m n : Nat) (q : Fifo) : (q.advance m).advance n = q.advance (m + n) := by
  apply Fifo.ext
  · rfl
  · simp [advance, List.take_add]
  · simp [advance]

end Fifo

end P2PChat

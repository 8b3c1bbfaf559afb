import P2PChat.Packet

namespace P2PChat

open ByteQueue

namespace Fifo

/-- A queue of this capacity that holds these bytes, none of them read. -/
def filled (capacity : Nat) (bytes : AString) : Fifo := ((empty capacity).append bytes).2

theorem filled_eq {capacity : Nat} {bytes : AString} (h : bytes.length ≤ capacity) :
    (filled capacity bytes).capacity = capacity ∧ (filled capacity bytes).read = [] ∧
      (filled capacity bytes).unread = bytes := by
  obtain ⟨hcap, hread, hunread⟩ := @append_snd bytes (empty capacity)
    (by simpa [free, empty] using h)
  exact ⟨hcap, hread, hunread⟩

theorem append_empty {capacity : Nat} {bytes : AString} (h : bytes.length ≤ capacity) :
    (empty capacity).append bytes = (true, filled capacity bytes) :=
  ((append_appends bytes (empty capacity)).1 (by simpa [free, empty] using h))

/-- Reading everything and committing leaves an empty queue. -/
theorem advance_commit (q : Fifo) : (q.advance q.unread.length).commit = empty q.capacity := by
  apply Fifo.ext
  · rfl
  · rfl
  · simp [advance, commit, empty]

end Fifo

theorem packetize_ok {p : Packet} {capacity : Nat} (h : p.body.length ≤ capacity) :
    packetize p (Fifo.empty capacity) = .ok (Fifo.filled capacity p.body) := by
  have hlen := @List.length_append _ (varInt p.type) p.fieldBytes
  have hfields : p.fieldBytes.length = (p.fields.flatMap Field.bytes).length := rfl
  have hbody : p.body = varInt p.type ++ p.fieldBytes := rfl
  have hfree : (Fifo.empty capacity).free = capacity := by simp [Fifo.free, Fifo.empty]
  rw [hbody] at h
  have htype := (writeVarInt32_appends p.type (Fifo.empty capacity)).1 (by omega)
  have hroom := @Fifo.append_free (varInt p.type) (Fifo.empty capacity) (by omega)
  rw [packetize, htype]
  dsimp only
  rw [writeFields_ok (by omega), Fifo.filled, hbody,
    ← Fifo.append_append (by rw [hfree]; exact h)]
  rfl

/-- The type always fits, so a body that is too long fails in one of the checked writes. -/
theorem packetize_verify {p : Packet} {capacity : Nat} (hcap : 5 ≤ capacity)
    (h : capacity < p.body.length) : packetize p (Fifo.empty capacity) = .error .verify := by
  have hlen := @List.length_append _ (varInt p.type) p.fieldBytes
  have hfields : p.fieldBytes.length = (p.fields.flatMap Field.bytes).length := rfl
  have hbody : p.body = varInt p.type ++ p.fieldBytes := rfl
  have hfree : (Fifo.empty capacity).free = capacity := by simp [Fifo.free, Fifo.empty]
  have hle := varInt_length_le p.type
  rw [hbody] at h
  have htype := (writeVarInt32_appends p.type (Fifo.empty capacity)).1 (by omega)
  have hroom := @Fifo.append_free (varInt p.type) (Fifo.empty capacity) (by omega)
  rw [packetize, htype]
  apply writeFields_verify
  dsimp only
  omega

theorem readAll_fifo (q : Fifo) : readAll q = (q.unread, q.advance q.unread.length) := rfl

theorem commitRead_fifo (q : Fifo) : commitRead q = q.commit := rfl

theorem getUsedSpace_fifo (q : Fifo) : getUsedSpace q = q.read.length + q.unread.length := rfl

theorem takePacket_filled {body : AString} {capacity : Nat} (h : body.length ≤ capacity) :
    takePacket (Fifo.filled capacity body) (Fifo.empty 20) =
      (frame body, Fifo.empty capacity, Fifo.empty 20) := by
  obtain ⟨hcap, hread, hunread⟩ := Fifo.filled_eq h
  have hle := varInt_length_le (UInt32.ofNat body.length)
  have hwrite : writeVarInt32 (UInt32.ofNat body.length) (Fifo.empty 20) =
      (true, Fifo.filled 20 (varInt (UInt32.ofNat body.length))) := by
    rw [writeVarInt32_fifo]
    exact Fifo.append_empty (by omega)
  obtain ⟨hlcap, _, hlunread⟩ := @Fifo.filled_eq 20
    (varInt (UInt32.ofNat body.length)) (by omega)
  have hout := Fifo.advance_commit (Fifo.filled capacity body)
  have hlen := Fifo.advance_commit (Fifo.filled 20 (varInt (UInt32.ofNat body.length)))
  rw [hunread, hcap] at hout
  rw [hlunread, hlcap] at hlen
  simp only [takePacket, getUsedSpace_fifo, hread, hunread, List.length_nil, Nat.zero_add, hwrite,
    readAll_fifo, hlunread, commitRead_fifo, hout, hlen]
  rfl

theorem takePacketClient_filled {body : AString} {capacity : Nat} (h : body.length ≤ capacity) :
    takePacketClient (Fifo.filled capacity body) =
      (varInt (UInt32.ofNat body.length), body, Fifo.empty capacity) := by
  obtain ⟨hcap, hread, hunread⟩ := Fifo.filled_eq h
  have hle := varInt_length_le (UInt32.ofNat body.length)
  have hwrite : writeVarInt32 (UInt32.ofNat body.length) (new 20 : Fifo) =
      (true, Fifo.filled 20 (varInt (UInt32.ofNat body.length))) := by
    rw [writeVarInt32_fifo]
    exact Fifo.append_empty (by omega)
  obtain ⟨_, _, hlunread⟩ := @Fifo.filled_eq 20
    (varInt (UInt32.ofNat body.length)) (by omega)
  have hout := Fifo.advance_commit (Fifo.filled capacity body)
  rw [hunread, hcap] at hout
  simp only [takePacketClient, getUsedSpace_fifo, hread, hunread, List.length_nil, Nat.zero_add,
    hwrite, readAll_fifo, hlunread, commitRead_fifo, hout]

/-- At most so many bytes on the wire. -/
def Field.bound : Field → Nat
  | .beInt32 _ => 4
  | .beUInt32 _ => 4
  | .beInt64 _ => 8
  | .varInt32 _ => 5
  | .string s => 5 + s.length
  | .buf s => s.length

theorem field_length_le (field : Field) : field.bytes.length ≤ field.bound := by
  cases field with
  | beInt32 v => exact Nat.le_of_eq (bigEndianBytes_length 4 _)
  | beUInt32 v => exact Nat.le_of_eq (bigEndianBytes_length 4 _)
  | beInt64 v => exact Nat.le_of_eq (bigEndianBytes_length 8 _)
  | varInt32 v => exact varInt_length_le v
  | string s =>
    have hle := varInt_length_le (UInt32.ofNat s.length)
    simp only [Field.bytes, Field.bound, List.length_append]
    omega
  | buf s => exact Nat.le_refl _

theorem body_length_le (p : Packet) : p.body.length ≤ 5 + (p.fields.map Field.bound).sum := by
  have htype := varInt_length_le p.type
  have hfields : ∀ fields : List Field,
      (fields.flatMap Field.bytes).length ≤ (fields.map Field.bound).sum := by
    intro fields
    induction fields with
    | nil => exact Nat.le_refl _
    | cons field fields ih =>
      have hle := field_length_le field
      rw [List.flatMap_cons, List.length_append, List.map_cons, List.sum_cons]
      omega
  have hle := hfields p.fields
  rw [Packet.body, Packet.fieldBytes, List.length_append]
  omega

section Refinement

variable {β γ : Type} [ByteQueue β] [ByteQueue γ] {f : β → γ} (hf : Hom f)

include hf

theorem fieldWrite_commutes (field : Field) : Commutes f field.write field.write := by
  cases field with
  | beInt32 v => exact writeBE_commutes hf 4 v.toUInt32.toNat
  | beUInt32 v => exact writeBE_commutes hf 4 v.toNat
  | beInt64 v => exact writeBE_commutes hf 8 v.toUInt64.toNat
  | varInt32 v => exact writeVarInt32_commutes hf v
  | string s => exact writeVarUTF8String_commutes hf s
  | buf s => exact hf.write s

theorem writeFields_map (fields : List Field) (out : β) :
    writeFields fields (f out) = (writeFields fields out).map f := by
  induction fields generalizing out with
  | nil => rfl
  | cons field fields ih =>
    rw [writeFields, writeFields, fieldWrite_commutes hf field out]
    rcases field.write out with ⟨_ | _, out'⟩
    · rfl
    · exact ih out'

theorem packetize_map (p : Packet) (out : β) :
    packetize p (f out) = (packetize p out).map f := by
  rw [packetize, packetize, writeVarInt32_commutes hf p.type out]
  exact writeFields_map hf p.fields _

theorem takePacket_map (out len : β) :
    takePacket (f out) (f len) =
      ((takePacket out len).1, f (takePacket out len).2.1, f (takePacket out len).2.2) := by
  simp only [takePacket, hf.getUsedSpace, writeVarInt32_commutes hf _ len, hf.readAll, hf.commitRead]

theorem takePacketClient_map (out : β) :
    takePacketClient (f out) =
      ((takePacketClient out).1, (takePacketClient out).2.1, f (takePacketClient out).2.2) := by
  simp only [takePacketClient, hf.getUsedSpace, ← hf.new, writeVarInt32_commutes hf _ (new 20),
    hf.readAll, hf.commitRead]

end Refinement

end P2PChat

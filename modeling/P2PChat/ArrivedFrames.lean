import P2PChat.Draining
import P2PChat.Reassembly
import P2PChat.StreamRules

namespace P2PChat

open ByteQueue

/-- The packets whose frames are complete in the first so many bytes of the stream. -/
def arrived : List (UInt32 × AString) → Nat → List (UInt32 × AString)
  | [], _ => []
  | p :: packets, n =>
    if (frame (rawPacket p).body).length ≤ n then
      p :: arrived packets (n - (frame (rawPacket p).body).length)
    else []

theorem arrived_pending {rest : AString} {todo : List (UInt32 × AString)} (h : Pending rest todo) :
    arrived todo rest.length = [] := by
  cases todo with
  | nil => rfl
  | cons p todo => exact if_neg (Nat.not_le_of_lt h.2)

theorem arrived_append (done todo : List (UInt32 × AString)) (n : Nat) :
    arrived (done ++ todo) ((stream done).length + n) = done ++ arrived todo n := by
  induction done with
  | nil => simp [stream]
  | cons p done ih =>
    have hle : (frame (rawPacket p).body).length ≤ (stream (p :: done)).length + n := by
      rw [stream_cons, List.length_append]
      omega
    have hrest : (stream (p :: done)).length + n - (frame (rawPacket p).body).length =
        (stream done).length + n := by
      rw [stream_cons, List.length_append]
      omega
    simp only [List.cons_append, arrived, if_pos hle, hrest, ih]

theorem arrived_split {bytes : AString} {packets : List (UInt32 × AString)}
    (h : bytes <+: stream packets) :
    ∃ todo rest, packets = arrived packets bytes.length ++ todo ∧
      bytes = stream (arrived packets bytes.length) ++ rest ∧ Pending rest todo := by
  obtain ⟨done, todo, rest, hpackets, hbytes, hrest⟩ := split_stream h
  have hdone : arrived packets bytes.length = done := by
    rw [hpackets, hbytes, List.length_append, arrived_append, arrived_pending hrest, List.append_nil]
  rw [hdone]
  exact ⟨todo, rest, hpackets, hbytes, hrest⟩

/-- Less than a frame fits where frames fit. -/
theorem Pending.length_le {capacity : Nat} {rest : AString} {todo : List (UInt32 × AString)}
    (hfit : FramesFit capacity todo) (h : Pending rest todo) : rest.length ≤ capacity := by
  cases todo with
  | nil =>
    have hnil : rest = [] := h
    simp [hnil]
  | cons p todo => exact Nat.le_trans (Nat.le_of_lt h.2) (hfit p List.mem_cons_self)

section Verdicts

variable {φ : Type} (react : φ → UInt32 → AString → Verdict φ)

/-- Each of these packets is handled, one after another: only the last may be refused, or close the
connection. -/
def minds : φ → List (UInt32 × AString) → Bool
  | _, [] => true
  | x, p :: packets =>
    match react x p.1 (call p).2 with
    | .halts => false
    | .refuses => packets.isEmpty
    | .takes y true => minds y packets
    | .takes _ false => packets.isEmpty

/-- The state after these packets, if the connection is still open. -/
def mindsAfter (refused : φ → φ) : φ → List (UInt32 × AString) → Option φ
  | x, [] => some x
  | x, p :: packets =>
    match react x p.1 (call p).2 with
    | .halts => none
    | .refuses => some (refused x)
    | .takes y true => mindsAfter refused y packets
    | .takes _ false => none

/-- Every chunk of a stream fits what is left of the 64 KiB, and of the frames that it completes each is
handled; when the connection is closed, no frame is completed any more. -/
def keepsUp (refused : φ → φ) : Option φ → List (UInt32 × AString) → Nat → List AString → Bool
  | _, _, _, [] => true
  | none, packets, pending, chunk :: chunks =>
    (arrived packets (pending + chunk.length)).isEmpty &&
      keepsUp refused none packets (pending + chunk.length) chunks
  | some x, packets, pending, chunk :: chunks =>
    decide (pending + chunk.length ≤ 65536) &&
      minds react x (arrived packets (pending + chunk.length)) &&
        keepsUp refused (mindsAfter react refused x (arrived packets (pending + chunk.length)))
          (packets.drop (arrived packets (pending + chunk.length)).length)
          (pending + chunk.length - (stream (arrived packets (pending + chunk.length))).length) chunks

end Verdicts

end P2PChat

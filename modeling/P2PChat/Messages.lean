import P2PChat.ClientPackets
import P2PChat.StreamRules

namespace P2PChat

open ByteQueue

section Definitions

variable [Platform]

/-- The text that a call of `HandlePacket` carries to this ID, or from it; `"BYE"` is not one. -/
def message (id : UInt32) (call : UInt32 × AString) : Option AString :=
  if call.1 = 0x12 then
    (parseMediaMsg call.2).1.bind fun media =>
      if media.1 = id ∧ media.2 ≠ PeerConnectionClient.kByeMessage then some media.2 else none
  else none

def messages (id : UInt32) (calls : List (UInt32 × AString)) : List AString := calls.filterMap (message id)

/-- The texts in these bytes. -/
def messagesIn (id : UInt32) (bytes : AString) : List AString := messages id (packets (fun _ => true) bytes)

end Definitions

variable [Platform] {id : UInt32}

theorem messages_append (calls calls' : List (UInt32 × AString)) :
    messages id (calls ++ calls') = messages id calls ++ messages id calls' := List.filterMap_append

theorem messages_singleton (call : UInt32 × AString) : messages id [call] = (message id call).toList := by
  rcases hmessage : message id call with _ | m
  · simp [messages, hmessage]
  · simp [messages, hmessage]

theorem message_other {call : UInt32 × AString} (h : call.1 ≠ 0x12) : message id call = none := if_neg h

theorem messages_other {calls : List (UInt32 × AString)} (h : ∀ call ∈ calls, call.1 ≠ 0x12) :
    messages id calls = [] := List.filterMap_eq_nil_iff.mpr fun call hmem => message_other (h call hmem)

/-- Client and server read what the other wrote. -/
theorem parseMediaMsg_fields (to_id : UInt32) {msg : AString} (h : msg.length < 2 ^ 32) :
    parseMediaMsg ((mediaMsgPacket to_id msg).fieldBytes ++ [0]) =
      (some (to_id, msg), (mediaMsgPacket to_id msg).fieldBytes.length) := by
  have hbytes : (mediaMsgPacket to_id msg).fieldBytes =
      varInt to_id ++ (varInt (UInt32.ofNat msg.length) ++ msg) := by
    simp [mediaMsgPacket, Packet.fieldBytes, Field.bytes]
  have hstring := parseString_string h [0]
  rw [hbytes, parseMediaMsg, Parser.andThen, List.append_assoc, parseVarInt32_varInt]
  dsimp only
  rw [List.drop_left, Parser.andThen, hstring]
  simp [Parser.ret]

theorem message_mediaMsg (to_id : UInt32) {msg : AString} (h : msg.length < 2 ^ 32) :
    message id (call (0x12, (mediaMsgPacket to_id msg).fieldBytes)) =
      if to_id = id ∧ msg ≠ PeerConnectionClient.kByeMessage then some msg else none := by
  have hparse := congrArg Prod.fst (parseMediaMsg_fields to_id h)
  simp only [message, call, hparse, if_true, Option.bind_some]

/-- A stream is read as the packets it was made of. -/
theorem packets_stream {known : UInt32 → Bool} {todo : List (UInt32 × AString)}
    (hsize : ∀ p ∈ todo, (rawPacket p).body.length < 2 ^ 32) (hknown : ∀ p ∈ todo, known p.1 = true)
    (v : AString) : packets known (stream todo ++ v) = todo.map call ++ packets known v := by
  induction todo with
  | nil => rfl
  | cons p todo ih =>
    have hnext := nextFrame_frame (hsize p List.mem_cons_self) (stream todo ++ v)
    have hrest := ih (fun q hmem => hsize q (List.mem_cons_of_mem p hmem))
      (fun q hmem => hknown q (List.mem_cons_of_mem p hmem))
    rw [stream_cons, List.append_assoc, packets_cons hnext (opened_rawPacket p),
      if_pos (hknown p List.mem_cons_self), hrest]
    rfl

theorem messagesIn_stream {todo : List (UInt32 × AString)}
    (hsize : ∀ p ∈ todo, (rawPacket p).body.length < 2 ^ 32) (v : AString) :
    messagesIn id (stream todo ++ v) = messages id (todo.map call) ++ messagesIn id v := by
  rw [messagesIn, packets_stream hsize (fun _ _ => rfl), messages_append]
  rfl

theorem messagesIn_none {u : AString} (h : nextFrame u = none) : messagesIn id u = [] := by
  rw [messagesIn, packets_none h]
  rfl

theorem messagesIn_all {todo : List (UInt32 × AString)}
    (hsize : ∀ p ∈ todo, (rawPacket p).body.length < 2 ^ 32) :
    messagesIn id (stream todo) = messages id (todo.map call) := by
  have hstream := @messagesIn_stream _ id todo hsize []
  rw [List.append_nil, messagesIn_none nextFrame_nil, List.append_nil] at hstream
  exact hstream

end P2PChat

import P2PChat.ClientRefinement

namespace P2PChat

open ByteQueue

section Parsers

variable [Platform]

def parseStatus : Parser (Int32 × AString) :=
  parseBEInt32.andThen fun state => parseString.andThen fun strIP => .ret (state, strIP)

def parseUserInfo : Parser (UInt32 × AString × UInt32) :=
  parseVarInt32.andThen fun uid => parseString.andThen fun name =>
    parseVarInt32.andThen fun state => .ret (uid, name, state)

theorem readStatus_reads : Reads PeerConnectionClient.readStatus parseStatus :=
  readBEInt32_reads.andThen fun _ => readVarUTF8String_reads.andThen fun _ => Reads.ret _

theorem readUserInfo_reads : Reads PeerConnectionClient.readUserInfo parseUserInfo :=
  readVarInt32_reads.andThen fun _ => readVarUTF8String_reads.andThen fun _ =>
    readVarInt32_reads.andThen fun _ => Reads.ret _

end Parsers

namespace PeerConnectionClient

section Definitions

variable {β : Type}

/-- The packet types that the `switch` of `HandlePacket` has in this state. -/
def knows (state type : UInt32) : Bool :=
  if state = 1 then type == 0x00
  else if state = 2 then type == 0x00 || type == 0x01
  else if state = 3 then
    type == 0x00 || type == 0x01 || type == 0x11 || type == 0x12 || type == 0x40
  else false

/-- What sending a packet comes to when the buffer is in order. -/
def send (p : Packet) (c : PeerConnectionClient β) : PeerConnectionClient β := c.sendData (frame p.body)

/-- The name and the password do not fit a packet. -/
def overlong (c : PeerConnectionClient β) : Bool :=
  65536 < (loginInfoPacket c.username c.password).body.length

/-- A call of `SignOut` would close the connection. -/
def closes (c : PeerConnectionClient β) : Bool :=
  c.state != .notConnected && c.state != .signingOut && c.isConnected

/-- What the client does with the state that the server has come to. -/
def greeted (status : Int32 × AString) (c : PeerConnectionClient β) : PeerConnectionClient β :=
  if 3 < status.1 ∨ status.1 < 1 then c
  else (c.setProtocolState status.1.toUInt32).send (loginInfoPacket c.username c.password)

/-- What the client does with a media packet. -/
def asked (media : UInt32 × UInt32) (c : PeerConnectionClient β) : PeerConnectionClient β :=
  if media.2 = 0 then
    { c with isBusy := fun n => c.isBusy (n + 1) }.send
      (mediaPacket media.1 (if c.isBusy 0 then (-1 : Int32).toUInt32 else 1))
  else c.notify (.onPeerResponse media.1 media.2)

variable [Platform]

/-- How many bytes the handler of this type takes of these in this state. -/
def taken (state type : UInt32) (bytes : AString) : Nat :=
  if state = 1 then
    if type = 0x00 then (parseStatus bytes).2 else 0
  else if state = 2 then
    if type = 0x00 then (parseBEInt32 bytes).2 else 0
  else if state = 3 then
    if type = 0x00 then (parseVarInt32 bytes).2
    else if type = 0x01 then (parseUserInfo bytes).2
    else if type = 0x11 then (parseMedia bytes).2
    else if type = 0x12 then (parseMediaMsg bytes).2
    else if type = 0x40 then (parseBEInt32 bytes).2
    else 0
  else 0

/-- What comes of a packet. -/
def reacted [ByteQueue β] (type : UInt32) (bytes : AString) (c : PeerConnectionClient β) :
    PeerConnectionClient β :=
  if c.protocolState = 1 then
    if type = 0x00 then (parseStatus bytes).1.elim c fun status => c.greeted status else c
  else if c.protocolState = 2 then
    if type = 0x00 then (parseBEInt32 bytes).1.elim c fun reason => c.handleErrorCode reason
    else if type = 0x01 then c.loginSucceeded
    else c
  else if c.protocolState = 3 then
    if type = 0x00 then
      (parseVarInt32 bytes).1.elim c fun keepAliveID => c.send ⟨0x00, [.varInt32 keepAliveID]⟩
    else if type = 0x01 then
      (parseUserInfo bytes).1.elim c fun info => c.userInfo info.1 info.2.1 info.2.2
    else if type = 0x11 then (parseMedia bytes).1.elim c fun media => c.asked media
    else if type = 0x12 then
      (parseMediaMsg bytes).1.elim c fun media => c.mediaMsgArrived media.1 media.2
    else if type = 0x40 then (parseBEInt32 bytes).1.elim c fun reason => c.handleErrorCode reason
    else c
  else if c.protocolState = 255 then c
  else c.setProtocolState 255

/-- The state after a packet of a type that the `switch` has not. -/
def refusedState (state : UInt32) : UInt32 :=
  if state = 1 ∨ state = 2 ∨ state = 3 then state else 255

/-- The packet lets the client log in with a name and a password that do not fit a packet. -/
def halts (type : UInt32) (bytes : AString) (c : PeerConnectionClient β) : Bool :=
  c.protocolState == 1 && type == 0x00 && c.overlong &&
    (parseStatus bytes).1.any fun status => !(3 < status.1 ∨ status.1 < 1)

end Definitions

section Calls

variable {c : PeerConnectionClient Fifo}

theorem sendData_twice (data data' : AString) (c : PeerConnectionClient Fifo) :
    (c.sendData data).sendData data' = c.sendData (data ++ data') := by
  unfold sendData
  split
  next h => simp only [h, List.append_assoc]
  next h => simp only

theorem packet_send {p : Packet} (hout : c.outPacketBuffer = Fifo.empty 65536)
    (hp : p.body.length ≤ 65536) : c.packet p = .ok (c.send p) := by
  rw [packet, hout, packetize_ok hp]
  simp only [bind, Except.bind, takePacketClient_filled hp, sendData_twice]
  rw [← hout]
  rfl

theorem packet_verify {p : Packet} (hout : c.outPacketBuffer = Fifo.empty 65536)
    (hp : 65536 < p.body.length) : c.packet p = .error .verify := by
  rw [packet, hout, packetize_verify (by omega) hp]
  rfl

theorem statusAnswered_eq (hout : c.outPacketBuffer = Fifo.empty 65536) {status : Int32 × AString}
    (hshort : 3 < status.1 ∨ status.1 < 1 ∨ c.overlong = false) :
    c.statusAnswered status = .ok (c.greeted status) := by
  unfold statusAnswered greeted
  split
  next => rfl
  next hrange =>
    have hfits : c.overlong = false := by
      rcases hshort with h | h | h
      · exact absurd (Or.inl h) hrange
      · exact absurd (Or.inr h) hrange
      · exact h
    exact packet_send hout (Nat.le_of_not_lt (of_decide_eq_false hfits))

theorem small_packet_length {type : UInt32} {fields : List Field}
    (h : (fields.map Field.bound).sum ≤ 1000) : (⟨type, fields⟩ : Packet).body.length ≤ 65536 := by
  have hle := body_length_le ⟨type, fields⟩
  dsimp only at hle
  omega

theorem mediaArrived_eq (hout : c.outPacketBuffer = Fifo.empty 65536) (media : UInt32 × UInt32) :
    c.mediaArrived media.1 media.2 = .ok (c.asked media) := by
  unfold mediaArrived asked
  split
  next => exact packet_send (by exact hout) (small_packet_length (by simp [Field.bound]))
  next => rfl

variable [Platform] {bb : Fifo} {type : UInt32}

theorem status_eq (hstate : c.protocolState = 1) (hout : c.outPacketBuffer = Fifo.empty 65536)
    (hshort : c.halts type bb.unread = false) :
    dispatchPacket bb type c = .ok (knows c.protocolState type,
      bb.advance (taken c.protocolState type bb.unread), c.reacted type bb.unread) := by
  rw [dispatchPacket, knows, taken, reacted, if_pos hstate, if_pos hstate, if_pos hstate,
    if_pos hstate]
  split
  next h =>
    rw [h, beq_self_eq_true]
    refine handling_ok readStatus_reads fun status hstatus => statusAnswered_eq hout ?_
    rw [halts, hstate, h, hstatus, beq_self_eq_true, beq_self_eq_true, Bool.true_and,
      Bool.true_and, Option.any_some, Bool.and_eq_false_iff, Bool.not_eq_false',
      decide_eq_true_iff] at hshort
    tauto
  next h => rw [beq_eq_false_iff_ne.mpr h, Fifo.advance_zero]

theorem login_eq (hstate : c.protocolState = 2) :
    dispatchPacket bb type c = .ok (knows c.protocolState type,
      bb.advance (taken c.protocolState type bb.unread), c.reacted type bb.unread) := by
  have hone : c.protocolState ≠ 1 := by
    rw [hstate]
    decide
  rw [dispatchPacket, knows, taken, reacted, if_neg hone, if_pos hstate, if_neg hone, if_pos hstate,
    if_neg hone, if_pos hstate, if_neg hone, if_pos hstate]
  split
  next h =>
    rw [h, beq_self_eq_true, Bool.true_or]
    exact handling_ok readBEInt32_reads fun _ _ => rfl
  next h0 =>
    rw [Fifo.advance_zero, beq_eq_false_iff_ne.mpr h0, Bool.false_or]
    split
    next h =>
      rw [h, beq_self_eq_true]
      rfl
    next h1 => rw [beq_eq_false_iff_ne.mpr h1]

theorem work_eq (hstate : c.protocolState = 3) (hout : c.outPacketBuffer = Fifo.empty 65536) :
    dispatchPacket bb type c = .ok (knows c.protocolState type,
      bb.advance (taken c.protocolState type bb.unread), c.reacted type bb.unread) := by
  have hone : c.protocolState ≠ 1 := by
    rw [hstate]
    decide
  have htwo : c.protocolState ≠ 2 := by
    rw [hstate]
    decide
  rw [dispatchPacket, knows, taken, reacted, if_neg hone, if_neg htwo, if_pos hstate, if_neg hone,
    if_neg htwo, if_pos hstate, if_neg hone, if_neg htwo, if_pos hstate, if_neg hone, if_neg htwo,
    if_pos hstate]
  have hknown : ∀ t : UInt32, type = t → (t == 0x00 || t == 0x01 || t == 0x11 || t == 0x12 ||
      t == 0x40) = true → (type == 0x00 || type == 0x01 || type == 0x11 || type == 0x12 ||
        type == 0x40) = true := by
    intro t ht
    rw [ht]
    exact id
  split
  next h =>
    rw [hknown 0x00 h (by decide)]
    exact handling_ok readVarInt32_reads fun _ _ =>
      packet_send hout (small_packet_length (by simp [Field.bound]))
  next h0 =>
    split
    next h =>
      rw [hknown 0x01 h (by decide)]
      exact handling_ok readUserInfo_reads fun _ _ => rfl
    next h1 =>
      split
      next h =>
        rw [hknown 0x11 h (by decide)]
        exact handling_ok readMedia_reads fun media _ => mediaArrived_eq hout media
      next h11 =>
        split
        next h =>
          rw [hknown 0x12 h (by decide)]
          exact handling_ok readMediaMsg_reads fun _ _ => rfl
        next h12 =>
          split
          next h =>
            rw [hknown 0x40 h (by decide)]
            exact handling_ok readBEInt32_reads fun _ _ => rfl
          next h40 =>
            simp only [beq_eq_false_iff_ne.mpr h0, beq_eq_false_iff_ne.mpr h1,
              beq_eq_false_iff_ne.mpr h11, beq_eq_false_iff_ne.mpr h12, beq_eq_false_iff_ne.mpr h40,
              Bool.or_false, Fifo.advance_zero]

/-- What `HandlePacket` answers, how far it reads, and what comes of it, but for a login that does not
fit a packet. -/
theorem handlePacket_eq (hout : c.outPacketBuffer = Fifo.empty 65536)
    (hshort : c.halts type bb.unread = false) :
    handlePacket bb type c = .ok (knows c.protocolState type,
      bb.advance (taken c.protocolState type bb.unread),
      (c.record (type, bb.unread)).reacted type bb.unread) := by
  change dispatchPacket bb type (c.record (type, bb.unread)) = _
  by_cases h1 : c.protocolState = 1
  · exact status_eq (c := c.record (type, bb.unread)) h1 hout hshort
  · by_cases h2 : c.protocolState = 2
    · exact login_eq (c := c.record (type, bb.unread)) h2
    · by_cases h3 : c.protocolState = 3
      · exact work_eq (c := c.record (type, bb.unread)) h3 hout
      · have hsame : (c.record (type, bb.unread)).protocolState = c.protocolState := rfl
        rw [dispatchPacket, knows, taken, reacted, hsame]
        simp only [if_neg h1, if_neg h2, if_neg h3]
        rw [Fifo.advance_zero]
        split
        next => rfl
        next => rfl

/-- A login that does not fit a packet ends the process. -/
theorem handlePacket_verify (hout : c.outPacketBuffer = Fifo.empty 65536)
    (hlong : c.halts type bb.unread = true) : handlePacket bb type c = .error .verify := by
  simp only [halts, Bool.and_eq_true, beq_iff_eq, Option.any_eq_true, Bool.not_eq_true',
    decide_eq_false_iff_not] at hlong
  obtain ⟨⟨⟨hstate, htype⟩, hlong⟩, status, hstatus, hrange⟩ := hlong
  change dispatchPacket bb type (c.record (type, bb.unread)) = _
  have hstate' : (c.record (type, bb.unread)).protocolState = 1 := hstate
  rw [dispatchPacket, if_pos hstate', if_pos htype, handlePacketStatusRequest,
    handling_eq readStatus_reads, hstatus]
  have hverify : ((c.record (type, bb.unread)).setProtocolState status.1.toUInt32).packet
      (loginInfoPacket c.username c.password) = .error .verify :=
    packet_verify hout (of_decide_eq_true hlong)
  have hanswer : (c.record (type, bb.unread)).statusAnswered status = .error .verify := by
    rw [statusAnswered, if_neg hrange]
    exact hverify
  exact congrArg (Except.map _) hanswer

theorem reacted_unknown {bytes : AString} (hunknown : knows c.protocolState type = false) :
    c.reacted type bytes = c.setProtocolState (refusedState c.protocolState) := by
  have hsame : c.setProtocolState c.protocolState = c := rfl
  unfold knows at hunknown
  unfold PeerConnectionClient.reacted refusedState
  by_cases h1 : c.protocolState = 1
  · simp only [h1, if_true] at hunknown ⊢
    rw [if_neg (beq_eq_false_iff_ne.mp hunknown), if_pos (Or.inl trivial), ← h1, hsame]
  · by_cases h2 : c.protocolState = 2
    · rw [if_neg h1, if_pos h2, Bool.or_eq_false_iff, beq_eq_false_iff_ne, beq_eq_false_iff_ne] at hunknown
      rw [if_neg h1, if_pos h2, if_neg hunknown.1, if_neg hunknown.2, if_pos (Or.inr (Or.inl h2)), hsame]
    · by_cases h3 : c.protocolState = 3
      · rw [if_neg h1, if_neg h2, if_pos h3] at hunknown
        simp only [Bool.or_eq_false_iff, beq_eq_false_iff_ne] at hunknown
        obtain ⟨⟨⟨⟨h0, hinfo⟩, h11⟩, h12⟩, h40⟩ := hunknown
        rw [if_neg h1, if_neg h2, if_pos h3, if_neg h0, if_neg hinfo, if_neg h11, if_neg h12, if_neg h40,
          if_pos (Or.inr (Or.inr h3)), hsame]
      · have hnone : ¬(c.protocolState = 1 ∨ c.protocolState = 2 ∨ c.protocolState = 3) := by
          simp [h1, h2, h3]
        rw [if_neg h1, if_neg h2, if_neg h3, if_neg hnone]
        split
        next h => rw [← h, hsame]
        next => rfl

theorem reacted_log (type : UInt32) (bytes : AString) (c : PeerConnectionClient Fifo) :
    (c.reacted type bytes).log = c.log := by
  have hsend : ∀ (p : Packet) (c : PeerConnectionClient Fifo), (c.send p).log = c.log := by
    intro p c
    unfold PeerConnectionClient.send sendData
    split <;> rfl
  have herror : ∀ (code : Int32) (c : PeerConnectionClient Fifo), (c.handleErrorCode code).log = c.log := by
    intro code c
    unfold PeerConnectionClient.handleErrorCode signOut
    split
    next => rfl
    next => split <;> rfl
  unfold PeerConnectionClient.reacted
  split
  next =>
    split
    next =>
      rcases (parseStatus bytes).1 with _ | status
      · rfl
      · simp only [Option.elim_some, greeted]
        split
        next => rfl
        next => exact hsend _ _
    next => rfl
  next =>
    split
    next =>
      split
      next =>
        rcases (parseBEInt32 bytes).1 with _ | reason
        · rfl
        · exact herror _ _
      next => split <;> rfl
    next =>
      split
      next =>
        split
        next =>
          rcases (parseVarInt32 bytes).1 with _ | id
          · rfl
          · exact hsend _ _
        next =>
          split
          next =>
            rcases (parseUserInfo bytes).1 with _ | info
            · rfl
            · simp only [Option.elim_some, userInfo]
              split <;> rfl
          next =>
            split
            next =>
              rcases (parseMedia bytes).1 with _ | media
              · rfl
              · simp only [Option.elim_some, asked]
                split
                next => exact hsend _ _
                next => rfl
            next =>
              split
              next =>
                rcases (parseMediaMsg bytes).1 with _ | media
                · rfl
                · simp only [Option.elim_some, mediaMsgArrived]
                  split <;> rfl
              next =>
                split
                next =>
                  rcases (parseBEInt32 bytes).1 with _ | reason
                  · rfl
                  · exact herror _ _
                next => rfl
      next => split <;> rfl

end Calls

end PeerConnectionClient

end P2PChat

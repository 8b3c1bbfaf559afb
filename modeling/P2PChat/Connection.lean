import P2PChat.ServerSimulation
import P2PChat.EndpointRules

namespace P2PChat

open ByteQueue

namespace ClientHandle

section Effects

variable {β : Type}

/-- What sending a packet comes to when the buffers are in order. -/
def queue (p : Packet) (c : ClientHandle β) : ClientHandle β :=
  if c.hasSentDC then c
  else { c.record (.queued c.protocol.state p) with outgoingData := c.outgoingData ++ frame p.body }

def disconnect (reason : Int32) (c : ClientHandle β) : ClientHandle β :=
  if c.hasSentDC then c
  else if c.protocol.state = 2 then { c.queue ⟨0x00, [.beInt32 reason]⟩ with hasSentDC := true }
  else if c.protocol.state = 3 then
    { c.queue ⟨0x40, [.beUInt32 reason.toUInt32]⟩ with hasSentDC := true }
  else { c with hasSentDC := true }

def loginSucceeded (c : ClientHandle β) : ClientHandle β :=
  ((c.record (.loginSuccess c.protocol.state)).queue ⟨0x01, []⟩).setProtocolState 3

def keepAliveSent (id : UInt32) (c : ClientHandle β) : ClientHandle β :=
  if c.protocol.state ≠ 3 then c.record (.keepAlive c.protocol.state)
  else (c.record (.keepAlive c.protocol.state)).queue ⟨0x00, [.varInt32 id]⟩

theorem queue_eq (p : Packet) (c : ClientHandle β) :
    c.queue p = { c with
      outgoingData := (c.queue p).outgoingData
      log := (c.queue p).log } := by
  unfold queue
  split <;> rfl

theorem queue_log (p : Packet) (c : ClientHandle β) :
    (c.queue p).log = if c.hasSentDC then c.log else c.log ++ [.queued c.protocol.state p] := by
  unfold queue
  split <;> rfl

theorem queue_sent (p : Packet) (c : ClientHandle β) : (c.queue p).sent = c.sent := by
  unfold queue
  split <;> rfl

theorem queue_outgoing (p : Packet) (c : ClientHandle β) :
    (c.queue p).outgoingData = if c.hasSentDC then c.outgoingData else c.outgoingData ++ frame p.body := by
  unfold queue
  split <;> rfl

theorem queue_protocol (p : Packet) (c : ClientHandle β) : (c.queue p).protocol = c.protocol := by
  rw [queue_eq]

theorem queue_hasSentDC (p : Packet) (c : ClientHandle β) : (c.queue p).hasSentDC = c.hasSentDC := by
  rw [queue_eq]

theorem queue_state (p : Packet) (c : ClientHandle β) : (c.queue p).state = c.state := by
  rw [queue_eq]

theorem queue_username (p : Packet) (c : ClientHandle β) : (c.queue p).username = c.username := by
  rw [queue_eq]

theorem queue_uniqueID (p : Packet) (c : ClientHandle β) : (c.queue p).uniqueID = c.uniqueID := by
  rw [queue_eq]

/-- A disconnect changes only what is sent, and `m_HasSentDC`. -/
theorem disconnect_eq (reason : Int32) (c : ClientHandle β) :
    c.disconnect reason = { c with
      outgoingData := (c.disconnect reason).outgoingData
      hasSentDC := true
      log := (c.disconnect reason).log } := by
  unfold disconnect
  split
  next h => rw [← h]
  next =>
    split
    next => rw [queue_eq]
    next =>
      split
      next => rw [queue_eq]
      next => rfl

end Effects

/-- The packet buffers are empty, the receive buffer has all its room, the strings that go into
packets are short enough for one, and a destruction is not left half done. -/
structure Sound (c : ClientHandle Fifo) : Prop where
  out : c.protocol.outPacketBuffer = Fifo.empty 65536
  len : c.protocol.outPacketLenBuffer = Fifo.empty 20
  received : ∃ u : AString, u.length ≤ 65536 ∧ c.protocol.receivedData = Fifo.filled 65536 u
  ip : c.ipString.length ≤ 127
  username : c.username.length ≤ 65504
  settled : c.state ≠ .csDestroying

theorem create_sound {ip : AString} (h : ip.length ≤ 127) (id : UInt32) (now : Int) :
    (create ip id now : ClientHandle Fifo).Sound where
  out := rfl
  len := rfl
  received := ⟨[], Nat.zero_le _, rfl⟩
  ip := h
  username := Nat.zero_le _
  settled := nofun

theorem packet_queue {p : Packet} {c : ClientHandle Fifo} (hc : c.Sound) (hp : p.body.length ≤ 65536) :
    c.packet p = .ok (c.queue p) := by
  have hout := hc.out
  have hlen := hc.len
  obtain ⟨ip, username, ⟨state, received, out, len⟩, incoming, outgoing, dc, ticks, ping, pingID, start,
    cs, id, link, sent, log⟩ := c
  subst hout hlen
  rw [packet, packetize_ok hp]
  cases dc <;> simp [bind, Except.bind, takePacket_filled hp, queue, sendData, record]

theorem packet_verify {p : Packet} {c : ClientHandle Fifo} (hc : c.Sound)
    (hp : 65536 < p.body.length) : c.packet p = .error .verify := by
  rw [packet, hc.out, packetize_verify (by omega) hp]
  rfl

theorem sendDisconnect_ok {c : ClientHandle Fifo} (hc : c.Sound) (reason : Int32) :
    c.sendDisconnect reason = .ok (c.disconnect reason) := by
  have h2 := body_length_le ⟨0x00, [.beInt32 reason]⟩
  have h3 := body_length_le ⟨0x40, [.beUInt32 reason.toUInt32]⟩
  simp only [List.map_cons, List.map_nil, List.sum_cons, List.sum_nil, Field.bound] at h2 h3
  unfold sendDisconnect disconnect protocolSendDisconnect
  split
  next => rfl
  next =>
    split
    next => rw [packet_queue hc (by omega)]; rfl
    next =>
      split
      next => rw [packet_queue hc (by omega)]; rfl
      next => rfl

theorem Sound.record {c : ClientHandle Fifo} (hc : c.Sound) (entry : Entry) : (c.record entry).Sound :=
  ⟨hc.out, hc.len, hc.received, hc.ip, hc.username, hc.settled⟩

theorem Sound.queue {c : ClientHandle Fifo} (hc : c.Sound) (p : Packet) : (c.queue p).Sound := by
  rw [queue_eq]
  exact ⟨hc.out, hc.len, hc.received, hc.ip, hc.username, hc.settled⟩

theorem Sound.disconnect {c : ClientHandle Fifo} (hc : c.Sound) (reason : Int32) :
    (c.disconnect reason).Sound := by
  rw [disconnect_eq]
  exact ⟨hc.out, hc.len, hc.received, hc.ip, hc.username, hc.settled⟩

theorem Sound.setProtocolState {c : ClientHandle Fifo} (hc : c.Sound) (state : UInt32) :
    (c.setProtocolState state).Sound := ⟨hc.out, hc.len, hc.received, hc.ip, hc.username, hc.settled⟩

theorem sendLoginSuccess_ok {c : ClientHandle Fifo} (hc : c.Sound) :
    c.sendLoginSuccess = .ok c.loginSucceeded := by
  have hle := body_length_le ⟨0x01, []⟩
  simp only [List.map_nil, List.sum_nil] at hle
  rw [sendLoginSuccess, packet_queue (hc.record _) (by omega)]
  rfl

theorem sendKeepAlive_ok {c : ClientHandle Fifo} (hc : c.Sound) (id : UInt32) :
    c.sendKeepAlive id = .ok (c.keepAliveSent id) := by
  have hle := body_length_le ⟨0x00, [.varInt32 id]⟩
  simp only [List.map_cons, List.map_nil, List.sum_cons, List.sum_nil, Field.bound] at hle
  unfold sendKeepAlive keepAliveSent
  split
  next => rfl
  next => exact packet_queue (hc.record _) (by omega)

theorem userInfo_length {about : ClientHandle Fifo} (h : about.Sound) :
    about.userInfo.body.length ≤ 65536 := by
  have hle := body_length_le about.userInfo
  have hname := h.username
  simp only [userInfo, List.map_cons, List.map_nil, List.sum_cons, List.sum_nil, Field.bound] at hle ⊢
  omega

/-- The members that say who a connection is and how far it has come are the same. -/
structure SameCore (c c' : ClientHandle Fifo) : Prop where
  ipString : c'.ipString = c.ipString
  username : c'.username = c.username
  protocolState : c'.protocol.state = c.protocol.state
  out : c'.protocol.outPacketBuffer = c.protocol.outPacketBuffer
  len : c'.protocol.outPacketLenBuffer = c.protocol.outPacketLenBuffer
  received : c'.protocol.receivedData = c.protocol.receivedData ∨
    ∃ u : AString, u.length ≤ 65536 ∧ c'.protocol.receivedData = Fifo.filled 65536 u
  outgoingData : c'.outgoingData = c.outgoingData
  hasSentDC : c'.hasSentDC = c.hasSentDC
  state : c'.state = c.state
  uniqueID : c'.uniqueID = c.uniqueID
  link : c'.link = true → c.link = true
  sent : c'.sent = c.sent
  log : c'.log = c.log

/-- What can happen to a connection through its own packets and ticks, and through kicks. -/
inductive Change : ClientHandle Fifo → ClientHandle Fifo → Prop
  | quiet {c c' : ClientHandle Fifo} : SameCore c c' → Change c c'
  | handled {c : ClientHandle Fifo} (packetType : UInt32) (bytes : AString) :
      c.state.toNat < 4 → Change c (c.record (.handled c.protocol.state packetType bytes))
  | status {c : ClientHandle Fifo} (state : UInt32) : c.state.toNat < 4 → c.protocol.state = 1 →
      state = 1 ∨ state = 2 →
      Change c ((c.setProtocolState state).queue ⟨0x00, [.beInt32 state.toInt32, .string c.ipString]⟩)
  | pong {c : ClientHandle Fifo} (timestamp : Int64) : c.protocol.state = 1 →
      Change c (c.queue ⟨0x01, [.beInt64 timestamp]⟩)
  | lost {c : ClientHandle Fifo} : c.state.toNat < 4 → c.protocol.state ≠ 1 →
      c.protocol.state ≠ 2 → c.protocol.state ≠ 3 → Change c (c.setProtocolState 255)
  | disconnect {c : ClientHandle Fifo} (reason : Int32) : Change c (c.disconnect reason)
  | flush {c : ClientHandle Fifo} : Change c c.flush
  | working {c : ClientHandle Fifo} : c.state = .csAuthenticated → Change c (c.setState .csWorking)
  | keepAlive {c : ClientHandle Fifo} (id : UInt32) (now : Int) : c.state = .csWorking →
      Change c ({ c with pingID := id, pingStartTime := now }.keepAliveSent id)

theorem Change.sound {c c' : ClientHandle Fifo} (hc : c.Sound) (h : Change c c') : c'.Sound := by
  cases h with
  | quiet h =>
    refine ⟨h.out.trans hc.out, h.len.trans hc.len, ?_, ?_, ?_, ?_⟩
    · rcases h.received with hsame | hnew
      · rw [hsame]
        exact hc.received
      · exact hnew
    · rw [h.ipString]
      exact hc.ip
    · rw [h.username]
      exact hc.username
    · rw [h.state]
      exact hc.settled
  | handled packetType bytes _ => exact hc.record _
  | status state _ _ _ => exact (hc.setProtocolState state).queue _
  | pong timestamp _ => exact hc.queue _
  | lost _ _ _ _ => exact hc.setProtocolState 255
  | disconnect reason => exact hc.disconnect reason
  | flush => exact ⟨hc.out, hc.len, hc.received, hc.ip, hc.username, hc.settled⟩
  | working _ => exact ⟨hc.out, hc.len, hc.received, hc.ip, hc.username, nofun⟩
  | keepAlive id now _ =>
    have hc' : ({ c with pingID := id, pingStartTime := now } : ClientHandle Fifo).Sound :=
      ⟨hc.out, hc.len, hc.received, hc.ip, hc.username, hc.settled⟩
    unfold keepAliveSent
    split
    next => exact hc'.record _
    next => exact (hc'.record _).queue _

/-- The second part of a tick never fails. -/
theorem tickRest_ok {c : ClientHandle Fifo} (hc : c.Sound) (now : Int) :
    ∃ c', c.tickRest now = .ok c' ∧ Relation.ReflTransGen Change c c' := by
  have hstart : Relation.ReflTransGen Change c c.flush.startWorking := by
    refine (Relation.ReflTransGen.single .flush).trans ?_
    unfold startWorking
    split
    next h => exact .single (.working h)
    next => exact .refl
  have hsound : c.flush.startWorking.Sound := by
    unfold startWorking
    split
    next => exact ⟨hc.out, hc.len, hc.received, hc.ip, hc.username, nofun⟩
    next => exact ⟨hc.out, hc.len, hc.received, hc.ip, hc.username, hc.settled⟩
  obtain ⟨c₁, hping, hstep, hc₁⟩ : ∃ c₁, tickPing now c.flush.startWorking = .ok c₁ ∧
      Relation.ReflTransGen Change c.flush.startWorking c₁ ∧ c₁.Sound := by
    unfold tickPing
    split
    next h =>
      have hnew : ({ c.flush.startWorking with
          pingID := c.flush.startWorking.pingID + 1, pingStartTime := now } :
            ClientHandle Fifo).Sound :=
        ⟨hsound.out, hsound.len, hsound.received, hsound.ip, hsound.username, hsound.settled⟩
      have hchange := Change.keepAlive (c.flush.startWorking.pingID + 1) now h.1
      exact ⟨_, sendKeepAlive_ok hnew _, .single hchange, hchange.sound hsound⟩
    next => exact ⟨_, rfl, .refl, hsound⟩
  have hcount : Change c₁ c₁.countTick :=
    .quiet ⟨rfl, rfl, rfl, rfl, rfl, Or.inl rfl, rfl, rfl, rfl, rfl, id, rfl, rfl⟩
  obtain ⟨c₂, htimeout, hlast⟩ : ∃ c₂, c₁.tickTimeout = .ok c₂ ∧
      Relation.ReflTransGen Change c₁ c₂ := by
    unfold tickTimeout
    split
    next =>
      exact ⟨_, sendDisconnect_ok (hcount.sound hc₁) _, .tail (.single hcount) (.disconnect _)⟩
    next => exact ⟨_, rfl, .single hcount⟩
  refine ⟨c₂, ?_, (hstart.trans hstep).trans hlast⟩
  rw [tickRest, hping]
  exact htimeout

end ClientHandle

end P2PChat

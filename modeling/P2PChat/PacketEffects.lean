import P2PChat.PacketHandling

namespace P2PChat

open ByteQueue Relation

namespace Server

section Definitions

variable [Platform]

/-- What the handler of this type reads of these bytes in this state. -/
def reads (state type : UInt32) (bytes : AString) : Bool × Nat :=
  if state = 1 then
    if type = 0x00 then parseStatusRequest.outcome bytes
    else if type = 0x01 then parseBEInt64.outcome bytes
    else (true, 0)
  else if state = 2 then
    if type = 0x00 then parseLoginInfo.outcome bytes else (true, 0)
  else if state = 3 then
    if type = 0x00 then parseVarInt32.outcome bytes
    else if type = 0x11 then parseMedia.outcome bytes
    else if type = 0x12 then parseMediaMsg.outcome bytes
    else (true, 0)
  else (true, 0)

omit [Platform] in
/-- The server speaks to this program only, and goes on to state 1 or 2. -/
def accepts (request : AString × AString × Int32 × Int32) : Prop :=
  request.1 = appP2pchat ∧ (request.2.2.2 = 1 ∨ request.2.2.2 = 2)

instance (request : AString × AString × Int32 × Int32) : Decidable (accepts request) :=
  inferInstanceAs (Decidable (_ ∧ _))

omit [Platform] in
/-- What comes of a status request. -/
def answered (request : AString × AString × Int32 × Int32) (c : ClientHandle Fifo) :
    ClientHandle Fifo :=
  if accepts request then
    (c.setProtocolState request.2.2.2.toUInt32).queue
      ⟨0x00, [.beInt32 request.2.2.2.toUInt32.toInt32, .string c.ipString]⟩
  else c.disconnect errorCodeBadApp

omit [Platform] in
def refused (p : Nat) (s : Server Fifo) : Server Fifo :=
  s.modify p (ClientHandle.disconnect errorCodePacketUnknown)

/-- What comes of a packet of `p`. -/
def reacted (p : Nat) (type : UInt32) (bytes : AString) (s : Server Fifo) : Server Fifo :=
  if (s.heap p).protocol.state = 1 then
    if type = 0x00 then
      (parseStatusRequest bytes).1.elim s fun request => s.modify p (answered request)
    else if type = 0x01 then
      (parseBEInt64 bytes).1.elim s fun timestamp => s.tell p ⟨0x01, [.beInt64 timestamp]⟩
    else s.refused p
  else if (s.heap p).protocol.state = 2 then
    if type = 0x00 then
      (parseLoginInfo bytes).1.elim s fun login => s.handleLogin p login.1 login.2
    else s.refused p
  else if (s.heap p).protocol.state = 3 then
    if type = 0x00 then
      (parseVarInt32 bytes).1.elim s fun id => s.modify p (ClientHandle.handleKeepAlive id s.now)
    else if type = 0x11 ∨ type = 0x12 then
      (s.relay p type bytes).elim s fun x => s.tell x.1 x.2
    else s.refused p
  else if (s.heap p).protocol.state = 255 then s
  else s.modify p (ClientHandle.setProtocolState 255)

end Definitions

theorem accepts_iff {request : AString × AString × Int32 × Int32} :
    accepts request ↔ ¬(request.1 ≠ appP2pchat ∨ request.2.2.2 < 1 ∨ 2 < request.2.2.2) := by
  obtain ⟨app, server, port, state⟩ := request
  have hvalue : (state = 1 ∨ state = 2) ↔ ¬(state < 1 ∨ 2 < state) := by
    constructor
    · rintro (rfl | rfl) <;> decide
    · intro h
      rcases statusState h with h1 | h2
      · exact Or.inl (by rw [← Int32.toInt32_toUInt32 state, h1]; rfl)
      · exact Or.inr (by rw [← Int32.toInt32_toUInt32 state, h2]; rfl)
  simp only [accepts, hvalue, not_or, ne_eq, not_not]

theorem answered_state (request : AString × AString × Int32 × Int32) (c : ClientHandle Fifo) :
    (answered request c).protocol.state =
      if accepts request then request.2.2.2.toUInt32 else c.protocol.state := by
  unfold answered
  split
  next => rw [ClientHandle.queue_protocol]; rfl
  next => rw [ClientHandle.disconnect_eq]

/-- No relay, or one that `m_OutPacketBuffer` can hold. -/
theorem relay_fits {β : Type} [Platform] {s : Server β} {p : Nat} {type : UInt32} {bytes : AString}
    (h : overlong (s.relay p type bytes).toList = false) {x : Nat × Packet}
    (hx : s.relay p type bytes = some x) : x.2.body.length ≤ 65536 := by
  have hno := List.any_eq_false.mp h x (Option.mem_toList.mpr hx)
  simpa using hno

theorem relay_long {β : Type} [Platform] {s : Server β} {p : Nat} {type : UInt32} {bytes : AString}
    (h : overlong (s.relay p type bytes).toList = true) :
    ∃ x, s.relay p type bytes = some x ∧ 65536 < x.2.body.length := by
  obtain ⟨x, hx, hlong⟩ := List.any_eq_true.mp h
  exact ⟨x, Option.mem_toList.mp hx, of_decide_eq_true hlong⟩

theorem act_modify {s : Server Fifo} {p : Nat} {f : ClientHandle Fifo → Except Halt (ClientHandle Fifo)}
    {g : ClientHandle Fifo → ClientHandle Fifo} (h : f (s.heap p) = .ok (g (s.heap p))) :
    s.act p f = .ok (s.modify p g) := act_change h

theorem kick_modify {s : Server Fifo} (hs : s.Sound) (p : Nat) (reason : Int32) :
    s.act p (ClientHandle.sendDisconnect reason) = .ok (s.modify p (ClientHandle.disconnect reason)) :=
  act_modify (ClientHandle.sendDisconnect_ok (hs.connections p) reason)

theorem statusRequested_eq {s : Server Fifo} (hs : s.Sound) (p : Nat)
    (request : AString × AString × Int32 × Int32) :
    statusRequested p request s = .ok (s.modify p (answered request)) := by
  unfold statusRequested
  split
  next hbad =>
    have hno : ¬accepts request := fun h => accepts_iff.mp h hbad
    refine (kick_modify hs p errorCodeBadApp).trans (congrArg Except.ok ?_)
    simp only [modify, answered, if_neg hno]
  next hgood =>
    have hyes : accepts request := accepts_iff.mpr hgood
    have hc := (hs.connections p).setProtocolState request.2.2.2.toUInt32
    have hip := (hs.connections p).ip
    have hbody : (⟨0x00, [.beInt32 request.2.2.2.toUInt32.toInt32, .string (s.heap p).ipString]⟩ :
        Packet).body.length ≤ 65536 := by
      refine (body_length_le _).trans ?_
      simp only [List.map_cons, List.map_nil, List.sum_cons, List.sum_nil, Field.bound]
      omega
    have hself : (s.modify p (ClientHandle.setProtocolState request.2.2.2.toUInt32)).heap p =
        (s.heap p).setProtocolState request.2.2.2.toUInt32 := if_pos rfl
    rw [act, hself]
    change (do
      let c ← ((s.heap p).setProtocolState request.2.2.2.toUInt32).packet
        ⟨0x00, [.beInt32 request.2.2.2.toUInt32.toInt32, .string (s.heap p).ipString]⟩
      .ok ((s.modify p (ClientHandle.setProtocolState request.2.2.2.toUInt32)).store p c)) = _
    rw [ClientHandle.packet_queue hc hbody]
    refine congrArg Except.ok (heap_ext (fun q => ?_) rfl)
    rw [store_heap, modify_heap, modify_heap, answered, if_pos hyes]
    split
    next => rfl
    next => rfl

theorem unknownPacket_eq {s : Server Fifo} (hs : s.Sound) (p : Nat) (packetType : UInt32) (bb : Fifo) :
    unknownPacket p packetType bb s = .ok (false, bb, s.refused p) := by
  change (do let s ← s.act p (ClientHandle.sendDisconnect errorCodePacketUnknown); .ok (false, bb, s)) = _
  rw [kick_modify hs]
  rfl

theorem pong_length (timestamp : Int64) :
    (⟨0x01, [.beInt64 timestamp]⟩ : Packet).body.length ≤ 65536 := by
  refine (body_length_le _).trans ?_
  simp only [List.map_cons, List.map_nil, List.sum_cons, List.sum_nil, Field.bound]
  omega

variable [Platform]

section Cases

variable {s : Server Fifo} {p : Nat} {bb : Fifo} {packetType : UInt32}

theorem status_eq (hs : s.Sound) (hstate : (s.heap p).protocol.state = 1) :
    dispatchPacket p bb packetType s = .ok (knows (s.heap p).protocol.state packetType,
      bb.advance (reads (s.heap p).protocol.state packetType bb.unread).2,
      s.reacted p packetType bb.unread) := by
  rw [dispatchPacket_status hstate, knows, reads, reacted, if_pos hstate, if_pos hstate, if_pos hstate]
  split
  next h =>
    rw [h, beq_self_eq_true, Bool.true_or]
    exact handling_ok readStatusRequest_reads fun request _ => statusRequested_eq hs p request
  next h0 =>
    split
    next h =>
      rw [h, beq_self_eq_true, Bool.or_true]
      exact handling_ok readBEInt64_reads fun timestamp _ =>
        act_queue (hs.connections p) (pong_length timestamp)
    next h1 =>
      rw [unknownPacket_eq hs, beq_eq_false_iff_ne.mpr h0, beq_eq_false_iff_ne.mpr h1,
        Fifo.advance_zero]
      rfl

theorem login_eq (hs : s.Sound) (hstate : (s.heap p).protocol.state = 2) :
    dispatchPacket p bb packetType s = .ok (knows (s.heap p).protocol.state packetType,
      bb.advance (reads (s.heap p).protocol.state packetType bb.unread).2,
      s.reacted p packetType bb.unread) := by
  have hone : (s.heap p).protocol.state ≠ 1 := by
    rw [hstate]
    decide
  rw [dispatchPacket_login hstate, knows, reads, reacted, if_neg hone, if_pos hstate, if_neg hone,
    if_pos hstate, if_neg hone, if_pos hstate]
  split
  next h =>
    rw [h, beq_self_eq_true]
    exact handling_ok readLoginInfo_reads fun _ _ => rfl
  next h0 =>
    rw [unknownPacket_eq hs, beq_eq_false_iff_ne.mpr h0, Fifo.advance_zero]

theorem work_eq (hs : s.Sound) (hstate : (s.heap p).protocol.state = 3)
    (hshort : ∀ x, s.relay p packetType bb.unread = some x → x.2.body.length ≤ 65536) :
    dispatchPacket p bb packetType s = .ok (knows (s.heap p).protocol.state packetType,
      bb.advance (reads (s.heap p).protocol.state packetType bb.unread).2,
      s.reacted p packetType bb.unread) := by
  have hone : (s.heap p).protocol.state ≠ 1 := by
    rw [hstate]
    decide
  have htwo : (s.heap p).protocol.state ≠ 2 := by
    rw [hstate]
    decide
  rw [dispatchPacket_work hstate, knows, reads, reacted, if_neg hone, if_neg htwo, if_pos hstate,
    if_neg hone, if_neg htwo, if_pos hstate, if_neg hone, if_neg htwo, if_pos hstate]
  have hmedia : ∀ (id : UInt32) (pkt : Packet), (∀ q, s.findClient id = some q →
      pkt.body.length ≤ 65536) → relayTo ((s.findClient id).map fun q => (q, pkt)) s =
        .ok (((s.findClient id).map fun q => (q, pkt)).elim s fun x => s.tell x.1 x.2) := by
    intro id pkt hpkt
    rcases hfind : s.findClient id with _ | q
    · rfl
    · exact act_queue (hs.connections q) (hpkt q hfind)
  have hrelay : ∀ {α : Type} (r : Option α) (f : α → Option (Nat × Packet)) (g : Nat × Packet → Server Fifo),
      (r.bind f).elim s g = r.elim s fun a => (f a).elim s g := by
    intro α r f g
    rcases r with _ | a
    · rfl
    · rfl
  split
  next h =>
    rw [h, beq_self_eq_true, Bool.true_or, Bool.true_or]
    exact handling_ok readVarInt32_reads fun _ _ => rfl
  next h0 =>
    split
    next h =>
      subst h
      rw [beq_self_eq_true, Bool.or_true, Bool.true_or, if_pos (Or.inl rfl)]
      rw [relay, if_pos hstate, if_pos rfl] at hshort ⊢
      rw [hrelay]
      refine handling_ok readMedia_reads fun media hmem => ?_
      rw [forwardMedia_eq]
      refine hmedia _ _ fun q hq => hshort (q, _) ?_
      rw [hmem, Option.bind_some, hq]
      rfl
    next h11 =>
      split
      next h =>
        subst h
        rw [beq_self_eq_true, Bool.or_true, if_pos (Or.inr rfl)]
        rw [relay, if_pos hstate, if_neg h11, if_pos rfl] at hshort ⊢
        rw [hrelay]
        refine handling_ok readMediaMsg_reads fun media hmem => ?_
        rw [forwardMediaMsg_eq]
        refine hmedia _ _ fun q hq => hshort (q, _) ?_
        rw [hmem, Option.bind_some, hq]
        rfl
      next h12 =>
        rw [unknownPacket_eq hs, beq_eq_false_iff_ne.mpr h0, beq_eq_false_iff_ne.mpr h11,
          beq_eq_false_iff_ne.mpr h12, Fifo.advance_zero, if_neg (not_or.mpr ⟨h11, h12⟩)]
        rfl

/-- What `HandlePacket` answers, how far it reads, and what comes of it, but for a relay that is too
long. -/
theorem handlePacket_eq (hs : s.Sound)
    (hshort : ∀ x, s.relay p packetType bb.unread = some x → x.2.body.length ≤ 65536) :
    handlePacket p bb packetType s = .ok (knows (s.heap p).protocol.state packetType,
      bb.advance (reads (s.heap p).protocol.state packetType bb.unread).2,
      (s.handled p packetType bb.unread).reacted p packetType bb.unread) := by
  have hself := handled_self p packetType bb.unread s
  have hstate : ((s.handled p packetType bb.unread).heap p).protocol.state =
      (s.heap p).protocol.state := by
    rw [hself]
    rfl
  have hs' : (s.handled p packetType bb.unread).Sound := by
    refine ⟨fun q => ?_, hs.requests, hs.nodup, hs.allocated⟩
    rw [handled, modify_heap]
    split
    next => exact (hs.connections p).record _
    next => exact hs.connections q
  rw [← hstate]
  change dispatchPacket p bb packetType (s.handled p packetType bb.unread) = _
  by_cases h1 : ((s.handled p packetType bb.unread).heap p).protocol.state = 1
  · exact status_eq hs' h1
  · by_cases h2 : ((s.handled p packetType bb.unread).heap p).protocol.state = 2
    · exact login_eq hs' h2
    · by_cases h3 : ((s.handled p packetType bb.unread).heap p).protocol.state = 3
      · refine work_eq hs' h3 fun x hx => hshort x ?_
        have hids : ∀ q, ((s.handled p packetType bb.unread).heap q).uniqueID = (s.heap q).uniqueID := by
          intro q
          rw [handled, modify_heap]
          split
          next heq =>
            rw [heq]
            rfl
          next => rfl
        have hclients : (s.handled p packetType bb.unread).clients = s.clients := rfl
        rw [← hx]
        exact (relay_same hclients hids hstate packetType bb.unread).symm
      · rw [dispatchPacket, knows, reads, reacted]
        simp only [if_neg h1, if_neg h2, if_neg h3]
        rw [Fifo.advance_zero]
        split
        next => rfl
        next => rfl

/-- What the loop leaves behind a packet. -/
def treated (p : Nat) (type : UInt32) (bytes : AString) (s : Server Fifo) : Server Fifo :=
  if knows (s.heap p).protocol.state type = true ∧
      (reads (s.heap p).protocol.state type bytes).2 + 1 ≠ bytes.length then
    ((s.handled p type bytes).reacted p type bytes).modify p
      (ClientHandle.disconnect errorCodePacketError)
  else (s.handled p type bytes).reacted p type bytes

/-- The call, and the check behind it, come to this, but for a relay that is too long. -/
theorem handleFrame_eq (hs : s.Sound) (hlive : (s.heap p).state.toNat < 4)
    (hlen : bb.unread.length ≤ 65536)
    (hshort : ∀ x, s.relay p packetType bb.unread = some x → x.2.body.length ≤ 65536) :
    (endpoint p).handleFrame packetType bb s =
        .ok (knows (s.heap p).protocol.state packetType, s.treated p packetType bb.unread) ∧
      ReflTransGen (Small Gate.open p) s (s.treated p packetType bb.unread) ∧
        ((s.treated p packetType bb.unread).heap p).protocol.receivedData =
          (s.heap p).protocol.receivedData := by
  obtain ⟨bb', s', hok, hleads⟩ := handlePacket_returns hs hlive (G := Gate.open) hlen
    fun x hx => ⟨hshort x hx, rfl⟩
  have heq := handlePacket_eq hs hshort
  have hafter : s' = (s.handled p packetType bb.unread).reacted p packetType bb.unread :=
    congrArg (fun r => r.2.2) (Except.ok.inj (hok.symm.trans heq))
  rw [hafter] at hleads
  have hkick := kick_modify (sound_of_small hs hleads.small) p errorCodePacketError
  have hspace : getReadableSpace (bb.advance (reads (s.heap p).protocol.state packetType bb.unread).2) ≠ 1 ↔
      (reads (s.heap p).protocol.state packetType bb.unread).2 + 1 ≠ bb.unread.length := by
    have hleft : getReadableSpace (bb.advance (reads (s.heap p).protocol.state packetType bb.unread).2) =
        bb.unread.length - (reads (s.heap p).protocol.state packetType bb.unread).2 := by
      rw [← List.length_drop]
      rfl
    rw [hleft]
    omega
  have hframe : (endpoint p).handleFrame packetType bb s = (do
      if !(knows (s.heap p).protocol.state packetType) then
        .ok (false, (s.handled p packetType bb.unread).reacted p packetType bb.unread)
      else do
        let s ← (endpoint p).checkLength packetType
          (bb.advance (reads (s.heap p).protocol.state packetType bb.unread).2)
          ((s.handled p packetType bb.unread).reacted p packetType bb.unread)
        .ok (true, s)) := by
    unfold Endpoint.handleFrame
    change (do
      let (understood, bb, s) ← handlePacket p bb packetType s
      _) = _
    rw [heq]
    rfl
  rw [hframe]
  rcases hknown : knows (s.heap p).protocol.state packetType with _ | _
  · have htreated : s.treated p packetType bb.unread =
        (s.handled p packetType bb.unread).reacted p packetType bb.unread := by
      rw [treated, hknown, if_neg (fun h => Bool.noConfusion h.1)]
    rw [htreated]
    exact ⟨rfl, hleads.small, hleads.received⟩
  · simp only [Bool.not_true, Bool.false_eq_true, if_false, Endpoint.checkLength, bne_iff_ne, hspace]
    split
    next hwrong =>
      rw [treated, if_pos ⟨hknown, hwrong⟩]
      refine ⟨?_, hleads.small.tail (.change (.disconnect _)), ?_⟩
      · change (do
          let s ← ((s.handled p packetType bb.unread).reacted p packetType bb.unread).act p
            (ClientHandle.sendDisconnect errorCodePacketError)
          .ok (true, s)) = _
        rw [hkick]
        rfl
      · rw [modify_heap, if_pos rfl, ClientHandle.disconnect_eq]
        exact hleads.received
    next hright =>
      rw [treated, if_neg (fun h => hright h.2)]
      exact ⟨rfl, hleads.small, hleads.received⟩

end Cases

end Server

end P2PChat

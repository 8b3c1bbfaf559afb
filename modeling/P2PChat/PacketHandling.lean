import P2PChat.ServerEffects

namespace P2PChat

open ByteQueue Relation

namespace Server

theorem findClient_congr {β γ : Type} {s : Server β} {s' : Server γ} (hc : s'.clients = s.clients)
    (hid : ∀ q, (s'.heap q).uniqueID = (s.heap q).uniqueID) (id : UInt32) :
    s'.findClient id = s.findClient id := by
  unfold findClient
  rw [hc]
  simp only [hid]

theorem tell_received (q : Nat) (pkt : Packet) (s : Server Fifo) (p : Nat) :
    ((s.tell q pkt).heap p).protocol.receivedData = (s.heap p).protocol.receivedData := by
  rcases eq_or_ne p q with rfl | hne
  · rw [tell_self, ClientHandle.queue_protocol]
  · rw [tell_other hne]

theorem act_change {s : Server Fifo} {p : Nat} {f : ClientHandle Fifo → Except Halt (ClientHandle Fifo)}
    {c : ClientHandle Fifo} (h : f (s.heap p) = .ok c) : s.act p f = .ok (s.store p c) := by
  rw [act, h]
  rfl

theorem statusState {v : Int32} (h : ¬(v < 1 ∨ 2 < v)) : v.toUInt32 = 1 ∨ v.toUInt32 = 2 := by
  have hone : v = 1 ∨ v = 2 := by
    have h1 : (1 : Int32) ≤ v := by
      have := fun hlt => h (Or.inl hlt)
      exact Int32.not_lt.mp this
    have h2 : v ≤ (2 : Int32) := by
      have := fun hlt => h (Or.inr hlt)
      exact Int32.not_lt.mp this
    rw [Int32.le_iff_toInt_le] at h1 h2
    have e1 : (1 : Int32).toInt = 1 := rfl
    have e2 : (2 : Int32).toInt = 2 := rfl
    rw [e1] at h1
    rw [e2] at h2
    have hv : v.toInt = 1 ∨ v.toInt = 2 := by omega
    rcases hv with hv | hv
    · exact Or.inl (Int32.toInt_inj.mp (hv.trans e1.symm))
    · exact Or.inr (Int32.toInt_inj.mp (hv.trans e2.symm))
  rcases hone with rfl | rfl
  · exact Or.inl rfl
  · exact Or.inr rfl

/-- The call of `HandlePacket` is on record. -/
def handled (p : Nat) (packetType : UInt32) (bytes : AString) (s : Server Fifo) : Server Fifo :=
  s.modify p fun c => c.record (.handled c.protocol.state packetType bytes)

theorem handled_self (p : Nat) (packetType : UInt32) (bytes : AString) (s : Server Fifo) :
    (s.handled p packetType bytes).heap p =
      (s.heap p).record (.handled (s.heap p).protocol.state packetType bytes) := if_pos rfl

/-- What becomes of a relay. -/
def relayTo (relay : Option (Nat × Packet)) (s : Server Fifo) : Except Halt (Server Fifo) :=
  match relay with
  | none => .ok s
  | some x => s.act x.1 (ClientHandle.packet x.2)

theorem forwardMedia_eq (to_id from_id type : UInt32) (s : Server Fifo) :
    s.forwardMedia to_id from_id type =
      relayTo ((s.findClient to_id).map fun q => (q, mediaPacket from_id type)) s := by
  unfold forwardMedia relayTo
  rcases s.findClient to_id with _ | q
  · rfl
  · rfl

theorem forwardMediaMsg_eq (to_id from_id : UInt32) (msg : AString) (s : Server Fifo) :
    s.forwardMediaMsg to_id from_id msg =
      relayTo ((s.findClient to_id).map fun q => (q, mediaMsgPacket from_id msg)) s := by
  unfold forwardMediaMsg relayTo
  rcases s.findClient to_id with _ | q
  · rfl
  · rfl

variable [Platform]

theorem relay_same {s s' : Server Fifo} {p : Nat} (hc : s'.clients = s.clients)
    (hid : ∀ q, (s'.heap q).uniqueID = (s.heap q).uniqueID)
    (hstate : (s'.heap p).protocol.state = (s.heap p).protocol.state) (type : UInt32)
    (bytes : AString) : s'.relay p type bytes = s.relay p type bytes := by
  unfold relay
  simp only [findClient_congr hc hid, hid, hstate]

theorem relay_congr {s s' : Server Fifo} {p : Nat} (h : Framed p s s') (type : UInt32)
    (bytes : AString) : s'.relay p type bytes = s.relay p type bytes := by
  unfold relay
  simp only [findClient_congr h.clients h.uniqueID, h.uniqueID, h.working]

theorem relay_passes {G : Gate} {s s' : Server Fifo} {p : Nat} (h : Framed p s s')
    {type : UInt32} {bytes : AString} {x : Nat × Packet} (hx : s.relay p type bytes = some x)
    (hpass : G.passes (s.heap x.1) x.2) : G.passes (s'.heap x.1) x.2 := by
  by_cases hp : x.1 = p
  · have hstate : (s'.heap x.1).protocol.state = 3 := by
      rw [hp, h.working]
      by_contra hne
      rw [relay, if_neg hne] at hx
      cases hx
    unfold Gate.passes
    rw [hstate]
    exact G.working _ _ _
  · obtain ⟨told, htold⟩ := h.others x.1 hp
    rw [htold, Gate.passes_queueAll]
    exact hpass

theorem relay_shape {s : Server Fifo} {p : Nat} {type : UInt32} {bytes : AString} {x : Nat × Packet}
    (hx : s.relay p type bytes = some x) : (s.heap p).protocol.state = 3 ∧
      ((∃ id t, x.2 = mediaPacket id t) ∨ (∃ id msg, x.2 = mediaMsgPacket id msg)) := by
  unfold relay at hx
  split at hx
  next hstate =>
    refine ⟨hstate, ?_⟩
    split at hx
    next =>
      obtain ⟨media, _, hx⟩ := Option.bind_eq_some_iff.mp hx
      obtain ⟨q, _, hx⟩ := Option.map_eq_some_iff.mp hx
      rw [← hx]
      exact Or.inl ⟨_, _, rfl⟩
    next =>
      split at hx
      next =>
        obtain ⟨media, _, hx⟩ := Option.bind_eq_some_iff.mp hx
        obtain ⟨q, _, hx⟩ := Option.map_eq_some_iff.mp hx
        rw [← hx]
        exact Or.inr ⟨_, _, rfl⟩
      next => cases hx
  next => cases hx

/-- Small effects that leave the receive buffer alone. -/
structure Leads (G : Gate) (p : Nat) (s s' : Server Fifo) : Prop where
  small : ReflTransGen (Small G p) s s'
  received : (s'.heap p).protocol.receivedData = (s.heap p).protocol.receivedData

theorem Leads.refl (G : Gate) (p : Nat) (s : Server Fifo) : Leads G p s s := ⟨.refl, rfl⟩

theorem Leads.change {G : Gate} {p : Nat} {s : Server Fifo} {c : ClientHandle Fifo}
    (h : ClientHandle.Change (s.heap p) c)
    (hr : c.protocol.receivedData = (s.heap p).protocol.receivedData) : Leads G p s (s.store p c) :=
  ⟨.single (.change h), by rw [store_heap, if_pos rfl, hr]⟩

/-- A call that returns, with this answer, after what small effects come to. -/
def Returns (G : Gate) (p : Nat) (s : Server Fifo) (understood : Bool)
    (r : Except Halt (Bool × Fifo × Server Fifo)) : Prop :=
  ∃ bb' s', r = .ok (understood, bb', s') ∧ Leads G p s s'

theorem kick_ok {s : Server Fifo} (hs : s.Sound) {G : Gate} (p : Nat) (reason : Int32) :
    ∃ s', s.act p (ClientHandle.sendDisconnect reason) = .ok s' ∧ Leads G p s s' :=
  ⟨_, act_change (ClientHandle.sendDisconnect_ok (hs.connections p) reason),
    .change (.disconnect reason) (by rw [ClientHandle.disconnect_eq])⟩

theorem unknownPacket_returns {s : Server Fifo} (hs : s.Sound) (G : Gate) (p : Nat)
    (packetType : UInt32) (bb : Fifo) :
    Returns G p s false (unknownPacket p packetType bb s) := by
  obtain ⟨s', hact, hsmall⟩ := kick_ok hs (G := G) p errorCodePacketUnknown
  refine ⟨bb, s', ?_, hsmall⟩
  change (do let s ← s.act p (ClientHandle.sendDisconnect errorCodePacketUnknown); .ok (false, bb, s)) = _
  rw [hact]
  rfl

/-- The handler returns `true` if what it does after a successful read does. -/
theorem handling_returns {α : Type} {r : Reader Fifo α} {parse : Parser α} (hr : Reads r parse)
    {act : α → Server Fifo → Except Halt (Server Fifo)} {bb : Fifo} {s : Server Fifo} {G : Gate} {p : Nat}
    (hact : ∀ a, (parse bb.unread).1 = some a →
      ∃ s', act a s = .ok s' ∧ Leads G p s s') :
    Returns G p s true (handling r act bb s) := by
  rw [handling_eq hr]
  split
  next h => exact ⟨bb.advance (parse bb.unread).2, s, rfl, .refl G p s⟩
  next a h =>
    obtain ⟨s', hok, hsmall⟩ := hact a h
    refine ⟨bb.advance (parse bb.unread).2, s', ?_, hsmall⟩
    rw [hok]
    rfl

theorem statusRequested_ok {s : Server Fifo} (hs : s.Sound) {G : Gate} {p : Nat}
    (hlive : (s.heap p).state.toNat < 4) (hstate : (s.heap p).protocol.state = 1)
    (request : AString × AString × Int32 × Int32) :
    ∃ s', statusRequested p request s = .ok s' ∧ Leads G p s s' := by
  unfold statusRequested
  split
  next => exact kick_ok hs p errorCodeBadApp
  next h =>
    have hnew := statusState (fun hbad => h (Or.inr hbad))
    have hc := (hs.connections p).setProtocolState request.2.2.2.toUInt32
    have hip := (hs.connections p).ip
    have hbody : (⟨0x00, [.beInt32 request.2.2.2.toUInt32.toInt32, .string (s.heap p).ipString]⟩ :
        Packet).body.length ≤ 65536 := by
      refine (body_length_le _).trans ?_
      simp only [List.map_cons, List.map_nil, List.sum_cons, List.sum_nil, Field.bound]
      omega
    have hchange := ClientHandle.Change.status (c := s.heap p) request.2.2.2.toUInt32 hlive hstate hnew
    refine ⟨s.store p (((s.heap p).setProtocolState request.2.2.2.toUInt32).queue
      ⟨0x00, [.beInt32 request.2.2.2.toUInt32.toInt32, .string (s.heap p).ipString]⟩), ?_,
      .change hchange (by rw [ClientHandle.queue_eq]; rfl)⟩
    have hself : (s.modify p (ClientHandle.setProtocolState request.2.2.2.toUInt32)).heap p =
        (s.heap p).setProtocolState request.2.2.2.toUInt32 := if_pos rfl
    rw [act, hself]
    change (do
      let c ← ((s.heap p).setProtocolState request.2.2.2.toUInt32).packet
        ⟨0x00, [.beInt32 request.2.2.2.toUInt32.toInt32, .string (s.heap p).ipString]⟩
      .ok ((s.modify p (ClientHandle.setProtocolState request.2.2.2.toUInt32)).store p c)) = _
    rw [ClientHandle.packet_queue hc hbody]
    refine congrArg Except.ok (heap_ext (fun q => ?_) rfl)
    rw [store_heap, store_heap, modify_heap]
    split
    next => rfl
    next => rfl

theorem handled_small {s : Server Fifo} {G : Gate} {p : Nat} (hlive : (s.heap p).state.toNat < 4)
    (packetType : UInt32) (bytes : AString) :
    Small G p s (s.handled p packetType bytes) := .change (.handled packetType bytes hlive)

section Cases

variable {s : Server Fifo} {p : Nat} {bb : Fifo} {packetType : UInt32}

theorem dispatchPacket_status (h : (s.heap p).protocol.state = 1) :
    dispatchPacket p bb packetType s =
      if packetType = 0x00 then handlePacketStatusRequest p bb s
      else if packetType = 0x01 then handlePacketStatusPing p bb s
      else unknownPacket p packetType bb s := if_pos h

theorem dispatchPacket_login (h : (s.heap p).protocol.state = 2) :
    dispatchPacket p bb packetType s =
      if packetType = 0x00 then handlePacketLoginInfo p bb s
      else unknownPacket p packetType bb s := by
  rw [dispatchPacket, if_neg (by rw [h]; decide), if_pos h]

theorem dispatchPacket_work (h : (s.heap p).protocol.state = 3) :
    dispatchPacket p bb packetType s =
      if packetType = 0x00 then handlePacketKeepAlive p bb s
      else if packetType = 0x11 then handlePacketMedia p bb s
      else if packetType = 0x12 then handlePacketMediaMsg p bb s
      else unknownPacket p packetType bb s := by
  rw [dispatchPacket, if_neg (by rw [h]; decide), if_neg (by rw [h]; decide), if_pos h]

/-- A media packet sends what `relay` says, to the connection it says. -/
theorem dispatchPacket_relay (bb : Fifo) (hstate : (s.heap p).protocol.state = 3)
    (htype : packetType = 0x11 ∨ packetType = 0x12) :
    ∃ bb', dispatchPacket p bb packetType s =
      (relayTo (s.relay p packetType bb.unread) s).map fun s => (true, bb', s) := by
  rw [dispatchPacket_work hstate]
  rcases htype with rfl | rfl
  · refine ⟨bb.advance (parseMedia bb.unread).2, ?_⟩
    rw [if_neg (by decide), if_pos rfl, handlePacketMedia, handling_eq readMedia_reads, relay,
      if_pos hstate, if_pos rfl]
    rcases (parseMedia bb.unread).1 with _ | media
    · rfl
    · simp only [Option.bind_some, forwardMedia_eq]
  · refine ⟨bb.advance (parseMediaMsg bb.unread).2, ?_⟩
    rw [if_neg (by decide), if_neg (by decide), if_pos rfl, handlePacketMediaMsg,
      handling_eq readMediaMsg_reads, relay, if_pos hstate, if_neg (by decide), if_pos rfl]
    rcases (parseMediaMsg bb.unread).1 with _ | media
    · rfl
    · simp only [Option.bind_some, forwardMediaMsg_eq]

theorem relay_none (h : packetType ≠ 0x11) (h' : packetType ≠ 0x12) (bytes : AString) :
    s.relay p packetType bytes = none := by
  unfold relay
  rw [if_neg h, if_neg h', ite_self]

theorem status_returns (hs : s.Sound) (G : Gate) (hlive : (s.heap p).state.toNat < 4)
    (hstate : (s.heap p).protocol.state = 1) :
    Returns G p s (packetType == 0x00 || packetType == 0x01) (dispatchPacket p bb packetType s) := by
  rw [dispatchPacket_status hstate]
  split
  next h =>
    rw [h]
    exact handling_returns readStatusRequest_reads
      fun request _ => statusRequested_ok hs hlive hstate request
  next h0 =>
    split
    next h =>
      have hbody : ∀ timestamp, (⟨0x01, [.beInt64 timestamp]⟩ : Packet).body.length ≤ 65536 := by
        intro timestamp
        refine (body_length_le _).trans ?_
        simp only [List.map_cons, List.map_nil, List.sum_cons, List.sum_nil, Field.bound]
        omega
      rw [h]
      exact handling_returns ((readBE_reads 8).map _) fun timestamp _ =>
        ⟨_, act_queue (hs.connections p) (hbody timestamp),
          .change (.pong timestamp hstate) (by rw [ClientHandle.queue_eq])⟩
    next h1 =>
      rw [beq_eq_false_iff_ne.mpr h0, beq_eq_false_iff_ne.mpr h1]
      exact unknownPacket_returns hs G p packetType bb

theorem login_returns (hs : s.Sound) (G : Gate) (hlive : (s.heap p).state.toNat < 4)
    (hstate : (s.heap p).protocol.state = 2) (hlen : bb.unread.length ≤ 65536)
    (hrecord : .handled 2 packetType bb.unread ∈ (s.heap p).log) :
    Returns G p s (packetType == 0x00) (dispatchPacket p bb packetType s) := by
  rw [dispatchPacket_login hstate]
  split
  next h =>
    rw [h] at hrecord ⊢
    exact handling_returns readLoginInfo_reads fun login hlogin =>
      ⟨_, rfl, .single (.request hlive hstate hlen hrecord hlogin), by
        rw [handleLogin, modify_heap, if_pos rfl]; rfl⟩
  next h0 =>
    rw [beq_eq_false_iff_ne.mpr h0]
    exact unknownPacket_returns hs G p packetType bb

omit [Platform] in
theorem keepAlive_change (pingID : UInt32) (now : Int) (c : ClientHandle Fifo) :
    ClientHandle.Change c (c.handleKeepAlive pingID now) := by
  refine .quiet ?_
  unfold ClientHandle.handleKeepAlive
  split
  next => exact ⟨rfl, rfl, rfl, rfl, rfl, Or.inl rfl, rfl, rfl, rfl, rfl, id, rfl, rfl⟩
  next => exact ⟨rfl, rfl, rfl, rfl, rfl, Or.inl rfl, rfl, rfl, rfl, rfl, id, rfl, rfl⟩

theorem work_returns (hs : s.Sound) {G : Gate} (hstate : (s.heap p).protocol.state = 3)
    (hrelay : ∀ x, s.relay p packetType bb.unread = some x →
      x.2.body.length ≤ 65536 ∧ G.passes (s.heap x.1) x.2) :
    Returns G p s (packetType == 0x00 || packetType == 0x11 || packetType == 0x12)
      (dispatchPacket p bb packetType s) := by
  by_cases hmedia : packetType = 0x11 ∨ packetType = 0x12
  · have hyes : (packetType == 0x00 || packetType == 0x11 || packetType == 0x12) = true := by
      rcases hmedia with rfl | rfl <;> decide
    obtain ⟨bb', hdispatch⟩ := dispatchPacket_relay bb hstate hmedia
    rw [hyes, hdispatch]
    rcases hx : s.relay p packetType bb.unread with _ | x
    · exact ⟨bb', s, rfl, .refl G p s⟩
    · obtain ⟨hbody, hpass⟩ := hrelay x hx
      refine ⟨bb', s.tell x.1 x.2, ?_, .single (.relayed hstate (relay_shape hx).2 hbody hpass),
        tell_received x.1 x.2 s p⟩
      rw [relayTo, act_queue (hs.connections x.1) hbody]
      rfl
  · obtain ⟨h11, h12⟩ := not_or.mp hmedia
    rw [dispatchPacket_work hstate, beq_eq_false_iff_ne.mpr h11, beq_eq_false_iff_ne.mpr h12,
      Bool.or_false, Bool.or_false]
    split
    next h =>
      rw [h]
      exact handling_returns readVarInt32_reads fun id _ =>
        ⟨_, rfl, .change (keepAlive_change id s.now (s.heap p)) (by
          unfold ClientHandle.handleKeepAlive; split <;> rfl)⟩
    next h0 =>
      rw [beq_eq_false_iff_ne.mpr h0]
      exact unknownPacket_returns hs G p packetType bb

/-- `HandlePacket` comes to small effects, and answers whether the `switch` has the type, unless it
has to relay a packet that is too long. -/
theorem handlePacket_returns (hs : s.Sound) {G : Gate} (hlive : (s.heap p).state.toNat < 4)
    (hlen : bb.unread.length ≤ 65536)
    (hrelay : ∀ x, s.relay p packetType bb.unread = some x →
      x.2.body.length ≤ 65536 ∧ G.passes (s.heap x.1) x.2) :
    Returns G p s (knows (s.heap p).protocol.state packetType) (handlePacket p bb packetType s) := by
  have hsmall := handled_small (G := G) hlive packetType bb.unread
  have hframed := hsmall.framed
  have hs' := hsmall.sound hs
  have hlive' := hframed.live.mpr hlive
  have hself := handled_self p packetType bb.unread s
  have hstate : ((s.handled p packetType bb.unread).heap p).protocol.state =
      (s.heap p).protocol.state := by
    rw [hself]
    rfl
  have hrecord : .handled (s.heap p).protocol.state packetType bb.unread ∈
      ((s.handled p packetType bb.unread).heap p).log := by
    rw [hself]
    exact List.mem_append_right _ (List.mem_singleton.mpr rfl)
  have hreturns : Returns G p (s.handled p packetType bb.unread)
      (knows (s.heap p).protocol.state packetType)
      (dispatchPacket p bb packetType (s.handled p packetType bb.unread)) := by
    by_cases h1 : (s.heap p).protocol.state = 1
    · rw [knows, if_pos h1]
      exact status_returns hs' G hlive' (hstate.trans h1)
    · by_cases h2 : (s.heap p).protocol.state = 2
      · rw [knows, if_neg h1, if_pos h2]
        rw [h2] at hrecord
        exact login_returns hs' G hlive' (hstate.trans h2) hlen hrecord
      · by_cases h3 : (s.heap p).protocol.state = 3
        · rw [knows, if_neg h1, if_neg h2, if_pos h3]
          refine work_returns hs' (hstate.trans h3) fun x hx => ?_
          rw [relay_congr hframed] at hx
          exact ⟨(hrelay x hx).1, relay_passes hframed hx (hrelay x hx).2⟩
        · rw [knows, if_neg h1, if_neg h2, if_neg h3, dispatchPacket, hstate, if_neg h1, if_neg h2,
            if_neg h3]
          split
          next => exact ⟨bb, _, rfl, .refl G p _⟩
          next =>
            rw [← hstate] at h1 h2 h3
            exact ⟨bb, _, rfl, .change (.lost hlive' h1 h2 h3) rfl⟩
  obtain ⟨bb', s', hok, hrest⟩ := hreturns
  refine ⟨bb', s', hok, hrest.small.head hsmall, ?_⟩
  rw [hrest.received, hself]
  rfl

/-- A relay of a packet that is too long ends the process. -/
theorem handlePacket_verify (hs : s.Sound) (hlive : (s.heap p).state.toNat < 4) {x : Nat × Packet}
    (hx : s.relay p packetType bb.unread = some x) (hlong : 65536 < x.2.body.length) :
    handlePacket p bb packetType s = .error .verify := by
  have hsmall := handled_small (G := Gate.open) hlive packetType bb.unread
  have hs' := hsmall.sound hs
  have hx' := (relay_congr hsmall.framed packetType bb.unread).trans hx
  have hmedia : packetType = 0x11 ∨ packetType = 0x12 := by
    by_contra hno
    obtain ⟨h11, h12⟩ := not_or.mp hno
    rw [relay_none h11 h12] at hx
    cases hx
  obtain ⟨bb', hdispatch⟩ := dispatchPacket_relay (s := s.handled p packetType bb.unread) bb
    ((hsmall.framed.working).mpr (relay_shape hx).1) hmedia
  change dispatchPacket p bb packetType (s.handled p packetType bb.unread) = _
  rw [hdispatch, hx', relayTo, act, ClientHandle.packet_verify (hs'.connections x.1) hlong]
  rfl

end Cases

end Server

end P2PChat

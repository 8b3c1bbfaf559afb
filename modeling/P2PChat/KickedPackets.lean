import P2PChat.StateAgreement

namespace P2PChat

open ByteQueue Relation

namespace Server

section Conditions

variable {β : Type} [Platform]

/-- The packet has an effect although its connection was sent a disconnect: it moves `m_State` on, it
asks for a login, or it is relayed to another connection that gets it. -/
def harmful (p : Nat) (type : UInt32) (bytes : AString) (s : Server β) : Bool :=
  if (s.heap p).protocol.state = 1 then
    type == 0x00 && (parseStatusRequest bytes).1.any fun request =>
      request.1 == appP2pchat && request.2.2.2 == 2
  else if (s.heap p).protocol.state = 2 then type == 0x00 && (parseLoginInfo bytes).1.isSome
  else (s.relay p type bytes).any fun x => x.1 != p && !(s.heap x.1).hasSentDC

/-- No packet that a tick of `p` handles has an effect. -/
def harmless [ByteQueue β] (p : Nat) (s : Server β) : Bool :=
  (s.arriving p).all fun packet => !s.harmful p packet.1 packet.2

/-- What the data of `p` must not change once it was sent a disconnect. -/
structure Unaffected (p : Nat) (s s' : Server β) : Prop where
  outgoing : ∀ q, q ≠ p → (s'.heap q).outgoingData = (s.heap q).outgoingData
  queue : s'.queue = s.queue
  username : (s'.heap p).username = (s.heap p).username
  state : (s'.heap p).state = (s.heap p).state
  protocolState : (s'.heap p).protocol.state = (s.heap p).protocol.state

end Conditions

/-- More than `Unaffected` asks for. -/
structure Idle (p : Nat) (s s' : Server Fifo) : Prop where
  clients : s'.clients = s.clients
  others : ∀ q, q ≠ p → s'.heap q = s.heap q
  queue : s'.queue = s.queue
  username : (s'.heap p).username = (s.heap p).username
  state : (s'.heap p).state = (s.heap p).state
  protocolState : (s'.heap p).protocol.state = (s.heap p).protocol.state
  hasSentDC : (s'.heap p).hasSentDC = (s.heap p).hasSentDC
  uniqueID : (s'.heap p).uniqueID = (s.heap p).uniqueID

/-- One of the changes that are not undone again. -/
def Harmed (p : Nat) (s s' : Server Fifo) : Prop :=
  s.queue.length < s'.queue.length ∨
    ((s.heap p).protocol.state = 1 ∧ (s'.heap p).protocol.state ≠ 1) ∨
    ∃ q, q ≠ p ∧ (s.heap q).outgoingData.length < (s'.heap q).outgoingData.length

theorem Idle.unaffected {p : Nat} {s s' : Server Fifo} (h : Idle p s s') : Unaffected p s s' where
  outgoing q hq := by rw [h.others q hq]
  queue := h.queue
  username := h.username
  state := h.state
  protocolState := h.protocolState

theorem Harmed.not_unaffected {p : Nat} {s s' : Server Fifo} (h : Harmed p s s') :
    ¬Unaffected p s s' := by
  intro hsame
  rcases h with hqueue | ⟨hone, hnot⟩ | ⟨q, hq, hlen⟩
  · rw [hsame.queue] at hqueue
    omega
  · exact hnot (hsame.protocolState.trans hone)
  · rw [hsame.outgoing q hq] at hlen
    omega

theorem Idle.refl (p : Nat) (s : Server Fifo) : Idle p s s :=
  ⟨rfl, fun _ _ => rfl, rfl, rfl, rfl, rfl, rfl, rfl⟩

theorem Idle.trans {p : Nat} {s s' s'' : Server Fifo} (h : Idle p s s') (h' : Idle p s' s'') :
    Idle p s s'' where
  clients := h'.clients.trans h.clients
  others q hq := (h'.others q hq).trans (h.others q hq)
  queue := h'.queue.trans h.queue
  username := h'.username.trans h.username
  state := h'.state.trans h.state
  protocolState := h'.protocolState.trans h.protocolState
  hasSentDC := h'.hasSentDC.trans h.hasSentDC
  uniqueID := h'.uniqueID.trans h.uniqueID

/-- A call on the connection itself that keeps what says who it is. -/
theorem Idle.store {p : Nat} {s : Server Fifo} {c : ClientHandle Fifo}
    (husername : c.username = (s.heap p).username) (hstate : c.state = (s.heap p).state)
    (hprotocol : c.protocol.state = (s.heap p).protocol.state)
    (hdc : c.hasSentDC = (s.heap p).hasSentDC) (hid : c.uniqueID = (s.heap p).uniqueID) :
    Idle p s (s.store p c) := by
  have hself : (s.store p c).heap p = c := if_pos rfl
  refine ⟨rfl, fun q hq => if_neg hq, rfl, ?_, ?_, ?_, ?_, ?_⟩ <;> rw [hself] <;> assumption

section Calls

/-- A kick of a connection that was kicked does nothing. -/
theorem kick_idle {s : Server Fifo} (hs : s.Sound) {p : Nat} (hdc : (s.heap p).hasSentDC = true)
    (reason : Int32) : ∃ s', s.act p (ClientHandle.sendDisconnect reason) = .ok s' ∧ Idle p s s' := by
  have hsame : (s.heap p).disconnect reason = s.heap p := by
    rw [ClientHandle.disconnect, if_pos hdc]
  refine ⟨_, act_change (ClientHandle.sendDisconnect_ok (hs.connections p) reason), ?_⟩
  rw [hsame]
  exact Idle.store rfl rfl rfl rfl rfl

/-- A packet to a connection that was kicked is composed, and goes nowhere. -/
theorem tell_kicked {s : Server Fifo} {q : Nat} (hdc : (s.heap q).hasSentDC = true) (pkt : Packet) :
    s.tell q pkt = s := by
  refine heap_ext (fun r => ?_) rfl
  rcases eq_or_ne r q with rfl | hr
  · rw [tell_self, ClientHandle.queue, if_pos hdc]
  · rw [tell_other hr]

/-- What a packet of a kicked connection has done. -/
def Outcome (p : Nat) (harm : Bool) (s s' : Server Fifo) : Prop :=
  if harm then Harmed p s s' else Idle p s s'

theorem Idle.outcome {p : Nat} {s s' : Server Fifo} (h : Idle p s s') : Outcome p false s s' := by
  rw [Outcome, if_neg (by decide)]
  exact h

theorem Harmed.outcome {p : Nat} {s s' : Server Fifo} (h : Harmed p s s') : Outcome p true s s' := by
  rw [Outcome, if_pos rfl]
  exact h

theorem Harmed.of_idle {p : Nat} {s s' s'' : Server Fifo} (h : Idle p s s') (h' : Harmed p s' s'') :
    Harmed p s s'' := by
  rcases h' with hqueue | ⟨hone, hnot⟩ | ⟨q, hq, hlen⟩
  · rw [h.queue] at hqueue
    exact Or.inl hqueue
  · rw [h.protocolState] at hone
    exact Or.inr (Or.inl ⟨hone, hnot⟩)
  · rw [h.others q hq] at hlen
    exact Or.inr (Or.inr ⟨q, hq, hlen⟩)

theorem Outcome.of_idle {p : Nat} {harm : Bool} {s s' s'' : Server Fifo} (h : Idle p s s')
    (h' : Outcome p harm s' s'') : Outcome p harm s s'' := by
  cases harm with
  | true => exact (Harmed.of_idle h h').outcome
  | false => exact (Idle.trans h h').outcome

/-- What a call on a kicked connection comes to. -/
def Reacts (s : Server Fifo) (R : Server Fifo → Server Fifo → Prop) (understood : Bool)
    (r : Except Halt (Bool × Fifo × Server Fifo)) : Prop :=
  r = .error .verify ∨ ∃ bb' s', r = .ok (understood, bb', s') ∧ R s s'

variable {s : Server Fifo} {p : Nat} {bb : Fifo} {packetType : UInt32}

theorem handling_reacts {α : Type} {r : Reader Fifo α} {parse : Parser α} (hr : Reads r parse)
    {act : α → Server Fifo → Except Halt (Server Fifo)} {R : Server Fifo → Server Fifo → Prop}
    (hnone : (parse bb.unread).1 = none → R s s)
    (hact : ∀ a, (parse bb.unread).1 = some a → ∃ s', act a s = .ok s' ∧ R s s') :
    Reacts s R true (handling r act bb s) := by
  rw [handling_eq hr]
  split
  next h => exact Or.inr ⟨bb.advance (parse bb.unread).2, s, rfl, hnone h⟩
  next a h =>
    obtain ⟨s', hok, hR⟩ := hact a h
    refine Or.inr ⟨bb.advance (parse bb.unread).2, s', ?_, hR⟩
    rw [hok]
    rfl

variable [Platform]

omit [Platform] in
theorem unknown_reacts (hs : s.Sound) (hdc : (s.heap p).hasSentDC = true) (packetType : UInt32)
    (bb : Fifo) : Reacts s (Outcome p false) false (unknownPacket p packetType bb s) := by
  obtain ⟨s', hact, hidle⟩ := kick_idle hs hdc errorCodePacketUnknown
  refine Or.inr ⟨bb, s', ?_, hidle.outcome⟩
  change (do let s ← s.act p (ClientHandle.sendDisconnect errorCodePacketUnknown); .ok (false, bb, s)) = _
  rw [hact]
  rfl

theorem harmful_congr {s s' : Server Fifo} (h : Idle p s s') (type : UInt32)
    (bytes : AString) : s'.harmful p type bytes = s.harmful p type bytes := by
  have hids : ∀ q, (s'.heap q).uniqueID = (s.heap q).uniqueID := by
    intro q
    rcases eq_or_ne q p with rfl | hq
    · exact h.uniqueID
    · rw [h.others q hq]
  have hdc : ∀ q, (s'.heap q).hasSentDC = (s.heap q).hasSentDC := by
    intro q
    rcases eq_or_ne q p with rfl | hq
    · exact h.hasSentDC
    · rw [h.others q hq]
  have hrelay := relay_same h.clients hids h.protocolState type bytes
  simp only [harmful, h.protocolState, hrelay, hdc]

theorem harmful_status (h : (s.heap p).protocol.state = 1) (type : UInt32) (bytes : AString) :
    s.harmful p type bytes = (type == 0x00 && (parseStatusRequest bytes).1.any fun request =>
      request.1 == appP2pchat && request.2.2.2 == 2) := if_pos h

theorem harmful_login (h : (s.heap p).protocol.state = 2) (type : UInt32) (bytes : AString) :
    s.harmful p type bytes = (type == 0x00 && (parseLoginInfo bytes).1.isSome) := by
  rw [harmful, if_neg (by rw [h]; decide), if_pos h]

theorem harmful_work (h : (s.heap p).protocol.state = 3) (type : UInt32) (bytes : AString) :
    s.harmful p type bytes =
      (s.relay p type bytes).any fun x => x.1 != p && !(s.heap x.1).hasSentDC := by
  rw [harmful, if_neg (by rw [h]; decide), if_neg (by rw [h]; decide)]

omit [Platform] in
/-- A status request moves a kicked connection on to the login, or does nothing. -/
theorem statusRequested_outcome (hs : s.Sound) (hdc : (s.heap p).hasSentDC = true)
    (hstate : (s.heap p).protocol.state = 1) (request : AString × AString × Int32 × Int32) :
    ∃ s', statusRequested p request s = .ok s' ∧
      Outcome p (request.1 == appP2pchat && request.2.2.2 == 2) s s' := by
  unfold statusRequested
  split
  next hbad =>
    have hno : (request.1 == appP2pchat && request.2.2.2 == 2) = false := by
      rw [Bool.and_eq_false_iff, beq_eq_false_iff_ne, beq_eq_false_iff_ne]
      rcases hbad with happ | hlow | hhigh
      · exact Or.inl happ
      · refine Or.inr fun htwo => ?_
        rw [htwo] at hlow
        exact absurd hlow (by decide)
      · refine Or.inr fun htwo => ?_
        rw [htwo] at hhigh
        exact absurd hhigh (by decide)
    obtain ⟨s', hact, hidle⟩ := kick_idle hs hdc errorCodeBadApp
    rw [hno]
    exact ⟨s', hact, hidle.outcome⟩
  next hgood =>
    have happ : request.1 = appP2pchat := by
      by_contra hne
      exact hgood (Or.inl hne)
    have hvalue := statusState (fun hbad => hgood (Or.inr hbad))
    have hc := (hs.connections p).setProtocolState request.2.2.2.toUInt32
    have hip := (hs.connections p).ip
    have hbody : (⟨0x00, [.beInt32 request.2.2.2.toUInt32.toInt32, .string (s.heap p).ipString]⟩ :
        Packet).body.length ≤ 65536 := by
      refine (body_length_le _).trans ?_
      simp only [List.map_cons, List.map_nil, List.sum_cons, List.sum_nil, Field.bound]
      omega
    have hmoved : (s.modify p (ClientHandle.setProtocolState request.2.2.2.toUInt32)).heap p =
        (s.heap p).setProtocolState request.2.2.2.toUInt32 := if_pos rfl
    have hquiet : ((s.modify p (ClientHandle.setProtocolState request.2.2.2.toUInt32)).heap
        p).hasSentDC = true := by
      rw [hmoved]
      exact hdc
    have hsound : ((s.modify p (ClientHandle.setProtocolState request.2.2.2.toUInt32)).heap p).Sound := by
      rw [hmoved]
      exact hc
    refine ⟨s.modify p (ClientHandle.setProtocolState request.2.2.2.toUInt32), ?_, ?_⟩
    · have hsent := (act_queue hsound hbody).trans (congrArg Except.ok (tell_kicked hquiet _))
      refine Eq.trans ?_ hsent
      rw [act, act, hmoved]
      rfl
    · rcases hvalue with hone | htwo
      · have hno : (request.1 == appP2pchat && request.2.2.2 == 2) = false := by
          rw [Bool.and_eq_false_iff, beq_eq_false_iff_ne, beq_eq_false_iff_ne]
          refine Or.inr fun htwo => ?_
          rw [htwo] at hone
          exact absurd hone (by decide)
        rw [hno]
        have hidle : Idle p s (s.store p ((s.heap p).setProtocolState request.2.2.2.toUInt32)) :=
          Idle.store rfl rfl (hone.trans hstate.symm) rfl rfl
        exact hidle.outcome
      · have hvalue : request.2.2.2 = 2 := by
          rw [← Int32.toInt32_toUInt32 request.2.2.2, htwo]
          rfl
        have hyes : (request.1 == appP2pchat && request.2.2.2 == 2) = true := by
          rw [happ, hvalue]
          decide
        rw [hyes]
        refine Harmed.outcome (Or.inr (Or.inl ⟨hstate, ?_⟩))
        rw [hmoved]
        change request.2.2.2.toUInt32 ≠ 1
        rw [htwo]
        decide

theorem status_kicked (hs : s.Sound) (hdc : (s.heap p).hasSentDC = true)
    (hstate : (s.heap p).protocol.state = 1) :
    Reacts s (Outcome p (s.harmful p packetType bb.unread)) (packetType == 0x00 || packetType == 0x01)
      (dispatchPacket p bb packetType s) := by
  rw [dispatchPacket_status hstate, harmful_status hstate]
  split
  next h =>
    rw [h, beq_self_eq_true, Bool.true_and]
    refine handling_reacts readStatusRequest_reads (fun hnone => ?_) (fun request hsome => ?_)
    · rw [hnone]
      exact (Idle.refl p s).outcome
    · rw [hsome]
      exact statusRequested_outcome hs hdc hstate request
  next h0 =>
    rw [beq_eq_false_iff_ne.mpr h0, Bool.false_and, Bool.false_or]
    split
    next h =>
      have hbody : ∀ timestamp, (⟨0x01, [.beInt64 timestamp]⟩ : Packet).body.length ≤ 65536 := by
        intro timestamp
        refine (body_length_le _).trans ?_
        simp only [List.map_cons, List.map_nil, List.sum_cons, List.sum_nil, Field.bound]
        omega
      rw [h]
      refine handling_reacts ((readBE_reads 8).map _) (fun _ => (Idle.refl p s).outcome)
        (fun timestamp _ => ⟨s, ?_, (Idle.refl p s).outcome⟩)
      exact (act_queue (hs.connections p) (hbody timestamp)).trans
        (congrArg Except.ok (tell_kicked hdc _))
    next h1 =>
      rw [beq_eq_false_iff_ne.mpr h1]
      exact unknown_reacts hs hdc packetType bb

theorem login_kicked (hs : s.Sound) (hdc : (s.heap p).hasSentDC = true)
    (hstate : (s.heap p).protocol.state = 2) :
    Reacts s (Outcome p (s.harmful p packetType bb.unread)) (packetType == 0x00)
      (dispatchPacket p bb packetType s) := by
  rw [dispatchPacket_login hstate, harmful_login hstate]
  split
  next h =>
    rw [h, beq_self_eq_true, Bool.true_and]
    refine handling_reacts readLoginInfo_reads (fun hnone => ?_) (fun login hsome => ?_)
    · rw [hnone]
      exact (Idle.refl p s).outcome
    · rw [hsome]
      refine ⟨_, rfl, Harmed.outcome (Or.inl ?_)⟩
      rw [handleLogin, List.length_append, List.length_singleton]
      exact Nat.lt_succ_self _
  next h0 =>
    rw [beq_eq_false_iff_ne.mpr h0, Bool.false_and]
    exact unknown_reacts hs hdc packetType bb

omit [Platform] in
/-- What a kicked connection sends to another one arrives there. -/
theorem relay_outcome (hs : s.Sound) (hdc : (s.heap p).hasSentDC = true) (x : Nat × Packet) :
    relayTo (some x) s = .error .verify ∨ ∃ s', relayTo (some x) s = .ok s' ∧
      Outcome p (x.1 != p && !(s.heap x.1).hasSentDC) s s' := by
  by_cases hbody : x.2.body.length ≤ 65536
  · refine Or.inr ⟨s.tell x.1 x.2, act_queue (hs.connections x.1) hbody, ?_⟩
    by_cases hx : (s.heap x.1).hasSentDC = true
    · rw [tell_kicked hx, hx, Bool.not_true, Bool.and_false]
      exact (Idle.refl p s).outcome
    · have hne : x.1 ≠ p := fun heq => hx (by rw [heq]; exact hdc)
      rw [Bool.not_eq_true] at hx
      rw [hx, bne_iff_ne.mpr hne, Bool.not_false, Bool.and_true]
      refine Harmed.outcome (Or.inr (Or.inr ⟨x.1, hne, ?_⟩))
      have hframe : 0 < (frame x.2.body).length := by
        have hpos := varInt_length_pos (UInt32.ofNat x.2.body.length)
        rw [frame, List.length_append]
        omega
      rw [tell_self, ClientHandle.queue_outgoing, hx, if_neg (by decide), List.length_append]
      omega
  · refine Or.inl ?_
    rw [relayTo, act, ClientHandle.packet_verify (hs.connections x.1) (by omega)]
    rfl

theorem work_kicked (hs : s.Sound) (hdc : (s.heap p).hasSentDC = true)
    (hstate : (s.heap p).protocol.state = 3) :
    Reacts s (Outcome p (s.harmful p packetType bb.unread))
      (packetType == 0x00 || packetType == 0x11 || packetType == 0x12)
      (dispatchPacket p bb packetType s) := by
  rw [harmful_work hstate]
  by_cases hmedia : packetType = 0x11 ∨ packetType = 0x12
  · have hyes : (packetType == 0x00 || packetType == 0x11 || packetType == 0x12) = true := by
      rcases hmedia with rfl | rfl <;> decide
    obtain ⟨bb', hdispatch⟩ := dispatchPacket_relay bb hstate hmedia
    rw [hyes, hdispatch]
    rcases hx : s.relay p packetType bb.unread with _ | x
    · exact Or.inr ⟨bb', s, rfl, (Idle.refl p s).outcome⟩
    · rcases relay_outcome hs hdc x with herror | ⟨s', hok, houtcome⟩
      · rw [herror]
        exact Or.inl rfl
      · rw [hok]
        exact Or.inr ⟨bb', s', rfl, houtcome⟩
  · obtain ⟨h11, h12⟩ := not_or.mp hmedia
    rw [dispatchPacket_work hstate, if_neg h11, if_neg h12, beq_eq_false_iff_ne.mpr h11,
      beq_eq_false_iff_ne.mpr h12, Bool.or_false, Bool.or_false, relay_none h11 h12]
    split
    next h =>
      rw [h]
      refine handling_reacts readVarInt32_reads (fun _ => (Idle.refl p s).outcome)
        (fun id _ => ⟨_, rfl, Idle.outcome ?_⟩)
      refine Idle.store ?_ ?_ ?_ ?_ ?_ <;> unfold ClientHandle.handleKeepAlive <;> split <;> rfl
    next h0 =>
      rw [beq_eq_false_iff_ne.mpr h0]
      exact unknown_reacts hs hdc packetType bb

/-- A packet of a kicked connection does harm if and only if it is harmful. -/
theorem handlePacket_kicked (hs : s.Sound) (hlive : (s.heap p).state.toNat < 4)
    (hdc : (s.heap p).hasSentDC = true)
    (hrange : (s.heap p).protocol.state = 1 ∨ (s.heap p).protocol.state = 2 ∨
      (s.heap p).protocol.state = 3) :
    Reacts s (Outcome p (s.harmful p packetType bb.unread)) (knows (s.heap p).protocol.state packetType)
      (handlePacket p bb packetType s) := by
  have hs' := (handled_small (G := Gate.open) hlive packetType bb.unread).sound hs
  have hself := handled_self p packetType bb.unread s
  have hidle : Idle p s (s.handled p packetType bb.unread) := Idle.store rfl rfl rfl rfl rfl
  have hdc' := hidle.hasSentDC.trans hdc
  have hstate := hidle.protocolState
  have hreacts : Reacts (s.handled p packetType bb.unread)
      (Outcome p ((s.handled p packetType bb.unread).harmful p packetType bb.unread))
      (knows (s.heap p).protocol.state packetType)
      (dispatchPacket p bb packetType (s.handled p packetType bb.unread)) := by
    rcases hrange with h1 | h2 | h3
    · rw [h1]
      exact status_kicked hs' hdc' (hstate.trans h1)
    · rw [h2]
      exact login_kicked hs' hdc' (hstate.trans h2)
    · rw [h3]
      exact work_kicked hs' hdc' (hstate.trans h3)
  rw [harmful_congr hidle] at hreacts
  rcases hreacts with herror | ⟨bb', s', hok, houtcome⟩
  · exact Or.inl herror
  · exact Or.inr ⟨bb', s', hok, houtcome.of_idle hidle⟩

end Calls

end Server

end P2PChat

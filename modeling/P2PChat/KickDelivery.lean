import P2PChat.StateAgreement

namespace P2PChat

open ByteQueue Relation

/-- The packet is that of a disconnect for this reason. -/
def Packet.CarriesReason (pkt : Packet) (reason : Int32) : Prop :=
  pkt = ⟨0x00, [.beInt32 reason]⟩ ∨ pkt = ⟨0x40, [.beUInt32 reason.toUInt32]⟩

namespace ClientHandle

section Sends

variable {β : Type} [ByteQueue β] [Platform]

/-- Whatever is sent, `m_OutgoingData` stays as it is. -/
structure Silent (c : ClientHandle β) : Prop where
  sendDisconnect : ∀ reason c', c.sendDisconnect reason = .ok c' → c'.outgoingData = c.outgoingData
  packet : ∀ pkt c', c.packet pkt = .ok c' → c'.outgoingData = c.outgoingData
  sendData : ∀ data, (c.sendData data).outgoingData = c.outgoingData

omit [Platform] in
theorem silent_of_hasSentDC {c : ClientHandle β} (h : c.hasSentDC = true) : c.Silent where
  sendDisconnect reason c' hok := by
    rw [ClientHandle.sendDisconnect, if_pos h] at hok
    cases hok
    rfl
  packet pkt c' hok := by
    unfold ClientHandle.packet at hok
    obtain ⟨out, _, hok⟩ := bind_ok_iff.mp hok
    rw [← Except.ok.inj hok]
    simp only [ClientHandle.sendData, h, if_true]
  sendData data := by rw [ClientHandle.sendData, if_pos h]

end Sends

theorem disconnect_outgoing {β : Type} {c : ClientHandle β} (h : c.hasSentDC = false)
    (reason : Int32) : (c.disconnect reason).outgoingData =
      if c.protocol.state = 2 then c.outgoingData ++ frame (⟨0x00, [.beInt32 reason]⟩ : Packet).body
      else if c.protocol.state = 3 then
        c.outgoingData ++ frame (⟨0x40, [.beUInt32 reason.toUInt32]⟩ : Packet).body
      else c.outgoingData := by
  have hqueue : ∀ pkt, (c.queue pkt).outgoingData = c.outgoingData ++ frame pkt.body := by
    intro pkt
    rw [queue_outgoing, if_neg (by rw [h]; decide)]
  unfold disconnect
  rw [if_neg (by rw [h]; decide)]
  split
  next => exact hqueue _
  next =>
    split
    next => exact hqueue _
    next => rfl

theorem Change.hasSentDC {c c' : ClientHandle Fifo} (h : Change c c') (hdc : c.hasSentDC = true) :
    c'.hasSentDC = true := by
  cases h with
  | quiet h => rw [h.hasSentDC, hdc]
  | handled _ _ _ => exact hdc
  | status state _ _ _ =>
    rw [queue_hasSentDC]
    exact hdc
  | pong _ _ =>
    rw [queue_hasSentDC]
    exact hdc
  | lost _ _ _ _ => exact hdc
  | disconnect reason => rw [disconnect_eq]
  | flush => exact hdc
  | working _ => exact hdc
  | keepAlive id now _ =>
    unfold keepAliveSent
    split
    next => exact hdc
    next =>
      rw [queue_hasSentDC]
      exact hdc

end ClientHandle

namespace Server

variable [Platform]

/-- A connection that was sent a disconnect stays one. -/
theorem Effect.hasSentDC {G : Gate} {who : Nat → Prop} {s s' : Server Fifo} (he : Effect G who s s')
    {p : Nat} (hp : p < s.allocated) (hdc : (s.heap p).hasSentDC = true) :
    (s'.heap p).hasSentDC = true := by
  cases he with
  | @small _ q _ _ hsmall =>
    cases hsmall with
    | change hc =>
      rw [store_heap]
      split
      next heq => exact hc.hasSentDC (heq ▸ hdc)
      next => exact hdc
    | request _ _ _ _ _ =>
      rw [handleLogin, modify_heap]
      split
      next heq => exact heq ▸ hdc
      next => exact hdc
    | @relayed r pkt _ _ _ _ =>
      rcases eq_or_ne p r with rfl | hne
      · rw [tell_self, ClientHandle.queue_hasSentDC]
        exact hdc
      · rw [tell_other hne]
        exact hdc
  | accepted _ _ =>
    rw [accept_heap, if_neg (Nat.ne_of_lt hp)]
    exact hdc
  | @destroyed q _ _ _ _ =>
    rw [(tellAll_same q p _).2.2.2, closed_heap]
    split
    next heq => exact heq ▸ hdc
    next => exact hdc
  | removed _ _ => exact hdc
  | taken _ => exact hdc
  | @login q user _ _ _ _ _ _ _ =>
    have hadmitted : ((({ s with inFlight := none } : Server Fifo).admitted q
        user.username).heap p).hasSentDC = true := by
      rw [admitted, store_heap]
      split
      next heq =>
        rw [ClientHandle.loginSucceeded, ClientHandle.queue_eq]
        exact heq ▸ hdc
      next => exact hdc
    have htold := (tellAll_same q p (({ s with inFlight := none } : Server Fifo).admitted q
      user.username)).2.2.2.trans hadmitted
    rw [modify_heap]
    split
    next heq => exact heq ▸ htold
    next => exact htold
  | answered => exact hdc
  | clock elapsed => exact hdc

/-- A disconnect that is sent to `p` now adds its packet to `m_OutgoingData`, unless one was sent
before, and whatever is sent to `p` later adds nothing. -/
structure KickDelivered (p : Nat) (reason : Int32) (s : Server ByteBuffer) : Prop where
  sent : ∃ c, (s.heap p).sendDisconnect reason = .ok c ∧
    ((s.heap p).hasSentDC = false → ∃ pkt : Packet, pkt.CarriesReason reason ∧
      c.outgoingData = (s.heap p).outgoingData ++ frame pkt.body) ∧
    ((s.heap p).hasSentDC = true → c.outgoingData = (s.heap p).outgoingData)
  once : ∀ c s', (s.heap p).sendDisconnect reason = .ok c →
    (serverMachine ByteBuffer).Reachable (s.store p c) s' → (s'.heap p).Silent

theorem sendDisconnect_contents {c : ClientHandle ByteBuffer}
    (hc : (c.map ByteBuffer.contents).Sound) (reason : Int32) :
    ∃ c', c.sendDisconnect reason = .ok c' ∧
      c'.map ByteBuffer.contents = (c.map ByteBuffer.contents).disconnect reason := by
  have hmap := sendDisconnect_map ByteBuffer.contents_hom reason c
  rw [ClientHandle.sendDisconnect_ok hc] at hmap
  rcases hok : c.sendDisconnect reason with e | c'
  · rw [hok] at hmap
    cases hmap
  · rw [hok] at hmap
    exact ⟨c', rfl, (Except.ok.inj hmap).symm⟩

theorem hasSentDC_stays {s s' : Server ByteBuffer} (hs : (s.map ByteBuffer.contents).Sound) {p : Nat}
    (hp : p < s.allocated) (hdc : (s.heap p).hasSentDC = true)
    (h : (serverMachine ByteBuffer).Reachable s s') : (s'.heap p).hasSentDC = true :=
  (reach_invariant (I := fun t => p < t.allocated ∧ (t.heap p).hasSentDC = true) hs ⟨hp, hdc⟩
    (fun _ _ _ _ hi he => ⟨Nat.lt_of_lt_of_le hi.1 he.allocated, he.hasSentDC hi.1 hi.2⟩)
    (reachable_contents h)).2.2

/-- In every state of every run, a kick of a connection that is not destroyed is delivered exactly
once if and only if one was sent before, or the client has got past the status request. -/
theorem kick_delivered_iff {s : Server ByteBuffer} (h : (serverMachine ByteBuffer).Reachable initial s)
    {p : Nat} (hp : p < s.allocated) (hlive : (s.heap p).state ≠ .csDestroyed) (reason : Int32) :
    s.KickDelivered p reason ↔ (s.heap p).hasSentDC = true ∨ (s.heap p).protocol.state = 2 ∨
      (s.heap p).protocol.state = 3 := by
  have hs := reachable_sound (by rw [initial_contents]; exact initial_sound) h
  have hrange := ((states_agree h p).1 hlive).range
  obtain ⟨c, hok, hc⟩ := sendDisconnect_contents (hs.connections p) reason
  have hout : (s.heap p).hasSentDC = false → c.outgoingData =
      if (s.heap p).protocol.state = 2 then
        (s.heap p).outgoingData ++ frame (⟨0x00, [.beInt32 reason]⟩ : Packet).body
      else if (s.heap p).protocol.state = 3 then
        (s.heap p).outgoingData ++ frame (⟨0x40, [.beUInt32 reason.toUInt32]⟩ : Packet).body
      else (s.heap p).outgoingData := fun hfirst =>
    (congrArg (fun c : ClientHandle Fifo => c.outgoingData) hc).trans
      (ClientHandle.disconnect_outgoing (c := (s.heap p).map ByteBuffer.contents) hfirst reason)
  have hdc : c.hasSentDC = true := by
    have hmap := congrArg (fun c : ClientHandle Fifo => c.hasSentDC) hc
    rw [ClientHandle.disconnect_eq] at hmap
    exact hmap
  have hkicked : (s.heap p).hasSentDC = true → c.outgoingData = (s.heap p).outgoingData := by
    intro hbefore
    rw [ClientHandle.sendDisconnect, if_pos hbefore] at hok
    cases hok
    rfl
  have honce : ∀ c₁ s', (s.heap p).sendDisconnect reason = .ok c₁ →
      (serverMachine ByteBuffer).Reachable (s.store p c₁) s' → (s'.heap p).Silent := by
    intro c₁ s' hok₁ hreach
    have heq : c₁ = c := Except.ok.inj (hok₁.symm.trans hok)
    subst heq
    have hsound : ((s.store p c₁).map ByteBuffer.contents).Sound := by
      rw [← store_map, hc]
      exact (Small.change (G := Gate.open) (.disconnect reason)).sound hs
    have hself : (s.store p c₁).heap p = c₁ := if_pos rfl
    exact ClientHandle.silent_of_hasSentDC
      (hasSentDC_stays hsound hp (by rw [hself]; exact hdc) hreach)
  constructor
  · intro hdelivered
    by_contra hnot
    obtain ⟨hfirst, htwo, hthree⟩ : (s.heap p).hasSentDC = false ∧ (s.heap p).protocol.state ≠ 2 ∧
        (s.heap p).protocol.state ≠ 3 := by
      simpa only [not_or, Bool.not_eq_true] using hnot
    obtain ⟨⟨c₁, hok₁, hsent, _⟩, _⟩ := hdelivered
    have heq : c₁ = c := Except.ok.inj (hok₁.symm.trans hok)
    subst heq
    obtain ⟨pkt, _, hpkt⟩ := hsent hfirst
    -- nothing is sent in the first state, and every frame has bytes
    rw [hout hfirst, if_neg htwo, if_neg hthree] at hpkt
    have hlen := congrArg List.length hpkt
    have hpos := frame_length_pos pkt.body
    rw [List.length_append] at hlen
    omega
  · intro hstate
    refine ⟨⟨c, hok, fun hfirst => ?_, hkicked⟩, honce⟩
    rw [hout hfirst]
    rcases hstate with hbefore | htwo | hthree
    · rw [hfirst] at hbefore
      cases hbefore
    · exact ⟨_, Or.inl rfl, by rw [if_pos htwo]⟩
    · have htwo : (s.heap p).protocol.state ≠ 2 := by
        rw [hthree]
        decide
      exact ⟨_, Or.inr rfl, by rw [if_neg htwo, if_pos hthree]⟩

omit [Platform] in
/-- A client that has sent its status request is told why it is kicked. -/
theorem kick_delivered_greeted :
    letI := zeroPlatform
    ∃ s : Server ByteBuffer, (s.heap 0).hasSentDC = false ∧
      s.KickDelivered 0 errorCodeServerShutdown := by
  let : Platform := zeroPlatform
  have hrun : ((serverMachine ByteBuffer).replay enabled
      (.connectionAccepted [] :: greets 0) initial).map (fun s => decide (0 < s.allocated ∧
        (s.heap 0).state = .csConnected ∧ (s.heap 0).protocol.state = 2 ∧
          (s.heap 0).hasSentDC = false)) = some true := by
    decide +kernel
  obtain ⟨s, hs, hall⟩ := Option.map_eq_some_iff.mp hrun
  obtain ⟨hp, hstate, htwo, hdc⟩ := of_decide_eq_true hall
  exact ⟨s, hdc, (kick_delivered_iff (replay_reachable hs) hp (by rw [hstate]; nofun) _).mpr
    (Or.inr (Or.inl htwo))⟩

omit [Platform] in
/-- A status request of another program: the client is kicked, and gets nothing. -/
theorem kick_lost :
    letI := zeroPlatform
    ∃ s s' : Server ByteBuffer, (serverMachine ByteBuffer).Reachable initial s ∧
      ((s.heap 0).state = .csConnected ∧ ¬s.KickDelivered 0 errorCodeBadApp) ∧
      s.step (.tickClient 0) = .ok s' ∧ (s'.heap 0).hasSentDC = true ∧
      (s'.heap 0).outgoingData = [] ∧ (s'.heap 0).sent = [] := by
  let : Platform := zeroPlatform
  have hrun : ((serverMachine ByteBuffer).replay enabled
      [.connectionAccepted [], .receivedData 0 (frame (statusRequestPacket [97] [] 0 2).body)]
      initial).bind (fun s => (s.step (.tickClient 0)).toOption.map fun s' => decide
        (0 < s.allocated ∧ (s.heap 0).state = .csConnected ∧ (s.heap 0).protocol.state = 1 ∧
          (s.heap 0).hasSentDC = false ∧ (s'.heap 0).hasSentDC = true ∧
          (s'.heap 0).outgoingData = [] ∧ (s'.heap 0).sent = [])) = some true := by
    decide +kernel
  obtain ⟨s, hs, hnext⟩ := Option.bind_eq_some_iff.mp hrun
  obtain ⟨s', hs', hall⟩ := Option.map_eq_some_iff.mp hnext
  obtain ⟨hp, hstate, hone, hfirst, hdc, hout, hsent⟩ := of_decide_eq_true hall
  refine ⟨s, s', replay_reachable hs, ⟨hstate, fun hdelivered => ?_⟩, toOption_eq_some.mp hs', hdc,
    hout, hsent⟩
  obtain ⟨⟨c, hok, hfirst', _⟩, _⟩ := hdelivered
  obtain ⟨pkt, _, hpkt⟩ := hfirst' hfirst
  have hnothing : (s.heap 0).sendDisconnect errorCodeBadApp =
      .ok { s.heap 0 with hasSentDC := true } := by
    rw [ClientHandle.sendDisconnect, if_neg (by rw [hfirst]; decide),
      ClientHandle.protocolSendDisconnect, if_neg (by rw [hone]; decide),
      if_neg (by rw [hone]; decide)]
    rfl
  rw [hnothing] at hok
  cases hok
  have hlen := congrArg List.length hpkt
  have hpos := frame_length_pos pkt.body
  rw [List.length_append] at hlen
  change (s.heap 0).outgoingData.length = _ at hlen
  omega

end Server

end P2PChat

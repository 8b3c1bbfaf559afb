import P2PChat.EndpointInvariants
import P2PChat.Reception

namespace P2PChat

open ByteQueue Relation

namespace Server

variable [Platform]

/-- What the loop of a tick keeps, whatever the packets. -/
structure TickRule (p : Nat) (s : Server Fifo) (I : Server Fifo → Prop) : Prop where
  receive : ∀ t b, I t → I (t.modify p (ClientHandle.setReceived b))
  take : I s → I (s.modify p ClientHandle.takeIncoming)
  disconnect : ∀ t reason, t.Sound → I t → I (t.modify p (ClientHandle.disconnect reason))
  packet : ∀ t type bytes, ReflTransGen (Small Gate.open p) s t → I t → bytes.length ≤ 65536 →
    ReflTransGen (Small Gate.open p) t ((t.handled p type bytes).reacted p type bytes) →
    I ((t.handled p type bytes).reacted p type bytes)

section Loop

variable {s : Server Fifo} {p : Nat} {I : Server Fifo → Prop}

/-- Where the loop stands, with these bytes to go. -/
structure Ticking (p : Nat) (s : Server Fifo) (I : Server Fifo → Prop) (u : AString) (t : Server Fifo) :
    Prop where
  small : ReflTransGen (Small Gate.open p) s t
  room : u.length ≤ 65536
  received : (t.heap p).protocol.receivedData = Fifo.filled 65536 u
  keeps : I t

theorem TickRule.rule (hI : TickRule p s I) (hs : s.Sound) (hlive : (s.heap p).state.toNat < 4) :
    (endpoint p).Rule 65536 (Ticking p s I) (Ends I) where
  received u t h := ⟨h.room, h.received⟩
  wait u t h _ := Ends.ok (hI.receive t _ h.keeps)
  unreadable u t payload rest h _ _ := Ends.ok (hI.receive t _ h.keeps)
  packetError u t packetType h := by
    have ht := sound_of_small hs h.small
    obtain ⟨t', hok, hleads⟩ := kick_ok ht (G := Gate.open) p errorCodePacketError
    have heq := Except.ok.inj (hok.symm.trans (kick_modify ht p errorCodePacketError))
    refine ⟨t', hok, h.small.trans hleads.small, h.room, hleads.received.trans h.received, ?_⟩
    rw [heq]
    exact hI.disconnect t _ ht h.keeps
  packet u t payload rest packetType bb h hnext hopen := by
    have hlen := nextFrame_length hnext
    have hroom := h.room
    have hbytes := opened_length hopen
    have hsmall := h.small.tail (setReceived_small (p := p) (u := rest) (by omega) t)
    have ht := sound_of_small hs hsmall
    have hlive' := (framed_of_small hsmall).live.mpr hlive
    have hkeeps := hI.receive t (Fifo.filled 65536 rest) h.keeps
    have hreceived : ((t.modify p (ClientHandle.setReceived (Fifo.filled 65536 rest))).heap
        p).protocol.receivedData = Fifo.filled 65536 rest := by
      rw [modify_heap, if_pos rfl]
      rfl
    have hset : (endpoint p).setReceived (Fifo.filled 65536 rest) t =
        t.modify p (ClientHandle.setReceived (Fifo.filled 65536 rest)) := rfl
    rw [hset]
    generalize t.modify p (ClientHandle.setReceived (Fifo.filled 65536 rest)) = t₁ at *
    rcases hlong : overlong (t₁.relay p packetType bb.unread).toList with _ | _
    · have hshort := fun x hx => relay_fits (x := x) hlong hx
      have hreturns : Returns Gate.open p t₁ (knows (t₁.heap p).protocol.state packetType)
          (handlePacket p bb packetType t₁) :=
        handlePacket_returns ht hlive' (by omega) fun x hx => ⟨hshort x hx, rfl⟩
      obtain ⟨bb', t', hok, hleads⟩ := hreturns
      have hafter := congrArg (fun r => r.2.2)
        (Except.ok.inj (hok.symm.trans (handlePacket_eq ht hshort)))
      have hafter : t' = (t₁.handled p packetType bb.unread).reacted p packetType bb.unread := hafter
      rw [hafter] at hok hleads
      have hkept := hI.packet t₁ packetType bb.unread hsmall hkeeps (by omega) hleads.small
      rcases hknown : knows (t₁.heap p).protocol.state packetType with _ | _
      · rw [hknown] at hok
        exact Or.inr (Or.inl ⟨bb', _, hok, Ends.ok hkept⟩)
      · rw [hknown] at hok
        exact Or.inr (Or.inr ⟨bb', _, rest, hok, Nat.le_refl _, hsmall.trans hleads.small, by omega,
          hleads.received.trans hreceived, hkept⟩)
    · obtain ⟨x, hx, hbody⟩ := relay_long hlong
      exact Or.inl ⟨_, handlePacket_verify ht hlive' hx hbody, Ends.error⟩

theorem TickRule.tickReceived {t : Server Fifo} (hI : TickRule p s I) (hs : s.Sound)
    (hlive : (s.heap p).state.toNat < 4) (hstart : I s) (ht : s.tickReceived p = .ok t) : I t := by
  obtain ⟨u, hu, hrec⟩ := (hs.connections p).received
  unfold Server.tickReceived at ht
  split at ht
  next hin =>
    have htake := takeIncoming_small (G := Gate.open) p s
    have hrec' : (endpoint p).received (s.modify p ClientHandle.takeIncoming) = Fifo.filled 65536 u := by
      change ((s.modify p ClientHandle.takeIncoming).heap p).protocol.receivedData = _
      rw [modify_heap, if_pos rfl]
      exact hrec
    by_cases hfit : (u ++ (s.heap p).incomingData).length ≤ 65536
    · refine (hI.rule hs hlive).addReceivedData (by omega) hu hrec' hfit ?_ t ht
      refine ⟨(ReflTransGen.single htake).tail (setReceived_small hfit _), hfit, ?_,
        hI.receive _ _ (hI.take hstart)⟩
      change (((s.modify p ClientHandle.takeIncoming).modify p (ClientHandle.setReceived _)).heap
        p).protocol.receivedData = _
      rw [modify_heap, if_pos rfl]
      rfl
    · have hset := setReceived_small (G := Gate.open) (p := p) hu (s.modify p ClientHandle.takeIncoming)
      have hsound := hset.sound (htake.sound hs)
      rw [addReceivedData, addReceivedData_full hu hrec' (by omega)] at ht
      have hkick := kick_modify hsound p errorCodeServerBusy
      have heq := Except.ok.inj (hkick.symm.trans ht)
      rw [← heq]
      exact hI.disconnect _ _ hsound (hI.receive _ _ (hI.take hstart))
  next =>
    cases ht
    exact hstart

theorem TickRule.tickClient {s' : Server Fifo} (hI : TickRule p s I) (hs : s.Sound) (hstart : I s)
    (hremoved : I s → I { s with clients := s.clients.erase p })
    (hrest : ∀ t now, I t → I (t.modify p (ClientHandle.rested now))) (h : s.tickClient p = .ok s') :
    I s' := by
  by_cases hdead : (s.heap p).isDestroyed = true
  · rw [Server.tickClient, if_pos hdead] at h
    cases h
    exact hremoved hstart
  · rw [Bool.not_eq_true] at hdead
    have hlive := live_of_not (hs.connections p) (Bool.eq_false_iff.mp hdead)
    obtain ⟨t, ht, _⟩ := tickClient_parts hs hdead h
    rw [(tickClient_eq hs hdead ht).2] at h
    cases h
    exact hrest t t.now (hI.tickReceived hs hlive hstart ht)

end Loop

end Server

end P2PChat

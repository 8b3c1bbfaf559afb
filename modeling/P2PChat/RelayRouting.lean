import P2PChat.Authentication
import P2PChat.ServerCalls

namespace P2PChat

open ByteQueue Relation

namespace Server

variable {β : Type} [Platform]

/-- The recipient and the packet that a Media or MediaMsg packet of a connection with this ID asks
for. -/
def addressed (uniqueID type : UInt32) (bytes : AString) : Option (UInt32 × Packet) :=
  if type = 0x11 then
    (parseMedia bytes).1.map fun media => (media.1, mediaPacket uniqueID media.2)
  else if type = 0x12 then
    (parseMediaMsg bytes).1.map fun media => (media.1, mediaMsgPacket uniqueID media.2)
  else none

/-- The calls of `HandlePacket` in a tick of `p`: type, buffer and state. -/
def TickCalls [ByteQueue β] (p : Nat) (s : Server β) (call : UInt32 × β × Server β) : Prop :=
  (s.heap p).isDestroyed = false ∧ (s.heap p).incomingData ≠ [] ∧
    (endpoint p).CallsFor (s.heap p).incomingData (s.modify p ClientHandle.takeIncoming) call

/-- The recipient that a Media or MediaMsg packet names, and the bytes that it is to get: the length, the type, the
ID of the sender, and the code or the text behind its length. -/
def requested (sender type : UInt32) (bytes : AString) : Option (UInt32 × AString) :=
  if type = 0x11 then
    (parseMedia bytes).1.map fun media => (media.1, frame (varInt 0x11 ++ (varInt sender ++ varInt media.2)))
  else if type = 0x12 then
    (parseMediaMsg bytes).1.map fun media => (media.1,
      frame (varInt 0x12 ++ (varInt sender ++ (varInt (UInt32.ofNat media.2.length) ++ media.2))))
  else none

/-- The bytes that one relay adds to `m_OutgoingData` of `q`. -/
def delivered (request : Option (UInt32 × AString)) (s : Server β) (q : Nat) : AString :=
  match request with
  | some (id, bytes) =>
    if q ∈ s.clients ∧ (s.heap q).uniqueID = id ∧ (s.heap q).hasSentDC = false then bytes else []
  | none => []

/-- The packets that the code composes are those. -/
theorem requested_eq (sender type : UInt32) (bytes : AString) :
    requested sender type bytes = (addressed sender type bytes).map fun x => (x.1, frame x.2.body) := by
  unfold requested addressed
  split
  next =>
    rcases (parseMedia bytes).1 with _ | media
    · rfl
    · simp [mediaPacket, Packet.body, Packet.fieldBytes, Field.bytes]
  next =>
    split
    next =>
      rcases (parseMediaMsg bytes).1 with _ | media
      · rfl
      · simp [mediaMsgPacket, Packet.body, Packet.fieldBytes, Field.bytes]
    next => rfl

theorem relay_addressed {s : Server β} {p : Nat} {type : UInt32} {bytes : AString}
    (hstate : (s.heap p).protocol.state = 3) :
    s.relay p type bytes = (addressed (s.heap p).uniqueID type bytes).bind fun request =>
      (s.findClient request.1).map fun q => (q, request.2) := by
  unfold relay addressed
  rw [if_pos hstate]
  split
  next =>
    rcases (parseMedia bytes).1 with _ | media
    · rfl
    · rfl
  next =>
    split
    next =>
      rcases (parseMediaMsg bytes).1 with _ | media
      · rfl
      · rfl
    next => rfl

omit [Platform] in
theorem findClient_none {s : Server β} {id : UInt32} (h : s.findClient id = none) {q : Nat}
    (hq : q ∈ s.clients) : (s.heap q).uniqueID ≠ id := by
  have hnot := List.find?_eq_none.mp h q hq
  intro heq
  exact hnot (beq_iff_eq.mpr heq)

omit [Platform] in
/-- The first connection with the ID gets the packet. -/
theorem relayTo_delivers {s s' : Server Fifo} (hs : s.Sound)
    (hids : ∀ q ∈ s.clients, ∀ r ∈ s.clients, (s.heap q).uniqueID = (s.heap r).uniqueID → q = r)
    {request : Option (UInt32 × Packet)}
    (hok : relayTo (request.bind fun x => (s.findClient x.1).map fun q => (q, x.2)) s = .ok s')
    (q : Nat) :
    (s'.heap q).outgoingData = (s.heap q).outgoingData ++
      delivered (request.map fun x => (x.1, frame x.2.body)) s q := by
  rcases request with _ | ⟨id, pkt⟩
  · cases hok
    exact (List.append_nil _).symm
  · rcases hfind : s.findClient id with _ | r
    · rw [Option.bind_some, hfind] at hok
      cases hok
      rw [Option.map_some, delivered, if_neg (fun h => findClient_none hfind h.1 h.2.1), List.append_nil]
    · rw [Option.bind_some, hfind, Option.map_some, relayTo] at hok
      change s.act r (ClientHandle.packet pkt) = .ok s' at hok
      obtain ⟨hr, hid⟩ := findClient_some hfind
      by_cases hlong : 65536 < pkt.body.length
      · rw [act, ClientHandle.packet_verify (hs.connections r) hlong] at hok
        cases hok
      · rw [act_queue (hs.connections r) (by omega)] at hok
        cases hok
        rw [Option.map_some, delivered]
        rcases eq_or_ne q r with rfl | hne
        · rw [tell_self, ClientHandle.queue_outgoing]
          split
          next hdc => rw [if_neg (fun h => by rw [h.2.2] at hdc; cases hdc), List.append_nil]
          next hdc => rw [if_pos ⟨hr, hid, Bool.eq_false_iff.mpr hdc⟩]
        · rw [tell_other hne, if_neg (fun h => hne (hids q h.1 r hr (h.2.1.trans hid.symm))),
            List.append_nil]

theorem handlePacket_delivers {s s' : Server Fifo} (hs : s.Sound) {p : Nat}
    (hlive : (s.heap p).state.toNat < 4) (hstate : (s.heap p).protocol.state = 3)
    (hids : ∀ q ∈ s.clients, ∀ r ∈ s.clients, (s.heap q).uniqueID = (s.heap r).uniqueID → q = r)
    {type : UInt32} (htype : type = 0x11 ∨ type = 0x12) {bb bb' : Fifo} {understood : Bool}
    (hok : handlePacket p bb type s = .ok (understood, bb', s')) (q : Nat) :
    (s'.heap q).outgoingData = (s.heap q).outgoingData ++
      delivered (requested (s.heap p).uniqueID type bb.unread) s q := by
  have hsmall := handled_small (G := Gate.open) hlive type bb.unread
  have hframed := hsmall.framed
  have hheap : ∀ r, ((s.handled p type bb.unread).heap r).outgoingData = (s.heap r).outgoingData ∧
      ((s.handled p type bb.unread).heap r).hasSentDC = (s.heap r).hasSentDC := by
    intro r
    rw [handled, modify_heap]
    split
    next heq =>
      rw [heq]
      exact ⟨rfl, rfl⟩
    next => exact ⟨rfl, rfl⟩
  have hstate' := hframed.working.mpr hstate
  obtain ⟨bb'', hdispatch⟩ := dispatchPacket_relay bb hstate' htype
  have hok' : dispatchPacket p bb type (s.handled p type bb.unread) = .ok (understood, bb', s') := hok
  rw [hdispatch, relay_addressed hstate', hframed.uniqueID] at hok'
  rcases hrelay : relayTo ((addressed (s.heap p).uniqueID type bb.unread).bind fun request =>
      ((s.handled p type bb.unread).findClient request.1).map fun r => (r, request.2))
      (s.handled p type bb.unread) with e | t
  · rw [hrelay] at hok'
    cases hok'
  · rw [hrelay] at hok'
    cases hok'
    have hids' : ∀ r ∈ (s.handled p type bb.unread).clients,
        ∀ r' ∈ (s.handled p type bb.unread).clients,
        ((s.handled p type bb.unread).heap r).uniqueID =
          ((s.handled p type bb.unread).heap r').uniqueID → r = r' := by
      intro r hr r' hr' heq
      rw [hframed.uniqueID, hframed.uniqueID] at heq
      exact hids r hr r' hr' heq
    rw [relayTo_delivers (hsmall.sound hs) hids' hrelay q, (hheap q).1, ← requested_eq]
    unfold delivered
    simp only [hframed.uniqueID, hheap]
    rfl

/-- Where a packet of `p` is handled in a tick, the packets of `p` before it have been. -/
theorem tickCalls_small {s : Server Fifo} (hs : s.Sound) {p : Nat}
    {call : UInt32 × Fifo × Server Fifo} (hcall : s.TickCalls p call) :
    ReflTransGen (Small Gate.open p) s call.2.2 := by
  obtain ⟨hnot, _, hcalls⟩ := hcall
  have hlive := live_of_not (hs.connections p) (Bool.eq_false_iff.mp hnot)
  have htake : Small Gate.open p s (s.modify p ClientHandle.takeIncoming) :=
    .change (.quiet ⟨rfl, rfl, rfl, rfl, rfl, Or.inl rfl, rfl, rfl, rfl, rfl, id, rfl, rfl⟩)
  have htaken := ReflTransGen.single htake
  exact htaken.trans (callsFor_small (sound_of_small hs htaken)
    ((framed_of_small htaken).live.mpr hlive) hcalls).1

theorem tickCalls_contents {s : Server ByteBuffer} {p : Nat}
    {call : UInt32 × ByteBuffer × Server ByteBuffer} (h : s.TickCalls p call) :
    (s.map ByteBuffer.contents).TickCalls p
      (call.1, call.2.1.contents, call.2.2.map ByteBuffer.contents) := by
  obtain ⟨hnot, hin, hcalls⟩ := h
  have hf := ByteBuffer.contents_hom
  have htake : ∀ c : ClientHandle ByteBuffer, (c.map ByteBuffer.contents).takeIncoming =
      c.takeIncoming.map ByteBuffer.contents := fun _ => rfl
  refine ⟨hnot, hin, ?_⟩
  rw [modify_map htake p s]
  exact callsFor_simulates hf (endpoint_simulates hf p) hcalls

/-- A Media or MediaMsg packet that is handled in any tick of any run is delivered to the one
connection that has the ID it names, once, with the ID of the connection it came from. -/
theorem relay_routes {s s₁ s' : Server ByteBuffer} {p : Nat} {type : UInt32} {bb bb' : ByteBuffer}
    {understood : Bool} (h : (serverMachine ByteBuffer).Reachable initial s)
    (hcall : s.TickCalls p (type, bb, s₁)) (hstate : (s₁.heap p).protocol.state = 3)
    (htype : type = 0x11 ∨ type = 0x12)
    (hok : s₁.handlePacket p bb type = .ok (understood, bb', s')) :
    s₁.clients = s.clients ∧
      (∀ q ∈ s₁.clients, ∀ r ∈ s₁.clients, (s₁.heap q).uniqueID = (s₁.heap r).uniqueID → q = r) ∧
      (∀ q, (s'.heap q).outgoingData = (s₁.heap q).outgoingData ++
        delivered (requested (s₁.heap p).uniqueID type (readAll bb).1) s₁ q) ∧
      ∀ q r, (s'.heap q).outgoingData ≠ (s₁.heap q).outgoingData →
        (s'.heap r).outgoingData ≠ (s₁.heap r).outgoingData → q = r := by
  have hf := ByteBuffer.contents_hom
  obtain ⟨hs, hauth⟩ := reachable_authentic h
  have hsmall := tickCalls_small hs (tickCalls_contents hcall)
  have hframed := framed_of_small hsmall
  have hids : ∀ q ∈ s₁.clients, ∀ r ∈ s₁.clients,
      (s₁.heap q).uniqueID = (s₁.heap r).uniqueID → q = r := by
    have hclients : s₁.clients = s.clients := hframed.clients
    have hid : ∀ q, (s₁.heap q).uniqueID = (s.heap q).uniqueID := hframed.uniqueID
    intro q hq r hr heq
    rw [hclients] at hq hr
    rw [hid, hid] at heq
    exact hauth.id_inj (hs.allocated q hq) (hs.allocated r hr) heq
  have hbytes : bb.contents.unread = (readAll bb).1 := congrArg Prod.fst (hf.readAll bb)
  have hdelivers : ∀ q, (s'.heap q).outgoingData = (s₁.heap q).outgoingData ++
      delivered (requested (s₁.heap p).uniqueID type (readAll bb).1) s₁ q := by
    have hmap := handlePacket_map hf p bb type s₁
    rw [hok] at hmap
    have hlive := hframed.live.mpr (live_of_not (hs.connections p) (Bool.eq_false_iff.mp hcall.1))
    rw [← hbytes]
    exact handlePacket_delivers (sound_of_small hs hsmall) hlive hstate hids htype hmap
  refine ⟨hframed.clients, hids, hdelivers, fun q r hq hr => ?_⟩
  have hwho : ∀ q, (s'.heap q).outgoingData ≠ (s₁.heap q).outgoingData →
      ∃ x, requested (s₁.heap p).uniqueID type (readAll bb).1 = some x ∧ q ∈ s₁.clients ∧
        (s₁.heap q).uniqueID = x.1 := by
    intro q hq
    rw [hdelivers q] at hq
    rcases hrequest : requested (s₁.heap p).uniqueID type (readAll bb).1 with _ | ⟨id, bytes⟩
    · rw [hrequest] at hq
      exact absurd (List.append_nil _) hq
    · rw [hrequest, delivered] at hq
      split at hq
      next hin => exact ⟨_, rfl, hin.1, hin.2.1⟩
      next => exact absurd (List.append_nil _) hq
  obtain ⟨x, hx, hqmem, hqid⟩ := hwho q hq
  obtain ⟨y, hy, hrmem, hrid⟩ := hwho r hr
  have hxy : x = y := Option.some.inj (hx.symm.trans hy)
  rw [← hxy] at hrid
  exact hids q hqmem r hrmem (hqid.trans hrid.symm)

omit [Platform] in
/-- The first of two connections that are logged in asks the second for media. -/
theorem relay_routes_media :
    letI := zeroPlatform
    ∃ s s₁ s' : Server ByteBuffer, ∃ bb : ByteBuffer, s.TickCalls 0 (0x11, bb, s₁) ∧
      (s'.heap 1).outgoingData = (s₁.heap 1).outgoingData ++ [3, 0x11, 1, 7] := by
  let : Platform := zeroPlatform
  have hrun : ((serverMachine ByteBuffer).replay enabled
      (.connectionAccepted [] :: .connectionAccepted [] :: (greets 0 ++ greets 1 ++ asksLogin 0 [97] ++
        asksLogin 1 [98] ++ isAnswered ++ isAnswered ++
          [.receivedData 0 (frame (mediaPacket 2 7).body)])) initial).bind (fun s =>
        ((endpoint 0).nextCall ((endpoint 0).setReceived (write (s.heap 0).incomingData
          ((endpoint 0).received (s.modify 0 ClientHandle.takeIncoming))).2
            (s.modify 0 ClientHandle.takeIncoming))).bind fun call =>
          (handlePacket 0 call.2.1 call.1 call.2.2).toOption.map fun _ => decide
            ((s.heap 0).isDestroyed = false ∧ (s.heap 0).incomingData ≠ [] ∧
              (write (s.heap 0).incomingData
                ((endpoint 0).received (s.modify 0 ClientHandle.takeIncoming))).1 = true ∧
              call.1 = 0x11 ∧ (call.2.2.heap 0).protocol.state = 3 ∧
              delivered (requested (call.2.2.heap 0).uniqueID 0x11 (readAll call.2.1).1) call.2.2 1 = [3, 0x11, 1, 7])) =
                some true := by
    decide +kernel
  obtain ⟨s, hs, hnext⟩ := Option.bind_eq_some_iff.mp hrun
  obtain ⟨⟨type, bb, s₁⟩, hcall, hhandle⟩ := Option.bind_eq_some_iff.mp hnext
  obtain ⟨⟨understood, bb', s'⟩, hok, hall⟩ := Option.map_eq_some_iff.mp hhandle
  obtain ⟨hnot, hin, hfits, htype, hstate, hdelivered⟩ := of_decide_eq_true hall
  cases htype
  have hcalls : s.TickCalls 0 (0x11, bb, s₁) := ⟨hnot, hin, hfits, .first hcall⟩
  have hok' : handlePacket 0 bb 0x11 s₁ = .ok (understood, bb', s') := toOption_eq_some.mp hok
  refine ⟨s, s₁, s', bb, hcalls, ?_⟩
  rw [(relay_routes (replay_reachable hs) hcalls hstate (Or.inl rfl) hok').2.2.1 1]
  exact congrArg _ hdelivered

end Server

end P2PChat

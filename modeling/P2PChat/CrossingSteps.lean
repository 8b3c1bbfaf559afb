import P2PChat.CrossingCalls
import P2PChat.SignOut

namespace P2PChat

open ByteQueue ByteBuffer

variable [Platform]

/-- A client that is logged in, with no packet begun. -/
structure PeerConnectionClient.Ready (c : PeerConnectionClient ByteBuffer) : Prop where
  isConnected : c.isConnected = true
  game : c.protocolState = 3
  out : c.outPacketBuffer.contents = Fifo.empty 65536

/-- A packet that is sent goes out as one frame. -/
theorem PeerConnectionClient.Ready.packet {c c' : PeerConnectionClient ByteBuffer} (h : c.Ready) {p : Packet}
    (hok : c.packet p = .ok c') : c'.Ready ∧ c'.sent = c.sent ++ frame p.body ∧ p.body.length ≤ 65536 := by
  have hmap := PeerConnectionClient.packet_map contents_hom p c
  rw [hok] at hmap
  have hout : (c.map contents).outPacketBuffer = Fifo.empty 65536 := h.out
  have hlen : p.body.length ≤ 65536 := by
    by_contra hlong
    rw [PeerConnectionClient.packet_verify hout (Nat.lt_of_not_le hlong)] at hmap
    cases hmap
  rw [PeerConnectionClient.packet_send hout hlen] at hmap
  have hsame : (c.map contents).send p = c'.map contents := Except.ok.inj hmap
  have hopen : (c.map contents).isConnected = true := h.isConnected
  rw [PeerConnectionClient.send, PeerConnectionClient.sendData, if_pos hopen] at hsame
  refine ⟨⟨?_, ?_, ?_⟩, ?_, hlen⟩
  · exact (congrArg PeerConnectionClient.isConnected hsame).symm.trans h.isConnected
  · exact (congrArg PeerConnectionClient.protocolState hsame).symm.trans h.game
  · exact (congrArg PeerConnectionClient.outPacketBuffer hsame).symm.trans h.out
  · exact (congrArg PeerConnectionClient.sent hsame).symm

namespace Conductor

variable {x : Conductor ByteBuffer}

/-- Between two events the client has no packet begun. -/
def Composed (x : Conductor ByteBuffer) : Prop := x.client.outPacketBuffer.contents = Fifo.empty 65536

theorem Composed.signOut (h : x.Composed) : x.signOut.Composed := by
  have hout := (PeerConnectionClient.out_rule contents_hom).signOut x.client h
  unfold Conductor.signOut
  split
  next => exact hout
  next => exact hout

omit [Platform] in
theorem initializePeerConnection_client {r : Initialization} {made : Bool × Conductor ByteBuffer}
    (hok : x.initializePeerConnection r = .ok made) : made.2.client = x.client := by
  cases r with
  | created =>
    cases hok
    rfl
  | noFactory =>
    cases hok
    rfl
  | noConnection => cases hok

theorem Composed.observe (h : x.Composed) (r : Initialization) (callback : Callback) :
    Ends Composed (x.observe r callback) := by
  cases callback with
  | onDisconnected => exact Ends.ok h
  | onPeerDisconnected id =>
    refine Ends.ok ?_
    unfold Conductor.onPeerDisconnected
    split
    next => exact h
    next => exact h
  | onPeerResponse peer_id code =>
    intro x' hok
    have hok : x.onPeerResponse r peer_id code = .ok x' := hok
    rcases onPeerResponse_cases hok with rfl | rfl | ⟨_, _, _, rfl⟩ | ⟨_, rfl⟩
    · exact h
    · exact h
    · exact h
    · exact h
  | onMessageFromPeer peer_id message =>
    unfold Conductor.observe Conductor.onMessageFromPeer
    dsimp only
    split
    next =>
      intro x' hok
      obtain ⟨made, hmade, hafter⟩ := bind_ok_iff.mp hok
      have hclient := initializePeerConnection_client hmade
      have hcomposed : made.2.Composed := by
        unfold Composed
        rw [hclient]
        exact h
      split at hafter
      next =>
        cases hafter
        exact hcomposed
      next =>
        cases hafter
        exact hcomposed.signOut
    next =>
      split
      next => exact Ends.ok h
      next => exact Ends.ok h
  | onSignedIn => exact Ends.ok h
  | onPeerConnected id name => exact Ends.ok h
  | onServerConnectionFailure => exact Ends.ok h
  | postNotification code => exact Ends.ok h

theorem Composed.observeAll (h : x.Composed) (r : Initialization) (callbacks : List Callback) :
    Ends Composed (observeAll r callbacks x) := by
  induction callbacks generalizing x with
  | nil => exact Ends.ok h
  | cons callback callbacks ih => exact Ends.bind (h.observe r callback) fun x' h' => ih h'

theorem Composed.act (h : x.Composed) {r : Initialization}
    {f : PeerConnectionClient ByteBuffer → Except Halt (PeerConnectionClient ByteBuffer)}
    (hf : ∀ c : PeerConnectionClient ByteBuffer, c.outPacketBuffer.contents = Fifo.empty 65536 →
      Ends (fun c' => c'.outPacketBuffer.contents = Fifo.empty 65536) (f c)) :
    Ends Composed (x.act r f) := by
  refine Ends.bind (hf { x.client with callbacks := [], isBusy := fun _ => x.isBusy } h) fun c hc => ?_
  exact Composed.observeAll (x := { x with client := c }) hc r c.callbacks

theorem Composed.sendToPeer (h : x.Composed) (msg : Message) : Ends Composed (x.sendToPeer msg) := by
  have hpacket := PeerConnectionClient.packet_out contents_hom (p := mediaMsgPacket x.peer_id msg.text) h
  exact Ends.bind hpacket fun c hc => Ends.ok hc

theorem Composed.uiThreadCallback (h : x.Composed) : Ends Composed x.uiThreadCallback := by
  unfold Conductor.uiThreadCallback
  split
  next => exact Ends.ok h
  next => exact Ends.ok h
  next msg queue _ =>
    refine Ends.bind (I := Composed) ?_ fun x' h' => ?_
    · unfold Conductor.sendPending
      split
      next => exact Ends.ok h
      next first pending _ =>
        split
        next => exact Ends.ok h
        next =>
          exact Composed.sendToPeer (x := { x with queue := queue, pending_messages := pending }) h first
    · split
      next => exact Ends.ok h'
      next => exact Ends.ok h'
  next => exact Ends.ok h
  next => exact Ends.ok h

theorem Composed.step (h : x.Composed) (e : ConductorEvent ByteBuffer) : Ends Composed (x.step e) := by
  have hrule := PeerConnectionClient.out_rule contents_hom
  cases e with
  | startLogin username password =>
    rw [Conductor.step]
    split
    next => exact Ends.ok h
    next =>
      refine h.act fun c hc => Ends.ok ?_
      unfold PeerConnectionClient.connect
      split
      next => exact hc
      next => exact hc
  | connectToPeer peer_id =>
    exact h.act fun c hc => PeerConnectionClient.packet_out contents_hom (p := mediaPacket peer_id 0) hc
  | disconnectFromCurrentPeer =>
    rw [Conductor.step, Conductor.disconnectFromCurrentPeer]
    split
    next => exact Ends.bind (h.sendToPeer _) fun x' h' => Ends.ok h'
    next => exact Ends.ok h
  | disconnectFromServer =>
    rw [Conductor.step]
    split
    next => exact Ends.ok h.signOut
    next => exact Ends.ok h
  | close => exact Ends.ok h.signOut
  | opened =>
    refine h.act fun c hc => PeerConnectionClient.packet_out contents_hom
      (c := { c with isConnected := true }) hc
  | closed =>
    refine h.act fun c hc => Ends.ok ?_
    exact PeerConnectionClient.close_out (c := c) contents_hom hc
  | packet bb packetType r =>
    refine h.act fun c hc => Ends.map ?_
    refine hrule.handlePacket hc bb packetType fun info _ c' _ _ hout _ => ?_
    unfold PeerConnectionClient.userInfo
    split
    next => exact (congrArg ByteBuffer.contents hout).trans hc
    next => exact (congrArg ByteBuffer.contents hout).trans hc
  | iceGatheringComplete text => exact Ends.ok h
  | addStream => exact Ends.ok h
  | removeStream => exact Ends.ok h
  | uiThreadCallback => exact h.uiThreadCallback

theorem reachable_composed (h : (conductorMachine ByteBuffer).Reachable create x) : x.Composed := by
  refine h.invariant (I := Composed) ?_ fun s e s' _ hs _ _ hok => hs.step e s' hok
  exact contents_hom.new 65536

end Conductor

namespace CrossingCalls

theorem received_contents (p : Packet) :
    (received p : ByteBuffer).contents.unread = p.fieldBytes ++ [0] := by
  have hwrite := congrArg Prod.snd (contents_hom.write (p.fieldBytes ++ [0]) (new (p.body.length + 1)))
  rw [contents_hom.new] at hwrite
  have hroom : (p.fieldBytes ++ [0]).length ≤ (Fifo.empty (p.body.length + 1)).free := by
    simp [Packet.body, Fifo.free, Fifo.empty]
  obtain ⟨_, _, hunread⟩ := Fifo.append_snd hroom
  have hsame : (received p : ByteBuffer).contents = ((Fifo.empty (p.body.length + 1)).append (p.fieldBytes ++ [0])).2 :=
    hwrite.symm
  rw [hsame, hunread]
  rfl

theorem readMedia_received (id code : UInt32) :
    (readMedia (received (mediaPacket id code) : ByteBuffer)).1 = some (id, code) := by
  have hsame := congrArg Prod.fst (readMedia_commutes contents_hom (received (mediaPacket id code) : ByteBuffer))
  have hread := congrArg Prod.fst (readMedia_reads (received (mediaPacket id code) : ByteBuffer).contents)
  rw [received_contents, parseMedia_fields] at hread
  exact hsame.symm.trans hread

theorem readMediaMsg_received (id : UInt32) {text : AString} (h : text.length < 2 ^ 32) :
    (readMediaMsg (received (mediaMsgPacket id text) : ByteBuffer)).1 = some (id, text) := by
  have hsame := congrArg Prod.fst (readMediaMsg_commutes contents_hom (received (mediaMsgPacket id text) : ByteBuffer))
  have hread := congrArg Prod.fst (readMediaMsg_reads (received (mediaMsgPacket id text) : ByteBuffer).contents)
  rw [received_contents, parseMediaMsg_fields id h] at hread
  exact hsame.symm.trans hread

section News

variable {x : Conductor ByteBuffer} (hgame : x.client.protocolState = 3) (id : UInt32)

include hgame

theorem news_media (code : UInt32) : x.news (received (mediaPacket id code)) 0x11 =
    some (if code = 0 then .request id else .response id code) := by
  rw [Conductor.news, if_neg (by simp [hgame]), if_neg (by decide), if_pos rfl, readMedia_received, Option.map_some]

end News

section Relays

variable {ids : Bool → UInt32} {who : Bool}

theorem relays_nil : relays ids who [] = [] := rfl

/-- One packet for the other is relayed as one packet. -/
theorem relays_frame {p p' : Packet} (hlen : p.body.length ≤ 65536)
    (hto : Server.addressed (ids who) p.type (p.fieldBytes ++ [0]) = some (ids !who, p')) :
    relays ids who (frame p.body) = [p'] := by
  have hnext := nextFrame_frame (show p.body.length < 2 ^ 32 by omega) []
  have hopened : opened p.body = some (p.type, p.fieldBytes ++ [0]) := by
    have hraw := opened_rawPacket (p.type, p.fieldBytes)
    rw [rawPacket_body] at hraw
    exact hraw
  rw [List.append_nil] at hnext
  rw [relays, packets_cons hnext hopened, if_pos rfl, packets_none nextFrame_nil, List.filterMap_cons, hto]
  simp

theorem relays_media {code : UInt32} (hlen : (mediaPacket (ids !who) code).body.length ≤ 65536) :
    relays ids who (frame (mediaPacket (ids !who) code).body) = [mediaPacket (ids who) code] := by
  refine relays_frame hlen ?_
  rw [Server.addressed, if_pos (show (mediaPacket (ids !who) code).type = 0x11 from rfl), parseMedia_fields]
  rfl

theorem relays_text {text : AString} (hlen : (mediaMsgPacket (ids !who) text).body.length ≤ 65536) :
    relays ids who (frame (mediaMsgPacket (ids !who) text).body) = [mediaMsgPacket (ids who) text] ∧
      text.length < 2 ^ 32 := by
  have hshort : text.length < 2 ^ 32 := by
    have hle : text.length ≤ (mediaMsgPacket (ids !who) text).body.length := by
      simp [mediaMsgPacket, Packet.body, Packet.fieldBytes, Field.bytes]
      omega
    omega
  refine ⟨relays_frame hlen ?_, hshort⟩
  have htype : (mediaMsgPacket (ids !who) text).type = 0x12 := rfl
  rw [Server.addressed, if_neg (by simp [htype]), if_pos htype, parseMediaMsg_fields _ hshort]
  rfl

end Relays

/-- A text that is no goodbye, from this client. -/
def Text (id : UInt32) (p : Packet) : Prop :=
  ∃ text : AString, text.length < 2 ^ 32 ∧ text ≠ PeerConnectionClient.kByeMessage ∧ p = mediaMsgPacket id text

/-- What a step of a client has the server relay. -/
def emitted (ids : Bool → UInt32) (who : Bool) (x x' : Conductor ByteBuffer) : List Packet :=
  relays ids who (x'.client.sent.drop x.client.sent.length)

section Emitted

variable {ids : Bool → UInt32} {who : Bool} {x x' : Conductor ByteBuffer}

theorem emitted_none (h : x'.client.sent = x.client.sent) : emitted ids who x x' = [] := by
  rw [emitted, h, List.drop_length]
  exact relays_nil

theorem emitted_media {code : UInt32}
    (h : x'.client.sent = x.client.sent ++ frame (mediaPacket (ids !who) code).body)
    (hlen : (mediaPacket (ids !who) code).body.length ≤ 65536) :
    emitted ids who x x' = [mediaPacket (ids who) code] := by
  rw [emitted, h, List.drop_left]
  exact relays_media hlen

theorem emitted_text {text : AString} (hbye : text ≠ PeerConnectionClient.kByeMessage)
    (h : x'.client.sent = x.client.sent ++ frame (mediaMsgPacket (ids !who) text).body)
    (hlen : (mediaMsgPacket (ids !who) text).body.length ≤ 65536) :
    ∀ p ∈ emitted ids who x x', Text (ids who) p := by
  obtain ⟨hrelays, hshort⟩ := @relays_text _ ids who text hlen
  rw [emitted, h, List.drop_left, hrelays]
  intro p hmem
  exact ⟨text, hshort, hbye, List.mem_singleton.mp hmem⟩

end Emitted

section Packets

variable {x x' : Conductor ByteBuffer} {r : Initialization}

/-- A packet is sent of which the observer hears nothing. -/
theorem act_packet {p : Packet} (hready : x.client.Ready) (hok : x.act r (fun c => c.packet p) = .ok x') :
    x'.client.Ready ∧ x'.callState = x.callState ∧ x'.client.sent = x.client.sent ++ frame p.body ∧
      p.body.length ≤ 65536 := by
  obtain ⟨c, hc, hobserved⟩ := bind_ok_iff.mp hok
  have hreset : ({ x.client with callbacks := [], isBusy := fun _ => x.isBusy } :
    PeerConnectionClient ByteBuffer).Ready := ⟨hready.isConnected, hready.game, hready.out⟩
  obtain ⟨hready', hsent, hlen⟩ := hreset.packet hc
  rw [Conductor.packet_told rfl c hc] at hobserved
  cases hobserved
  exact ⟨hready', rfl, hsent, hlen⟩

/-- A request is answered with 1 while there is no call. -/
theorem request_step {id : UInt32} (hready : x.client.Ready) (hnone : x.peer_connection = none)
    (hok : x.step (.packet (received (mediaPacket id 0)) 0x11 r) = .ok x') :
    x'.client.Ready ∧ x'.callState = x.callState ∧
      x'.client.sent = x.client.sent ++ frame (mediaPacket id 1).body ∧ (mediaPacket id 1).body.length ≤ 65536 := by
  have hnews : x.news (received (mediaPacket id 0)) 0x11 = some (.request id) := news_media hready.game id 0
  have hidle : x.isBusy = false := by simp [Conductor.isBusy, hnone]
  obtain ⟨c, c', hc, hpacket, rfl⟩ := Conductor.request_answered hnews hok
  have hasked : c.Ready := by
    rw [hc]
    exact ⟨hready.isConnected, hready.game, hready.out⟩
  have hsent : c.sent = x.client.sent := by rw [hc]
  rw [hidle, if_neg (by decide)] at hpacket
  obtain ⟨hready', hafter, hlen⟩ := hasked.packet hpacket
  exact ⟨hready', rfl, by rw [← hsent]; exact hafter, hlen⟩

/-- The observer is told of an answer. -/
theorem answer_step (id : UInt32) (hready : x.client.Ready) :
    ∃ c : PeerConnectionClient ByteBuffer, c.Ready ∧ c.sent = x.client.sent ∧
      x.step (.packet (received (mediaPacket id 1)) 0x11 r) =
        Conductor.onPeerResponse r id 1 { x with client := c } := by
  obtain ⟨c, hc⟩ : ∃ c : PeerConnectionClient ByteBuffer,
      c = { x.client with callbacks := [], isBusy := fun _ => x.isBusy } := ⟨_, rfl⟩
  have hgame : c.protocolState = 3 := by rw [hc]; exact hready.game
  have hhandled := PeerConnectionClient.handlePacket_media hgame (readMedia_received id 1)
  rw [PeerConnectionClient.mediaArrived, if_neg (show (1 : UInt32) ≠ 0 by decide)] at hhandled
  refine ⟨(c.record (0x11, (readAll (received (mediaPacket id 1) : ByteBuffer)).1)).notify
    (.onPeerResponse id 1), ?_, by rw [hc]; rfl, ?_⟩
  · rw [hc]
    exact ⟨hready.isConnected, hready.game, hready.out⟩
  · rw [Conductor.step, Conductor.act, ← hc, hhandled, hc]
    exact Conductor.observeAll_singleton _ _

/-- The observer is told of a text. -/
theorem text_step (id : UInt32) {text : AString} (hlen : text.length < 2 ^ 32)
    (hbye : text ≠ PeerConnectionClient.kByeMessage) (hready : x.client.Ready) :
    ∃ c : PeerConnectionClient ByteBuffer, c.Ready ∧ c.sent = x.client.sent ∧
      x.step (.packet (received (mediaMsgPacket id text)) 0x12 r) =
        Conductor.onMessageFromPeer r id text { x with client := c } := by
  obtain ⟨c, hc⟩ : ∃ c : PeerConnectionClient ByteBuffer,
      c = { x.client with callbacks := [], isBusy := fun _ => x.isBusy } := ⟨_, rfl⟩
  have hgame : c.protocolState = 3 := by rw [hc]; exact hready.game
  have hhandled := PeerConnectionClient.handlePacket_mediaMsg hgame (readMediaMsg_received id hlen)
  rw [PeerConnectionClient.mediaMsgArrived, if_neg hbye] at hhandled
  refine ⟨(c.record (0x12, (readAll (received (mediaMsgPacket id text) : ByteBuffer)).1)).notify
    (.onMessageFromPeer id text), ?_, by rw [hc]; rfl, ?_⟩
  · rw [hc]
    exact ⟨hready.isConnected, hready.game, hready.out⟩
  · rw [Conductor.step, Conductor.act, ← hc, hhandled, hc]
    exact Conductor.observeAll_singleton _ _

end Packets

end CrossingCalls

end P2PChat

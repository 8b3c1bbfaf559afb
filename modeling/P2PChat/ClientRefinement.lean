import P2PChat.PeerConnectionClient
import P2PChat.EndpointSimulation
import P2PChat.BufferRefinement

namespace P2PChat

open ByteQueue

namespace PeerConnectionClient

/-- The client with its buffers replaced by what `f` makes of them. -/
def map {β γ : Type} (f : β → γ) (c : PeerConnectionClient β) : PeerConnectionClient γ where
  state := c.state
  isConnected := c.isConnected
  protocolState := c.protocolState
  receivedData := f c.receivedData
  outPacketBuffer := f c.outPacketBuffer
  peers := c.peers
  username := c.username
  password := c.password
  isBusy := c.isBusy
  sent := c.sent
  callbacks := c.callbacks
  log := c.log

variable {β γ : Type} [ByteQueue β] [ByteQueue γ] {f : β → γ} (hf : Hom f)

include hf

theorem create_map (isBusy : Nat → Bool) :
    (create isBusy : PeerConnectionClient γ) = (create isBusy).map f := by
  simp only [create, map, hf.new]

omit hf [ByteQueue β] [ByteQueue γ] in
theorem sendData_map (data : AString) (c : PeerConnectionClient β) :
    (c.map f).sendData data = (c.sendData data).map f := by
  unfold sendData
  change (if c.isConnected = true then _ else _) = _
  split <;> rfl

theorem packet_map (p : Packet) (c : PeerConnectionClient β) :
    (c.map f).packet p = (c.packet p).map (map f) := by
  refine map_bind (packetize_map hf p c.outPacketBuffer) fun out => ?_
  have htake := takePacketClient_map hf out
  have hset : ({ c.map f with outPacketBuffer := f (takePacketClient out).2.2 } : PeerConnectionClient γ) =
      ({ c with outPacketBuffer := (takePacketClient out).2.2 } : PeerConnectionClient β).map f := rfl
  simp only [htake, hset, sendData_map]
  rfl

theorem close_map (c : PeerConnectionClient β) : (c.map f).close = c.close.map f := by
  simp only [close, map, hf.clearAll]

theorem signOut_map (c : PeerConnectionClient β) : (c.map f).signOut = c.signOut.map f := by
  have hclose := close_map hf { c with state := .signingOut }
  have hset : ({ c.map f with state := .signingOut } : PeerConnectionClient γ) =
      ({ c with state := .signingOut } : PeerConnectionClient β).map f := rfl
  unfold signOut
  change (if c.state = .notConnected ∨ c.state = .signingOut then _
    else if c.isConnected = true then _ else _) = _
  split
  next => rfl
  next =>
    split
    next =>
      rw [hset, hclose]
      rfl
    next => rfl

theorem handleErrorCode_map (code : Int32) (c : PeerConnectionClient β) :
    (c.map f).handleErrorCode code = (c.handleErrorCode code).map f := by
  unfold handleErrorCode
  rw [signOut_map hf]
  rfl

theorem mediaArrived_map (peer_id type : UInt32) (c : PeerConnectionClient β) :
    (c.map f).mediaArrived peer_id type = (c.mediaArrived peer_id type).map (map f) := by
  unfold mediaArrived
  split
  next => exact packet_map hf _ { c with isBusy := fun n => c.isBusy (n + 1) }
  next => rfl

theorem statusAnswered_map (status : Int32 × AString) (c : PeerConnectionClient β) :
    (c.map f).statusAnswered status = (c.statusAnswered status).map (map f) := by
  unfold statusAnswered
  split
  next => rfl
  next => exact packet_map hf _ (c.setProtocolState status.1.toUInt32)

omit hf [ByteQueue β] [ByteQueue γ] in
theorem userInfo_map (uid : UInt32) (name : AString) (state : UInt32) (c : PeerConnectionClient β) :
    (c.map f).userInfo uid name state = (c.userInfo uid name state).map f := by
  unfold userInfo
  split <;> rfl

omit hf [ByteQueue β] [ByteQueue γ] in
theorem mediaMsgArrived_map (peer_id : UInt32) (message : AString) (c : PeerConnectionClient β) :
    (c.map f).mediaMsgArrived peer_id message = (c.mediaMsgArrived peer_id message).map f := by
  unfold mediaMsgArrived
  split <;> rfl

variable [Platform]

theorem readStatus_commutes : Commutes f readStatus readStatus :=
  (readBEInt32_commutes hf).andThen fun _ => (readVarUTF8String_commutes hf).andThen fun _ _ => rfl

theorem readUserInfo_commutes : Commutes f readUserInfo readUserInfo :=
  (readVarInt32_commutes hf).andThen fun _ => (readVarUTF8String_commutes hf).andThen fun _ =>
    (readVarInt32_commutes hf).andThen fun _ _ => rfl

theorem dispatchPacket_map (bb : β) (packetType : UInt32) (c : PeerConnectionClient β) :
    dispatchPacket (f bb) packetType (c.map f) =
      (dispatchPacket bb packetType c).map (mapResult f (map f)) := by
  unfold dispatchPacket
  change (if c.protocolState = 1 then _ else if c.protocolState = 2 then _
    else if c.protocolState = 3 then _ else if c.protocolState = 255 then _ else _) = _
  split_ifs
  · exact handling_map (readStatus_commutes hf) (statusAnswered_map hf) bb c
  · rfl
  · exact handling_map (readBEInt32_commutes hf)
      (fun reason c => congrArg Except.ok (handleErrorCode_map hf reason c)) bb c
  · rfl
  · rfl
  · exact handling_map (readVarInt32_commutes hf) (fun _ c => packet_map hf _ c) bb c
  · exact handling_map (readUserInfo_commutes hf)
      (fun info c => congrArg Except.ok (userInfo_map info.1 info.2.1 info.2.2 c)) bb c
  · exact handling_map (readMedia_commutes hf) (fun media c => mediaArrived_map hf _ _ c) bb c
  · exact handling_map (readMediaMsg_commutes hf)
      (fun media c => congrArg Except.ok (mediaMsgArrived_map media.1 media.2 c)) bb c
  · exact handling_map (readBEInt32_commutes hf)
      (fun reason c => congrArg Except.ok (handleErrorCode_map hf reason c)) bb c
  · rfl
  · rfl
  · rfl

theorem endpoint_simulates :
    Endpoint.Simulates f (map f) (endpoint : Endpoint β (PeerConnectionClient β)) endpoint where
  received _ := rfl
  setReceived _ _ := rfl
  handlePacket bb packetType c := by
    have hall : (readAll (f bb)).1 = (readAll bb).1 := congrArg Prod.fst (hf.readAll bb)
    have hrecord : (c.map f).record (packetType, (readAll (f bb)).1) =
        (c.record (packetType, (readAll bb).1)).map f := by
      rw [hall]
      rfl
    change dispatchPacket (f bb) packetType ((c.map f).record (packetType, (readAll (f bb)).1)) = _
    rw [hrecord]
    exact dispatchPacket_map hf bb packetType _
  packetBufferFull _ := rfl
  packetError _ _ := rfl

/-- A client over one kind of buffers receives as it does over another. -/
theorem dataReceived_map (data : AString) (c : PeerConnectionClient β) :
    (c.map f).dataReceived data = (c.dataReceived data).map (map f) :=
  addReceivedData_simulates hf (endpoint_simulates hf) data c

end PeerConnectionClient

end P2PChat

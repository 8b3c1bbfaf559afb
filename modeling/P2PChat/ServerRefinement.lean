import P2PChat.ServerRun

namespace P2PChat

open ByteQueue

section Maps

variable {β γ : Type}

def ProtocolImpl.map (f : β → γ) (c : ProtocolImpl β) : ProtocolImpl γ where
  state := c.state
  receivedData := f c.receivedData
  outPacketBuffer := f c.outPacketBuffer
  outPacketLenBuffer := f c.outPacketLenBuffer

/-- The connection with its buffers replaced by what `f` makes of them. -/
def ClientHandle.map (f : β → γ) (c : ClientHandle β) : ClientHandle γ where
  ipString := c.ipString
  username := c.username
  protocol := c.protocol.map f
  incomingData := c.incomingData
  outgoingData := c.outgoingData
  hasSentDC := c.hasSentDC
  ticksSinceLastPacket := c.ticksSinceLastPacket
  ping := c.ping
  pingID := c.pingID
  pingStartTime := c.pingStartTime
  state := c.state
  uniqueID := c.uniqueID
  link := c.link
  sent := c.sent
  log := c.log

def Server.map (f : β → γ) (s : Server β) : Server γ where
  heap p := (s.heap p).map f
  allocated := s.allocated
  clients := s.clients
  clientCount := s.clientCount
  queue := s.queue
  inFlight := s.inFlight
  now := s.now

theorem store_map (f : β → γ) (p : Nat) (c : ClientHandle β) (s : Server β) :
    (s.map f).store p (c.map f) = (s.store p c).map f := by
  simp only [Server.store, Server.map, Server.mk.injEq, and_true]
  funext q
  split <;> rfl

theorem modify_map {f : β → γ} {g : ClientHandle β → ClientHandle β}
    {g' : ClientHandle γ → ClientHandle γ} (h : ∀ c, g' (c.map f) = (g c).map f) (p : Nat)
    (s : Server β) : (s.map f).modify p g' = (s.modify p g).map f := by
  rw [Server.modify, Server.modify, ← store_map]
  exact congrArg (fun c => (s.map f).store p c) (h (s.heap p))

theorem act_map {f : β → γ} {g : ClientHandle β → Except Halt (ClientHandle β)}
    {g' : ClientHandle γ → Except Halt (ClientHandle γ)}
    (h : ∀ c, g' (c.map f) = (g c).map (ClientHandle.map f)) (p : Nat) (s : Server β) :
    (s.map f).act p g' = (s.act p g).map (Server.map f) :=
  map_bind (h (s.heap p)) (fun c => congrArg Except.ok (store_map f p c s))

theorem findClient_map (f : β → γ) (id : UInt32) (s : Server β) :
    (s.map f).findClient id = s.findClient id := rfl

theorem isPlayerInQueue_map (f : β → γ) (name : AString) (s : Server β) :
    (s.map f).isPlayerInQueue name = s.isPlayerInQueue name := rfl

theorem handleKeepAlive_map [ByteQueue β] [ByteQueue γ] (f : β → γ) (id : UInt32) (now : Int)
    (c : ClientHandle β) :
    (c.map f).handleKeepAlive id now = (c.handleKeepAlive id now).map f := by
  unfold ClientHandle.handleKeepAlive
  change (if id = c.pingID then _ else _) = _
  split <;> rfl

theorem handleLogin_map [ByteQueue β] [ByteQueue γ] (f : β → γ) (p : Nat)
    (username password : AString) (s : Server β) :
    (s.map f).handleLogin p username password = (s.handleLogin p username password).map f := by
  have hstate : ∀ c : ClientHandle β,
      (c.map f).setState .csAuthenticating = (c.setState .csAuthenticating).map f := fun _ => rfl
  simp only [Server.handleLogin, modify_map hstate p s]
  rfl

end Maps

section Refinement

variable {β γ : Type} [ByteQueue β] [ByteQueue γ] {f : β → γ} (hf : Hom f)

include hf

theorem create_map (ip : AString) (id : UInt32) (now : Int) :
    (ClientHandle.create ip id now : ClientHandle γ) = (ClientHandle.create ip id now).map f := by
  simp only [ClientHandle.create, ClientHandle.map, ProtocolImpl.map, hf.new]

theorem packet_map (p : Packet) (c : ClientHandle β) :
    (c.map f).packet p = (c.packet p).map (ClientHandle.map f) := by
  refine map_bind (packetize_map hf p c.protocol.outPacketBuffer) fun out => ?_
  have htake := takePacket_map hf out c.protocol.outPacketLenBuffer
  simp only [ClientHandle.map, ProtocolImpl.map, htake]
  cases hdc : c.hasSentDC <;>
    simp [ClientHandle.sendData, ClientHandle.record, Except.map, ClientHandle.map, ProtocolImpl.map]

theorem sendDisconnect_map (reason : Int32) (c : ClientHandle β) :
    (c.map f).sendDisconnect reason = (c.sendDisconnect reason).map (ClientHandle.map f) := by
  unfold ClientHandle.sendDisconnect
  change (if c.hasSentDC = true then _ else _) = _
  split
  next => rfl
  next =>
    refine map_bind (F := ClientHandle.map f) ?_ (fun c => rfl)
    unfold ClientHandle.protocolSendDisconnect
    change (if c.protocol.state = 2 then _ else if c.protocol.state = 3 then _ else _) = _
    split
    next => exact packet_map hf _ c
    next =>
      split
      next => exact packet_map hf _ c
      next => rfl

theorem sendLoginSuccess_map (c : ClientHandle β) :
    (c.map f).sendLoginSuccess = c.sendLoginSuccess.map (ClientHandle.map f) :=
  map_bind (packet_map hf _ (c.record (.loginSuccess c.protocol.state))) (fun _ => rfl)

theorem sendKeepAlive_map (id : UInt32) (c : ClientHandle β) :
    (c.map f).sendKeepAlive id = (c.sendKeepAlive id).map (ClientHandle.map f) := by
  unfold ClientHandle.sendKeepAlive
  change (if c.protocol.state ≠ 3 then _ else _) = _
  split
  next => rfl
  next => exact packet_map hf _ (c.record (.keepAlive c.protocol.state))

theorem tickPing_map (now : Int) (c : ClientHandle β) :
    (c.map f).tickPing now = (c.tickPing now).map (ClientHandle.map f) := by
  unfold ClientHandle.tickPing
  change (if c.state = .csWorking ∧ c.pingStartTime + pingTime ≤ now then _ else _) = _
  split
  next =>
    exact sendKeepAlive_map hf _ { c with pingID := c.pingID + 1, pingStartTime := now }
  next => rfl

theorem tickTimeout_map (c : ClientHandle β) :
    (c.map f).tickTimeout = c.tickTimeout.map (ClientHandle.map f) := by
  unfold ClientHandle.tickTimeout
  change (if 600 < c.countTick.ticksSinceLastPacket then _ else _) = _
  split
  next => exact sendDisconnect_map hf _ c.countTick
  next => rfl

theorem tickRest_map (now : Int) (c : ClientHandle β) :
    (c.map f).tickRest now = (c.tickRest now).map (ClientHandle.map f) := by
  have hstart : (c.map f).flush.startWorking = c.flush.startWorking.map f := by
    unfold ClientHandle.startWorking
    change (if c.flush.state = .csAuthenticated then _ else _) = _
    split <;> rfl
  refine map_bind ?_ (fun c => tickTimeout_map hf c)
  rw [hstart]
  exact tickPing_map hf now _

theorem broadcastTo_map (p q : Nat) (s : Server β) :
    Server.broadcastTo p q (s.map f) = (Server.broadcastTo p q s).map (Server.map f) := by
  refine map_bind (act_map (fun c => packet_map hf _ c) q s) fun s => ?_
  change (if (s.heap p).isLoggedIn = true then _ else _) = _
  split
  next => exact act_map (fun c => packet_map hf _ c) p s
  next => rfl

theorem broadcastLoop_map (p : Nat) (clients : List Nat) (s : Server β) :
    Server.broadcastLoop p clients (s.map f) =
      (Server.broadcastLoop p clients s).map (Server.map f) := by
  induction clients generalizing s with
  | nil => rfl
  | cons q clients ih =>
    unfold Server.broadcastLoop
    change (if (s.heap q).uniqueID ≠ (s.heap p).uniqueID then _ else _) = _
    split
    next => exact map_bind (broadcastTo_map hf p q s) fun s => ih s
    next => exact ih s

theorem forwardMedia_map (to_id from_id type : UInt32) (s : Server β) :
    (s.map f).forwardMedia to_id from_id type =
      (s.forwardMedia to_id from_id type).map (Server.map f) := by
  unfold Server.forwardMedia
  rw [findClient_map]
  split
  next p _ => exact act_map (fun c => packet_map hf _ c) p s
  next => rfl

theorem forwardMediaMsg_map (to_id from_id : UInt32) (msg : AString) (s : Server β) :
    (s.map f).forwardMediaMsg to_id from_id msg =
      (s.forwardMediaMsg to_id from_id msg).map (Server.map f) := by
  unfold Server.forwardMediaMsg
  rw [findClient_map]
  split
  next p _ => exact act_map (fun c => packet_map hf _ c) p s
  next => rfl

theorem destroy_map (p : Nat) (s : Server β) :
    (s.map f).destroy p = (s.destroy p).map (Server.map f) := by
  have hunlink : ∀ c : ClientHandle β, (c.map f).unlink = c.unlink.map f := fun _ => rfl
  have hstate : ∀ c : ClientHandle β,
      (c.map f).setState .csDestroyed = (c.setState .csDestroyed).map f := fun _ => rfl
  unfold Server.destroy
  change (if EState.csDestroying.toNat ≤ (s.heap p).state.toNat then _ else _) = _
  split
  next => exact congrArg Except.ok (modify_map hunlink p s)
  next =>
    rw [modify_map hunlink p s, modify_map hstate p]
    exact broadcastLoop_map hf p _ _

theorem authenticate_map (p : Nat) (name : AString) (s : Server β) :
    (s.map f).authenticate p name = (s.authenticate p name).map (Server.map f) := by
  unfold Server.authenticate
  rw [isPlayerInQueue_map]
  change (if (s.heap p).state ≠ .csAuthenticating then _ else _) = _
  split
  next => rfl
  next =>
    split
    next => exact act_map (fun c => sendDisconnect_map hf _ c) p s
    next =>
      have hname : ∀ c : ClientHandle β, (c.map f).setUsername name = (c.setUsername name).map f :=
        fun _ => rfl
      have hstate : ∀ c : ClientHandle β,
          (c.map f).setState .csAuthenticated = (c.setState .csAuthenticated).map f := fun _ => rfl
      rw [modify_map hname p s]
      refine map_bind (act_map (fun c => sendLoginSuccess_map hf c) p _) fun s => ?_
      rw [modify_map hstate p s]
      refine map_bind (broadcastLoop_map hf p _ _) fun s => ?_
      have hping : ∀ c : ClientHandle β, (c.map f).setPingStart (s.now + 3 * 1000000000) =
          (c.setPingStart (s.now + 3 * 1000000000)).map f := fun _ => rfl
      exact congrArg Except.ok (modify_map hping p s)

theorem kickLoop_map (id : UInt32) (reason : Int32) (clients : List Nat) (s : Server β) :
    Server.kickLoop id reason clients (s.map f) =
      (Server.kickLoop id reason clients s).map (Server.map f) := by
  induction clients generalizing s with
  | nil => rfl
  | cons p clients ih =>
    unfold Server.kickLoop
    change (if (s.heap p).uniqueID = id then _ else _) = _
    split
    next => exact map_bind (act_map (fun c => sendDisconnect_map hf _ c) p s) fun s => ih s
    next => exact ih s

theorem authenticateUser_map (id : UInt32) (name : AString) (s : Server β) :
    (s.map f).authenticateUser id name = (s.authenticateUser id name).map (Server.map f) := by
  unfold Server.authenticateUser
  rw [findClient_map]
  split
  next p _ => exact authenticate_map hf p name s
  next => rfl

theorem statusRequested_map (p : Nat) (request : AString × AString × Int32 × Int32) (s : Server β) :
    Server.statusRequested p request (s.map f) =
      (Server.statusRequested p request s).map (Server.map f) := by
  have hstate : ∀ c : ClientHandle β, (c.map f).setProtocolState request.2.2.2.toUInt32 =
      (c.setProtocolState request.2.2.2.toUInt32).map f := fun _ => rfl
  unfold Server.statusRequested
  split
  next => exact act_map (fun c => sendDisconnect_map hf _ c) p s
  next =>
    rw [modify_map hstate p s]
    exact act_map (fun c => packet_map hf _ c) p _

theorem unknownPacket_map (p : Nat) (packetType : UInt32) (bb : β) (s : Server β) :
    Server.unknownPacket p packetType (f bb) (s.map f) =
      (Server.unknownPacket p packetType bb s).map (mapResult f (Server.map f)) :=
  map_bind (act_map (fun c => sendDisconnect_map hf _ c) p s) fun _ => rfl

section Handlers

variable [Platform]

theorem readStatusRequest_commutes :
    Commutes f Server.readStatusRequest Server.readStatusRequest :=
  (readVarUTF8String_commutes hf).andThen fun _ => (readVarUTF8String_commutes hf).andThen fun _ =>
    (readBEInt32_commutes hf).andThen fun _ => (readBEInt32_commutes hf).andThen fun _ _ => rfl

theorem readLoginInfo_commutes : Commutes f Server.readLoginInfo Server.readLoginInfo :=
  (readVarUTF8String_commutes hf).andThen fun _ =>
    (readVarUTF8String_commutes hf).andThen fun _ _ => rfl

theorem dispatchPacket_map (p : Nat) (bb : β) (packetType : UInt32) (s : Server β) :
    Server.dispatchPacket p (f bb) packetType (s.map f) =
      (Server.dispatchPacket p bb packetType s).map (mapResult f (Server.map f)) := by
  have hunknown := unknownPacket_map hf p packetType bb s
  unfold Server.dispatchPacket
  change (if (s.heap p).protocol.state = 1 then _ else if (s.heap p).protocol.state = 2 then _
    else if (s.heap p).protocol.state = 3 then _ else if (s.heap p).protocol.state = 255 then _
    else _) = _
  split_ifs
  · exact handling_map (readStatusRequest_commutes hf) (statusRequested_map hf p) bb s
  · exact handling_map (readBEInt64_commutes hf)
      (fun _ s => act_map (fun c => packet_map hf _ c) p s) bb s
  · exact hunknown
  · exact handling_map (readLoginInfo_commutes hf)
      (fun login s => congrArg Except.ok (handleLogin_map f p login.1 login.2 s)) bb s
  · exact hunknown
  · exact handling_map (readVarInt32_commutes hf)
      (fun id s => congrArg Except.ok (modify_map (handleKeepAlive_map f id s.now) p s)) bb s
  · exact handling_map (readMedia_commutes hf)
      (fun media s => forwardMedia_map hf media.1 (s.heap p).uniqueID media.2 s) bb s
  · exact handling_map (readMediaMsg_commutes hf)
      (fun media s => forwardMediaMsg_map hf media.1 (s.heap p).uniqueID media.2 s) bb s
  · exact hunknown
  · rfl
  · have hstate : ∀ c : ClientHandle β,
        (c.map f).setProtocolState 255 = (c.setProtocolState 255).map f := fun _ => rfl
    rw [modify_map hstate p s]
    rfl

theorem handlePacket_map (p : Nat) (bb : β) (packetType : UInt32) (s : Server β) :
    Server.handlePacket p (f bb) packetType (s.map f) =
      (Server.handlePacket p bb packetType s).map (mapResult f (Server.map f)) := by
  have hall : (readAll (f bb)).1 = (readAll bb).1 := congrArg Prod.fst (hf.readAll bb)
  have hrecord : ∀ c : ClientHandle β,
      (c.map f).record (.handled (c.map f).protocol.state packetType (readAll (f bb)).1) =
        (c.record (.handled c.protocol.state packetType (readAll bb).1)).map f := by
    intro c
    rw [hall]
    rfl
  unfold Server.handlePacket
  rw [modify_map hrecord p s]
  exact dispatchPacket_map hf p bb packetType _

end Handlers

end Refinement

end P2PChat

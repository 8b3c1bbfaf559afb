import P2PChat.ClientHandle
import P2PChat.PacketReaders

namespace P2PChat

open ByteQueue

/-- `cAuthenticator::cUser`. -/
structure User where
  clientID : UInt32
  username : AString
  password : AString
  deriving DecidableEq, Repr

/-- The connection objects by their addresses, `m_Clients`, the authenticator's queue with the
request its thread works on, and the clock. -/
structure Server (β : Type) where
  heap : Nat → ClientHandle β
  allocated : Nat
  clients : List Nat
  clientCount : Nat
  queue : List User
  inFlight : Option User
  now : Int

namespace Server

section State

variable {β : Type}

def store (p : Nat) (c : ClientHandle β) (s : Server β) : Server β :=
  { s with heap := fun q => if q = p then c else s.heap q }

def modify (p : Nat) (g : ClientHandle β → ClientHandle β) (s : Server β) : Server β :=
  s.store p (g (s.heap p))

/-- A call on the object at `p`. -/
def act (p : Nat) (f : ClientHandle β → Except Halt (ClientHandle β)) (s : Server β) :
    Except Halt (Server β) := do
  let c ← f (s.heap p)
  .ok (s.store p c)

def findClient (id : UInt32) (s : Server β) : Option Nat :=
  s.clients.find? (fun p => (s.heap p).uniqueID == id)

def isPlayerInQueue (name : AString) (s : Server β) : Bool :=
  s.clients.any (fun p => (s.heap p).username == name)

end State

variable {β : Type} [ByteQueue β]

/-- One round of the loop of `BroadcastUserInfo`: `q` is told of `p`, and `p` of `q`. -/
def broadcastTo (p q : Nat) (s : Server β) : Except Halt (Server β) := do
  let s ← s.act q (ClientHandle.broadcastUserInfo (s.heap p))
  if (s.heap p).isLoggedIn then s.act p (ClientHandle.broadcastUserInfo (s.heap q)) else .ok s

/-- The loop of `BroadcastUserInfo` over the rest of `m_Clients`. -/
def broadcastLoop (p : Nat) : List Nat → Server β → Except Halt (Server β)
  | [], s => .ok s
  | q :: clients, s =>
    if (s.heap q).uniqueID ≠ (s.heap p).uniqueID then do
      let s ← broadcastTo p q s
      broadcastLoop p clients s
    else broadcastLoop p clients s

def broadcastUserInfo (p : Nat) (s : Server β) : Except Halt (Server β) :=
  broadcastLoop p s.clients s

def forwardMedia (to_id from_id type : UInt32) (s : Server β) : Except Halt (Server β) :=
  match s.findClient to_id with
  | some p => s.act p (ClientHandle.forwardMedia from_id type)
  | none => .ok s

def forwardMediaMsg (to_id from_id : UInt32) (msg : AString) (s : Server β) : Except Halt (Server β) :=
  match s.findClient to_id with
  | some p => s.act p (ClientHandle.forwardMediaMsg from_id msg)
  | none => .ok s

/-- `cClientHandle::Destroy`; nothing can come between its two assignments of `m_State`. -/
def destroy (p : Nat) (s : Server β) : Except Halt (Server β) :=
  if EState.csDestroying.toNat ≤ (s.heap p).state.toNat then .ok (s.modify p ClientHandle.unlink)
  else
    broadcastUserInfo p
      ((s.modify p ClientHandle.unlink).modify p (ClientHandle.setState .csDestroyed))

def handleLogin (p : Nat) (username password : AString) (s : Server β) : Server β :=
  { s.modify p (ClientHandle.setState .csAuthenticating) with
    queue := s.queue ++ [⟨(s.heap p).uniqueID, username, password⟩] }

def authenticate (p : Nat) (name : AString) (s : Server β) : Except Halt (Server β) :=
  if (s.heap p).state ≠ .csAuthenticating then .ok s
  else if s.isPlayerInQueue name then s.act p (ClientHandle.kick errorCodeAlreadyLogin)
  else do
    let s ← (s.modify p (ClientHandle.setUsername name)).act p ClientHandle.sendLoginSuccess
    let s ← broadcastUserInfo p (s.modify p (ClientHandle.setState .csAuthenticated))
    .ok (s.modify p (ClientHandle.setPingStart (s.now + 3 * 1000000000)))

def authenticateUser (id : UInt32) (name : AString) (s : Server β) : Except Halt (Server β) :=
  match s.findClient id with
  | some p => s.authenticate p name
  | none => .ok s

/-- The loop of `KickUser`, that does not stop at the first. -/
def kickLoop (id : UInt32) (reason : Int32) : List Nat → Server β → Except Halt (Server β)
  | [], s => .ok s
  | p :: clients, s =>
    if (s.heap p).uniqueID = id then do
      let s ← s.act p (ClientHandle.kick reason)
      kickLoop id reason clients s
    else kickLoop id reason clients s

def kickUser (id : UInt32) (reason : Int32) (s : Server β) : Except Halt (Server β) :=
  kickLoop id reason s.clients s

section Handlers

variable [Platform]

def readStatusRequest : Reader β (AString × AString × Int32 × Int32) :=
  readVarUTF8String.andThen fun appName => readVarUTF8String.andThen fun server =>
    readBEInt32.andThen fun port => readBEInt32.andThen fun state =>
      .ret (appName, server, port, state)

def readLoginInfo : Reader β (AString × AString) :=
  readVarUTF8String.andThen fun username => readVarUTF8String.andThen fun password =>
    .ret (username, password)

def statusRequested (p : Nat) (request : AString × AString × Int32 × Int32) (s : Server β) :
    Except Halt (Server β) :=
  if request.1 ≠ appP2pchat ∨ request.2.2.2 < 1 ∨ 2 < request.2.2.2 then
    s.act p (ClientHandle.kick errorCodeBadApp)
  else
    (s.modify p (ClientHandle.setProtocolState request.2.2.2.toUInt32)).act p fun c =>
      c.packet ⟨0x00, [.beInt32 c.protocol.state.toInt32, .string c.ipString]⟩

def handlePacketStatusRequest (p : Nat) (bb : β) (s : Server β) : Except Halt (Bool × β × Server β) :=
  handling readStatusRequest (statusRequested p) bb s

def handlePacketStatusPing (p : Nat) (bb : β) (s : Server β) : Except Halt (Bool × β × Server β) :=
  handling readBEInt64 (fun timestamp s =>
    s.act p (ClientHandle.packet ⟨0x01, [.beInt64 timestamp]⟩)) bb s

def handlePacketLoginInfo (p : Nat) (bb : β) (s : Server β) : Except Halt (Bool × β × Server β) :=
  handling readLoginInfo (fun login s => .ok (s.handleLogin p login.1 login.2)) bb s

def handlePacketKeepAlive (p : Nat) (bb : β) (s : Server β) : Except Halt (Bool × β × Server β) :=
  handling readVarInt32 (fun id s => .ok (s.modify p (ClientHandle.handleKeepAlive id s.now))) bb s

def handlePacketMedia (p : Nat) (bb : β) (s : Server β) : Except Halt (Bool × β × Server β) :=
  handling readMedia (fun media s => s.forwardMedia media.1 (s.heap p).uniqueID media.2) bb s

def handlePacketMediaMsg (p : Nat) (bb : β) (s : Server β) : Except Halt (Bool × β × Server β) :=
  handling readMediaMsg (fun media s => s.forwardMediaMsg media.1 (s.heap p).uniqueID media.2) bb s

def unknownPacket (p : Nat) (packetType : UInt32) (bb : β) (s : Server β) :
    Except Halt (Bool × β × Server β) := do
  let s ← s.act p (ClientHandle.packetUnknown packetType)
  .ok (false, bb, s)

/-- The `switch` of `HandlePacket`. -/
def dispatchPacket (p : Nat) (bb : β) (packetType : UInt32) (s : Server β) :
    Except Halt (Bool × β × Server β) :=
  if (s.heap p).protocol.state = 1 then
    if packetType = 0x00 then handlePacketStatusRequest p bb s
    else if packetType = 0x01 then handlePacketStatusPing p bb s
    else unknownPacket p packetType bb s
  else if (s.heap p).protocol.state = 2 then
    if packetType = 0x00 then handlePacketLoginInfo p bb s
    else unknownPacket p packetType bb s
  else if (s.heap p).protocol.state = 3 then
    if packetType = 0x00 then handlePacketKeepAlive p bb s
    else if packetType = 0x11 then handlePacketMedia p bb s
    else if packetType = 0x12 then handlePacketMediaMsg p bb s
    else unknownPacket p packetType bb s
  else if (s.heap p).protocol.state = 255 then .ok (false, bb, s)
  else .ok (false, bb, s.modify p (ClientHandle.setProtocolState 255))

def handlePacket (p : Nat) (bb : β) (packetType : UInt32) (s : Server β) :
    Except Halt (Bool × β × Server β) :=
  dispatchPacket p bb packetType
    (s.modify p fun c => c.record (.handled c.protocol.state packetType (readAll bb).1))

/-- The connection at `p`, as `AddReceivedData` sees it. -/
def endpoint (p : Nat) : Endpoint β (Server β) where
  received s := (s.heap p).protocol.receivedData
  setReceived b s := s.modify p (ClientHandle.setReceived b)
  handlePacket := handlePacket p
  packetBufferFull s := s.act p ClientHandle.packetBufferFull
  packetError packetType s := s.act p (ClientHandle.packetError packetType)

def addReceivedData (p : Nat) (data : AString) (s : Server β) : Except Halt (Server β) :=
  (endpoint p).addReceivedData data s

/-- The first part of `ServerTick`: the received data is processed. -/
def tickReceived (p : Nat) (s : Server β) : Except Halt (Server β) :=
  if (s.heap p).incomingData ≠ [] then
    (s.modify p ClientHandle.takeIncoming).addReceivedData p (s.heap p).incomingData
  else .ok s

def serverTick (p : Nat) (s : Server β) : Except Halt (Server β) := do
  let s ← s.tickReceived p
  s.act p (ClientHandle.tickRest s.now)

/-- What one round of the loop of `TickClients` does with the connection at `p`. -/
def tickClient (p : Nat) (s : Server β) : Except Halt (Server β) :=
  if (s.heap p).isDestroyed then .ok { s with clients := s.clients.erase p }
  else s.serverTick p

end Handlers

end Server

end P2PChat

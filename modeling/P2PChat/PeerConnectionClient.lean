import Mathlib.Logic.Function.Basic
import P2PChat.Framing
import P2PChat.PacketReaders

namespace P2PChat

open ByteQueue

/-- `PeerConnectionClient::State`. -/
inductive State where
  | notConnected
  | resolving
  | signingIn
  | connected
  | signingOutWaiting
  | signingOut
  deriving DecidableEq, Repr

/-- The calls of the observer, but for `IsBusy`; a notification by the code that its text is for. -/
inductive Callback where
  | onDisconnected
  | onSignedIn
  | onPeerConnected (id : UInt32) (name : AString)
  | onPeerDisconnected (peer_id : UInt32)
  | onPeerResponse (peer_id code : UInt32)
  | onMessageFromPeer (peer_id : UInt32) (message : AString)
  | onServerConnectionFailure
  | postNotification (code : Int32)
  deriving DecidableEq, Repr

/-- A map from IDs to names, the IDs as their 32 bits. -/
abbrev Peers := UInt32 → Option AString

/-- What a `UserInfo` packet does to the list: a state after `csWorking` is one of going offline. -/
def Peers.userInfo (uid : UInt32) (name : AString) (state : UInt32) (peers : Peers) : Peers :=
  if 3 < state then Function.update peers uid none else Function.update peers uid (some name)

/-- The members of `PeerConnectionClient`. The socket is connected when `m_bConnect` is set; `isBusy`
is what the observer will answer, `sent` what was given to the socket. `callbacks`, and `log` with the
calls of `HandlePacket`, no code reads. -/
structure PeerConnectionClient (β : Type) where
  state : State
  isConnected : Bool
  protocolState : UInt32
  receivedData : β
  outPacketBuffer : β
  peers : Peers
  username : AString
  password : AString
  isBusy : Nat → Bool
  sent : AString
  callbacks : List Callback
  log : List (UInt32 × AString)

namespace PeerConnectionClient

variable {β : Type} [ByteQueue β]

def create (isBusy : Nat → Bool) : PeerConnectionClient β where
  state := .notConnected
  isConnected := false
  protocolState := 1
  receivedData := new 65536
  outPacketBuffer := new 65536
  peers _ := none
  username := []
  password := []
  isBusy := isBusy
  sent := []
  callbacks := []
  log := []

def notify (callback : Callback) (c : PeerConnectionClient β) : PeerConnectionClient β :=
  { c with callbacks := c.callbacks ++ [callback] }

def record (call : UInt32 × AString) (c : PeerConnectionClient β) : PeerConnectionClient β :=
  { c with log := c.log ++ [call] }

def setReceived (b : β) (c : PeerConnectionClient β) : PeerConnectionClient β :=
  { c with receivedData := b }

def setProtocolState (state : UInt32) (c : PeerConnectionClient β) : PeerConnectionClient β :=
  { c with protocolState := state }

def sendData (data : AString) (c : PeerConnectionClient β) : PeerConnectionClient β :=
  if c.isConnected then { c with sent := c.sent ++ data } else c

/-- The life of a `cPacketizer`. -/
def packet (p : Packet) (c : PeerConnectionClient β) : Except Halt (PeerConnectionClient β) := do
  let out ← packetize p c.outPacketBuffer
  let (lenToSend, dataToSend, out) := takePacketClient out
  .ok (({ c with outPacketBuffer := out }.sendData lenToSend).sendData dataToSend)

/-- `Connect` to an address that needs no resolving, where the socket can be opened. -/
def connect (user pass : AString) (c : PeerConnectionClient β) : PeerConnectionClient β :=
  if c.state ≠ .notConnected ∨ user = [] ∨ pass = [] then c.notify .onServerConnectionFailure
  else { c with username := user, password := pass, state := .signingIn }

/-- `"127.0.0.1"`. -/
def SERVER : AString := [0x31, 0x32, 0x37, 0x2e, 0x30, 0x2e, 0x30, 0x2e, 0x31]

def PORT : Int32 := 6666

def onConnect (c : PeerConnectionClient β) : Except Halt (PeerConnectionClient β) :=
  { c with isConnected := true }.packet (statusRequestPacket appP2pchat SERVER PORT 2)

def close (c : PeerConnectionClient β) : PeerConnectionClient β :=
  { c with
    state := .notConnected
    isConnected := false
    receivedData := clearAll c.receivedData
    outPacketBuffer := clearAll c.outPacketBuffer
    protocolState := 1 }

def onClose (c : PeerConnectionClient β) : PeerConnectionClient β :=
  c.close.notify .onServerConnectionFailure

def signOut (c : PeerConnectionClient β) : PeerConnectionClient β :=
  if c.state = .notConnected ∨ c.state = .signingOut then c
  else if c.isConnected then
    { { c with state := .signingOut }.close.notify .onDisconnected with username := [], password := [] }
  else { c with state := .signingOutWaiting, username := [], password := [] }

def handleErrorCode (code : Int32) (c : PeerConnectionClient β) : PeerConnectionClient β :=
  (c.signOut.notify .onDisconnected).notify (.postNotification code)

def loginSucceeded (c : PeerConnectionClient β) : PeerConnectionClient β :=
  (c.setProtocolState 3).notify .onSignedIn

def userInfo (uid : UInt32) (name : AString) (state : UInt32) (c : PeerConnectionClient β) :
    PeerConnectionClient β :=
  if 3 < state then
    { c with peers := c.peers.userInfo uid name state }.notify (.onPeerDisconnected uid)
  else { c with peers := c.peers.userInfo uid name state }.notify (.onPeerConnected uid name)

/-- Who calls is told whether this client is busy, the answer to an own call goes to the observer. -/
def mediaArrived (peer_id type : UInt32) (c : PeerConnectionClient β) :
    Except Halt (PeerConnectionClient β) :=
  if type = 0 then
    { c with isBusy := fun n => c.isBusy (n + 1) }.packet
      (mediaPacket peer_id (if c.isBusy 0 then (-1 : Int32).toUInt32 else 1))
  else .ok (c.notify (.onPeerResponse peer_id type))

def kByeMessage : AString := [0x42, 0x59, 0x45]

def mediaMsgArrived (peer_id : UInt32) (message : AString) (c : PeerConnectionClient β) :
    PeerConnectionClient β :=
  if message = kByeMessage then c.notify (.onPeerDisconnected peer_id)
  else c.notify (.onMessageFromPeer peer_id message)

/-- The `m_State` that the server has come to; the client logs in. -/
def statusAnswered (status : Int32 × AString) (c : PeerConnectionClient β) :
    Except Halt (PeerConnectionClient β) :=
  if 3 < status.1 ∨ status.1 < 1 then .ok c
  else (c.setProtocolState status.1.toUInt32).packet (loginInfoPacket c.username c.password)

section Handlers

variable [Platform]

def readStatus : Reader β (Int32 × AString) :=
  readBEInt32.andThen fun state => readVarUTF8String.andThen fun strIP => .ret (state, strIP)

def readUserInfo : Reader β (UInt32 × AString × UInt32) :=
  readVarInt32.andThen fun uid => readVarUTF8String.andThen fun name =>
    readVarInt32.andThen fun state => .ret (uid, name, state)

def handlePacketStatusRequest (bb : β) (c : PeerConnectionClient β) :
    Except Halt (Bool × β × PeerConnectionClient β) :=
  handling readStatus statusAnswered bb c

def handlePacketLoginDisconnect (bb : β) (c : PeerConnectionClient β) :
    Except Halt (Bool × β × PeerConnectionClient β) :=
  handling readBEInt32 (fun reason c => .ok (c.handleErrorCode reason)) bb c

def handlePacketLoginSuccess (bb : β) (c : PeerConnectionClient β) :
    Except Halt (Bool × β × PeerConnectionClient β) := .ok (true, bb, c.loginSucceeded)

def handlePacketKeepAlive (bb : β) (c : PeerConnectionClient β) :
    Except Halt (Bool × β × PeerConnectionClient β) :=
  handling readVarInt32 (fun keepAliveID c => c.packet ⟨0x00, [.varInt32 keepAliveID]⟩) bb c

def handlePacketUserInfo (bb : β) (c : PeerConnectionClient β) :
    Except Halt (Bool × β × PeerConnectionClient β) :=
  handling readUserInfo (fun info c => .ok (c.userInfo info.1 info.2.1 info.2.2)) bb c

def handlePacketMedia (bb : β) (c : PeerConnectionClient β) :
    Except Halt (Bool × β × PeerConnectionClient β) :=
  handling readMedia (fun media c => c.mediaArrived media.1 media.2) bb c

def handlePacketMediaMsg (bb : β) (c : PeerConnectionClient β) :
    Except Halt (Bool × β × PeerConnectionClient β) :=
  handling readMediaMsg (fun media c => .ok (c.mediaMsgArrived media.1 media.2)) bb c

def handlePacketErrorCode (bb : β) (c : PeerConnectionClient β) :
    Except Halt (Bool × β × PeerConnectionClient β) :=
  handling readBEInt32 (fun reason c => .ok (c.handleErrorCode reason)) bb c

/-- The `switch` of `HandlePacket`. -/
def dispatchPacket (bb : β) (packetType : UInt32) (c : PeerConnectionClient β) :
    Except Halt (Bool × β × PeerConnectionClient β) :=
  if c.protocolState = 1 then
    if packetType = 0x00 then handlePacketStatusRequest bb c
    else .ok (false, bb, c)
  else if c.protocolState = 2 then
    if packetType = 0x00 then handlePacketLoginDisconnect bb c
    else if packetType = 0x01 then handlePacketLoginSuccess bb c
    else .ok (false, bb, c)
  else if c.protocolState = 3 then
    if packetType = 0x00 then handlePacketKeepAlive bb c
    else if packetType = 0x01 then handlePacketUserInfo bb c
    else if packetType = 0x11 then handlePacketMedia bb c
    else if packetType = 0x12 then handlePacketMediaMsg bb c
    else if packetType = 0x40 then handlePacketErrorCode bb c
    else .ok (false, bb, c)
  else if c.protocolState = 255 then .ok (false, bb, c)
  else .ok (false, bb, c.setProtocolState 255)

def handlePacket (bb : β) (packetType : UInt32) (c : PeerConnectionClient β) :
    Except Halt (Bool × β × PeerConnectionClient β) :=
  dispatchPacket bb packetType (c.record (packetType, (readAll bb).1))

/-- The client as its `AddReceivedData` sees it: neither data that does not fit nor a wrong number of
bytes is reported to anyone. -/
def endpoint : Endpoint β (PeerConnectionClient β) where
  received c := c.receivedData
  setReceived := setReceived
  handlePacket := handlePacket
  packetBufferFull c := .ok c
  packetError _ c := .ok c

/-- `AddReceivedData`. -/
def dataReceived (data : AString) (c : PeerConnectionClient β) : Except Halt (PeerConnectionClient β) :=
  endpoint.addReceivedData data c

/-- The loop of `OnRead`, with what `Recv` has for it: a closed socket has nothing. -/
def onRead : List AString → PeerConnectionClient β → Except Halt (PeerConnectionClient β)
  | [], c => .ok c
  | chunk :: chunks, c =>
    if c.isConnected then do
      let c ← c.dataReceived chunk
      onRead chunks c
    else .ok c

end Handlers

end PeerConnectionClient

end P2PChat

import P2PChat.ClientFrames
import P2PChat.Network

namespace P2PChat

open ByteQueue

/-- What `GetState` of a client's socket says. -/
inductive SocketState where
  | csClosed
  | csConnecting
  | csConnected
  deriving DecidableEq, Repr

/-- What `Connect` of a socket comes to: an error, a connection being opened, or an open one. -/
inductive ConnectReply where
  | socketError
  | inProgress
  | connected
  deriving DecidableEq, Repr

/-- What ends the process: a failed `VERIFY`, or a null pointer that is followed. -/
inductive Fault where
  | halt (h : Halt)
  | nullSocket
  | nullResolver
  deriving DecidableEq, Repr

/-- A `PeerConnectionClient` with its `control_socket_`, and whether `resolver_` is there. `resolving`
tells whether a resolver has been started and has neither signalled nor been destroyed; `heard`, the
`UserInfo` packets handled since the last `Connect` that was accepted, no code reads. -/
structure ClientSession (β : Type) where
  client : PeerConnectionClient β
  controlSocket : Option SocketState
  resolver : Bool
  resolving : Bool
  heard : List (UInt32 × AString × UInt32)

/-- Calls of the client by its user, and signals of its resolver and its socket: `Recv` has these chunks
when the socket signals that it can be read. -/
inductive SessionEvent where
  | connect (server : AString) (user pass : AString) (unresolved : Bool) (reply : ConnectReply)
  | requestToPeer (peer_id : UInt32)
  | sendToPeer (peer_id : UInt32) (message : AString)
  | isSendingMessage
  | signOut
  | resolved (failed : Bool) (reply : ConnectReply)
  | opened
  | readable (chunks : List AString)
  | closed
  deriving DecidableEq, Repr

/-- The list that these packets make of another. -/
def Peers.fold (heard : List (UInt32 × AString × UInt32)) (peers : Peers) : Peers :=
  heard.foldl (fun peers info => peers.userInfo info.1 info.2.1 info.2.2) peers

namespace PeerConnectionClient

variable {β : Type} [ByteQueue β] [Platform]

/-- The `UserInfo` packet that a call of `HandlePacket` handles, if it is one. -/
def hears (bb : β) (packetType : UInt32) (c : PeerConnectionClient β) : List (UInt32 × AString × UInt32) :=
  if c.protocolState = 3 ∧ packetType = 0x01 then (readUserInfo bb).1.toList else []

/-- The client with a record of the `UserInfo` packets that it handles. -/
def hearing : Endpoint β (PeerConnectionClient β × List (UInt32 × AString × UInt32)) where
  received s := s.1.receivedData
  setReceived b s := (s.1.setReceived b, s.2)
  handlePacket bb packetType s :=
    (handlePacket bb packetType s.1).map fun r => (r.1, r.2.1, r.2.2, s.2 ++ s.1.hears bb packetType)
  packetBufferFull s := .ok s
  packetError _ s := .ok s

/-- `OnRead` with that record. -/
def hearAll : List AString → PeerConnectionClient β × List (UInt32 × AString × UInt32) →
    Except Halt (PeerConnectionClient β × List (UInt32 × AString × UInt32))
  | [], s => .ok s
  | chunk :: chunks, s =>
    if s.1.isConnected then do
      let s ← hearing.addReceivedData chunk s
      hearAll chunks s
    else .ok s

end PeerConnectionClient

namespace ClientSession

section State

variable {β : Type}

/-- What may happen: a resolver signals at most once after it was started, and not after it was
destroyed; a socket connects once, is read while it is connected, and signals nothing after `Close`. -/
def enabled (s : ClientSession β) : SessionEvent → Bool
  | .resolved _ _ => s.resolving
  | .opened => s.controlSocket == some .csConnecting ||
      (s.controlSocket == some .csConnected && !s.client.isConnected)
  | .readable chunks => s.controlSocket == some .csConnected && s.client.isConnected &&
      chunks.all fun chunk => 0 < chunk.length && chunk.length ≤ 65535
  | .closed => s.controlSocket == some .csConnecting || s.controlSocket == some .csConnected
  | _ => true

/-- `Connect` goes on to the server. -/
def accepts (s : ClientSession β) (server user pass : AString) : Bool :=
  s.client.state == .notConnected && !server.isEmpty && !user.isEmpty && !pass.isEmpty

/-- The client after a call that may send; `SendData` follows `control_socket_` when it is connected. -/
def sending (f : PeerConnectionClient β → Except Halt (PeerConnectionClient β)) (s : ClientSession β) :
    Except Fault (ClientSession β) :=
  if s.client.isConnected && s.controlSocket.isNone then .error .nullSocket
  else
    match f s.client with
    | .error h => .error (.halt h)
    | .ok c => .ok { s with client := c }

end State

variable {β : Type} [ByteQueue β]

def create (isBusy : Nat → Bool) : ClientSession β := ⟨.create isBusy, none, false, false, []⟩

def close (s : ClientSession β) : Except Fault (ClientSession β) :=
  if s.controlSocket.isNone then .error .nullSocket
  else .ok { s with
    client := s.client.close
    controlSocket := some .csClosed
    resolver := false
    resolving := false }

/-- `ConnectControlSocket` of a new socket, and what `DoConnect` makes of its answer. -/
def doConnect (reply : ConnectReply) (s : ClientSession β) : Except Fault (ClientSession β) :=
  let s := { s with controlSocket := some .csClosed }
  match reply with
  | .socketError => do
    let s ← s.close
    .ok { s with client := s.client.notify .onServerConnectionFailure }
  | .inProgress =>
    .ok { s with controlSocket := some .csConnecting, client := { s.client with state := .signingIn } }
  | .connected =>
    .ok { s with controlSocket := some .csConnected, client := { s.client with state := .signingIn } }

def connect (server user pass : AString) (unresolved : Bool) (reply : ConnectReply) (s : ClientSession β) :
    Except Fault (ClientSession β) :=
  if s.client.state ≠ .notConnected then
    .ok { s with client := s.client.notify .onServerConnectionFailure }
  else if server = [] ∨ user = [] ∨ pass = [] then
    .ok { s with client := s.client.notify .onServerConnectionFailure }
  else
    let s := { s with client := { s.client with username := user, password := pass }, heard := [] }
    if unresolved then
      .ok { s with client := { s.client with state := .resolving }, resolver := true, resolving := true }
    else s.doConnect reply

def onResolveResult (failed : Bool) (reply : ConnectReply) (s : ClientSession β) :
    Except Fault (ClientSession β) :=
  let s := { s with resolving := false }
  if !s.resolver then .error .nullResolver
  else if failed then
    let c := s.client.notify .onServerConnectionFailure
    .ok { s with client := { c with state := .notConnected }, resolver := false }
  else s.doConnect reply

def isSendingMessage (s : ClientSession β) : Except Fault (Bool × ClientSession β) :=
  if s.client.state = .connected then
    match s.controlSocket with
    | none => .error .nullSocket
    | some state => .ok (state != .csClosed, s)
  else .ok (false, s)

def signOut (s : ClientSession β) : Except Fault (ClientSession β) :=
  if s.client.state = .notConnected ∨ s.client.state = .signingOut then .ok s
  else
    match s.controlSocket with
    | none => .error .nullSocket
    | some .csConnected => do
      let s ← { s with client := { s.client with state := .signingOut } }.close
      let c := s.client.notify .onDisconnected
      .ok { s with client := { c with username := [], password := [] } }
    | some _ =>
      .ok { s with client := { s.client with state := .signingOutWaiting, username := [], password := [] } }

def onConnect (s : ClientSession β) : Except Fault (ClientSession β) :=
  { s with
    controlSocket := some .csConnected
    client := { s.client with isConnected := true } }.sending
      (·.packet (statusRequestPacket appP2pchat PeerConnectionClient.SERVER PeerConnectionClient.PORT 2))

/-- The socket is closed when it signals that. -/
def onClose (s : ClientSession β) : Except Fault (ClientSession β) := do
  let s ← { s with controlSocket := some .csClosed }.close
  .ok { s with client := s.client.notify .onServerConnectionFailure }

/-- A handler that signs out closes the socket, and destroys the resolver. -/
def settled (c : PeerConnectionClient β) (heard : List (UInt32 × AString × UInt32)) (s : ClientSession β) :
    ClientSession β :=
  if c.isConnected then { s with client := c, heard := heard }
  else { s with
    client := c
    controlSocket := some .csClosed
    resolver := false
    resolving := false
    heard := heard }

variable [Platform]

def onRead (chunks : List AString) (s : ClientSession β) : Except Fault (ClientSession β) :=
  if s.controlSocket.isNone then .error .nullSocket
  else
    match PeerConnectionClient.hearAll chunks (s.client, s.heard) with
    | .error h => .error (.halt h)
    | .ok (c, heard) => .ok (s.settled c heard)

def step (s : ClientSession β) : SessionEvent → Except Fault (ClientSession β)
  | .connect server user pass unresolved reply => s.connect server user pass unresolved reply
  | .requestToPeer peer_id => s.sending (PeerConnectionClient.requestToPeer peer_id)
  | .sendToPeer peer_id message => s.sending (PeerConnectionClient.sendToPeer peer_id message)
  | .isSendingMessage => s.isSendingMessage.map Prod.snd
  | .signOut => s.signOut
  | .resolved failed reply => s.onResolveResult failed reply
  | .opened => s.onConnect
  | .readable chunks => s.onRead chunks
  | .closed => s.onClose

end ClientSession

/-- One client with its user, its resolver and its socket. -/
def sessionMachine (β : Type) [ByteQueue β] [Platform] : Machine (ClientSession β) SessionEvent Fault where
  enabled s e := s.enabled e = true
  step s e := s.step e

end P2PChat

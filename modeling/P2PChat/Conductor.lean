import P2PChat.Network

namespace P2PChat

open ByteQueue

def PeerConnectionClient.isSendingMessage {β : Type} (c : PeerConnectionClient β) : Bool :=
  c.state == .connected && c.isConnected

/-- A message that waits to be sent, and the number of the connection that it is of, which no code reads. -/
structure Message where
  text : AString
  call : Option Nat
  deriving DecidableEq, Repr

/-- What is queued for the UI thread. No code reads whose end closed a connection, and which one. -/
inductive CallbackID where
  | peerConnectionClosed (peer_id : UInt32) (call : Option Nat)
  | sendMessageToPeer (msg : Message)
  | newStreamAdded
  | streamRemoved
  deriving DecidableEq, Repr

/-- What `InitializePeerConnection` comes to: without a connection `AddStreams` uses the factory that
has just been deleted. -/
inductive Initialization where
  | created
  | noFactory
  | noConnection
  deriving DecidableEq, Repr

/-- The members of `Conductor` with its client. `peer_connection` is the number of the object that it
points to, `created` how many there have been; `given` has the messages that went on to that object, with
who sent them, and `sent` what was given to `SendToPeer`. No code reads the last three. -/
structure Conductor (β : Type) where
  client : PeerConnectionClient β
  peer_id : UInt32
  peer_connection : Option Nat
  queue : List CallbackID
  pending_messages : List Message
  created : Nat
  given : List (UInt32 × AString)
  sent : List (UInt32 × Message)

/-- What the user does, what happens to the socket of the client, which packets it handles, what
`peer_connection_` tells, and the turn of the UI thread. -/
inductive ConductorEvent (β : Type) where
  | startLogin (username password : AString)
  | connectToPeer (peer_id : UInt32)
  | disconnectFromCurrentPeer
  | disconnectFromServer
  | close
  | opened
  | closed
  | packet (bb : β) (packetType : UInt32) (r : Initialization)
  | iceGatheringComplete (message : AString)
  | addStream
  | removeStream
  | uiThreadCallback

namespace Conductor

/-- `-1`. -/
def noPeer : UInt32 := (-1 : Int32).toUInt32

section State

variable {β : Type}

def isBusy (x : Conductor β) : Bool := x.peer_id != noPeer && x.peer_connection.isSome

def deletePeerConnection (x : Conductor β) : Conductor β :=
  { x with peer_connection := none, peer_id := noPeer }

def initializePeerConnection (r : Initialization) (x : Conductor β) : Except Halt (Bool × Conductor β) :=
  match r with
  | .created => .ok (true, { x with peer_connection := some x.created, created := x.created + 1 })
  | .noFactory => .ok (false, x.deletePeerConnection)
  | .noConnection => .error .nullPointer

def queueUIThreadCallback (callback : CallbackID) (x : Conductor β) : Conductor β :=
  { x with queue := x.queue ++ [callback] }

def onPeerDisconnected (id : UInt32) (x : Conductor β) : Conductor β :=
  if id = x.peer_id then x.queueUIThreadCallback (.peerConnectionClosed id x.peer_connection) else x

def onPeerResponse (r : Initialization) (peer_id code : UInt32) (x : Conductor β) :
    Except Halt (Conductor β) :=
  if code = 1 then
    if x.peer_connection.isSome then .ok x
    else do
      let (initialized, x) ← x.initializePeerConnection r
      if initialized then .ok { x with peer_id := peer_id } else .ok x
  else if code = noPeer then .ok { x with peer_id := noPeer }
  else .ok x

def sendMessage (text : AString) (x : Conductor β) : Conductor β :=
  x.queueUIThreadCallback (.sendMessageToPeer ⟨text, x.peer_connection⟩)

/-- A connection is told of by its own object; the queue has a turn when it is not empty. -/
def enabled (x : Conductor β) : ConductorEvent β → Bool
  | .opened => !x.client.isConnected &&
      (x.client.state == .signingIn || x.client.state == .signingOutWaiting)
  | .packet _ _ _ => x.client.isConnected
  | .iceGatheringComplete _ => x.peer_connection.isSome
  | .addStream => x.peer_connection.isSome
  | .removeStream => x.peer_connection.isSome
  | .uiThreadCallback => !x.queue.isEmpty
  | _ => true

end State

variable {β : Type} [ByteQueue β]

/-- The client tells the conductor when that closes the connection to the server. -/
def signOut (x : Conductor β) : Conductor β :=
  if x.client.closes then { x with client := x.client.signOut }.deletePeerConnection
  else { x with client := x.client.signOut }

/-- A message of the first that comes makes a connection to who sent it; a message of anybody else goes
no further than this. -/
def onMessageFromPeer (r : Initialization) (peer_id : UInt32) (message : AString) (x : Conductor β) :
    Except Halt (Conductor β) :=
  if x.peer_connection.isNone then do
    let (initialized, x) ← { x with peer_id := peer_id }.initializePeerConnection r
    if initialized then .ok { x with given := x.given ++ [(peer_id, message)] } else .ok x.signOut
  else if peer_id ≠ x.peer_id then .ok x
  else .ok { x with given := x.given ++ [(peer_id, message)] }

/-- The calls of the observer; the window is only shown otherwise by those that do nothing here. -/
def observe (r : Initialization) (callback : Callback) (x : Conductor β) : Except Halt (Conductor β) :=
  match callback with
  | .onDisconnected => .ok x.deletePeerConnection
  | .onPeerDisconnected id => .ok (x.onPeerDisconnected id)
  | .onPeerResponse peer_id code => x.onPeerResponse r peer_id code
  | .onMessageFromPeer peer_id message => x.onMessageFromPeer r peer_id message
  | _ => .ok x

def observeAll (r : Initialization) : List Callback → Conductor β → Except Halt (Conductor β)
  | [], x => .ok x
  | callback :: callbacks, x => do
    let x ← x.observe r callback
    observeAll r callbacks x

/-- A call of the client, with the calls of its observer that it makes. -/
def act (r : Initialization) (f : PeerConnectionClient β → Except Halt (PeerConnectionClient β))
    (x : Conductor β) : Except Halt (Conductor β) := do
  let c ← f { x.client with callbacks := [], isBusy := fun _ => x.isBusy }
  observeAll r c.callbacks { x with client := c }

def sendToPeer (msg : Message) (x : Conductor β) : Except Halt (Conductor β) := do
  let c ← x.client.sendToPeer x.peer_id msg.text
  .ok { x with client := c, sent := x.sent ++ [(x.peer_id, msg)] }

def disconnectFromCurrentPeer (x : Conductor β) : Except Halt (Conductor β) :=
  if x.peer_connection.isSome then do
    let x ← x.sendToPeer ⟨PeerConnectionClient.kByeMessage, x.peer_connection⟩
    .ok x.deletePeerConnection
  else .ok x

/-- The first message that waits is sent to whoever is the peer now. -/
def sendPending (x : Conductor β) : Except Halt (Conductor β) :=
  match x.pending_messages with
  | [] => .ok x
  | msg :: pending =>
    if x.client.isSendingMessage then .ok x
    else { x with pending_messages := pending }.sendToPeer msg

def sendMessageToPeer (msg : Message) (x : Conductor β) : Except Halt (Conductor β) := do
  let x ← sendPending { x with pending_messages := x.pending_messages ++ [msg] }
  if x.peer_connection.isNone then .ok { x with peer_id := noPeer } else .ok x

def uiThreadCallback (x : Conductor β) : Except Halt (Conductor β) :=
  match x.queue with
  | [] => .ok x
  | .peerConnectionClosed _ _ :: queue => .ok { x with queue := queue }.deletePeerConnection
  | .sendMessageToPeer msg :: queue => { x with queue := queue }.sendMessageToPeer msg
  | .newStreamAdded :: queue => .ok { x with queue := queue }
  | .streamRemoved :: queue => .ok { x with queue := queue }

variable [Platform]

def step (x : Conductor β) : ConductorEvent β → Except Halt (Conductor β)
  | .startLogin username password =>
    if x.client.isConnected then .ok x else x.act .noFactory fun c => .ok (c.connect username password)
  | .connectToPeer peer_id => x.act .noFactory (PeerConnectionClient.requestToPeer peer_id)
  | .disconnectFromCurrentPeer => x.disconnectFromCurrentPeer
  | .disconnectFromServer => if x.client.isConnected then .ok x.signOut else .ok x
  | .close => .ok x.signOut.deletePeerConnection
  | .opened => x.act .noFactory PeerConnectionClient.onConnect
  | .closed => x.act .noFactory fun c => .ok c.onClose
  | .packet bb packetType r =>
    x.act r fun c => (PeerConnectionClient.handlePacket bb packetType c).map fun handled => handled.2.2
  | .iceGatheringComplete message => .ok (x.sendMessage message)
  | .addStream => .ok (x.queueUIThreadCallback .newStreamAdded)
  | .removeStream => .ok (x.queueUIThreadCallback .streamRemoved)
  | .uiThreadCallback => x.uiThreadCallback

omit [Platform] in
def create : Conductor β :=
  ⟨PeerConnectionClient.create fun _ => false, noPeer, none, [], [], 0, [], []⟩

end Conductor

/-- One client program, one event at a time. -/
def conductorMachine (β : Type) [ByteQueue β] [Platform] :
    Machine (Conductor β) (ConductorEvent β) Halt where
  enabled x e := x.enabled e = true
  step x e := x.step e

end P2PChat

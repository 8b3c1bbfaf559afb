import P2PChat.ConductorSteps

namespace P2PChat

open ByteQueue

/-- What ends the process: a failed `VERIFY` of the client, or one of the two pointers that is followed when it
is null. -/
inductive ControllerFault where
  | halt (h : Halt)
  | nullConnection
  | nullFactory
  deriving DecidableEq, Repr

/-- What a message of a peer turns out to be. -/
inductive ParsedMessage where
  | unknown
  | offer
  | answer
  | candidate
  deriving DecidableEq, Repr

/-- What `CreatePeerConnectionFactory` and `CreatePeerConnection` return, if they are called, and how a message is
parsed. -/
structure WebRtcResults where
  factory : Bool
  connection : Bool
  parsed : ParsedMessage
  deriving DecidableEq, Repr

/-- The conductor with `peer_connection_factory_`, which is there or null, and whether the stream is in
`active_streams_`. No code reads how many calls of `CreateOffer` and `CreateAnswer` have not been answered, and
whether the gathering of candidates has been started. -/
structure CallController (β : Type) where
  conductor : Conductor β
  peer_connection_factory : Bool
  active_streams : Bool
  descriptions : Nat
  gathering : Bool

inductive ControllerEvent (β : Type) where
  | startLogin (username password : AString)
  | connectToPeer (peer_id : UInt32)
  | disconnectFromCurrentPeer
  | disconnectFromServer
  | close
  | opened
  | closed
  | packet (bb : β) (packetType : UInt32) (r : WebRtcResults)
  | addStream
  | removeStream
  | uiThreadCallback
  | onSuccess
  | onFailure
  | iceGatheringComplete (message : AString)

namespace CallController

section State

variable {β : Type}

/-- `peer_connection_->`. -/
def followConnection (y : CallController β) : Except ControllerFault Unit :=
  if y.conductor.peer_connection.isSome then .ok () else .error .nullConnection

/-- `peer_connection_factory_->`. -/
def followFactory (y : CallController β) : Except ControllerFault Unit :=
  if y.peer_connection_factory then .ok () else .error .nullFactory

/-- Code that follows neither pointer and deletes no connection. -/
def lift (f : Conductor β → Except Halt (Conductor β)) (y : CallController β) :
    Except ControllerFault (CallController β) :=
  match f y.conductor with
  | .error h => .error (.halt h)
  | .ok x => .ok { y with conductor := x }

def deletePeerConnection (y : CallController β) : CallController β :=
  { y with
    conductor := y.conductor.deletePeerConnection
    active_streams := false
    peer_connection_factory := false }

def createPeerConnection (r : WebRtcResults) (y : CallController β) :
    Except ControllerFault (Bool × CallController β) := do
  y.followFactory
  if r.connection then
    .ok (true, { y with conductor := { y.conductor with
      peer_connection := some y.conductor.created
      created := y.conductor.created + 1 } })
  else .ok (false, { y with conductor := { y.conductor with peer_connection := none } })

def addStreams (y : CallController β) : Except ControllerFault (CallController β) :=
  if y.active_streams then .ok y
  else do
    y.followFactory
    y.followConnection
    .ok { y with active_streams := true }

/-- The source goes on to `AddStreams` after a connection could not be created. -/
def initializePeerConnection (r : WebRtcResults) (y : CallController β) :
    Except ControllerFault (Bool × CallController β) :=
  let y := { y with peer_connection_factory := r.factory }
  if !y.peer_connection_factory then .ok (false, y.deletePeerConnection)
  else do
    let (created, y) ← y.createPeerConnection r
    let y ← if created then y.addStreams else y.deletePeerConnection.addStreams
    .ok (y.conductor.peer_connection.isSome, y)

def onPeerResponse (r : WebRtcResults) (peer_id code : UInt32) (y : CallController β) :
    Except ControllerFault (CallController β) :=
  if code = 1 then
    if y.conductor.peer_connection.isSome then .ok y
    else do
      let (initialized, y) ← y.initializePeerConnection r
      if initialized then do
        let y := { y with conductor := { y.conductor with peer_id := peer_id } }
        y.followConnection
        .ok { y with descriptions := y.descriptions + 1 }
      else .ok y
  else if code = Conductor.noPeer then .ok { y with conductor := { y.conductor with peer_id := Conductor.noPeer } }
  else .ok y

def give (peer_id : UInt32) (message : AString) (y : CallController β) : CallController β :=
  { y with conductor := { y.conductor with given := y.conductor.given ++ [(peer_id, message)] } }

/-- A description goes to the connection, and an offer is answered; a candidate goes to it too. -/
def receive (parsed : ParsedMessage) (y : CallController β) : Except ControllerFault (CallController β) :=
  match parsed with
  | .unknown => .ok y
  | .offer => do
    y.followConnection
    y.followConnection
    .ok { y with descriptions := y.descriptions + 1 }
  | .answer => do
    y.followConnection
    .ok y
  | .candidate => do
    y.followConnection
    .ok y

/-- The description is set, with which the gathering of candidates begins. -/
def onSuccess (y : CallController β) : Except ControllerFault (CallController β) := do
  y.followConnection
  .ok { y with descriptions := y.descriptions - 1, gathering := true }

def onIceGatheringComplete (message : AString) (y : CallController β) :
    Except ControllerFault (CallController β) := do
  y.followConnection
  .ok { y with conductor := y.conductor.sendMessage message }

/-- A description comes some time after it was asked for, and so do the candidates after their gathering was
started, whatever has happened since. -/
def enabled (y : CallController β) : ControllerEvent β → Bool
  | .opened => y.conductor.enabled .opened
  | .packet bb packetType _ => y.conductor.enabled (.packet bb packetType .created)
  | .addStream => y.conductor.enabled .addStream
  | .removeStream => y.conductor.enabled .removeStream
  | .uiThreadCallback => y.conductor.enabled .uiThreadCallback
  | .onSuccess => 0 < y.descriptions
  | .onFailure => 0 < y.descriptions
  | .iceGatheringComplete _ => y.gathering
  | _ => true

end State

variable {β : Type} [ByteQueue β]

def signOut (y : CallController β) : CallController β :=
  if y.conductor.client.closes then
    { y with conductor := { y.conductor with client := y.conductor.client.signOut } }.deletePeerConnection
  else { y with conductor := { y.conductor with client := y.conductor.client.signOut } }

def onMessageFromPeer (r : WebRtcResults) (peer_id : UInt32) (message : AString) (y : CallController β) :
    Except ControllerFault (CallController β) :=
  if y.conductor.peer_connection.isNone then do
    let y := { y with conductor := { y.conductor with peer_id := peer_id } }
    let (initialized, y) ← y.initializePeerConnection r
    if initialized then
      (y.give peer_id message).receive r.parsed
    else .ok y.signOut
  else if peer_id ≠ y.conductor.peer_id then .ok y
  else (y.give peer_id message).receive r.parsed

def observe (r : WebRtcResults) (callback : Callback) (y : CallController β) :
    Except ControllerFault (CallController β) :=
  match callback with
  | .onDisconnected => .ok y.deletePeerConnection
  | .onPeerDisconnected id => y.lift fun x => .ok (x.onPeerDisconnected id)
  | .onPeerResponse peer_id code => y.onPeerResponse r peer_id code
  | .onMessageFromPeer peer_id message => y.onMessageFromPeer r peer_id message
  | _ => .ok y

def observeAll (r : WebRtcResults) : List Callback → CallController β → Except ControllerFault (CallController β)
  | [], y => .ok y
  | callback :: callbacks, y => do
    let y ← y.observe r callback
    observeAll r callbacks y

/-- A call of the client, with the calls of its observer that it makes. -/
def act (r : WebRtcResults) (f : PeerConnectionClient β → Except Halt (PeerConnectionClient β))
    (y : CallController β) : Except ControllerFault (CallController β) :=
  match f { y.conductor.client with callbacks := [], isBusy := fun _ => y.conductor.isBusy } with
  | .error h => .error (.halt h)
  | .ok c => observeAll r c.callbacks { y with conductor := { y.conductor with client := c } }

def disconnectFromCurrentPeer (y : CallController β) : Except ControllerFault (CallController β) :=
  if y.conductor.peer_connection.isSome then do
    let y ← y.lift fun x => x.sendToPeer ⟨PeerConnectionClient.kByeMessage, x.peer_connection⟩
    .ok y.deletePeerConnection
  else .ok y

def uiThreadCallback (y : CallController β) : Except ControllerFault (CallController β) :=
  match y.conductor.queue with
  | .peerConnectionClosed _ _ :: queue =>
    .ok { y with conductor := { y.conductor with queue := queue } }.deletePeerConnection
  | _ => y.lift Conductor.uiThreadCallback

/-- No outcome of WebRTC matters. -/
def noResults : WebRtcResults := ⟨false, false, .unknown⟩

variable [Platform]

def step (y : CallController β) : ControllerEvent β → Except ControllerFault (CallController β)
  | .startLogin username password =>
    if y.conductor.client.isConnected then .ok y
    else y.act noResults fun c => .ok (c.connect username password)
  | .connectToPeer peer_id => y.act noResults (PeerConnectionClient.requestToPeer peer_id)
  | .disconnectFromCurrentPeer => y.disconnectFromCurrentPeer
  | .disconnectFromServer => if y.conductor.client.isConnected then .ok y.signOut else .ok y
  | .close => .ok y.signOut.deletePeerConnection
  | .opened => y.act noResults PeerConnectionClient.onConnect
  | .closed => y.act noResults fun c => .ok c.onClose
  | .packet bb packetType r =>
    y.act r fun c => (PeerConnectionClient.handlePacket bb packetType c).map fun handled => handled.2.2
  | .addStream => y.lift fun x => .ok (x.queueUIThreadCallback .newStreamAdded)
  | .removeStream => y.lift fun x => .ok (x.queueUIThreadCallback .streamRemoved)
  | .uiThreadCallback => y.uiThreadCallback
  | .onSuccess => y.onSuccess
  | .onFailure => .ok { y with descriptions := y.descriptions - 1 }
  | .iceGatheringComplete message => y.onIceGatheringComplete message

omit [Platform] in
def create : CallController β := ⟨Conductor.create, false, false, 0, false⟩

/-- A connection that is wanted can be created if there is a factory for it, and none of the results that WebRTC
tells of comes after its connection was deleted. -/
def careful (y : CallController β) : ControllerEvent β → Bool
  | .packet bb packetType r =>
    y.conductor.peer_connection.isSome || !r.factory || r.connection ||
      match y.conductor.news bb packetType with
      | some (.response _ code) => code != 1
      | some (.message _ _) => false
      | _ => true
  | .onSuccess => y.conductor.peer_connection.isSome
  | .iceGatheringComplete _ => y.conductor.peer_connection.isSome
  | _ => true

end CallController

def controllerMachine (β : Type) [ByteQueue β] [Platform] :
    Machine (CallController β) (ControllerEvent β) ControllerFault where
  enabled y e := y.enabled e = true
  step y e := y.step e

end P2PChat

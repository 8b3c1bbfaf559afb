import P2PChat.Framing
import P2PChat.Authenticator

namespace P2PChat

open ByteQueue

inductive EState where
  | csConnected
  | csAuthenticating
  | csAuthenticated
  | csWorking
  | csDestroying
  | csDestroyed
  deriving DecidableEq, Repr

def EState.toNat : EState → Nat
  | .csConnected => 0
  | .csAuthenticating => 1
  | .csAuthenticated => 2
  | .csWorking => 3
  | .csDestroying => 4
  | .csDestroyed => 5

/-- What the proofs remember of a connection: the calls of `HandlePacket`, `SendLoginSuccess` and
`SendKeepAlive` with the `m_State` they find, and the packets that reach `m_OutgoingData`. -/
inductive Entry where
  | handled (state type : UInt32) (bytes : AString)
  | loginSuccess (state : UInt32)
  | keepAlive (state : UInt32)
  | queued (state : UInt32) (packet : Packet)
  deriving DecidableEq, Repr

/-- The members of `cProtocol` and `cProtocol_impl`. -/
structure ProtocolImpl (β : Type) where
  state : UInt32
  receivedData : β
  outPacketBuffer : β
  outPacketLenBuffer : β

/-- The members of `cClientHandle`; `m_UniqueID` as its 32 bits, times in nanoseconds. `sent` is
what was given to the link, `log` no code reads. -/
structure ClientHandle (β : Type) where
  ipString : AString
  username : AString
  protocol : ProtocolImpl β
  incomingData : AString
  outgoingData : AString
  hasSentDC : Bool
  ticksSinceLastPacket : Nat
  ping : Int
  pingID : UInt32
  pingStartTime : Int
  state : EState
  uniqueID : UInt32
  link : Bool
  sent : AString
  log : List Entry

/-- `PING_TIME_MS`. -/
def pingTime : Int := 15 * 1000000000

namespace ClientHandle

variable {β : Type} [ByteQueue β]

/-- The constructor, without what it does to `s_ClientCount`. -/
def create (ip : AString) (id : UInt32) (now : Int) : ClientHandle β where
  ipString := ip
  username := []
  protocol :=
    { state := 1, receivedData := new 65536, outPacketBuffer := new 65536, outPacketLenBuffer := new 20 }
  incomingData := []
  outgoingData := []
  hasSentDC := false
  ticksSinceLastPacket := 0
  ping := 1000
  pingID := 1
  pingStartTime := now
  state := .csConnected
  uniqueID := id
  link := false
  sent := []
  log := []

def isLoggedIn (c : ClientHandle β) : Bool := EState.csAuthenticating.toNat ≤ c.state.toNat

def isDestroyed (c : ClientHandle β) : Bool := c.state == .csDestroyed

def record (entry : Entry) (c : ClientHandle β) : ClientHandle β := { c with log := c.log ++ [entry] }

def setReceived (b : β) (c : ClientHandle β) : ClientHandle β :=
  { c with protocol := { c.protocol with receivedData := b } }

def setProtocolState (state : UInt32) (c : ClientHandle β) : ClientHandle β :=
  { c with protocol := { c.protocol with state := state } }

def setState (state : EState) (c : ClientHandle β) : ClientHandle β := { c with state := state }

def setUsername (name : AString) (c : ClientHandle β) : ClientHandle β := { c with username := name }

def onLinkCreated (c : ClientHandle β) : ClientHandle β := { c with link := true }

/-- `m_Link.reset()`. -/
def unlink (c : ClientHandle β) : ClientHandle β := { c with link := false }

/-- `OnReceivedData`. -/
def receive (data : AString) (c : ClientHandle β) : ClientHandle β :=
  { c with ticksSinceLastPacket := 0, incomingData := c.incomingData ++ data }

def takeIncoming (c : ClientHandle β) : ClientHandle β := { c with incomingData := [] }

def setPingStart (time : Int) (c : ClientHandle β) : ClientHandle β := { c with pingStartTime := time }

def sendData (data : AString) (c : ClientHandle β) : ClientHandle β :=
  if c.hasSentDC then c else { c with outgoingData := c.outgoingData ++ data }

/-- The life of a `cPacketizer`: the packet is composed, and its destructor calls `SendPacket`. -/
def packet (p : Packet) (c : ClientHandle β) : Except Halt (ClientHandle β) := do
  let out ← packetize p c.protocol.outPacketBuffer
  let (data, out, len) := takePacket out c.protocol.outPacketLenBuffer
  let c :=
    { c with protocol := { c.protocol with outPacketBuffer := out, outPacketLenBuffer := len } }
  let c := if c.hasSentDC then c else c.record (.queued c.protocol.state p)
  .ok (c.sendData data)

def protocolSendDisconnect (reason : Int32) (c : ClientHandle β) : Except Halt (ClientHandle β) :=
  if c.protocol.state = 2 then c.packet ⟨0x00, [.beInt32 reason]⟩
  else if c.protocol.state = 3 then c.packet ⟨0x40, [.beUInt32 reason.toUInt32]⟩
  else .ok c

def sendDisconnect (reason : Int32) (c : ClientHandle β) : Except Halt (ClientHandle β) :=
  if c.hasSentDC then .ok c
  else do
    let c ← c.protocolSendDisconnect reason
    .ok { c with hasSentDC := true }

def kick (reason : Int32) (c : ClientHandle β) : Except Halt (ClientHandle β) :=
  c.sendDisconnect reason

def packetBufferFull (c : ClientHandle β) : Except Halt (ClientHandle β) :=
  c.sendDisconnect errorCodeServerBusy

def packetUnknown (_packetType : UInt32) (c : ClientHandle β) : Except Halt (ClientHandle β) :=
  c.sendDisconnect errorCodePacketUnknown

def packetError (_packetType : UInt32) (c : ClientHandle β) : Except Halt (ClientHandle β) :=
  c.sendDisconnect errorCodePacketError

def sendLoginSuccess (c : ClientHandle β) : Except Halt (ClientHandle β) := do
  let c ← (c.record (.loginSuccess c.protocol.state)).packet ⟨0x01, []⟩
  .ok (c.setProtocolState 3)

def sendKeepAlive (id : UInt32) (c : ClientHandle β) : Except Halt (ClientHandle β) :=
  if c.protocol.state ≠ 3 then .ok (c.record (.keepAlive c.protocol.state))
  else (c.record (.keepAlive c.protocol.state)).packet ⟨0x00, [.varInt32 id]⟩

/-- The packet that tells of `about`. -/
def userInfo (about : ClientHandle β) : Packet :=
  ⟨0x01, [.varInt32 about.uniqueID, .string about.username,
    .varInt32 (UInt32.ofNat about.state.toNat)]⟩

def broadcastUserInfo (about c : ClientHandle β) : Except Halt (ClientHandle β) :=
  c.packet about.userInfo

def forwardMedia (from_id type : UInt32) (c : ClientHandle β) : Except Halt (ClientHandle β) :=
  c.packet (mediaPacket from_id type)

def forwardMediaMsg (from_id : UInt32) (msg : AString) (c : ClientHandle β) :
    Except Halt (ClientHandle β) :=
  c.packet (mediaMsgPacket from_id msg)

def handleKeepAlive (id : UInt32) (now : Int) (c : ClientHandle β) : ClientHandle β :=
  if id = c.pingID then { c with ping := now - c.pingStartTime } else c

/-- The queued outgoing data goes to the link; without one it is gone. -/
def flush (c : ClientHandle β) : ClientHandle β :=
  { c with outgoingData := [], sent := if c.link then c.sent ++ c.outgoingData else c.sent }

def startWorking (c : ClientHandle β) : ClientHandle β :=
  if c.state = .csAuthenticated then c.setState .csWorking else c

def tickPing (now : Int) (c : ClientHandle β) : Except Halt (ClientHandle β) :=
  if c.state = .csWorking ∧ c.pingStartTime + pingTime ≤ now then
    sendKeepAlive (c.pingID + 1) { c with pingID := c.pingID + 1, pingStartTime := now }
  else .ok c

def countTick (c : ClientHandle β) : ClientHandle β :=
  { c with ticksSinceLastPacket := c.ticksSinceLastPacket + 1 }

def tickTimeout (c : ClientHandle β) : Except Halt (ClientHandle β) :=
  if 600 < c.countTick.ticksSinceLastPacket then c.countTick.sendDisconnect errorCodeClientTimeout
  else .ok c.countTick

/-- `ServerTick` after it has processed the received data. -/
def tickRest (now : Int) (c : ClientHandle β) : Except Halt (ClientHandle β) := do
  let c ← tickPing now c.flush.startWorking
  c.tickTimeout

end ClientHandle

end P2PChat

import P2PChat.ClientStreams

namespace P2PChat

open ByteQueue

/-- A network in which the server receives what its clients send: how many bytes it has of each. -/
structure Wires (β : Type) extends Network β where
  delivered : Nat → Nat

/-- What happens in the network, and so many bytes of a client that come to the server. -/
inductive WireEvent where
  | network (e : NetworkEvent)
  | deliver (p n : Nat)
  deriving DecidableEq, Repr

namespace Wires

section State

variable {β : Type}

/-- The bytes that the next call of `OnReceivedData` brings. -/
def packet (p n : Nat) (s : Wires β) : AString := ((s.clients p).sent.drop (s.delivered p)).take n

def enabled (s : Wires β) : WireEvent → Bool
  | .network e => s.toNetwork.enabled e
  | .deliver p n => p < s.server.allocated && (s.server.heap p).link && 0 < n &&
      s.delivered p + n ≤ (s.clients p).sent.length

end State

variable {β : Type} [ByteQueue β]

def deliver (p n : Nat) (s : Wires β) : Wires β :=
  { s with
    server := s.server.receivedData p (s.packet p n)
    delivered := fun q => if q = p then s.delivered p + n else s.delivered q }

variable [Platform]

def step (s : Wires β) : WireEvent → Except Halt (Wires β)
  | .network e => (s.toNetwork.step e).map fun network => { s with toNetwork := network }
  | .deliver p n => .ok (s.deliver p n)

omit [Platform] in
def start (clients : Nat → PeerConnectionClient β) : Wires β := { Network.start clients with delivered := fun _ => 0 }

end Wires

/-- The network with bytes that go both ways. -/
def wireMachine (β : Type) [ByteQueue β] [Platform] : Machine (Wires β) WireEvent Halt where
  enabled s e := s.enabled e = true
  step s e := s.step e

namespace Wires

section Connections

variable {β : Type} [ByteQueue β]

/-- The server has no other bytes of this client, and what the client reads fits its buffer. -/
def genuine (p : Nat) (s : Wires β) : WireEvent → Prop
  | .network (.server (.receivedData q _)) => q ≠ p
  | .network (.read q n) => q = p → n ≤ getFreeSpace (s.clients q).receivedData
  | _ => True

/-- Both ends of the connection are in their last state, and no disconnect was sent. -/
structure Established (p : Nat) (s : Wires β) : Prop where
  serves : s.server.Serves p
  isConnected : (s.clients p).isConnected = true
  protocolState : (s.clients p).protocolState = 3

variable [Platform]

/-- Neither end closes the connection. -/
def keeps (p : Nat) (s : Wires β) : WireEvent → Prop
  | .network (.server e) => s.server.quiet p e
  | .network (.signOut q) => q ≠ p
  | .network (.closed q) => q ≠ p
  | _ => True

end Connections

section Texts

variable {β : Type} [ByteQueue β]

/-- The bytes of a client that the server has not handled. -/
def toServer (p : Nat) (s : Wires β) : AString :=
  s.server.inbound p ++ (s.clients p).sent.drop (s.delivered p)

/-- The bytes for a client that it has not handled. -/
def toClient (p : Nat) (s : Wires β) : AString :=
  (readAll (s.clients p).receivedData).1 ++
    ((s.server.heap p).sent.drop (s.read p) ++ (s.server.heap p).outgoingData)

/-- The texts that `b` was given from `a`. -/
def heard (a b : Nat) (s : Wires β) : List AString := (s.clients b).heardFrom (s.server.heap a).uniqueID

/-- The texts from `a` to `b` on both connections. -/
def underway [Platform] (a b : Nat) (s : Wires β) : List AString :=
  messagesIn (s.server.heap a).uniqueID (s.toClient b) ++ messagesIn (s.server.heap b).uniqueID (s.toServer a)

/-- The text that an event makes `a` send to this ID. -/
def asked (a : Nat) (id : UInt32) : WireEvent → List AString
  | .network (.sendToPeer p peer_id message) =>
    if p = a ∧ peer_id = id ∧ message ≠ PeerConnectionClient.kByeMessage then [message] else []
  | _ => []

/-- What `a` has sent has come to the server and was handled, and what `b` was sent has come to it. -/
structure Arrived (a b : Nat) (s : Wires β) : Prop where
  delivered : s.delivered a = (s.clients a).sent.length
  incoming : (s.server.heap a).incomingData = []
  outgoing : (s.server.heap b).outgoingData = []
  read : s.read b = (s.server.heap b).sent.length

/-- The event ends no process: a packet that is composed fits its buffer. -/
def carries [Platform] (a b : Nat) (s : Wires β) : WireEvent → Prop
  | .network (.server e) => s.server.ticksOverlong e = false ∧ s.server.countsOver e = false
  | .network (.read p _) => p = a ∨ p = b
  | .network (.sendToPeer p peer_id message) =>
    (p = a ∨ p = b) ∧ (mediaMsgPacket peer_id message).body.length ≤ 65536
  | .deliver _ _ => True
  | _ => False

/-- The steps of a run in which both connections stay established. -/
structure Allowed [Platform] (a b : Nat) (s : Wires β) (e : WireEvent) : Prop where
  enabled : s.enabled e = true
  genuine : s.genuine a e ∧ s.genuine b e
  keeps : (s.keeps a e ∧ s.keeps b e) ∨
    ∀ s', s.step e = .ok s' → s'.Established a ∧ s'.Established b
  returns : s.carries a b e ∨ ∃ s', s.step e = .ok s'

end Texts

end Wires

end P2PChat

import P2PChat.CallRequests
import P2PChat.ClientStreams
import P2PChat.Messages
import P2PChat.RelayRouting
import P2PChat.SessionMessages

namespace P2PChat

open ByteQueue

/-- Two clients that a server relays packets between: what is on its way to each of them, and how many offers it
has asked `peer_connection_` for, which no code reads. -/
structure CrossingCalls (β : Type) where
  conductor : Bool → Conductor β
  inbox : Bool → List Packet
  offers : Bool → Nat

/-- What happens to one of the two. -/
inductive CallEvent where
  | connectToPeer
  | deliver (r : Initialization)
  | iceGatheringComplete (message : AString)
  | addStream
  | removeStream
  | uiThreadCallback
  deriving DecidableEq, Repr

namespace CrossingCalls

section Definitions

variable {β : Type} [ByteQueue β]

/-- The buffer that `HandlePacket` gets a packet in. -/
def received (p : Packet) : β := (write (p.fieldBytes ++ [0]) (new (p.body.length + 1))).2

/-- The event at a client; its other end is the only peer that it calls. -/
def event (ids : Bool → UInt32) (s : CrossingCalls β) (who : Bool) : CallEvent → Option (ConductorEvent β)
  | .connectToPeer => some (.connectToPeer (ids !who))
  | .deliver r => (s.inbox who).head?.map fun p => .packet (received p) p.type r
  | .iceGatheringComplete message => some (.iceGatheringComplete message)
  | .addStream => some .addStream
  | .removeStream => some .removeStream
  | .uiThreadCallback => some .uiThreadCallback

/-- Relayed packets come in the game; what is gathered is written as JSON, which is no goodbye. -/
def enabled (ids : Bool → UInt32) (s : CrossingCalls β) (e : Bool × CallEvent) : Bool :=
  ((s.event ids e.1 e.2).any fun event => (s.conductor e.1).enabled event) &&
    match e.2 with
    | .deliver _ => (s.conductor e.1).client.protocolState == 3
    | .iceGatheringComplete message => message != PeerConnectionClient.kByeMessage
    | _ => true

/-- A packet was the last to come. -/
def rest (e : CallEvent) (inbox : List Packet) : List Packet :=
  match e with
  | .deliver _ => inbox.tail
  | _ => inbox

/-- An answer makes an offer with the connection, a message does not. -/
def offered (inbox : List Packet) (e : CallEvent) (x x' : Conductor β) : Nat :=
  match e with
  | .deliver _ => if x.created < x'.created ∧ inbox.head?.any (fun p => p.type == 0x11) then 1 else 0
  | _ => 0

variable [Platform]

/-- What the server relays of these bytes of one client to the other. -/
def relays (ids : Bool → UInt32) (who : Bool) (bytes : AString) : List Packet :=
  (packets (fun _ => true) bytes).filterMap fun call =>
    (Server.addressed (ids who) call.1 call.2).bind fun request =>
      if request.1 = ids !who then some request.2 else none

def after (ids : Bool → UInt32) (who : Bool) (e : CallEvent) (x' : Conductor β) (s : CrossingCalls β) :
    CrossingCalls β where
  conductor := Function.update s.conductor who x'
  inbox side :=
    if side = who then rest e (s.inbox who)
    else s.inbox side ++ relays ids who (x'.client.sent.drop (s.conductor who).client.sent.length)
  offers := Function.update s.offers who (s.offers who + offered (s.inbox who) e (s.conductor who) x')

def step (ids : Bool → UInt32) (s : CrossingCalls β) (e : Bool × CallEvent) : Except Halt (CrossingCalls β) :=
  match s.event ids e.1 e.2 with
  | some event => ((s.conductor e.1).step event).map fun x' => s.after ids e.1 e.2 x'
  | none => .ok s

/-- At most one of the two has made an offer, and a call is with the other. -/
structure Resolved (ids : Bool → UInt32) (s : CrossingCalls β) : Prop where
  offers : s.offers true + s.offers false ≤ 1
  peers : ∀ who, (s.conductor who).peer_connection.isSome = true → (s.conductor who).peer_id = ids !who

/-- A client that is logged in, without a call, and with nothing that waits for the UI thread. -/
structure Idle (x : Conductor β) : Prop where
  reachable : (conductorMachine β).Reachable Conductor.create x
  isConnected : x.client.isConnected = true
  game : x.client.protocolState = 3
  peer_connection : x.peer_connection = none
  queue : x.queue = []
  pending_messages : x.pending_messages = []

/-- Two idle clients, with nothing on its way. -/
structure Start (s : CrossingCalls β) : Prop where
  idle : ∀ who, Idle (s.conductor who)
  inbox : ∀ who, s.inbox who = []
  offers : ∀ who, s.offers who = 0

/-- A user calls while there is no call, and nothing on its way but such requests of the same user and answers
to them. -/
def alone (ids : Bool → UInt32) (s : CrossingCalls β) (e : Bool × CallEvent) : Prop :=
  e.2 = .connectToPeer → (s.conductor e.1).peer_connection = none ∧ (s.conductor (!e.1)).peer_connection = none ∧
    (∀ p ∈ s.inbox (!e.1), p = mediaPacket (ids e.1) 0) ∧ ∀ p ∈ s.inbox e.1, p = mediaPacket (ids !e.1) 1

end Definitions

/-- Two clients of one server, one event at a time. -/
def machine (β : Type) [ByteQueue β] [Platform] (ids : Bool → UInt32) :
    Machine (CrossingCalls β) (Bool × CallEvent) Halt where
  enabled s e := s.enabled ids e = true
  step s e := s.step ids e

end CrossingCalls

end P2PChat

import P2PChat.Server
import P2PChat.TransitionSystem

namespace P2PChat

open ByteQueue

/-- What the threads of the server do: the callbacks of the listener and of a link, one connection's
part of a tick, the last reference to a connection going away, the two halves of a round of the
authenticator's thread. Time passes in between. -/
inductive Event where
  | connectionAccepted (ip : AString)
  | receivedData (p : Nat) (data : AString)
  | remoteClosed (p : Nat)
  | tickClient (p : Nat)
  | released (p : Nat)
  | authenticatorTake
  | authenticatorAnswer
  | clock (elapsed : Nat)
  deriving DecidableEq, Repr

namespace Server

variable {β : Type}

/-- The address of a peer comes from a buffer of 128 characters; a link calls back until it is
closed. -/
def enabled (s : Server β) : Event → Bool
  | .connectionAccepted ip => ip.length < 128
  | .receivedData p _ => p < s.allocated && (s.heap p).link
  | .remoteClosed p => p < s.allocated && (s.heap p).link
  | .tickClient p => s.clients.contains p
  | .released p => p < s.allocated && !s.clients.contains p
  | .authenticatorTake => s.inFlight.isNone && !s.queue.isEmpty
  | .authenticatorAnswer => s.inFlight.isSome
  | .clock _ => true

variable [ByteQueue β]

def initial : Server β where
  heap _ := ClientHandle.create [] 0 0
  allocated := 0
  clients := []
  clientCount := 0
  queue := []
  inFlight := none
  now := 0

/-- `OnConnectionAccepted`, then `OnLinkCreated`. -/
def accept (ip : AString) (s : Server β) : Server β :=
  { s.store s.allocated
      (ClientHandle.create ip (UInt32.ofNat (s.clientCount + 1)) s.now).onLinkCreated with
    allocated := s.allocated + 1
    clients := s.clients ++ [s.allocated]
    clientCount := s.clientCount + 1 }

/-- `s_ClientCount` is an `int`. -/
def connectionAccepted (ip : AString) (s : Server β) : Except Halt (Server β) :=
  if s.clientCount = 2 ^ 31 - 1 then .error .overflow else .ok (s.accept ip)

def receivedData (p : Nat) (data : AString) (s : Server β) : Server β :=
  s.modify p (ClientHandle.receive data)

/-- The destructor of a connection. -/
def released (p : Nat) (s : Server β) : Except Halt (Server β) :=
  s.act p (ClientHandle.sendDisconnect errorCodeServerShutdown)

def authenticatorTake (s : Server β) : Server β :=
  { s with queue := s.queue.tail, inFlight := s.queue.head? }

variable [Platform]

/-- The end of a round of `cAuthenticator::Execute`. -/
def answer (user : User) (s : Server β) : Except Halt (Server β) :=
  let ret := authFromDBPoll user.username user.password
  if ret = errorCodeAuthOk then s.authenticateUser user.clientID user.username
  else s.kickUser user.clientID ret

def authenticatorAnswer (s : Server β) : Except Halt (Server β) :=
  match s.inFlight with
  | none => .ok s
  | some user => answer user { s with inFlight := none }

def step (s : Server β) : Event → Except Halt (Server β)
  | .connectionAccepted ip => s.connectionAccepted ip
  | .receivedData p data => .ok (s.receivedData p data)
  | .remoteClosed p => s.destroy p
  | .tickClient p => s.tickClient p
  | .released p => s.released p
  | .authenticatorTake => .ok s.authenticatorTake
  | .authenticatorAnswer => s.authenticatorAnswer
  | .clock elapsed => .ok { s with now := s.now + elapsed }

/-- The loop of `TickClients` over the rest of `m_Clients`. -/
def tickLoop : List Nat → Server β → Except Halt (Server β)
  | [], s => .ok s
  | p :: clients, s => do
    let s ← s.tickClient p
    tickLoop clients s

def tickClients (s : Server β) : Except Halt (Server β) := tickLoop s.clients s

end Server

/-- The server with what happens to it, one event at a time. -/
def serverMachine (β : Type) [ByteQueue β] [Platform] : Machine (Server β) Event Halt where
  enabled s e := s.enabled e = true
  step s e := s.step e

end P2PChat

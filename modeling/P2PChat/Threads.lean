import P2PChat.Server
import P2PChat.TransitionSystem

namespace P2PChat

/-- The members of a connection that decide when it is destroyed, and who it is. -/
structure Shared where
  state : EState
  protocolState : UInt32
  username : AString
  uniqueID : UInt32

inductive Thread where
  | network
  | tick
  | authenticator
  deriving DecidableEq, Repr

/-- Where the network thread is in `Destroy`. No other thread takes `m_CSDestroyingState`. -/
inductive NetworkPoint where
  | idle
  | check (p : Nat)
  | storeDestroying (p : Nat)
  | storeDestroyed (p : Nat)
  | broadcast
  | broadcasting
  deriving DecidableEq, Repr

/-- Where the tick thread is in `TickClients` and `ServerTick`, with the connections it has still to
come to. -/
inductive TickPoint where
  | idle
  | loop (todo : List Nat)
  | packets (p : Nat) (todo : List Nat)
  | request (p : Nat) (user : User) (todo : List Nat)
  | checkAuthenticated (p : Nat) (todo : List Nat)
  | storeWorking (p : Nat) (todo : List Nat)
  deriving DecidableEq, Repr

/-- Where the authenticator's thread is in `Execute`, `AuthenticateUser` and `Authenticate`. -/
inductive AuthenticatorPoint where
  | idle
  | took (user : User)
  | kicking
  | search (user : User)
  | check (p : Nat) (name : AString)
  | checkMultiLogin (p : Nat) (name : AString)
  | welcome (p : Nat) (name : AString)
  | storeAuthenticated (p : Nat)
  | broadcast
  deriving DecidableEq, Repr

/-- The connections, `m_Clients`, the authenticator's queue, who holds `m_CSClients`, and where the
threads are. -/
structure Threads where
  shared : Nat → Shared
  allocated : Nat
  clients : List Nat
  clientCount : Nat
  queue : List User
  csClients : Option Thread
  network : NetworkPoint
  tick : TickPoint
  authenticator : AuthenticatorPoint

/-- What comes next: a connection is accepted or closed by the other side, a thread goes on to its next
read or write, or the tick thread handles a packet that has to do with a login, or has handled all. -/
inductive Act where
  | accepted
  | closed (p : Nat)
  | network
  | tick
  | status (state : UInt32)
  | login (username password : AString)
  | handled
  | authenticator
  deriving DecidableEq, Repr

namespace Threads

def initial : Threads where
  shared _ := ⟨.csConnected, 1, [], 0⟩
  allocated := 0
  clients := []
  clientCount := 0
  queue := []
  csClients := none
  network := .idle
  tick := .idle
  authenticator := .idle

def change (p : Nat) (f : Shared → Shared) (s : Threads) : Threads :=
  { s with shared := fun q => if q = p then f (s.shared p) else s.shared q }

/-- An atomic store to `m_State`. -/
def store (p : Nat) (state : EState) (s : Threads) : Threads :=
  s.change p fun c => { c with state := state }

def findClient (id : UInt32) (s : Threads) : Option Nat :=
  s.clients.find? fun p => (s.shared p).uniqueID == id

def isPlayerInQueue (name : AString) (s : Threads) : Bool :=
  s.clients.any fun p => (s.shared p).username == name

/-- `OnConnectionAccepted`. -/
def accept (s : Threads) : Option Threads :=
  if s.network = .idle ∧ s.csClients = none ∧ s.clientCount ≠ 2 ^ 31 - 1 then
    some { s.change s.allocated fun _ => ⟨.csConnected, 1, [], UInt32.ofNat (s.clientCount + 1)⟩ with
      allocated := s.allocated + 1
      clients := s.clients ++ [s.allocated]
      clientCount := s.clientCount + 1 }
  else none

/-- `OnRemoteClosed` and `OnError` call `Destroy`. -/
def close (p : Nat) (s : Threads) : Option Threads :=
  if s.network = .idle ∧ p < s.allocated then some { s with network := .check p } else none

def networkStep (s : Threads) : Option Threads :=
  match s.network with
  | .idle => none
  | .check p =>
    if EState.csDestroying.toNat ≤ (s.shared p).state.toNat then some { s with network := .idle }
    else some { s with network := .storeDestroying p }
  | .storeDestroying p => some { s.store p .csDestroying with network := .storeDestroyed p }
  | .storeDestroyed p => some { s.store p .csDestroyed with network := .broadcast }
  | .broadcast =>
    if s.csClients = none then some { s with csClients := some .network, network := .broadcasting }
    else none
  | .broadcasting => some { s with csClients := none, network := .idle }

def tickStep (s : Threads) : Option Threads :=
  match s.tick with
  | .idle =>
    if s.csClients = none then some { s with csClients := some .tick, tick := .loop s.clients }
    else none
  | .loop [] => some { s with csClients := none, tick := .idle }
  | .loop (p :: todo) =>
    if (s.shared p).state = .csDestroyed then
      some { s with clients := s.clients.erase p, tick := .loop todo }
    else some { s with tick := .packets p todo }
  | .packets _ _ => none
  | .request p user todo => some { s with queue := s.queue ++ [user], tick := .packets p todo }
  | .checkAuthenticated p todo =>
    if (s.shared p).state = .csAuthenticated then some { s with tick := .storeWorking p todo }
    else some { s with tick := .loop todo }
  | .storeWorking p todo => some { s.store p .csWorking with tick := .loop todo }

/-- A status request that the server accepts. -/
def status (state : UInt32) (s : Threads) : Option Threads :=
  match s.tick with
  | .packets p _ =>
    if (s.shared p).protocolState = 1 ∧ (state = 1 ∨ state = 2) then
      some (s.change p fun c => { c with protocolState := state })
    else none
  | _ => none

/-- `HandleLogin` stores to `m_State` without a look at it. -/
def login (username password : AString) (s : Threads) : Option Threads :=
  match s.tick with
  | .packets p todo =>
    if (s.shared p).protocolState = 2 then
      some { s.store p .csAuthenticating with
        tick := .request p ⟨(s.shared p).uniqueID, username, password⟩ todo }
    else none
  | _ => none

def handled (s : Threads) : Option Threads :=
  match s.tick with
  | .packets p todo => some { s with tick := .checkAuthenticated p todo }
  | _ => none

/-- The authenticator gives `m_CSClients` back. -/
def answered (s : Threads) : Threads := { s with csClients := none, authenticator := .idle }

def authenticatorStep [Platform] (s : Threads) : Option Threads :=
  match s.authenticator with
  | .idle => s.queue.head?.map fun user => { s with queue := s.queue.tail, authenticator := .took user }
  | .took user =>
    if s.csClients = none then
      if authFromDBPoll user.username user.password = errorCodeAuthOk then
        some { s with csClients := some .authenticator, authenticator := .search user }
      else some { s with csClients := some .authenticator, authenticator := .kicking }
    else none
  | .kicking => some s.answered
  | .search user =>
    match s.findClient user.clientID with
    | some p => some { s with authenticator := .check p user.username }
    | none => some s.answered
  | .check p name =>
    if (s.shared p).state ≠ .csAuthenticating then some s.answered
    else some { s with authenticator := .checkMultiLogin p name }
  | .checkMultiLogin p name =>
    if s.isPlayerInQueue name then some s.answered
    else some { s with authenticator := .welcome p name }
  | .welcome p name =>
    some { s.change p fun c => { c with username := name, protocolState := 3 } with
      authenticator := .storeAuthenticated p }
  | .storeAuthenticated p => some { s.store p .csAuthenticated with authenticator := .broadcast }
  | .broadcast => some s.answered

def step [Platform] (s : Threads) : Act → Option Threads
  | .accepted => s.accept
  | .closed p => s.close p
  | .network => s.networkStep
  | .tick => s.tickStep
  | .status state => s.status state
  | .login username password => s.login username password
  | .handled => s.handled
  | .authenticator => s.authenticatorStep

end Threads

/-- The threads of the server, in every order in which they can go on. -/
def threadMachine [Platform] : Machine Threads Act Unit where
  enabled _ _ := True
  step s a := (s.step a).elim (.error ()) .ok

end P2PChat

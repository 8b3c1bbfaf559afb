import P2PChat.Threads
import P2PChat.WaitGraph
import Mathlib.Data.Fintype.Defs
import Mathlib.Data.Finset.Insert
import Mathlib.Data.Fintype.Basic

namespace P2PChat

instance : Fintype Thread where
  elems := {.network, .tick, .authenticator}
  complete t := by cases t <;> simp

/-- The recursive mutexes of the server, and the lock that libevent keeps for each bufferevent. -/
inductive Lock where
  | csClients
  | csPacket (p : Nat)
  | csOutgoingData (p : Nat)
  | csIncomingData (p : Nat)
  | csDestroyingState (p : Nat)
  | authenticatorCS
  | bufferEvent (p : Nat)
  deriving DecidableEq, Repr

/-- What a thread does with locks. `send` is the end of `ServerTick`: a look at `m_Link`, and if it is
set, `bufferevent_write`. -/
inductive LockOp where
  | lock (l : Lock)
  | unlock (l : Lock)
  | setLink (p : Nat) (link : Bool)
  | send (p : Nat)
  | write (p : Nat)
  deriving DecidableEq, Repr

/-- A block with a `cCSLock`. -/
def within (l : Lock) (body : List LockOp) : List LockOp := .lock l :: body ++ [.unlock l]

/-- A `cPacketizer`, from its construction to `SendData`, where `m_HasSentDC` drops the packet. -/
def packetizer (p : Nat) (hasSentDC : Bool) : List LockOp :=
  within (.csPacket p) (if hasSentDC then [] else within (.csOutgoingData p) [])

def packetizers (packets : List (Nat × Bool)) : List LockOp :=
  packets.flatMap fun packet => packetizer packet.1 packet.2

/-- What `HandlePacket` comes to: nothing that locks, a packet to this client (an answer or a
disconnect), a request to the authenticator, or a forward to the client with the number, if any. -/
inductive Handled where
  | quiet
  | packet (hasSentDC : Bool)
  | login
  | forward (client : Option (Nat × Bool))
  deriving DecidableEq, Repr

def handlePacketLocks (p : Nat) : Handled → List LockOp
  | .quiet => []
  | .packet hasSentDC => packetizer p hasSentDC
  | .login => within .authenticatorCS []
  | .forward client => within .csClients (packetizers client.toList)

/-- What one `ServerTick` comes to. A ping or a disconnect is there with its `m_HasSentDC`. -/
structure TickCourse where
  handled : List Handled
  outgoing : Bool
  ping : Option Bool
  timeout : Option Bool
  deriving DecidableEq, Repr

def serverTickLocks (p : Nat) (course : TickCourse) : List LockOp :=
  within (.csIncomingData p) [] ++ course.handled.flatMap (handlePacketLocks p) ++
    within (.csOutgoingData p) [] ++ (if course.outgoing then [.send p] else []) ++
      (course.ping.toList.flatMap (packetizer p) ++ course.timeout.toList.flatMap (packetizer p))

/-- `~cClientHandle` sends a disconnect if none was sent. -/
def destructorLocks (p : Nat) (disconnect : Option Bool) : List LockOp :=
  disconnect.toList.flatMap (packetizer p)

def tickClientsLocks (ticks : List (Nat × TickCourse)) (removed : List (Nat × Option Bool)) :
    List LockOp :=
  within .csClients (ticks.flatMap fun tick => serverTickLocks tick.1 tick.2) ++
    removed.flatMap fun client => destructorLocks client.1 client.2

def broadcastUserInfoLocks (packets : List (Nat × Bool)) : List LockOp :=
  within .csClients (packetizers packets)

/-- `Destroy` returns at once or comes to a broadcast. -/
def destroyLocks (p : Nat) (broadcast : Option (List (Nat × Bool))) : List LockOp :=
  within (.csOutgoingData p) [.setLink p false] ++ within (.csDestroyingState p) [] ++
    broadcast.toList.flatMap broadcastUserInfoLocks

/-- `OnRemoteClosed` and `OnError`. -/
def onRemoteClosedLocks (p : Nat) (broadcast : Option (List (Nat × Bool))) : List LockOp :=
  within (.csOutgoingData p) [.setLink p false] ++ destroyLocks p broadcast

/-- libevent holds the lock of the bufferevent; the last `Self` frees the bufferevent, and the client if
`TickClients` has removed it. -/
def eventCallbackLocks (p : Nat) (broadcast : Option (List (Nat × Bool)))
    (disconnect : Option Bool) : List LockOp :=
  within (.bufferEvent p)
    (onRemoteClosedLocks p broadcast ++ within (.bufferEvent p) [] ++ destructorLocks p disconnect)

/-- `bufferevent_read` until there is nothing more, with `OnReceivedData` for each chunk. -/
def readCallbackLocks (p chunks : Nat) : List LockOp :=
  within (.bufferEvent p)
    ((List.range chunks).flatMap (fun _ => within (.bufferEvent p) [] ++ within (.csIncomingData p) []) ++
      within (.bufferEvent p) [])

def writeCallbackLocks (p : Nat) : List LockOp := within (.bufferEvent p) (within (.bufferEvent p) [])

/-- `OnConnectionAccepted`, `OnLinkCreated` and the two calls of `Enable`. -/
def acceptLocks (p : Nat) : List LockOp :=
  within .csClients [] ++ [.setLink p true] ++ within (.bufferEvent p) [] ++ within (.bufferEvent p) []

/-- What `cClientHandle::Authenticate` comes to. -/
inductive AuthenticateCourse where
  | notAuthenticating
  | multiLogin (kick : Option Bool)
  | success (hasSentDC : Bool) (broadcast : List (Nat × Bool))
  deriving DecidableEq, Repr

def authenticateLocks (p : Nat) : AuthenticateCourse → List LockOp
  | .notAuthenticating => []
  | .multiLogin kick => within .csClients [] ++ kick.toList.flatMap (packetizer p)
  | .success hasSentDC broadcast =>
    within .csClients [] ++ packetizer p hasSentDC ++ broadcastUserInfoLocks broadcast

def authenticateUserLocks (client : Option (Nat × AuthenticateCourse)) : List LockOp :=
  within .csClients (client.toList.flatMap fun client => authenticateLocks client.1 client.2)

def kickUserLocks (kicked : List (Nat × Bool)) : List LockOp :=
  within .csClients (packetizers kicked)

/-- `Execute` up to the call for a user: the queue's lock, given back for each wait. -/
def takeUserLocks (waits : Nat) : List LockOp :=
  within .authenticatorCS
    ((List.range waits).flatMap fun _ => [.unlock .authenticatorCS, .lock .authenticatorCS])

/-- The calls that a thread makes on its own account. -/
inductive LockCall where
  | tickClients (ticks : List (Nat × TickCourse)) (removed : List (Nat × Option Bool))
  | accept (p : Nat)
  | readCallback (p chunks : Nat)
  | writeCallback (p : Nat)
  | eventCallback (p : Nat) (broadcast : Option (List (Nat × Bool))) (disconnect : Option Bool)
  | authenticateUser (waits : Nat) (client : Option (Nat × AuthenticateCourse))
  | kickUser (waits : Nat) (kicked : List (Nat × Bool))
  deriving DecidableEq, Repr

namespace LockCall

def thread : LockCall → Thread
  | tickClients _ _ => .tick
  | accept _ => .network
  | readCallback _ _ => .network
  | writeCallback _ => .network
  | eventCallback _ _ _ => .network
  | authenticateUser _ _ => .authenticator
  | kickUser _ _ => .authenticator

def ops : LockCall → List LockOp
  | tickClients ticks removed => tickClientsLocks ticks removed
  | accept p => acceptLocks p
  | readCallback p chunks => readCallbackLocks p chunks
  | writeCallback p => writeCallbackLocks p
  | eventCallback p broadcast disconnect => eventCallbackLocks p broadcast disconnect
  | authenticateUser waits client => takeUserLocks waits ++ authenticateUserLocks client
  | kickUser waits kicked => takeUserLocks waits ++ kickUserLocks kicked

end LockCall

/-- The locks that each thread holds, the last taken first, what it has still to do, and which `m_Link`
are set. -/
structure Locks where
  held : Thread → List Lock
  todo : Thread → List LockOp
  link : Nat → Bool

/-- A thread begins a call, or goes on with its own. -/
inductive LockAct where
  | call (c : LockCall)
  | go (t : Thread)
  deriving DecidableEq, Repr

namespace Locks

def initial : Locks where
  held _ := []
  todo _ := []
  link _ := false

def setTodo (t : Thread) (ops : List LockOp) (s : Locks) : Locks :=
  { s with todo := Function.update s.todo t ops }

def setHeld (t : Thread) (locks : List Lock) (s : Locks) : Locks :=
  { s with held := Function.update s.held t locks }

/-- No other thread holds the lock. -/
def free (t : Thread) (l : Lock) (s : Locks) : Bool := decide (∀ t', t' ≠ t → l ∉ s.held t')

def go (t : Thread) (s : Locks) : Option Locks :=
  match s.todo t with
  | [] => none
  | .lock l :: ops =>
    if s.free t l then some ((s.setTodo t ops).setHeld t (l :: s.held t)) else none
  | .unlock l :: ops => some ((s.setTodo t ops).setHeld t ((s.held t).erase l))
  | .setLink p link :: ops => some { s.setTodo t ops with link := Function.update s.link p link }
  | .send p :: ops => some (s.setTodo t (if s.link p then .write p :: ops else ops))
  | .write p :: ops =>
    if s.free t (.bufferEvent p) then
      some ((s.setTodo t (.unlock (.bufferEvent p) :: ops)).setHeld t (.bufferEvent p :: s.held t))
    else none

def step (s : Locks) : LockAct → Option Locks
  | .call c => if s.todo c.thread = [] then some (s.setTodo c.thread c.ops) else none
  | .go t => s.go t

/-- The lock that the thread's next operation takes. -/
def wants (s : Locks) (t : Thread) : Option Lock :=
  match s.todo t with
  | .lock l :: _ => some l
  | .write p :: _ => some (.bufferEvent p)
  | _ => none

/-- The thread waits, perhaps through others, for itself. -/
def Deadlocked (s : Locks) (t : Thread) : Prop :=
  Relation.TransGen (WaitGraph.Waits s.held s.wants) t t

end Locks

/-- The three threads, with the locks as their only steps. -/
def lockMachine : Machine Locks LockAct Unit where
  enabled _ _ := True
  step s a := (s.step a).elim (.error ()) .ok

end P2PChat

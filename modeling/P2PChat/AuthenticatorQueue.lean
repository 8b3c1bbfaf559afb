import P2PChat.CEvent
import P2PChat.Server
import P2PChat.TransitionSystem

namespace P2PChat

/-- Where a thread is in `Authenticate`. -/
inductive RequestPoint where
  | outside
  | lock (user : User)
  | push (user : User)
  | set
  | notify
  | unlock
  deriving DecidableEq, Repr

/-- Where the thread that starts and stops the authenticator is in `Stop`. -/
inductive OwnerPoint where
  | outside
  | set
  | notify
  | join
  deriving DecidableEq, Repr

/-- Where the authenticator's thread is in `Execute`; it is absent before `Start` and after the join. -/
inductive ExecutePoint where
  | absent
  | lock
  | testTerminate
  | testSize
  | unlock
  | wait
  | sleep
  | relock
  | decide
  | take
  | process (user : User)
  | returned
  deriving DecidableEq, Repr

/-- Who holds `m_CS`. -/
inductive QueueHolder where
  | caller (t : Nat)
  | execute
  deriving DecidableEq, Repr

/-- The members that the threads share, where each thread is, and the requests that have been pushed and
those that have been taken, as they were read. -/
structure AuthenticatorQueue where
  queue : List User
  shouldTerminate : Bool
  queueNonempty : CEvent
  cs : Option QueueHolder
  callers : Nat → RequestPoint
  owner : OwnerPoint
  execute : ExecutePoint
  pushed : List User
  taken : List User

/-- A thread calls `Authenticate`, `Start` or `Stop`, a thread goes on to its next read or write, or the
authenticator's thread wakes up though nobody has notified it. -/
inductive QueueAct where
  | authenticate (t : Nat) (user : User)
  | caller (t : Nat)
  | start
  | stop
  | owner
  | execute
  | spurious
  deriving DecidableEq, Repr

/-- Between a lock and the unlock. -/
def RequestPoint.holds : RequestPoint → Bool
  | .outside => false
  | .lock _ => false
  | _ => true

/-- Between a lock and the unlock. -/
def ExecutePoint.holds : ExecutePoint → Bool
  | .testTerminate | .testSize | .unlock | .decide | .take => true
  | _ => false

/-- In `m_QueueNonempty.Wait`. -/
def ExecutePoint.waits : ExecutePoint → Bool
  | .wait | .sleep => true
  | _ => false

namespace AuthenticatorQueue

/-- As the constructor leaves it. -/
def initial : AuthenticatorQueue where
  queue := []
  shouldTerminate := false
  queueNonempty := .create
  cs := none
  callers _ := .outside
  owner := .outside
  execute := .absent
  pushed := []
  taken := []

def moveTo (t : Nat) (point : RequestPoint) (s : AuthenticatorQueue) : AuthenticatorQueue :=
  { s with callers := Function.update s.callers t point }

/-- `notify_one` wakes the only thread that can sleep there. -/
def notifyOne (s : AuthenticatorQueue) : AuthenticatorQueue :=
  { s with execute := if s.execute = .sleep then .wait else s.execute }

def authenticate (t : Nat) (user : User) (s : AuthenticatorQueue) : Option AuthenticatorQueue :=
  if s.callers t = .outside then some (s.moveTo t (.lock user)) else none

def callerStep (t : Nat) (s : AuthenticatorQueue) : Option AuthenticatorQueue :=
  match s.callers t with
  | .outside => none
  | .lock user => if s.cs = none then some ({ s with cs := some (.caller t) }.moveTo t (.push user)) else none
  | .push user => some ({ s with queue := s.queue ++ [user], pushed := s.pushed ++ [user] }.moveTo t .set)
  | .set => some ({ s with queueNonempty := s.queueNonempty.set }.moveTo t .notify)
  | .notify => some (s.notifyOne.moveTo t .unlock)
  | .unlock => some ({ s with cs := none }.moveTo t .outside)

/-- A second `Start` without a `Stop` would end the process. -/
def start (s : AuthenticatorQueue) : Option AuthenticatorQueue :=
  if s.owner = .outside ∧ s.execute = .absent then some { s with shouldTerminate := false, execute := .lock }
  else none

def stop (s : AuthenticatorQueue) : Option AuthenticatorQueue :=
  if s.owner = .outside then some { s with shouldTerminate := true, owner := .set } else none

def ownerStep (s : AuthenticatorQueue) : Option AuthenticatorQueue :=
  match s.owner with
  | .outside => none
  | .set => some { s with queueNonempty := s.queueNonempty.set, owner := .notify }
  | .notify => some { s.notifyOne with owner := .join }
  | .join =>
    if s.execute = .absent ∨ s.execute = .returned then some { s with execute := .absent, owner := .outside }
    else none

/-- `front` of an empty queue would be undefined. -/
def executeStep (s : AuthenticatorQueue) : Option AuthenticatorQueue :=
  match s.execute with
  | .absent => none
  | .lock => if s.cs = none then some { s with cs := some .execute, execute := .testTerminate } else none
  | .testTerminate => some { s with execute := if s.shouldTerminate then .decide else .testSize }
  | .testSize => some { s with execute := if s.queue.length = 0 then .unlock else .decide }
  | .unlock => some { s with cs := none, execute := .wait }
  | .wait =>
    match s.queueNonempty.wait with
    | some event => some { s with queueNonempty := event, execute := .relock }
    | none => some { s with execute := .sleep }
  | .sleep => none
  | .relock => if s.cs = none then some { s with cs := some .execute, execute := .testTerminate } else none
  | .decide =>
    if s.shouldTerminate then some { s with cs := none, execute := .returned }
    else some { s with execute := .take }
  | .take =>
    match s.queue with
    | [] => none
    | front :: queue =>
      let user : User := ⟨front.clientID, front.username, front.password⟩
      some { s with queue := queue, taken := s.taken ++ [user], cs := none, execute := .process user }
  | .process _ => some { s with execute := .lock }
  | .returned => none

def spurious (s : AuthenticatorQueue) : Option AuthenticatorQueue :=
  if s.execute = .sleep then some { s with execute := .wait } else none

def step (s : AuthenticatorQueue) : QueueAct → Option AuthenticatorQueue
  | .authenticate t user => s.authenticate t user
  | .caller t => s.callerStep t
  | .start => s.start
  | .stop => s.stop
  | .owner => s.ownerStep
  | .execute => s.executeStep
  | .spurious => s.spurious

end AuthenticatorQueue

/-- Any number of threads that call `Authenticate`, one that starts and stops the authenticator, and the
authenticator's own, in every order in which they can go on. -/
def queueMachine : Machine AuthenticatorQueue QueueAct Unit where
  enabled _ _ := True
  step s a := (s.step a).elim (.error ()) .ok

end P2PChat

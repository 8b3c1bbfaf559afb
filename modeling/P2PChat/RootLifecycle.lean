import P2PChat.AuthenticatorQueue
import P2PChat.StringUtils

namespace P2PChat

/-- `m_Server`. The destructor destroys the members from the last to the first, `m_RestartEvent` before
`m_TickThread`; then the pointer dangles until it is reset. -/
inductive ServerPointer where
  | null
  | live
  | dying
  | dangling
  deriving DecidableEq, Repr

/-- Where the main thread is in `cRoot::Start`, `cServer::Start` and `cServer::Shutdown`. -/
inductive RootPoint where
  | begin
  | testStop
  | clearRestart
  | create
  | initServer
  | startAuthenticator
  | listen
  | startTicks
  | startInput
  | poll
  | noteTerminate
  | closeHandle
  | setRestarting
  | wait
  | sleep
  | destroyClients
  | giveUp
  | stopAuthenticator
  | joinAuthenticator
  | deleteServer
  | endTicks
  | joinTicks
  | clearServer
  | returned
  deriving DecidableEq, Repr

/-- Where the tick thread is in `Execute`, `Tick` and `TickCommands`, with the commands it has still to
execute; it is absent before `Start` and after the join. -/
inductive ServerTickPoint where
  | absent
  | testTerminate
  | swap
  | commands (todo : List AString)
  | clients
  | testRestarting
  | clearRestarting
  | setEvent
  | notify
  | assign (goOn : Bool)
  | pause
  | ended
  deriving DecidableEq, Repr

/-- Where a console thread is in `InputThread`. -/
inductive InputPoint where
  | absent
  | testStop
  | testRestart
  | testTerminate
  | getline
  | execute (command : AString)
  | leave
  | stop
  | ended
  deriving DecidableEq, Repr

/-- Why a thread does not go on: it has to wait, or what it does next is undefined or ends the process. -/
inductive RootFault where
  | blocked
  | missingServer
  | destroyedEvent
  | nullHandle
  | joinable
  deriving DecidableEq, Repr

/-- The members of `cRoot` and of its server that the threads share, and where each thread is. The console
threads are detached: those of servers that are gone may still be there. -/
structure Root where
  shouldStop : Bool
  restart : Bool
  terminateEventRaised : Bool
  runAsService : Bool
  cinGood : Bool
  pendingCommands : List AString
  server : ServerPointer
  isConnected : Bool
  listening : Bool
  restarting : Bool
  restartEvent : CEvent
  tickShouldTerminate : Bool
  authenticator : AuthenticatorQueue
  main : RootPoint
  ticker : ServerTickPoint
  inputs : Nat → InputPoint
  servers : Nat

/-- A thread goes on: the main thread with the result of `MakeFileListener`, of `Listen` or of the start of a
thread, the tick thread with the next request that a client makes in `TickClients`, a console thread with the line
that it reads. Or a signal comes, the service is stopped, or a command is queued. -/
inductive RootAct where
  | main (ok : Bool)
  | ticker (request : Option User)
  | authenticator
  | input (t : Nat) (line : AString) (good : Bool)
  | spurious
  | spuriousAuthenticator
  | terminate
  | serviceStop
  | queueBuiltIn (command : AString)
  | queue (command : AString)
  deriving DecidableEq, Repr

/-- `stop` -/
def stopCommand : AString := [115, 116, 111, 112]

/-- `restart` -/
def restartCommand : AString := [114, 101, 115, 116, 97, 114, 116]

namespace Root

/-- Before `Start`. -/
def initial (runAsService : Bool) : Root where
  shouldStop := false
  restart := false
  terminateEventRaised := false
  runAsService := runAsService
  cinGood := true
  pendingCommands := []
  server := .null
  isConnected := false
  listening := false
  restarting := false
  restartEvent := .create
  tickShouldTerminate := false
  authenticator := .initial
  main := .begin
  ticker := .absent
  inputs _ := .absent
  servers := 0

/-- `new cServer()`. -/
def createServer (s : Root) : Root :=
  { s with
    server := .live
    isConnected := false
    listening := false
    restarting := false
    restartEvent := .create
    tickShouldTerminate := false
    servers := s.servers + 1 }

/-- There is no server behind the pointer. -/
def serverGone (s : Root) : Bool := s.server = .null || s.server = .dangling

/-- The commands of `cRoot` itself; `cServer::ExecuteConsoleCommand` prints, and changes nothing. -/
def executeConsoleCommand (command : AString) (s : Root) : Except RootFault Root :=
  if command = stopCommand then .ok { s with shouldStop := true }
  else if command = restartCommand then .ok { s with restart := true }
  else if s.serverGone then .error .missingServer
  else .ok s

/-- `QueueExecuteConsoleCommand` with a callback looks for these commands before it queues. -/
def queueBuiltIn (command : AString) (s : Root) : Root :=
  if command = stopCommand then { s with shouldStop := true }
  else if command = restartCommand then { s with restart := true }
  else s

/-- What `m_Authenticator` does, if it can. -/
def onAuthenticator (s : Root) (f : AuthenticatorQueue → Option AuthenticatorQueue) : Except RootFault Root :=
  match f s.authenticator with
  | some authenticator => .ok { s with authenticator := authenticator }
  | none => .error .blocked

def startAuthenticator (ok : Bool) (s : Root) : Except RootFault Root :=
  if ok then
    match s.authenticator.start with
    | some authenticator => .ok { s with authenticator := authenticator, main := .listen }
    | none => .error .joinable
  else .ok { s with authenticator := { s.authenticator with shouldTerminate := false }, main := .listen }

/-- `cAuthenticator::Stop` comes to its end. -/
def joinAuthenticator (s : Root) : Except RootFault Root :=
  match s.authenticator.ownerStep with
  | some authenticator =>
    .ok { s with
      authenticator := authenticator
      main := if authenticator.owner = .outside then .deleteServer else .joinAuthenticator }
  | none => .error .blocked

def mainStep (ok : Bool) (s : Root) : Except RootFault Root :=
  match s.main with
  | .begin => if ok then .ok { s with shouldStop := false, main := .testStop } else .ok { s with main := .returned }
  | .testStop => .ok { s with main := if s.shouldStop then .returned else .clearRestart }
  | .clearRestart => .ok { s with restart := false, main := .create }
  | .create => .ok { s.createServer with main := .initServer }
  | .initServer =>
    if s.isConnected then .ok { s with main := .returned }
    else .ok { s with isConnected := true, main := .startAuthenticator }
  | .startAuthenticator => s.startAuthenticator ok
  | .listen => if ok then .ok { s with listening := true, main := .startTicks } else .ok { s with main := .giveUp }
  | .startTicks =>
    if ok then
      if s.ticker = .absent then .ok { s with ticker := .testTerminate, main := .startInput }
      else .error .joinable
    else .ok { s with main := .giveUp }
  | .startInput =>
    .ok { s with inputs := if ok then Function.update s.inputs s.servers .testStop else s.inputs, main := .poll }
  | .poll =>
    .ok { s with main := if s.shouldStop || s.restart || s.terminateEventRaised then .noteTerminate else .poll }
  | .noteTerminate => .ok { s with shouldStop := s.shouldStop || s.terminateEventRaised, main := .closeHandle }
  | .closeHandle =>
    if s.listening then .ok { s with listening := false, main := .setRestarting } else .error .nullHandle
  | .setRestarting => .ok { s with restarting := true, main := .wait }
  | .wait =>
    match s.restartEvent.wait with
    | some event => .ok { s with restartEvent := event, main := .destroyClients }
    | none => .ok { s with main := .sleep }
  | .sleep => .error .blocked
  | .destroyClients => .ok { s with main := .stopAuthenticator }
  | .giveUp => .ok { s with shouldStop := true, main := .stopAuthenticator }
  | .stopAuthenticator =>
    (s.onAuthenticator AuthenticatorQueue.stop).map fun s => { s with main := .joinAuthenticator }
  | .joinAuthenticator => s.joinAuthenticator
  | .deleteServer => .ok { s with server := .dying, main := .endTicks }
  | .endTicks => .ok { s with tickShouldTerminate := true, main := .joinTicks }
  | .joinTicks =>
    if s.ticker = .absent ∨ s.ticker = .ended then
      .ok { s with ticker := .absent, server := .dangling, main := .clearServer }
    else .error .blocked
  | .clearServer => .ok { s with server := .null, main := .testStop }
  | .returned => .error .blocked

/-- `TickClients` until its end or to the next call of `Authenticate`, or a step of such a call. -/
def tickClients (request : Option User) (s : Root) : Except RootFault Root :=
  if s.authenticator.callers 0 = .outside then
    match request with
    | none => .ok { s with ticker := .testRestarting }
    | some user => s.onAuthenticator (AuthenticatorQueue.authenticate 0 user)
  else s.onAuthenticator (AuthenticatorQueue.callerStep 0)

/-- `m_RestartEvent.Set()` in two steps. -/
def setRestartEvent (s : Root) : Except RootFault Root :=
  if s.server = .live then .ok { s with restartEvent := s.restartEvent.set, ticker := .notify }
  else .error .destroyedEvent

def notifyRestartEvent (s : Root) : Except RootFault Root :=
  if s.server = .live then
    .ok { s with main := if s.main = .sleep then .wait else s.main, ticker := .assign false }
  else .error .destroyedEvent

/-- The tick thread works on its server. -/
def tick (request : Option User) (s : Root) : Except RootFault Root :=
  match s.ticker with
  | .absent => .error .blocked
  | .testTerminate => .ok { s with ticker := if s.tickShouldTerminate then .ended else .swap }
  | .swap => .ok { s with pendingCommands := [], ticker := .commands s.pendingCommands }
  | .commands [] => .ok { s with ticker := .clients }
  | .commands (command :: todo) => (s.executeConsoleCommand command).map fun s => { s with ticker := .commands todo }
  | .clients => s.tickClients request
  | .testRestarting => .ok { s with ticker := if s.restarting then .clearRestarting else .assign true }
  | .clearRestarting => .ok { s with restarting := false, ticker := .setEvent }
  | .setEvent => s.setRestartEvent
  | .notify => s.notifyRestartEvent
  | .assign goOn => .ok { s with tickShouldTerminate := !goOn, ticker := .pause }
  | .pause => .ok { s with ticker := .testTerminate }
  | .ended => .error .blocked

def tickerStep (request : Option User) (s : Root) : Except RootFault Root :=
  if s.ticker = .absent ∨ s.ticker = .ended then .error .blocked
  else if s.serverGone then .error .missingServer
  else s.tick request

/-- `AuthenticateUser` and `KickUser` go through `m_Server`. -/
def authenticatorStep (s : Root) : Except RootFault Root :=
  match s.authenticator.execute with
  | .process _ =>
    if s.server = .live then s.onAuthenticator AuthenticatorQueue.executeStep else .error .missingServer
  | _ => s.onAuthenticator AuthenticatorQueue.executeStep

def moveInput (t : Nat) (point : InputPoint) (s : Root) : Root :=
  { s with inputs := Function.update s.inputs t point }

/-- The end of the input, or a signal. -/
def inputOver (s : Root) : Bool := s.terminateEventRaised || !s.cinGood

/-- A stream that is not good gives no line. -/
def inputStep (t : Nat) (line : AString) (good : Bool) (s : Root) : Except RootFault Root :=
  match s.inputs t with
  | .absent => .error .blocked
  | .testStop => .ok (s.moveInput t (if s.shouldStop then .leave else .testRestart))
  | .testRestart => .ok (s.moveInput t (if s.restart then .leave else .testTerminate))
  | .testTerminate => .ok (s.moveInput t (if s.inputOver then .leave else .getline))
  | .getline =>
    let command := if s.cinGood then line else []
    .ok ({ s with cinGood := s.cinGood && good }.moveInput t
      (if command = [] then .testStop else .execute (trimString command)))
  | .execute command => (s.executeConsoleCommand command).map (moveInput t .testStop)
  | .leave => .ok (s.moveInput t (if s.inputOver && !s.runAsService then .stop else .ended))
  | .stop => .ok ({ s with shouldStop := true }.moveInput t .ended)
  | .ended => .error .blocked

def spurious (s : Root) : Except RootFault Root :=
  if s.main = .sleep then .ok { s with main := .wait } else .error .blocked

def step (s : Root) : RootAct → Except RootFault Root
  | .main ok => s.mainStep ok
  | .ticker request => s.tickerStep request
  | .authenticator => s.authenticatorStep
  | .input t line good => s.inputStep t line good
  | .spurious => s.spurious
  | .spuriousAuthenticator => s.onAuthenticator AuthenticatorQueue.spurious
  | .terminate => .ok { s with terminateEventRaised := true }
  | .serviceStop => .ok { s with shouldStop := true }
  | .queueBuiltIn command => .ok (s.queueBuiltIn command)
  | .queue command => .ok { s with pendingCommands := s.pendingCommands ++ [command] }

end Root

/-- The main thread, the tick thread, the authenticator's thread and all console threads, in every order in
which they can go on. -/
def rootMachine : Machine Root RootAct RootFault where
  enabled s a := s.step a ≠ .error .blocked
  step := Root.step

end P2PChat

import Mathlib.Logic.Function.Basic
import P2PChat.TransitionSystem

namespace P2PChat

/-- A `cTCPLinkImpl`: `m_Server`, and whether `m_ConnectCallbacks` and `m_Self` are set. `terminated` is set by a
connect that fails, an error, the end of the stream and `Close`, `shutByServer` by the `Close` of its server
handle; no code reads these two. -/
structure LinkObject where
  server : Option Nat
  connectCallbacks : Bool
  self : Bool
  terminated : Bool
  shutByServer : Bool
  deriving DecidableEq, Repr

/-- The links and the server handles by their addresses, and `m_Connections`: of the singleton at `none`, of a
server handle at its own. A handle that listens has its `m_SelfPtr`. -/
structure LinkRegistry where
  links : Nat → LinkObject
  created : Nat
  connections : Option Nat → List Nat
  listening : Nat → Bool
  handles : Nat

/-- The flags of `EventCallback`, which libevent sets one at a time. -/
inductive LinkWhat where
  | error
  | connected
  | eof
  deriving DecidableEq, Repr

/-- What `bufferevent_socket_connect` or `bufferevent_socket_connect_hostname` comes to: the request is queued, or
fails, or fails after an error was reported to `EventCallback`; there `OnError` calls `Close`, or does not. -/
inductive ConnectResult where
  | queued
  | failed
  | reported (closes : Bool)
  deriving DecidableEq, Repr

/-- What happens to the links, and whether the callback that hears of it calls `Close`. The other callbacks are the
last thing that is done, so that a `Close` of theirs comes next. -/
inductive RegistryEvent where
  | listen
  | connect (result : ConnectResult) (closes : Bool)
  | accept (handle : Nat) (closes : Bool)
  | event (link : Nat) (what : LinkWhat) (closes : Bool)
  | close (link : Nat)
  | closeHandle (handle : Nat)
  deriving DecidableEq, Repr

namespace LinkRegistry

def create : LinkRegistry where
  links _ := ⟨none, false, false, false, false⟩
  created := 0
  connections _ := []
  listening _ := false
  handles := 0

def modify (l : Nat) (f : LinkObject → LinkObject) (s : LinkRegistry) : LinkRegistry :=
  { s with links := Function.update s.links l (f (s.links l)) }

def addTo (registry : Option Nat) (l : Nat) (s : LinkRegistry) : LinkRegistry :=
  { s with connections := Function.update s.connections registry (s.connections registry ++ [l]) }

/-- The loop of both `RemoveLink` erases the first one that it finds. -/
def removeFrom (registry : Option Nat) (l : Nat) (s : LinkRegistry) : LinkRegistry :=
  { s with connections := Function.update s.connections registry ((s.connections registry).erase l) }

/-- `cNetworkSingleton::AddLink`. -/
def addLink (l : Nat) (s : LinkRegistry) : LinkRegistry := s.addTo none l

/-- `cNetworkSingleton::RemoveLink`. -/
def removeLink (l : Nat) (s : LinkRegistry) : LinkRegistry := s.removeFrom none l

/-- `cServerHandleImpl::RemoveLink`. -/
def handleRemoveLink (handle l : Nat) (s : LinkRegistry) : LinkRegistry := s.removeFrom (some handle) l

/-- A link removes itself, from its server handle if it has one. -/
def unregister (l : Nat) (s : LinkRegistry) : LinkRegistry :=
  match (s.links l).server with
  | none => s.removeLink l
  | some handle => s.handleRemoveLink handle l

def setTerminated (l : Nat) (s : LinkRegistry) : LinkRegistry := s.modify l ({ · with terminated := true })

/-- `m_Self.reset()`. -/
def resetSelf (l : Nat) (s : LinkRegistry) : LinkRegistry := s.modify l ({ · with self := false })

def close (l : Nat) (s : LinkRegistry) : LinkRegistry := ((s.unregister l).resetSelf l).setTerminated l

/-- A callback that calls `Close`, or does not. -/
def callback (closes : Bool) (l : Nat) (s : LinkRegistry) : LinkRegistry := if closes then s.close l else s

def enable (l : Nat) (s : LinkRegistry) : LinkRegistry := s.modify l ({ · with self := true })

def eventCallback (l : Nat) (what : LinkWhat) (closes : Bool) (s : LinkRegistry) : LinkRegistry :=
  match what with
  | .error =>
    if (s.links l).connectCallbacks then ((s.callback closes l).resetSelf l).setTerminated l
    else (((s.callback closes l).unregister l).resetSelf l).setTerminated l
  | .connected =>
    if (s.links l).connectCallbacks then (s.callback closes l).modify l ({ · with connectCallbacks := false })
    else s
  | .eof => (((s.callback closes l).unregister l).resetSelf l).setTerminated l

/-- The constructors of a link. -/
def construct (server : Option Nat) (connecting : Bool) (s : LinkRegistry) : LinkRegistry :=
  { s.modify s.created (fun _ => ⟨server, connecting, false, false, false⟩) with created := s.created + 1 }

/-- `Connect`; `closes` is of `OnLinkCreated`. -/
def connect (result : ConnectResult) (closes : Bool) (s : LinkRegistry) : LinkRegistry :=
  let l := s.created
  let s := (((s.construct none true).addLink l).callback closes l).enable l
  match result with
  | .queued => s
  | .failed => (s.removeLink l).setTerminated l
  | .reported closes => ((s.eventCallback l .error closes).removeLink l).setTerminated l

/-- `cServerHandleImpl::Callback`, when `OnIncomingConnection` has callbacks for the link; otherwise no link is
made. -/
def accept (handle : Nat) (closes : Bool) (s : LinkRegistry) : LinkRegistry :=
  let l := s.created
  (((s.construct (some handle) false).addTo (some handle) l).callback closes l).enable l

def listen (s : LinkRegistry) : LinkRegistry :=
  { s with listening := Function.update s.listening s.handles true, handles := s.handles + 1 }

/-- `cServerHandleImpl::Close`; what `Shutdown` does to a link leaves all that is here as it is. -/
def closeHandle (handle : Nat) (s : LinkRegistry) : LinkRegistry :=
  { s with
    listening := Function.update s.listening handle false
    connections := Function.update s.connections (some handle) []
    links := fun l =>
      if l ∈ s.connections (some handle) then { s.links l with shutByServer := true } else s.links l }

/-- Events come to links that are there and have not terminated, connections to handles that listen. -/
def enabled (s : LinkRegistry) : RegistryEvent → Bool
  | .listen => true
  | .connect (.reported _) closes => !closes
  | .connect _ _ => true
  | .accept handle _ => s.listening handle
  | .event l _ _ => l < s.created && !(s.links l).terminated
  | .close l => l < s.created
  | .closeHandle handle => handle < s.handles

def step (s : LinkRegistry) : RegistryEvent → LinkRegistry
  | .listen => s.listen
  | .connect result closes => s.connect result closes
  | .accept handle closes => s.accept handle closes
  | .event l what closes => s.eventCallback l what closes
  | .close l => s.close l
  | .closeHandle handle => s.closeHandle handle

end LinkRegistry

def registryMachine : Machine LinkRegistry RegistryEvent Empty where
  enabled s e := s.enabled e = true
  step s e := .ok (s.step e)

end P2PChat

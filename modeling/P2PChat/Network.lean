import P2PChat.ClientFrames

namespace P2PChat

open ByteQueue

namespace PeerConnectionClient

variable {β : Type} [ByteQueue β]

def requestToPeer (peer_id : UInt32) (c : PeerConnectionClient β) : Except Halt (PeerConnectionClient β) :=
  c.packet (mediaPacket peer_id 0)

def sendToPeer (peer_id : UInt32) (message : AString) (c : PeerConnectionClient β) :
    Except Halt (PeerConnectionClient β) := c.packet (mediaMsgPacket peer_id message)

end PeerConnectionClient

/-- The server, the client of each connection, and how many bytes each has read of those that the link
of its connection was given. -/
structure Network (β : Type) where
  server : Server β
  clients : Nat → PeerConnectionClient β
  read : Nat → Nat

/-- What happens to the server, with any bytes from its peers, and what happens to a client: its socket
is connected, has so many bytes for it, or is closed; the user asks for something. -/
inductive NetworkEvent where
  | server (e : Event)
  | opened (p : Nat)
  | read (p n : Nat)
  | requestToPeer (p : Nat) (peer_id : UInt32)
  | sendToPeer (p : Nat) (peer_id : UInt32) (message : AString)
  | signOut (p : Nat)
  | closed (p : Nat)
  deriving DecidableEq, Repr

namespace Network

section State

variable {β : Type}

def setClient (p : Nat) (c : PeerConnectionClient β) (s : Network β) : Network β :=
  { s with clients := fun q => if q = p then c else s.clients q }

/-- The bytes that the next call of `Recv` finds. -/
def chunk (p n : Nat) (s : Network β) : AString := ((s.server.heap p).sent.drop (s.read p)).take n

def advance (p n : Nat) (s : Network β) : Network β :=
  { s with read := fun q => if q = p then s.read p + n else s.read q }

/-- A socket is connected once, and has at most a whole buffer of what was sent and not yet read. -/
def enabled (s : Network β) : NetworkEvent → Bool
  | .server e => s.server.enabled e
  | .opened p => !(s.clients p).isConnected &&
      ((s.clients p).state == .signingIn || (s.clients p).state == .signingOutWaiting)
  | .read p n => p < s.server.allocated && (s.clients p).isConnected && 0 < n && n ≤ 65535 &&
      s.read p + n ≤ (s.server.heap p).sent.length
  | _ => true

end State

variable {β : Type} [ByteQueue β]

/-- A call on the client of a connection. -/
def act (p : Nat) (f : PeerConnectionClient β → Except Halt (PeerConnectionClient β)) (s : Network β) :
    Except Halt (Network β) := (f (s.clients p)).map fun c => s.setClient p c

variable [Platform]

/-- A party that halts takes no more steps. -/
def step (s : Network β) : NetworkEvent → Except Halt (Network β)
  | .server e => (s.server.step e).map fun server => { s with server := server }
  | .opened p => s.act p PeerConnectionClient.onConnect
  | .read p n => (s.act p (PeerConnectionClient.onRead [s.chunk p n])).map (advance p n)
  | .requestToPeer p peer_id => s.act p (PeerConnectionClient.requestToPeer peer_id)
  | .sendToPeer p peer_id message => s.act p (PeerConnectionClient.sendToPeer peer_id message)
  | .signOut p => s.act p fun c => .ok c.signOut
  | .closed p => s.act p fun c => .ok c.onClose

omit [Platform] in
/-- Nobody is connected; these clients will be. -/
def start (clients : Nat → PeerConnectionClient β) : Network β := ⟨Server.initial, clients, fun _ => 0⟩

end Network

/-- The server and its clients with what happens to them, one event at a time. -/
def networkMachine (β : Type) [ByteQueue β] [Platform] : Machine (Network β) NetworkEvent Halt where
  enabled s e := s.enabled e = true
  step s e := s.step e

namespace Network

section Refinement

def map {β γ : Type} (f : β → γ) (s : Network β) : Network γ where
  server := s.server.map f
  clients p := (s.clients p).map f
  read := s.read

variable {β γ : Type} [ByteQueue β] [ByteQueue γ] {f : β → γ} (hf : Hom f)

theorem setClient_map {β γ : Type} {f : β → γ} (p : Nat) (c : PeerConnectionClient β) (s : Network β) :
    (s.map f).setClient p (c.map f) = (s.setClient p c).map f := by
  have hclients : (fun q => if q = p then c.map f else (s.clients q).map f) =
      fun q => (if q = p then c else s.clients q).map f := by
    funext q
    split <;> rfl
  exact congrArg (fun clients => (⟨s.server.map f, clients, s.read⟩ : Network γ)) hclients

omit [ByteQueue β] [ByteQueue γ] in
theorem act_map {g : PeerConnectionClient β → Except Halt (PeerConnectionClient β)}
    {h : PeerConnectionClient γ → Except Halt (PeerConnectionClient γ)}
    (hg : ∀ c, h (c.map f) = (g c).map (PeerConnectionClient.map f)) (p : Nat) (s : Network β) :
    (s.map f).act p h = (s.act p g).map (map f) := by
  have hclient : (s.map f).clients p = (s.clients p).map f := rfl
  rw [act, act, hclient, hg]
  rcases g (s.clients p) with e | c
  · rfl
  · exact congrArg Except.ok (setClient_map p c s)

omit [ByteQueue β] [ByteQueue γ] in
theorem connect_map (user pass : AString) (c : PeerConnectionClient β) :
    (c.map f).connect user pass = (c.connect user pass).map f := by
  have hstate : (c.map f).state = c.state := rfl
  unfold PeerConnectionClient.connect
  rw [hstate]
  split
  next => rfl
  next => rfl

include hf

theorem start_map (clients : Nat → PeerConnectionClient β) :
    (start clients).map f = start fun p => (clients p).map f := by
  rw [start, start, map, initial_map hf]

theorem onConnect_map (c : PeerConnectionClient β) :
    (c.map f).onConnect = c.onConnect.map (PeerConnectionClient.map f) :=
  PeerConnectionClient.packet_map hf _ { c with isConnected := true }

theorem onClose_map (c : PeerConnectionClient β) : (c.map f).onClose = c.onClose.map f := by
  rw [PeerConnectionClient.onClose, PeerConnectionClient.onClose, PeerConnectionClient.close_map hf]
  rfl

variable [Platform]

theorem step_map (s : Network β) (e : NetworkEvent) : (s.map f).step e = (s.step e).map (map f) := by
  cases e with
  | server e =>
    have hstep := P2PChat.step_map hf s.server e
    have hserver : (s.map f).server = s.server.map f := rfl
    rw [step, step, hserver, hstep]
    rcases s.server.step e with h | server
    · rfl
    · rfl
  | opened p => exact act_map (onConnect_map hf) p s
  | read p n =>
    have hact := act_map (PeerConnectionClient.onRead_map hf [s.chunk p n]) p s
    have hchunk : (s.map f).chunk p n = s.chunk p n := rfl
    rw [step, step, hchunk, hact]
    rcases s.act p (PeerConnectionClient.onRead [s.chunk p n]) with h | s'
    · rfl
    · rfl
  | requestToPeer p peer_id => exact act_map (PeerConnectionClient.packet_map hf _) p s
  | sendToPeer p peer_id message => exact act_map (PeerConnectionClient.packet_map hf _) p s
  | signOut p =>
    have hsignOut : ∀ c : PeerConnectionClient β, (Except.ok (c.map f).signOut : Except Halt _) =
        (Except.ok c.signOut).map (PeerConnectionClient.map f) :=
      fun c => congrArg Except.ok (PeerConnectionClient.signOut_map hf c)
    exact act_map (g := fun c => .ok c.signOut) (h := fun c => .ok c.signOut) hsignOut p s
  | closed p =>
    have hclose : ∀ c : PeerConnectionClient β, (Except.ok (c.map f).onClose : Except Halt _) =
        (Except.ok c.onClose).map (PeerConnectionClient.map f) :=
      fun c => congrArg Except.ok (onClose_map hf c)
    exact act_map (g := fun c => .ok c.onClose) (h := fun c => .ok c.onClose) hclose p s

end Refinement

end Network

end P2PChat

import P2PChat.ClientHandle
import P2PChat.TransitionSystem

namespace P2PChat

open ByteQueue

/-- Where a thread is in a `cPacketizer` of a connection and in `SendPacket` and `SendData`, in
`SendDisconnect`, or in the second part of `ServerTick`. With `dc` the packet is of `SendDisconnect`. -/
inductive SendPoint where
  | idle
  | lockPacket (p : Packet) (dc : Bool)
  | writeType (p : Packet) (dc : Bool)
  | writeField (p : Packet) (todo : List Field) (dc : Bool)
  | writeLen (p : Packet) (dc : Bool)
  | readLen (p : Packet) (dc : Bool)
  | commitLen (p : Packet) (lenToSend : AString) (dc : Bool)
  | readData (p : Packet) (lenToSend : AString) (dc : Bool)
  | sendData (p : Packet) (data : AString) (dc : Bool)
  | lockOutgoing (p : Packet) (data : AString) (dc : Bool)
  | append (p : Packet) (data : AString) (dc : Bool)
  | storeAppended (p : Packet) (appended : AString) (dc : Bool)
  | unlockOutgoing (p : Packet) (dc : Bool)
  | commitData (p : Packet) (dc : Bool)
  | unlockPacket (dc : Bool)
  | sendDisconnect (reason : Int32)
  | protocolSendDisconnect (reason : Int32)
  | storeDC
  | lockSwap
  | swap
  | storeSwapped (data : AString)
  | unlockSwap (data : AString)
  | send (data : AString)
  deriving DecidableEq, Repr

/-- A connection, who holds its `m_CSPacket` and its `m_CSOutgoingData`, and where the threads are. -/
structure SendThreads (β : Type) where
  handle : ClientHandle β
  csPacket : Option Nat
  csOutgoingData : Option Nat
  point : Nat → SendPoint

/-- A thread begins to send a packet, calls `SendDisconnect`, or comes to what is queued in `ServerTick`;
it goes on; `m_State` of the protocol is stored, the link created or reset. -/
inductive SendAct where
  | packet (t : Nat) (p : Packet)
  | sendDisconnect (t : Nat) (reason : Int32)
  | serverTick (t : Nat)
  | go (t : Nat)
  | storeState (state : UInt32)
  | linked
  | unlinked
  deriving DecidableEq, Repr

namespace ClientHandle

variable {β : Type}

def setOut (out : β) (c : ClientHandle β) : ClientHandle β :=
  { c with protocol := { c.protocol with outPacketBuffer := out } }

def setLen (len : β) (c : ClientHandle β) : ClientHandle β :=
  { c with protocol := { c.protocol with outPacketLenBuffer := len } }

def setOutgoing (data : AString) (c : ClientHandle β) : ClientHandle β := { c with outgoingData := data }

end ClientHandle

namespace SendThreads

section State

variable {β : Type}

def moveTo (t : Nat) (point : SendPoint) (s : SendThreads β) : SendThreads β :=
  { s with point := Function.update s.point t point }

/-- A thread waits for a lock that is held. -/
def enabled (s : SendThreads β) : SendAct → Bool
  | .packet t _ => s.point t == .idle
  | .sendDisconnect t _ => s.point t == .idle
  | .serverTick t => s.point t == .idle
  | .go t =>
    match s.point t with
    | .idle => false
    | .lockPacket _ _ => s.csPacket.isNone
    | .lockOutgoing _ _ _ => s.csOutgoingData.isNone
    | .lockSwap => s.csOutgoingData.isNone
    | _ => true
  | .unlinked => s.csOutgoingData.isNone
  | _ => true

end State

variable {β : Type} [ByteQueue β]

/-- A read or a write of one of the members, or of a lock. -/
def go (t : Nat) (s : SendThreads β) : Except Halt (SendThreads β) :=
  match s.point t with
  | .idle => .ok s
  | .lockPacket p dc => .ok ({ s with csPacket := some t }.moveTo t (.writeType p dc))
  | .writeType p dc =>
    let out := (writeVarInt32 p.type s.handle.protocol.outPacketBuffer).2
    .ok ({ s with handle := s.handle.setOut out }.moveTo t (.writeField p p.fields dc))
  | .writeField p [] dc => .ok (s.moveTo t (.writeLen p dc))
  | .writeField p (field :: todo) dc =>
    match field.write s.handle.protocol.outPacketBuffer with
    | (true, out) => .ok ({ s with handle := s.handle.setOut out }.moveTo t (.writeField p todo dc))
    | (false, _) => .error .verify
  | .writeLen p dc =>
    let packetLen := UInt32.ofNat (getUsedSpace s.handle.protocol.outPacketBuffer)
    let len := (writeVarInt32 packetLen s.handle.protocol.outPacketLenBuffer).2
    .ok ({ s with handle := s.handle.setLen len }.moveTo t (.readLen p dc))
  | .readLen p dc =>
    let (lenToSend, len) := readAll s.handle.protocol.outPacketLenBuffer
    .ok ({ s with handle := s.handle.setLen len }.moveTo t (.commitLen p lenToSend dc))
  | .commitLen p lenToSend dc =>
    let len := commitRead s.handle.protocol.outPacketLenBuffer
    .ok ({ s with handle := s.handle.setLen len }.moveTo t (.readData p lenToSend dc))
  | .readData p lenToSend dc =>
    let (dataToSend, out) := readAll s.handle.protocol.outPacketBuffer
    .ok ({ s with handle := s.handle.setOut out }.moveTo t (.sendData p (lenToSend ++ dataToSend) dc))
  | .sendData p data dc =>
    if s.handle.hasSentDC then .ok (s.moveTo t (.commitData p dc))
    else .ok (s.moveTo t (.lockOutgoing p data dc))
  | .lockOutgoing p data dc => .ok ({ s with csOutgoingData := some t }.moveTo t (.append p data dc))
  | .append p data dc => .ok (s.moveTo t (.storeAppended p (s.handle.outgoingData ++ data) dc))
  | .storeAppended p appended dc =>
    let c := s.handle.record (.queued s.handle.protocol.state p)
    .ok ({ s with handle := c.setOutgoing appended }.moveTo t (.unlockOutgoing p dc))
  | .unlockOutgoing p dc => .ok ({ s with csOutgoingData := none }.moveTo t (.commitData p dc))
  | .commitData _ dc =>
    let out := commitRead s.handle.protocol.outPacketBuffer
    .ok ({ s with handle := s.handle.setOut out }.moveTo t (.unlockPacket dc))
  | .unlockPacket dc => .ok ({ s with csPacket := none }.moveTo t (if dc then .storeDC else .idle))
  | .sendDisconnect reason =>
    if s.handle.hasSentDC then .ok (s.moveTo t .idle)
    else .ok (s.moveTo t (.protocolSendDisconnect reason))
  | .protocolSendDisconnect reason =>
    if s.handle.protocol.state = 2 then .ok (s.moveTo t (.lockPacket ⟨0x00, [.beInt32 reason]⟩ true))
    else if s.handle.protocol.state = 3 then
      .ok (s.moveTo t (.lockPacket ⟨0x40, [.beUInt32 reason.toUInt32]⟩ true))
    else .ok (s.moveTo t .storeDC)
  | .storeDC => .ok ({ s with handle := { s.handle with hasSentDC := true } }.moveTo t .idle)
  | .lockSwap => .ok ({ s with csOutgoingData := some t }.moveTo t .swap)
  | .swap => .ok (s.moveTo t (.storeSwapped s.handle.outgoingData))
  | .storeSwapped data => .ok ({ s with handle := s.handle.setOutgoing [] }.moveTo t (.unlockSwap data))
  | .unlockSwap data => .ok ({ s with csOutgoingData := none }.moveTo t (.send data))
  | .send data =>
    let sent := if s.handle.link then s.handle.sent ++ data else s.handle.sent
    .ok ({ s with handle := { s.handle with sent := sent } }.moveTo t .idle)

def step (s : SendThreads β) : SendAct → Except Halt (SendThreads β)
  | .packet t p => .ok (s.moveTo t (.lockPacket p false))
  | .sendDisconnect t reason => .ok (s.moveTo t (.sendDisconnect reason))
  | .serverTick t => .ok (s.moveTo t .lockSwap)
  | .go t => s.go t
  | .storeState state => .ok { s with handle := s.handle.setProtocolState state }
  | .linked => .ok { s with handle := s.handle.onLinkCreated }
  | .unlinked => .ok { s with handle := s.handle.unlink }

/-- No thread has anything to do with this new connection. -/
def create (ip : AString) (id : UInt32) (now : Int) : SendThreads β :=
  ⟨.create ip id now, none, none, fun _ => .idle⟩

end SendThreads

/-- Any number of threads that use one connection, in every order in which they can go on. -/
def sendMachine (β : Type) [ByteQueue β] : Machine (SendThreads β) SendAct Halt where
  enabled s a := s.enabled a = true
  step s a := s.step a

namespace SendThreads

variable {β : Type}

/-- One thread is at this point, the others where they are. -/
def placed (points : Nat → SendPoint) (t : Nat) (point : SendPoint) (handle : ClientHandle β)
    (csPacket csOutgoingData : Option Nat) : SendThreads β :=
  ⟨handle, csPacket, csOutgoingData, Function.update points t point⟩

variable [ByteQueue β] {points : Nat → SendPoint} {t n : Nat} {point : SendPoint} {c : ClientHandle β}
  {csPacket csOutgoingData : Option Nat}

/-- The thread goes on so often, with no lock in its way. -/
def goes (t n : Nat) (s : SendThreads β) : Option (SendThreads β) :=
  (sendMachine β).replay (fun s a => s.enabled a) (List.replicate n (.go t)) s

theorem goes_succ {s s' : SendThreads β} (hen : s.enabled (.go t) = true) (hgo : s.go t = .ok s') :
    s.goes t (n + 1) = s'.goes t n := by
  have hstep : (sendMachine β).step s (.go t) = .ok s' := hgo
  simp [goes, List.replicate_succ, Machine.replay, hen, hstep]

theorem goes_fails {s : SendThreads β} {e : Halt} (hgo : s.go t = .error e) : s.goes t (n + 1) = none := by
  have hstep : (sendMachine β).step s (.go t) = .error e := hgo
  simp [goes, List.replicate_succ, Machine.replay, hstep]

/-- A step that does not wait. -/
theorem goes_placed {point' : SendPoint} {c' : ClientHandle β} {csPacket' csOutgoingData' : Option Nat}
    (hen : (placed points t point c csPacket csOutgoingData).enabled (.go t) = true)
    (hgo : (placed points t point c csPacket csOutgoingData).go t =
      .ok ((⟨c', csPacket', csOutgoingData', Function.update points t point⟩ : SendThreads β).moveTo t point')) :
    goes t (n + 1) (placed points t point c csPacket csOutgoingData) =
      goes t n (placed points t point' c' csPacket' csOutgoingData') := by
  have hplaced : (⟨c', csPacket', csOutgoingData', Function.update points t point⟩ : SendThreads β).moveTo t
      point' = placed points t point' c' csPacket' csOutgoingData' := by
    simp [moveTo, placed]
  rw [hplaced] at hgo
  exact goes_succ hen hgo

/-- The writes of the fields, one step each. -/
theorem goes_fields {p : Packet} {todo : List Field} {dc : Bool} :
    goes t (todo.length + n) (placed points t (.writeField p todo dc) c csPacket csOutgoingData) =
      (writeFields todo c.protocol.outPacketBuffer).toOption.bind fun out =>
        goes t n (placed points t (.writeField p [] dc) (c.setOut out) csPacket csOutgoingData) := by
  induction todo generalizing c with
  | nil =>
    rw [List.length_nil, Nat.zero_add]
    rfl
  | cons field todo ih =>
    have hlen : (field :: todo).length + n = todo.length + n + 1 := by
      rw [List.length_cons]
      omega
    rw [hlen, writeFields]
    rcases hwrite : field.write c.protocol.outPacketBuffer with ⟨_ | _, out⟩
    · rw [goes_fails (e := .verify) (by simp [go, placed, hwrite])]
      rfl
    · have hgo : (placed points t (.writeField p (field :: todo) dc) c csPacket csOutgoingData).go t =
          .ok ((⟨c.setOut out, csPacket, csOutgoingData,
            Function.update points t (.writeField p (field :: todo) dc)⟩ : SendThreads β).moveTo t
              (.writeField p todo dc)) := by
        simp [go, placed, hwrite]
      rw [goes_placed (by simp [enabled, placed]) hgo, ih]
      rfl

/-- `SendPacket` up to its call of `SendData`. -/
theorem goes_taken {p : Packet} {dc : Bool} :
    goes t (n + 5) (placed points t (.writeField p [] dc) c csPacket csOutgoingData) =
      let packetLen := UInt32.ofNat (getUsedSpace c.protocol.outPacketBuffer)
      let (lenToSend, len) := readAll (writeVarInt32 packetLen c.protocol.outPacketLenBuffer).2
      let (dataToSend, out) := readAll c.protocol.outPacketBuffer
      goes t n (placed points t (.sendData p (lenToSend ++ dataToSend) dc)
        ((c.setLen (commitRead len)).setOut out) csPacket csOutgoingData) := by
  rw [goes_placed (by simp [enabled, placed]) (by simp only [go, placed, Function.update_self]; rfl)]
  rw [goes_placed (by simp [enabled, placed]) (by simp only [go, placed, Function.update_self]; rfl)]
  rw [goes_placed (by simp [enabled, placed]) (by simp only [go, placed, Function.update_self]; rfl)]
  rw [goes_placed (by simp [enabled, placed]) (by simp only [go, placed, Function.update_self]; rfl)]
  rw [goes_placed (by simp [enabled, placed]) (by simp only [go, placed, Function.update_self]; rfl)]
  rfl

/-- What is left when all fields are written. -/
theorem goes_composed {p : Packet} {dc : Bool} :
    ∃ n, goes t n (placed points t (.writeField p [] dc) c (some t) none) = some (
      let (data, out, len) := takePacket c.protocol.outPacketBuffer c.protocol.outPacketLenBuffer
      let c := (c.setLen len).setOut out
      let c := if c.hasSentDC then c else c.record (.queued c.protocol.state p)
      placed points t (if dc then .storeDC else .idle) (c.sendData data) none none) := by
  by_cases hdc : c.hasSentDC = true
  · refine ⟨3 + 5, ?_⟩
    have hsent : ∀ len out, ((c.setLen len).setOut out).hasSentDC = true := fun _ _ => hdc
    rw [goes_taken]
    dsimp only
    rw [goes_placed (by simp [enabled, placed]) (by
      simp only [go, placed, Function.update_self, hsent, if_true]; rfl)]
    rw [goes_placed (by simp [enabled, placed]) (by simp only [go, placed, Function.update_self]; rfl)]
    rw [goes_placed (by simp [enabled, placed]) (by simp only [go, placed, Function.update_self]; rfl)]
    simp only [takePacket, hsent, if_true, ClientHandle.sendData]
    rfl
  · refine ⟨7 + 5, ?_⟩
    have hdc : c.hasSentDC = false := by simpa using hdc
    have hsent : ∀ len out, ((c.setLen len).setOut out).hasSentDC = false := fun _ _ => hdc
    rw [goes_taken]
    dsimp only
    rw [goes_placed (by simp [enabled, placed]) (by
      simp only [go, placed, Function.update_self, hsent, Bool.false_eq_true, if_false]; rfl)]
    rw [goes_placed (by simp [enabled, placed]) (by simp only [go, placed, Function.update_self]; rfl)]
    rw [goes_placed (by simp [enabled, placed]) (by simp only [go, placed, Function.update_self]; rfl)]
    rw [goes_placed (by simp [enabled, placed]) (by simp only [go, placed, Function.update_self]; rfl)]
    rw [goes_placed (by simp [enabled, placed]) (by simp only [go, placed, Function.update_self]; rfl)]
    rw [goes_placed (by simp [enabled, placed]) (by simp only [go, placed, Function.update_self]; rfl)]
    rw [goes_placed (by simp [enabled, placed]) (by simp only [go, placed, Function.update_self]; rfl)]
    simp only [takePacket, hsent, Bool.false_eq_true, if_false, ClientHandle.sendData, ClientHandle.record]
    rfl

/-- A thread that has the connection to itself comes to what `ClientHandle.packet` says. -/
theorem goes_packet {p : Packet} {dc : Bool} :
    ∃ n, goes t n (placed points t (.lockPacket p dc) c none none) = (c.packet p).toOption.map fun c' =>
      placed points t (if dc then .storeDC else .idle) c' none none := by
  obtain ⟨n, hn⟩ : ∃ n, ∀ out, writeFields p.fields (writeVarInt32 p.type c.protocol.outPacketBuffer).2 = .ok out →
      goes t n (placed points t (.writeField p [] dc) (c.setOut out) (some t) none) = some (
        let (data, out, len) := takePacket out c.protocol.outPacketLenBuffer
        let c := (c.setLen len).setOut out
        let c := if c.hasSentDC then c else c.record (.queued c.protocol.state p)
        placed points t (if dc then .storeDC else .idle) (c.sendData data) none none) := by
    rcases hfields : writeFields p.fields (writeVarInt32 p.type c.protocol.outPacketBuffer).2 with e | out
    · exact ⟨0, fun out h => by cases h⟩
    · obtain ⟨n, hn⟩ := @goes_composed _ _ points t (c.setOut out) p dc
      refine ⟨n, fun out' h => ?_⟩
      cases h
      exact hn
  refine ⟨p.fields.length + n + 1 + 1, ?_⟩
  rw [goes_placed (by simp [enabled, placed]) (by simp only [go, placed, Function.update_self]; rfl)]
  rw [goes_placed (by simp [enabled, placed]) (by simp only [go, placed, Function.update_self]; rfl)]
  rw [goes_fields]
  unfold ClientHandle.packet packetize
  have hout : (c.setOut (writeVarInt32 p.type c.protocol.outPacketBuffer).2).protocol.outPacketBuffer =
      (writeVarInt32 p.type c.protocol.outPacketBuffer).2 := rfl
  rw [hout]
  rcases hfields : writeFields p.fields (writeVarInt32 p.type c.protocol.outPacketBuffer).2 with e | out
  · rfl
  · exact hn out hfields

end SendThreads

end P2PChat

import P2PChat.Broadcast
import P2PChat.EndpointRules

namespace P2PChat

open ByteQueue

section Parsers

variable [Platform]

def parseStatusRequest : Parser (AString × AString × Int32 × Int32) :=
  parseString.andThen fun appName => parseString.andThen fun server =>
    parseBEInt32.andThen fun port => parseBEInt32.andThen fun state =>
      .ret (appName, server, port, state)

def parseLoginInfo : Parser (AString × AString) :=
  parseString.andThen fun username => parseString.andThen fun password => .ret (username, password)

theorem readStatusRequest_reads : Reads Server.readStatusRequest parseStatusRequest :=
  readVarUTF8String_reads.andThen fun _ => readVarUTF8String_reads.andThen fun _ =>
    readBEInt32_reads.andThen fun _ => readBEInt32_reads.andThen fun _ => Reads.ret _

theorem readLoginInfo_reads : Reads Server.readLoginInfo parseLoginInfo :=
  readVarUTF8String_reads.andThen fun _ => readVarUTF8String_reads.andThen fun _ => Reads.ret _

theorem parseLoginInfo_le {u : AString} {login : AString × AString}
    (h : (parseLoginInfo u).1 = some login) : login.1.length + login.2.length ≤ u.length := by
  rcases hp : parseLoginInfo u with ⟨found, n⟩
  rw [hp] at h
  change found = some login at h
  subst h
  obtain ⟨username, m, l, hname, hrest, _⟩ := Parser.andThen_some hp
  obtain ⟨password, m', l', hword, hret, _⟩ := Parser.andThen_some hrest
  have hlogin := (Prod.mk.inj hret).1
  cases hlogin
  have h1 := parseString_le hname
  have h2 := parseString_le hword
  rw [List.length_drop] at h2
  dsimp only
  omega

end Parsers

namespace Server

/-- The packet types that the `switch` of `HandlePacket` has in this state. -/
def knows (state type : UInt32) : Bool :=
  if state = 1 then type == 0x00 || type == 0x01
  else if state = 2 then type == 0x00
  else if state = 3 then type == 0x00 || type == 0x11 || type == 0x12
  else false

variable {β : Type} [Platform]

/-- The recipient and the packet of the relay that a packet of this connection asks for. -/
def relay (p : Nat) (type : UInt32) (bytes : AString) (s : Server β) : Option (Nat × Packet) :=
  if (s.heap p).protocol.state = 3 then
    if type = 0x11 then
      (parseMedia bytes).1.bind fun media =>
        (s.findClient media.1).map fun q => (q, mediaPacket (s.heap p).uniqueID media.2)
    else if type = 0x12 then
      (parseMediaMsg bytes).1.bind fun media =>
        (s.findClient media.1).map fun q => (q, mediaMsgPacket (s.heap p).uniqueID media.2)
    else none
  else none

variable [ByteQueue β]

/-- What a tick of `p` processes: what was left, and what has come in. -/
def inbound (p : Nat) (s : Server β) : AString :=
  (readAll (s.heap p).protocol.receivedData).1 ++ (s.heap p).incomingData

/-- The packets that a tick of `p` hands to `HandlePacket`, as long as `m_State` does not change. -/
def arriving (p : Nat) (s : Server β) : List (UInt32 × AString) :=
  if (s.heap p).isDestroyed = false ∧ (s.heap p).incomingData ≠ [] ∧ (s.inbound p).length ≤ 65536 then
    packets (knows (s.heap p).protocol.state) (s.inbound p)
  else []

/-- The relays that a tick of `p` comes to. -/
def relays (p : Nat) (s : Server β) : List (Nat × Packet) :=
  (s.arriving p).filterMap fun packet => s.relay p packet.1 packet.2

/-- One of these relays is of a packet that `m_OutPacketBuffer` cannot hold. -/
def overlong (relays : List (Nat × Packet)) : Bool := relays.any fun x => 65536 < x.2.body.length

end Server

end P2PChat

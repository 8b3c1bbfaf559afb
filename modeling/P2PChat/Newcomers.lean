import P2PChat.PendingLogins
import P2PChat.TickRules
import P2PChat.StreamRules

namespace P2PChat

open ByteQueue Relation

section Packets

variable [Platform]

/-- Client and server read what the other wrote. -/
theorem parseLoginInfo_fields {username password : AString} (hname : username.length < 2 ^ 32)
    (hword : password.length < 2 ^ 32) :
    parseLoginInfo ((loginInfoPacket username password).fieldBytes ++ [0]) =
      (some (username, password), (loginInfoPacket username password).fieldBytes.length) := by
  have hbytes : (loginInfoPacket username password).fieldBytes ++ [0] =
      varInt (UInt32.ofNat username.length) ++ username ++
        (varInt (UInt32.ofNat password.length) ++ password ++ [0]) := by
    simp [loginInfoPacket, Packet.fieldBytes, Field.bytes]
  have hlength : (loginInfoPacket username password).fieldBytes.length =
      (varInt (UInt32.ofNat username.length) ++ username).length +
        (varInt (UInt32.ofNat password.length) ++ password).length := by
    simp [loginInfoPacket, Packet.fieldBytes, Field.bytes]
    omega
  rw [hbytes, hlength, parseLoginInfo, Parser.andThen, parseString_string hname]
  dsimp only
  rw [List.drop_left, Parser.andThen, parseString_string hword]
  rfl

omit [Platform] in
theorem parseBEInt32_bytes (v : Int32) (rest : AString) :
    parseBEInt32 (bigEndianBytes 4 v.toUInt32.toNat ++ rest) = (some v, 4) := by
  have hlt : v.toUInt32.toNat < 256 ^ 4 := v.toUInt32.toNat_lt
  rw [parseBEInt32, Parser.map, parseBE_bigEndianBytes hlt, Option.map_some, UInt32.ofNat_toNat]
  rfl

theorem parseStatusRequest_fields {appName server : AString} (happ : appName.length < 2 ^ 32)
    (hserver : server.length < 2 ^ 32) (port state : Int32) :
    parseStatusRequest ((statusRequestPacket appName server port state).fieldBytes ++ [0]) =
      (some (appName, server, port, state),
        (statusRequestPacket appName server port state).fieldBytes.length) := by
  have hbytes : (statusRequestPacket appName server port state).fieldBytes ++ [0] =
      varInt (UInt32.ofNat appName.length) ++ appName ++
        (varInt (UInt32.ofNat server.length) ++ server ++
          (bigEndianBytes 4 port.toUInt32.toNat ++ (bigEndianBytes 4 state.toUInt32.toNat ++ [0]))) := by
    simp [statusRequestPacket, Packet.fieldBytes, Field.bytes]
  have hlength : (statusRequestPacket appName server port state).fieldBytes.length =
      (varInt (UInt32.ofNat appName.length) ++ appName).length +
        ((varInt (UInt32.ofNat server.length) ++ server).length + (4 + 4)) := by
    simp [statusRequestPacket, Packet.fieldBytes, Field.bytes, bigEndianBytes_length]
    omega
  have hport : (bigEndianBytes 4 port.toUInt32.toNat ++ (bigEndianBytes 4 state.toUInt32.toNat ++ [0])).drop 4 =
      bigEndianBytes 4 state.toUInt32.toNat ++ [0] := List.drop_left' (bigEndianBytes_length 4 _)
  rw [hbytes, hlength, parseStatusRequest, Parser.andThen, parseString_string happ]
  dsimp only
  rw [List.drop_left, Parser.andThen, parseString_string hserver]
  dsimp only
  rw [List.drop_left, Parser.andThen, parseBEInt32_bytes]
  dsimp only
  rw [hport, Parser.andThen, parseBEInt32_bytes]
  rfl

end Packets

namespace ClientHandle

/-- A tick does little with a connection that is not logged in and was heard of. -/
theorem rested_early {c : ClientHandle Fifo} (hstate : c.state ≠ .csAuthenticated) (hworking : c.state ≠ .csWorking)
    (hticks : c.ticksSinceLastPacket < 600) (now : Int) : c.rested now = c.flush.countTick := by
  have hstart : c.flush.startWorking = c.flush := if_neg hstate
  have hpinged : c.flush.pinged now = c.flush := if_neg fun h => hworking h.1
  have hlate : ¬600 < c.flush.countTick.ticksSinceLastPacket := by
    have hcount : c.flush.countTick.ticksSinceLastPacket = c.ticksSinceLastPacket + 1 := rfl
    omega
  rw [rested, hstart, hpinged, timedOut, if_neg hlate]

end ClientHandle

namespace Server

section Ticks

variable [Platform] {s : Server Fifo} {p : Nat} {q : UInt32 × AString} {before after : Server Fifo → Prop}

/-- A tick that finds one frame takes it, and nothing is left. -/
theorem tickClient_frame (hs : s.Sound) (hnot : (s.heap p).isDestroyed = false)
    (hstate : (s.heap p).protocol.state ≠ 3) (hknown : knows (s.heap p).protocol.state q.1 = true)
    (hrec : (s.heap p).protocol.receivedData = Fifo.filled 65536 [])
    (hin : (s.heap p).incomingData = frame (rawPacket q).body)
    (hsize : (frame (rawPacket q).body).length ≤ 65536)
    (hset : ∀ t b, before t → before (t.modify p (ClientHandle.setReceived b)))
    (hset' : ∀ t b, after t → after (t.modify p (ClientHandle.setReceived b)))
    (hbefore : ∀ t, before t → (t.heap p).protocol.state = (s.heap p).protocol.state)
    (hframe : ∀ t, before t → after (t.treated p q.1 (q.2 ++ [0])))
    (hstart : before (s.modify p ClientHandle.takeIncoming)) :
    ∃ t, s.tickClient p = .ok (t.modify p (ClientHandle.rested t.now)) ∧ after t ∧
      (t.heap p).protocol.receivedData = Fifo.filled 65536 [] := by
  have hlive := live_of_not (hs.connections p) (Bool.eq_false_iff.mp hnot)
  have htake := takeIncoming_small (G := Gate.open) p s
  have hsound := htake.sound hs
  have hlive' := htake.framed.live.mpr hlive
  have hrule : (endpoint p).StreamRule 65536 [q] (fun done t =>
      ReflTransGen (Small Gate.open p) (s.modify p ClientHandle.takeIncoming) t ∧
        (done = [] ∧ before t ∨ done = [q] ∧ after t)) False (fun _ => False) := by
    refine ⟨fun b t => ?_, fun done v t hv h => ?_, fun done q' rest bb t htodo h hbb hlen => ?_⟩
    · change ((t.modify p (ClientHandle.setReceived b)).heap p).protocol.receivedData = b
      rw [modify_heap, if_pos rfl]
      rfl
    · refine ⟨h.1.tail (setReceived_small hv t), ?_⟩
      exact h.2.imp (fun h => ⟨h.1, hset t _ h.2⟩) (fun h => ⟨h.1, hset' t _ h.2⟩)
    · rcases h.2 with ⟨hdone, hb⟩ | ⟨hdone, _⟩
      · rw [hdone] at htodo
        obtain ⟨rfl, rfl⟩ := List.cons.inj htodo
        have hstate' := hbefore t hb
        have hrelay : ∀ x, t.relay p q.1 bb.unread = some x → x.2.body.length ≤ 65536 := by
          intro x hx
          rw [relay, if_neg (by rw [hstate']; exact hstate)] at hx
          cases hx
        obtain ⟨hok, hsmall, hreceived⟩ := handleFrame_eq (sound_of_small hsound h.1)
          ((framed_of_small h.1).live.mpr hlive') hlen hrelay
        refine Or.inr ⟨_, _, hok, hreceived, ⟨h.1.trans hsmall, Or.inr ⟨?_, ?_⟩⟩, fun hno => ?_⟩
        · rw [hdone]
          rfl
        · rw [hbb]
          exact hframe t hb
        · rw [hstate', hknown] at hno
          cases hno
      · rw [hdone] at htodo
        cases htodo
  have hbody : ∀ q' ∈ [q], (rawPacket q').body.length < 2 ^ 32 := by
    intro q' hq'
    rw [List.mem_singleton.mp hq']
    rw [frame, List.length_append] at hsize
    omega
  have hself : (s.modify p ClientHandle.takeIncoming).heap p = (s.heap p).takeIncoming := if_pos rfl
  have hrec' : (endpoint p).received (s.modify p ClientHandle.takeIncoming) = Fifo.filled 65536 [] := by
    change ((s.modify p ClientHandle.takeIncoming).heap p).protocol.receivedData = _
    rw [hself]
    exact hrec
  have hstream : stream [q] = frame (rawPacket q).body := by
    rw [stream_cons]
    exact List.append_nil _
  have hfit : (([] : AString) ++ frame (rawPacket q).body).length ≤ 65536 := hsize
  have hgoes : ([] : AString) ++ frame (rawPacket q).body <+: stream [q] := by
    rw [hstream]
    exact List.prefix_refl _
  have htaken := hrule.addReceivedData (by omega) hbody (Nat.zero_le _) hrec' hfit hgoes
    ⟨.refl, Or.inl ⟨rfl, hstart⟩⟩
  rcases hadd : (endpoint p).addReceivedData (frame (rawPacket q).body)
    (s.modify p ClientHandle.takeIncoming) with e | t
  · rw [hadd] at htaken
    exact htaken.elim
  · rw [hadd] at htaken
    obtain ⟨done, rest, v, _, hbytes, _, hreceived, ⟨_, hdone⟩, hleft⟩ := htaken
    have ht : s.tickReceived p = .ok t := by
      have hpos := frame_length_pos (rawPacket q).body
      rw [tickReceived, if_pos (by rw [hin]; exact List.ne_nil_of_length_pos hpos), hin]
      exact hadd
    obtain ⟨_, htick⟩ := tickClient_eq hs hnot ht
    rcases hdone with ⟨hnil, _⟩ | ⟨hone, hafter⟩
    · rw [hnil, List.nil_append] at hbytes
      have hv : frame (rawPacket q).body = v := hbytes
      have hnext := nextFrame_frame (hbody q (List.mem_singleton.mpr rfl)) []
      rw [List.append_nil, hv, hleft.resolve_left id] at hnext
      cases hnext
    · have hv : v = [] := by
        rw [hone, hstream, List.nil_append] at hbytes
        exact List.self_eq_append_right.mp hbytes
      rw [hv] at hreceived
      exact ⟨t, htick, hafter, hreceived⟩

end Ticks

/-- The connection at `p` is on its way in: in this state of the protocol, so many ticks after it was heard of
last, and with these requests waiting. -/
structure Joining (p : Nat) (state : UInt32) (ticks : Nat) (requests : List User) (s : Server Fifo) : Prop where
  allocated : p < s.allocated
  connected : (s.heap p).state = .csConnected
  protocol : (s.heap p).protocol.state = state
  hasSentDC : (s.heap p).hasSentDC = false
  username : (s.heap p).username = []
  incoming : (s.heap p).incomingData = []
  ticks : (s.heap p).ticksSinceLastPacket = ticks
  link : (s.heap p).link = true
  pending : s.pending = requests

/-- It has asked to be logged in. -/
structure Asking (p ticks : Nat) (requests : List User) (name password : AString) (s : Server Fifo) : Prop where
  allocated : p < s.allocated
  waits : (s.heap p).Waits
  username : (s.heap p).username = []
  protocol : (s.heap p).protocol.state = 2
  ticks : (s.heap p).ticksSinceLastPacket = ticks
  pending : s.pending = requests ++ [⟨(s.heap p).uniqueID, name, password⟩]

variable {s t : Server Fifo} {p : Nat} {state : UInt32} {ticks : Nat} {requests : List User} {name password : AString}

theorem Joining.modify (h : Joining p state ticks requests s) {g : ClientHandle Fifo → ClientHandle Fifo}
    (hconnected : (g (s.heap p)).state = (s.heap p).state)
    (hprotocol : (g (s.heap p)).protocol.state = (s.heap p).protocol.state)
    (hdc : (g (s.heap p)).hasSentDC = (s.heap p).hasSentDC)
    (hname : (g (s.heap p)).username = (s.heap p).username)
    (hincoming : (g (s.heap p)).incomingData = (s.heap p).incomingData)
    (hticks : (g (s.heap p)).ticksSinceLastPacket = (s.heap p).ticksSinceLastPacket)
    (hlink : (g (s.heap p)).link = (s.heap p).link) : Joining p state ticks requests (s.modify p g) := by
  have hself : (s.modify p g).heap p = g (s.heap p) := if_pos rfl
  refine ⟨h.allocated, ?_, ?_, ?_, ?_, ?_, ?_, ?_, h.pending⟩
  · rw [hself, hconnected, h.connected]
  · rw [hself, hprotocol, h.protocol]
  · rw [hself, hdc, h.hasSentDC]
  · rw [hself, hname, h.username]
  · rw [hself, hincoming, h.incoming]
  · rw [hself, hticks, h.ticks]
  · rw [hself, hlink, h.link]

theorem Joining.setReceived (h : Joining p state ticks requests s) (b : Fifo) :
    Joining p state ticks requests (s.modify p (ClientHandle.setReceived b)) := h.modify rfl rfl rfl rfl rfl rfl rfl

theorem Asking.setReceived (h : Asking p ticks requests name password s) (b : Fifo) :
    Asking p ticks requests name password (s.modify p (ClientHandle.setReceived b)) := by
  have hself : (s.modify p (ClientHandle.setReceived b)).heap p = (s.heap p).setReceived b := if_pos rfl
  refine ⟨h.allocated, ?_, ?_, ?_, ?_, ?_⟩
  · rw [hself]
    exact h.waits
  · rw [hself]
    exact h.username
  · rw [hself]
    exact h.protocol
  · rw [hself]
    exact h.ticks
  · rw [hself]
    exact h.pending

variable [Platform]

omit [Platform] in
theorem handled_joining (h : Joining p state ticks requests s) (type : UInt32) (bytes : AString) :
    Joining p state ticks requests (s.handled p type bytes) := h.modify rfl rfl rfl rfl rfl rfl rfl

/-- The status request takes it to the second state. -/
theorem Joining.greeted (h : Joining p 1 0 requests s) {server : AString} (hserver : server.length < 2 ^ 32)
    (port : Int32) : Joining p 2 0 requests
      (s.treated p 0x00 ((statusRequestPacket appP2pchat server port 2).fieldBytes ++ [0])) := by
  have hparse := parseStatusRequest_fields (by decide : appP2pchat.length < 2 ^ 32) hserver port 2
  have hhandled := handled_joining h 0x00 ((statusRequestPacket appP2pchat server port 2).fieldBytes ++ [0])
  have hreads : reads (s.heap p).protocol.state 0x00
      ((statusRequestPacket appP2pchat server port 2).fieldBytes ++ [0]) =
        (true, (statusRequestPacket appP2pchat server port 2).fieldBytes.length) := by
    rw [h.protocol, reads, if_pos rfl, if_pos rfl, Parser.outcome, hparse]
    rfl
  have hexact : (reads (s.heap p).protocol.state 0x00
      ((statusRequestPacket appP2pchat server port 2).fieldBytes ++ [0])).2 + 1 =
        ((statusRequestPacket appP2pchat server port 2).fieldBytes ++ [0]).length := by
    rw [hreads, List.length_append, List.length_singleton]
  rw [treated, if_neg fun hno => hno.2 hexact, reacted, if_pos hhandled.protocol, if_pos rfl, hparse,
    Option.elim_some]
  have haccepts : accepts (appP2pchat, server, port, 2) := ⟨rfl, Or.inr rfl⟩
  have hself : ∀ (t : Server Fifo), (t.modify p (answered (appP2pchat, server, port, 2))).heap p =
      answered (appP2pchat, server, port, 2) (t.heap p) := fun _ => if_pos rfl
  refine ⟨hhandled.allocated, ?_, ?_, ?_, ?_, ?_, ?_, ?_, hhandled.pending⟩ <;>
    rw [hself, answered, if_pos haccepts, ClientHandle.queue_eq]
  · exact hhandled.connected
  · rfl
  · exact hhandled.hasSentDC
  · exact hhandled.username
  · exact hhandled.incoming
  · exact hhandled.ticks
  · exact hhandled.link

/-- The next packet asks for the login. -/
theorem Joining.asked (h : Joining p 2 0 requests s) (hname : name.length < 2 ^ 32)
    (hword : password.length < 2 ^ 32) : Asking p 0 requests name password
      (s.treated p 0x00 ((loginInfoPacket name password).fieldBytes ++ [0])) := by
  have hparse := parseLoginInfo_fields hname hword
  have hhandled := handled_joining h 0x00 ((loginInfoPacket name password).fieldBytes ++ [0])
  have hone : (2 : UInt32) ≠ 1 := by decide
  have hreads : reads (s.heap p).protocol.state 0x00 ((loginInfoPacket name password).fieldBytes ++ [0]) =
      (true, (loginInfoPacket name password).fieldBytes.length) := by
    rw [h.protocol, reads, if_neg hone, if_pos rfl, if_pos rfl, Parser.outcome, hparse]
    rfl
  have hexact : (reads (s.heap p).protocol.state 0x00
      ((loginInfoPacket name password).fieldBytes ++ [0])).2 + 1 =
        ((loginInfoPacket name password).fieldBytes ++ [0]).length := by
    rw [hreads, List.length_append, List.length_singleton]
  rw [treated, if_neg fun hno => hno.2 hexact, reacted, hhandled.protocol, if_neg hone, if_pos rfl, if_pos rfl,
    hparse, Option.elim_some]
  have hself : ((s.handled p 0x00 ((loginInfoPacket name password).fieldBytes ++ [0])).handleLogin p name
      password).heap p = ((s.handled p 0x00 ((loginInfoPacket name password).fieldBytes ++ [0])).heap
        p).setState .csAuthenticating := if_pos rfl
  refine ⟨hhandled.allocated, ?_, ?_, ?_, ?_, ?_⟩
  · rw [hself]
    exact ⟨rfl, hhandled.hasSentDC⟩
  · rw [hself]
    exact hhandled.username
  · rw [hself]
    exact hhandled.protocol
  · rw [hself]
    exact hhandled.ticks
  · rw [hself, ← hhandled.pending]
    exact (List.append_assoc _ _ _).symm

/-- One packet comes in, and is handled at the next tick. -/
def brings (p : Nat) (pkt : Packet) : List Event := [.receivedData p (frame pkt.body), .tickClient p]

/-- What has to be known of the packet is what comes of handling it. -/
theorem Joining.brings {after : Server Fifo → Prop} {pkt : Packet} (hs : s.Attended)
    (h : Joining p state ticks requests s) (hrec : (s.heap p).protocol.receivedData = Fifo.filled 65536 [])
    (hstate : state ≠ 3) (hknown : knows state pkt.type = true) (hsize : (frame pkt.body).length ≤ 65536)
    (hset : ∀ t b, after t → after (t.modify p (ClientHandle.setReceived b)))
    (hframe : ∀ t, Joining p state 0 requests t → after (t.treated p pkt.type (pkt.fieldBytes ++ [0]))) :
    ∃ t, after t ∧ (t.heap p).protocol.receivedData = Fifo.filled 65536 [] ∧
      (serverMachine Fifo).Along (serverMachine Fifo).enabled (Server.brings p pkt) s ∧
      (serverMachine Fifo).run (Server.brings p pkt) s = .ok (t.modify p (ClientHandle.rested t.now)) ∧
      (t.modify p (ClientHandle.rested t.now)).Attended := by
  have hself : (s.receivedData p (frame pkt.body)).heap p = (s.heap p).receive (frame pkt.body) := if_pos rfl
  have he : s.enabled (.receivedData p (frame pkt.body)) = true := by
    rw [enabled, h.link, decide_eq_true h.allocated]
    rfl
  have hstep : s.step (.receivedData p (frame pkt.body)) = .ok (s.receivedData p (frame pkt.body)) := rfl
  have hs₁ := hs.step he hstep
  have hmem : p ∈ s.clients := by
    refine hs.registered p h.allocated fun hdead => ?_
    rw [h.connected] at hdead
    cases hdead
  have he₁ : (s.receivedData p (frame pkt.body)).enabled (.tickClient p) = true := by
    have hclients : (s.receivedData p (frame pkt.body)).clients = s.clients := rfl
    rw [enabled, hclients]
    exact List.contains_iff_mem.mpr hmem
  have hjoining : Joining p state 0 requests
      ((s.receivedData p (frame pkt.body)).modify p ClientHandle.takeIncoming) := by
    have htaken : ((s.receivedData p (frame pkt.body)).modify p ClientHandle.takeIncoming).heap p =
        ((s.heap p).receive (frame pkt.body)).takeIncoming := by
      rw [modify_heap, if_pos rfl, hself]
    refine ⟨h.allocated, ?_, ?_, ?_, ?_, ?_, ?_, ?_, h.pending⟩ <;> rw [htaken]
    · exact h.connected
    · exact h.protocol
    · exact h.hasSentDC
    · exact h.username
    · rfl
    · rfl
    · exact h.link
  have hbody : (rawPacket (pkt.type, pkt.fieldBytes)).body = pkt.body := rawPacket_body _
  have hnot : ((s.receivedData p (frame pkt.body)).heap p).isDestroyed = false := by
    rw [hself, ClientHandle.isDestroyed, beq_eq_false_iff_ne]
    intro hdead
    rw [ClientHandle.receive, h.connected] at hdead
    cases hdead
  have hprotocol : ((s.receivedData p (frame pkt.body)).heap p).protocol.state = state := by
    rw [hself]
    exact h.protocol
  have hincoming : ((s.receivedData p (frame pkt.body)).heap p).incomingData =
      frame (rawPacket (pkt.type, pkt.fieldBytes)).body := by
    rw [hself, hbody]
    change (s.heap p).incomingData ++ frame pkt.body = _
    rw [h.incoming]
    rfl
  obtain ⟨t, htick, hafter, hreceived⟩ := tickClient_frame hs₁.sound hnot (by rw [hprotocol]; exact hstate)
    (by rw [hprotocol]; exact hknown) (by rw [hself]; exact hrec) hincoming (by rw [hbody]; exact hsize)
    (fun _ b ht => ht.setReceived b) hset (fun _ ht => ht.protocol.trans hprotocol.symm) hframe hjoining
  have hstep' : (serverMachine Fifo).step s (.receivedData p (frame pkt.body)) =
      .ok (s.receivedData p (frame pkt.body)) := rfl
  have htick' : (serverMachine Fifo).step (s.receivedData p (frame pkt.body)) (.tickClient p) =
      .ok (t.modify p (ClientHandle.rested t.now)) := htick
  refine ⟨t, hafter, hreceived, ?_, ?_, hs₁.step he₁ htick⟩
  · exact Machine.along_next he hstep' (Machine.along_next he₁ htick' trivial)
  · rw [Server.brings, Machine.run_next hstep', Machine.run_next htick']
    rfl

/-- The two packets of a client that connects. -/
def signsIn (p : Nat) (server : AString) (port : Int32) (name password : AString) : List Event :=
  brings p (statusRequestPacket appP2pchat server port 2) ++ brings p (loginInfoPacket name password)

omit [Platform] in
theorem accept_joining (ip : AString) (s : Server Fifo) :
    Joining s.allocated 1 0 s.pending (s.accept ip) ∧
      ((s.accept ip).heap s.allocated).protocol.receivedData = Fifo.filled 65536 [] := by
  have hself : (s.accept ip).heap s.allocated =
      (ClientHandle.create ip (UInt32.ofNat (s.clientCount + 1)) s.now).onLinkCreated := if_pos rfl
  refine ⟨⟨Nat.lt_succ_self _, ?_, ?_, ?_, ?_, ?_, ?_, ?_, rfl⟩, ?_⟩ <;> rw [hself] <;> rfl

omit [Platform] in
theorem Joining.rested (h : Joining p state 0 requests s) (now : Int) :
    Joining p state 1 requests (s.modify p (ClientHandle.rested now)) := by
  have hself : (s.modify p (ClientHandle.rested now)).heap p = (s.heap p).flush.countTick := by
    rw [modify_heap, if_pos rfl]
    exact ClientHandle.rested_early (by rw [h.connected]; decide) (by rw [h.connected]; decide)
      (by rw [h.ticks]; decide) now
  refine ⟨h.allocated, ?_, ?_, ?_, ?_, ?_, ?_, ?_, h.pending⟩ <;> rw [hself]
  · exact h.connected
  · exact h.protocol
  · exact h.hasSentDC
  · exact h.username
  · exact h.incoming
  · exact congrArg (· + 1) h.ticks
  · exact h.link

omit [Platform] in
theorem Asking.rested (h : Asking p 0 requests name password s) (now : Int) :
    Asking p 1 requests name password (s.modify p (ClientHandle.rested now)) := by
  have hself : (s.modify p (ClientHandle.rested now)).heap p = (s.heap p).flush.countTick := by
    rw [modify_heap, if_pos rfl]
    exact ClientHandle.rested_early (by rw [h.waits.1]; decide) (by rw [h.waits.1]; decide)
      (by rw [h.ticks]; decide) now
  refine ⟨h.allocated, ?_, ?_, ?_, ?_, ?_⟩ <;> rw [hself]
  · exact h.waits
  · exact h.username
  · exact h.protocol
  · exact congrArg (· + 1) h.ticks
  · exact h.pending

/-- Whoever connects and sends its two packets waits behind the requests that there were. -/
theorem signsIn_asks (hs : s.Attended) (hcount : s.clientCount < 2 ^ 31 - 1) {ip server : AString}
    (hip : ip.length < 128) {port : Int32}
    (hstatus : (frame (statusRequestPacket appP2pchat server port 2).body).length ≤ 65536)
    (hlogin : (frame (loginInfoPacket name password).body).length ≤ 65536) :
    ∃ u, (serverMachine Fifo).Along (serverMachine Fifo).enabled
        (.connectionAccepted ip :: signsIn s.allocated server port name password) s ∧
      (serverMachine Fifo).run (.connectionAccepted ip :: signsIn s.allocated server port name password) s = .ok u ∧
      u.Attended ∧ Asking s.allocated 1 s.pending name password u := by
  have hserver : server.length < 2 ^ 32 := by
    simp [frame, Packet.body, statusRequestPacket, Packet.fieldBytes, Field.bytes] at hstatus
    omega
  have hlengths : name.length < 2 ^ 32 ∧ password.length < 2 ^ 32 := by
    simp [frame, Packet.body, loginInfoPacket, Packet.fieldBytes, Field.bytes] at hlogin
    omega
  have he : s.enabled (.connectionAccepted ip) = true := decide_eq_true hip
  have hstep : (serverMachine Fifo).step s (.connectionAccepted ip) = .ok (s.accept ip) :=
    if_neg (Nat.ne_of_lt hcount)
  obtain ⟨hjoining, hrec⟩ := accept_joining ip s
  have hknows : knows 1 (statusRequestPacket appP2pchat server port 2).type = true := rfl
  have hknows' : knows 2 (loginInfoPacket name password).type = true := rfl
  obtain ⟨t, ht, hrec', halong, hrun, hattended⟩ := hjoining.brings (hs.step he hstep) hrec (by decide) hknows
    hstatus (fun _ b ht => ht.setReceived b) fun _ ht => ht.greeted hserver port
  have hrested : ((t.modify s.allocated (ClientHandle.rested t.now)).heap s.allocated).protocol.receivedData =
      Fifo.filled 65536 [] := by
    rw [modify_heap, if_pos rfl, (ClientHandle.rested_keeps t.now _).received]
    exact hrec'
  obtain ⟨t', ht', _, halong', hrun', hattended'⟩ := (ht.rested t.now).brings hattended hrested (by decide) hknows'
    hlogin (fun _ b ht => ht.setReceived b) fun _ ht => ht.asked hlengths.1 hlengths.2
  refine ⟨_, ?_, ?_, hattended', ht'.rested t'.now⟩
  · exact Machine.along_next he hstep (Machine.along_append halong hrun halong')
  · rw [Machine.run_next hstep, signsIn, Machine.run_append hrun]
    exact hrun'

/-- The answer to another's request only tells a connection something. -/
theorem answered_other (hs : s.Attended) {user : User} (hin : s.inFlight = some user) (hp : p < s.allocated)
    (hother : user.clientID ≠ (s.heap p).uniqueID) :
    ∃ t told, (serverMachine Fifo).enabled s .authenticatorAnswer ∧
      (serverMachine Fifo).step s .authenticatorAnswer = .ok t ∧ t.Attended ∧ p < t.allocated ∧
      t.inFlight = none ∧ t.queue = s.queue ∧ t.heap p = (s.heap p).queueAll told := by
  have he : s.enabled .authenticatorAnswer = true := by
    rw [enabled, hin]
    rfl
  obtain ⟨_, t, _, hstep, hallocated, hnone, hqueue, _⟩ := answered_step hs he
  have hstepped := step_stepped hs.sound he (gated_open s .authenticatorAnswer)
  rw [hstep] at hstepped
  have hnot : ¬s.concerns .authenticatorAnswer p := by
    rintro ⟨user', hin', hid⟩
    rw [hin] at hin'
    cases hin'
    exact hother hid.symm
  obtain ⟨hp', told, htold, _⟩ := effects_others hstepped.2.2 hnot hp
  exact ⟨t, told, he, hstep, hs.step he hstep, hp', hnone, hqueue, htold⟩

omit [Platform] in
theorem queueAll_queueAll (told told' : List Packet) (c : ClientHandle Fifo) :
    (c.queueAll told).queueAll told' = c.queueAll (told ++ told') := List.foldl_append.symm

/-- The rounds of the authenticator's thread end with the answer to the last request; what comes before is not
about a connection that has only that one. -/
theorem rounds_last {request : User} (requests : List User) (hs : s.Attended)
    (hpending : s.pending = requests ++ [request]) (hp : p < s.allocated)
    (hother : ∀ user ∈ requests, user.clientID ≠ (s.heap p).uniqueID) :
    ∃ events v told, s.rounds = events ++ [.authenticatorAnswer] ∧
      (serverMachine Fifo).Along (serverMachine Fifo).enabled events s ∧
      (serverMachine Fifo).run events s = .ok v ∧ v.Attended ∧ p < v.allocated ∧
      v.inFlight = some request ∧ v.queue = [] ∧ v.heap p = (s.heap p).queueAll told := by
  have hanswering : ∀ (requests : List User) (s : Server Fifo) (first : User), s.Attended → p < s.allocated →
      s.inFlight = some first → first :: s.queue = requests ++ [request] →
      (∀ user ∈ requests, user.clientID ≠ (s.heap p).uniqueID) →
      ∃ events v told, s.rounds = events ++ [.authenticatorAnswer] ∧
        (serverMachine Fifo).Along (serverMachine Fifo).enabled events s ∧
        (serverMachine Fifo).run events s = .ok v ∧ v.Attended ∧ p < v.allocated ∧
        v.inFlight = some request ∧ v.queue = [] ∧ v.heap p = (s.heap p).queueAll told := by
    intro requests
    induction requests with
    | nil =>
      intro s first hs hp hin hqueue _
      obtain ⟨rfl, hnil⟩ := List.cons.inj hqueue
      refine ⟨[], s, [], ?_, trivial, rfl, hs, hp, hin, hnil, rfl⟩
      rw [rounds, hin, hnil]
      rfl
    | cons user requests ih =>
      intro s first hs hp hin hqueue hother
      obtain ⟨rfl, hrest⟩ := List.cons.inj hqueue
      obtain ⟨t, told, he, hstep, ht, hpt, hnone, hqueue', htold⟩ := answered_other hs hin hp
        (hother first List.mem_cons_self)
      obtain ⟨next, queue, hnext⟩ : ∃ next queue, t.queue = next :: queue := by
        rw [hqueue', hrest]
        exact List.exists_cons_of_ne_nil (by simp)
      obtain ⟨htake, htaken, hin', hqueue''⟩ := ht.takes hnone hnext
      have hid : (t.heap p).uniqueID = (s.heap p).uniqueID := by
        rw [htold, ClientHandle.queueAll_eq]
      obtain ⟨events, v, told', hrounds, halong, hrun, hv⟩ := ih t.authenticatorTake next htaken hpt hin'
        (by rw [hqueue'', ← hnext, hqueue', hrest]; rfl) fun user hmem => by
          change user.clientID ≠ (t.heap p).uniqueID
          rw [hid]
          exact hother user (List.mem_cons_of_mem _ hmem)
      have hstep' : (serverMachine Fifo).step t .authenticatorTake = .ok t.authenticatorTake := rfl
      refine ⟨.authenticatorAnswer :: .authenticatorTake :: events, v, told ++ told', ?_, ?_, ?_, hv.1, hv.2.1,
        hv.2.2.1, hv.2.2.2.1, ?_⟩
      · have hmore : s.rounds = .authenticatorAnswer :: .authenticatorTake :: t.authenticatorTake.rounds := by
          rw [rounds, rounds, hin, hin', ← hqueue', hnext, hqueue'']
          rfl
        rw [hmore, hrounds]
        rfl
      · exact Machine.along_next he hstep (Machine.along_next htake hstep' halong)
      · rw [Machine.run_next hstep, Machine.run_next hstep']
        exact hrun
      · rw [hv.2.2.2.2, ← queueAll_queueAll, ← htold]
        rfl
  rcases hin : s.inFlight with _ | first
  · obtain ⟨next, queue, hnext⟩ : ∃ next queue, s.queue = next :: queue := by
      rw [pending, hin] at hpending
      have hqueue : s.queue = requests ++ [request] := hpending
      rw [hqueue]
      exact List.exists_cons_of_ne_nil (by simp)
    obtain ⟨htake, htaken, hin', hqueue'⟩ := hs.takes hin hnext
    obtain ⟨events, v, told, hrounds, halong, hrun, hv⟩ := hanswering requests s.authenticatorTake next htaken hp
      hin' (by rw [hqueue', ← hnext, ← hpending, pending, hin]; rfl) hother
    have hstep' : (serverMachine Fifo).step s .authenticatorTake = .ok s.authenticatorTake := rfl
    refine ⟨.authenticatorTake :: events, v, told, ?_, Machine.along_next htake hstep' halong, ?_, hv⟩
    · have hmore : s.rounds = .authenticatorTake :: s.authenticatorTake.rounds := by
        rw [rounds, rounds, hin, hin', hnext, hqueue']
        rfl
      rw [hmore, hrounds]
      rfl
    · rw [Machine.run_next hstep']
      exact hrun
  · refine hanswering requests s first hs hp hin ?_ hother
    rw [← hpending, pending, hin]
    rfl

/-- It is logged in under the name, or was told that another has it. -/
def Decided {β : Type} (p : Nat) (name : AString) (t : Server β) : Prop :=
  ((t.heap p).Present ∧ (t.heap p).username = name ∧ (t.heap p).hasSentDC = false) ∨
    (∃ q ∈ t.clients, q ≠ p ∧ (t.heap q).username = name) ∧ (t.heap p).hasSentDC = true ∧
      .queued 2 ⟨0x00, [.beInt32 errorCodeAlreadyLogin]⟩ ∈ (t.heap p).log

/-- The answer to a request that is in order, where the connection waits for it. -/
theorem answer_decides (hs : s.Attended) (hp : p < s.allocated) (hin : s.inFlight =
      some ⟨(s.heap p).uniqueID, name, password⟩) (hwaits : (s.heap p).Waits)
    (hnew : (s.heap p).username = []) (hprotocol : (s.heap p).protocol.state = 2) (hname : name ≠ [])
    (hauth : authFromDBPoll name password = errorCodeAuthOk) :
    ∃ t, (serverMachine Fifo).enabled s .authenticatorAnswer ∧
      (serverMachine Fifo).step s .authenticatorAnswer = .ok t ∧ t.inFlight = none ∧ t.queue = s.queue ∧
      Decided p name t := by
  have he : s.enabled .authenticatorAnswer = true := by
    rw [enabled, hin]
    rfl
  have hs₁ := answered_sound hs.sound
  have hmem := hs.member hp hwaits
  have hfound : s.findClient (s.heap p).uniqueID = some p := by
    rcases hfind : s.findClient (s.heap p).uniqueID with _ | q
    · exact absurd rfl (findClient_none hfind hmem)
    · obtain ⟨hq, hid⟩ := findClient_some hfind
      rw [hs.authentic.id_inj (hs.sound.allocated q hq) hp hid]
  have hstep : s.step .authenticatorAnswer = ({ s with inFlight := none } : Server Fifo).authenticate p name := by
    have hfound' : ({ s with inFlight := none } : Server Fifo).findClient (s.heap p).uniqueID = some p := hfound
    rw [step, authenticatorAnswer, hin]
    dsimp only
    rw [answer, if_pos hauth, authenticateUser, hfound']
  rcases hfree : ({ s with inFlight := none } : Server Fifo).isPlayerInQueue name with _ | _
  · have hlogin := authenticate_login hs₁ (accepted_length hs.sound hin hauth) hwaits.1 hfree
    obtain ⟨hstate, _, husername, hdc⟩ := tellAll_same p p (({ s with inFlight := none } : Server Fifo).admitted p name)
    have hadmitted : (({ s with inFlight := none } : Server Fifo).admitted p name).heap p =
        (((s.heap p).setUsername name).loginSucceeded).setState .csAuthenticated := if_pos rfl
    rw [hadmitted] at hstate husername hdc
    refine ⟨_, he, hstep.trans hlogin, rfl, rfl, Or.inl ?_⟩
    rw [modify_heap, if_pos rfl]
    refine ⟨Or.inl hstate, husername.trans ?_, hdc.trans ?_⟩
    · rw [ClientHandle.loginSucceeded, ClientHandle.queue_eq]
      rfl
    · rw [ClientHandle.loginSucceeded, ClientHandle.queue_eq]
      exact hwaits.2
  · have hkick : ({ s with inFlight := none } : Server Fifo).authenticate p name =
        .ok (store p ((s.heap p).disconnect errorCodeAlreadyLogin) { s with inFlight := none }) := by
      rw [authenticate, if_neg (not_not.mpr hwaits.1), if_pos hfree]
      exact act_change (ClientHandle.sendDisconnect_ok (hs₁.connections p) errorCodeAlreadyLogin)
    obtain ⟨q, hq, hqname⟩ := List.any_eq_true.mp hfree
    have hqname : (s.heap q).username = name := beq_iff_eq.mp hqname
    have hne : q ≠ p := by
      rintro rfl
      exact hname (hqname.symm.trans hnew)
    have hdisconnect : (s.heap p).disconnect errorCodeAlreadyLogin =
        { (s.heap p).queue ⟨0x00, [.beInt32 errorCodeAlreadyLogin]⟩ with hasSentDC := true } := by
      rw [ClientHandle.disconnect, if_neg (by rw [hwaits.2]; decide), if_pos hprotocol]
    refine ⟨_, he, hstep.trans hkick, rfl, rfl, Or.inr ⟨⟨q, hq, hne, ?_⟩, ?_, ?_⟩⟩
    · rw [store_heap, if_neg hne]
      exact hqname
    · rw [store_heap, if_pos rfl, hdisconnect]
    · rw [store_heap, if_pos rfl, hdisconnect]
      change _ ∈ ((s.heap p).queue ⟨0x00, [.beInt32 errorCodeAlreadyLogin]⟩).log
      rw [ClientHandle.queue_log, hwaits.2, hprotocol]
      exact List.mem_append_right _ (List.mem_singleton.mpr rfl)

/-- The whole of it, over plain queues. -/
theorem newcomer_run (hs : s.Attended) (hcount : s.clientCount < 2 ^ 31 - 1) {ip server : AString}
    (hip : ip.length < 128) {port : Int32}
    (hstatus : (frame (statusRequestPacket appP2pchat server port 2).body).length ≤ 65536)
    (hlogin : (frame (loginInfoPacket name password).body).length ≤ 65536) (hname : name ≠ [])
    (hauth : authFromDBPoll name password = errorCodeAuthOk) :
    ∃ u t, (serverMachine Fifo).Along (serverMachine Fifo).enabled
        (.connectionAccepted ip :: signsIn s.allocated server port name password) s ∧
      (serverMachine Fifo).run (.connectionAccepted ip :: signsIn s.allocated server port name password) s = .ok u ∧
      (serverMachine Fifo).Along (serverMachine Fifo).enabled u.rounds u ∧
      (serverMachine Fifo).run u.rounds u = .ok t ∧ t.pending = [] ∧ Decided s.allocated name t := by
  obtain ⟨u, halong, hrun, hu, hasking⟩ := signsIn_asks hs hcount hip hstatus hlogin
  have hother : ∀ user ∈ s.pending, user.clientID ≠ (u.heap s.allocated).uniqueID := by
    intro user huser
    have hwaiting : user ∈ s.queue ∨ s.inFlight = some user := by
      rcases List.mem_append.mp huser with hin | hqueue
      · exact Or.inr (Option.mem_toList.mp hin)
      · exact Or.inl hqueue
    obtain ⟨q, hq, hid, _⟩ := hs.authentic.asked user hwaiting
    have hbound := hu.authentic.bounded
    have hlt := hasking.allocated
    rw [← hid, hs.authentic.ids q hq, hu.authentic.ids s.allocated hlt]
    intro heq
    have hnat := congrArg UInt32.toNat heq
    rw [UInt32.toNat_ofNat', UInt32.toNat_ofNat'] at hnat
    omega
  obtain ⟨events, v, told, hrounds, halong', hrun', hv, hp, hin, hqueue, htold⟩ :=
    rounds_last s.pending hu hasking.pending hasking.allocated hother
  rw [ClientHandle.queueAll_eq] at htold
  have hin' : v.inFlight = some ⟨(v.heap s.allocated).uniqueID, name, password⟩ := by
    rw [hin, htold]
  obtain ⟨t, he, hstep, hnone, hqueue', hdecided⟩ := answer_decides hv hp hin'
    (by rw [htold]; exact hasking.waits) (by rw [htold]; exact hasking.username)
    (by rw [htold]; exact hasking.protocol) hname hauth
  refine ⟨u, t, halong, hrun, ?_, ?_, ?_, hdecided⟩
  · rw [hrounds]
    exact Machine.along_append halong' hrun' (Machine.along_next he hstep trivial)
  · rw [hrounds, Machine.run_append hrun', Machine.run_next hstep]
    rfl
  · rw [pending, hnone, hqueue', hqueue]
    rfl

/-- In every state that a run can come to, whoever connects and sends its two packets, with a name and a password
that are in order and in frames that the receive buffer can take, is logged in once the authenticator's thread has
done its rounds, unless another connection in `m_Clients` has the name; and nothing stops these steps. -/
theorem newcomer_decided {s : Server ByteBuffer} (hs : (serverMachine ByteBuffer).Reachable initial s)
    (hcount : s.clientCount < 2 ^ 31 - 1) {ip server : AString} (hip : ip.length < 128) {port : Int32}
    {name password : AString}
    (hstatus : (frame (statusRequestPacket appP2pchat server port 2).body).length ≤ 65536)
    (hlogin : (frame (loginInfoPacket name password).body).length ≤ 65536) (hname : name ≠ [])
    (hauth : authFromDBPoll name password = errorCodeAuthOk) :
    ∃ u t, (serverMachine ByteBuffer).Along (serverMachine ByteBuffer).enabled
        (.connectionAccepted ip :: signsIn s.allocated server port name password) s ∧
      (serverMachine ByteBuffer).run (.connectionAccepted ip :: signsIn s.allocated server port name password) s =
        .ok u ∧
      (serverMachine ByteBuffer).Along (serverMachine ByteBuffer).enabled u.rounds u ∧
      (serverMachine ByteBuffer).run u.rounds u = .ok t ∧ t.pending = [] ∧ Decided s.allocated name t := by
  have hattended := (reachable_asked (contents_reachable hs)).1
  obtain ⟨u, t, halong, hrun, halong', hrun', hend, hdecided⟩ :=
    newcomer_run hattended hcount hip hstatus hlogin hname hauth
  obtain ⟨x, hx, hxrun, hxu⟩ := run_contents halong hrun
  rw [← hxu] at halong' hrun'
  obtain ⟨y, hy, hyrun, hyt⟩ := run_contents halong' hrun'
  rw [← hyt] at hend hdecided
  exact ⟨x, y, hx, hxrun, hy, hyrun, hend, hdecided⟩

omit [Platform] in
/-- The name is that of a client that has asked for it before, and waits for the answer. -/
theorem newcomer_decided_taken :
    letI := zeroPlatform
    ∃ s u t : Server ByteBuffer, (s.pending.length = 1 ∧ s.allocated = 1) ∧
      (serverMachine ByteBuffer).Along (serverMachine ByteBuffer).enabled
        (.connectionAccepted [] :: signsIn s.allocated [] 0 [97] (md5Password [97])) s ∧
      (serverMachine ByteBuffer).run (.connectionAccepted [] :: signsIn s.allocated [] 0 [97] (md5Password [97])) s =
        .ok u ∧
      (serverMachine ByteBuffer).Along (serverMachine ByteBuffer).enabled u.rounds u ∧
      (serverMachine ByteBuffer).run u.rounds u = .ok t ∧ t.pending = [] ∧ Decided s.allocated [97] t := by
  let : Platform := zeroPlatform
  have hrun : ((serverMachine ByteBuffer).replay enabled
      (.connectionAccepted [] :: (greets 0 ++ asksLogin 0 [97])) initial).map (fun s =>
      decide (s.pending.length = 1 ∧ s.allocated = 1 ∧ s.clientCount < 2 ^ 31 - 1)) = some true := by
    decide +kernel
  obtain ⟨s, hs, hfacts⟩ := Option.map_eq_some_iff.mp hrun
  obtain ⟨hpending, hallocated, hcount⟩ := of_decide_eq_true hfacts
  obtain ⟨u, t, hsteps⟩ := newcomer_decided (replay_reachable hs) hcount (by decide : ([] : AString).length < 128)
    (by decide +kernel : (frame (statusRequestPacket appP2pchat [] 0 2).body).length ≤ 65536)
    (by decide +kernel : (frame (loginInfoPacket [97] (md5Password [97])).body).length ≤ 65536)
    (by decide : ([97] : AString) ≠ []) (by decide +kernel : authFromDBPoll [97] (md5Password [97]) = errorCodeAuthOk)
  exact ⟨s, u, t, ⟨hpending, hallocated⟩, hsteps⟩

end Server

end P2PChat

import P2PChat.ClientPackets
import P2PChat.Draining
import P2PChat.PacketEffects
import P2PChat.ServerRuns

namespace P2PChat

open ByteQueue Relation

namespace Server

variable [Platform]

/-- What the server does with a packet of `p` in this state. -/
def reaction {β : Type} (p : Nat) (s : Server β) (state type : UInt32) (bytes : AString) :
    Verdict UInt32 :=
  if overlong (s.relay p type bytes).toList then .halts
  else if knows state type then
    .takes (if state = 1 ∧ type = 0x00 then
      (parseStatusRequest bytes).1.elim state fun request =>
        if accepts request then request.2.2.2.toUInt32 else state
      else state) true
  else .refuses

/-- The state that a packet of a type that the `switch` has leaves behind. -/
theorem reacted_state {s : Server Fifo} {p : Nat} {type : UInt32} {bytes : AString}
    (hknown : knows (s.heap p).protocol.state type = true) :
    ((s.reacted p type bytes).heap p).protocol.state =
      if (s.heap p).protocol.state = 1 ∧ type = 0x00 then
        (parseStatusRequest bytes).1.elim (s.heap p).protocol.state fun request =>
          if accepts request then request.2.2.2.toUInt32 else (s.heap p).protocol.state
      else (s.heap p).protocol.state := by
  have htell : ∀ q pkt, ((s.tell q pkt).heap p).protocol.state = (s.heap p).protocol.state := by
    intro q pkt
    rcases eq_or_ne p q with rfl | hne
    · rw [tell_self, ClientHandle.queue_protocol]
    · rw [tell_other hne]
  by_cases h1 : (s.heap p).protocol.state = 1
  · rw [reacted, if_pos h1]
    by_cases h0 : type = 0x00
    · rw [if_pos h0, if_pos ⟨h1, h0⟩]
      rcases (parseStatusRequest bytes).1 with _ | request
      · rfl
      · simp only [Option.elim_some]
        rw [modify_heap, if_pos rfl, answered_state]
    · have hone : type = 0x01 := by
        rw [knows, if_pos h1, beq_eq_false_iff_ne.mpr h0, Bool.false_or] at hknown
        exact eq_of_beq hknown
      rw [if_neg h0, if_pos hone, if_neg (fun h => h0 h.2)]
      rcases (parseBEInt64 bytes).1 with _ | timestamp
      · rfl
      · exact htell p _
  · rw [if_neg (fun h => h1 h.1)]
    by_cases h2 : (s.heap p).protocol.state = 2
    · have h0 : type = 0x00 := by
        rw [knows, if_neg h1, if_pos h2] at hknown
        exact eq_of_beq hknown
      rw [reacted, if_neg h1, if_pos h2, if_pos h0]
      rcases (parseLoginInfo bytes).1 with _ | login
      · rfl
      · simp only [Option.elim_some]
        rw [handleLogin, modify_heap, if_pos rfl]
        rfl
    · have h3 : (s.heap p).protocol.state = 3 := by
        by_contra h3
        rw [knows, if_neg h1, if_neg h2, if_neg h3] at hknown
        cases hknown
      rw [reacted, if_neg h1, if_neg h2, if_pos h3]
      split
      next =>
        rcases (parseVarInt32 bytes).1 with _ | id
        · rfl
        · simp only [Option.elim_some]
          rw [modify_heap, if_pos rfl, ClientHandle.handleKeepAlive]
          split <;> rfl
      next h0 =>
        have hmedia : type = 0x11 ∨ type = 0x12 := by
          rw [knows, if_neg h1, if_neg h2, if_pos h3, beq_eq_false_iff_ne.mpr h0,
            Bool.false_or] at hknown
          exact (Bool.or_eq_true_iff.mp hknown).imp eq_of_beq eq_of_beq
        rw [if_pos hmedia]
        rcases s.relay p type bytes with _ | x
        · rfl
        · exact htell x.1 x.2

/-- Where the loop of `AddReceivedData` stands, with these bytes to go, in this state. -/
structure Follows (p : Nat) (s₀ : Server Fifo) (state : UInt32) (u : AString) (s : Server Fifo) :
    Prop where
  small : ReflTransGen (Small Gate.open p) s₀ s
  room : u.length ≤ 65536
  received : (s.heap p).protocol.receivedData = Fifo.filled 65536 u
  state : (s.heap p).protocol.state = state

theorem endpoint_follows {s₀ : Server Fifo} (hs₀ : s₀.Sound) {p : Nat}
    (hlive : (s₀.heap p).state.toNat < 4) :
    (endpoint p).Follows 65536 (reaction p s₀) (Follows p s₀) where
  received state u s h := ⟨h.room, h.received⟩
  setReceived b s := by
    change ((s.modify p (ClientHandle.setReceived b)).heap p).protocol.receivedData = b
    rw [modify_heap, if_pos rfl]
    rfl
  packetError state u s packetType h := by
    have hs := sound_of_small hs₀ h.small
    have hkick := kick_modify hs p errorCodePacketError
    have hsmall : Small Gate.open p s (s.modify p (ClientHandle.disconnect errorCodePacketError)) :=
      .change (.disconnect _)
    have hself : (s.modify p (ClientHandle.disconnect errorCodePacketError)).heap p =
        (s.heap p).disconnect errorCodePacketError := if_pos rfl
    refine ⟨_, hkick, h.small.tail hsmall, h.room, ?_, ?_⟩
    · rw [hself, ClientHandle.disconnect_eq]
      exact h.received
    · rw [hself, ClientHandle.disconnect_eq]
      exact h.state
  packet state u s payload rest packetType bb h hnext hopen := by
    have hlen := nextFrame_length hnext
    have hroom := h.room
    have hrest : rest.length ≤ 65536 := by omega
    have hset := setReceived_small (G := Gate.open) (p := p) hrest s
    have hsmall := h.small.tail hset
    have hreceived : ((s.modify p (ClientHandle.setReceived (Fifo.filled 65536 rest))).heap
        p).protocol.receivedData = Fifo.filled 65536 rest := by
      rw [modify_heap, if_pos rfl]
      rfl
    have hstate : ((s.modify p (ClientHandle.setReceived (Fifo.filled 65536 rest))).heap
        p).protocol.state = state := by
      rw [modify_heap, if_pos rfl]
      exact h.state
    change Verdict.Describes (endpoint p) 65536 (Follows p s₀) rest
      (handlePacket p bb packetType (s.modify p (ClientHandle.setReceived (Fifo.filled 65536 rest)))) _
    generalize s.modify p (ClientHandle.setReceived (Fifo.filled 65536 rest)) = s₁ at *
    have hs₁ := sound_of_small hs₀ hsmall
    have hframed := framed_of_small hsmall
    have hlive₁ := hframed.live.mpr hlive
    have hrelay := relay_congr hframed packetType bb.unread
    have hbytes := opened_length hopen
    unfold reaction
    split
    next hlong =>
      obtain ⟨x, hx, hx'⟩ := relay_long hlong
      exact ⟨_, handlePacket_verify hs₁ hlive₁ (hrelay.trans hx) hx'⟩
    next hshort =>
      have hfits : ∀ x, s₁.relay p packetType bb.unread = some x → x.2.body.length ≤ 65536 := by
        intro x hx
        rw [hrelay] at hx
        exact relay_fits (Bool.eq_false_iff.mpr hshort) hx
      have heq := handlePacket_eq hs₁ hfits
      have hbb : bb.unread.length ≤ 65536 := by omega
      obtain ⟨bb', s', hok, hleads⟩ := handlePacket_returns hs₁ hlive₁ (G := Gate.open) hbb
        fun x hx => ⟨hfits x hx, rfl⟩
      have hafter : s' = (s₁.handled p packetType bb.unread).reacted p packetType bb.unread :=
        congrArg (fun r => r.2.2) (Except.ok.inj (hok.symm.trans heq))
      have hbuffer : (s'.heap p).protocol.receivedData = Fifo.filled 65536 rest :=
        hleads.received.trans hreceived
      have hsame : ((s₁.handled p packetType bb.unread).heap p).protocol.state = state := by
        rw [handled_self]
        exact hstate
      rw [hstate] at hok
      split
      next hknown =>
        rw [hknown] at hok
        refine ⟨bb', s', hok, hsmall.trans hleads.small, hrest, hbuffer, ?_⟩
        rw [hafter, reacted_state (by rw [hsame]; exact hknown), hsame]
      next hknown =>
        rw [Bool.not_eq_true] at hknown
        rw [hknown] at hok
        exact ⟨bb', s', hok, hbuffer⟩

/-- A packet in what is left or comes in stops the loop with a complete frame behind it. -/
def stalls {β : Type} [ByteQueue β] (p : Nat) (data : AString) (s : Server β) : Bool :=
  P2PChat.stalls (reaction p s) (s.heap p).protocol.state
    ((readAll (s.heap p).protocol.receivedData).1 ++ data)

theorem addReceivedData_drained {s : Server Fifo} (hs : s.Sound) {p : Nat}
    (hlive : (s.heap p).state.toNat < 4) {data : AString}
    (hfit : (write data (s.heap p).protocol.receivedData).1 = true) :
    (∀ s', s.addReceivedData p data = .ok s' → (endpoint p).Drained s') ↔ s.stalls p data = false := by
  obtain ⟨u, hu, hrec⟩ := (hs.connections p).received
  obtain ⟨_, _, hunread⟩ := Fifo.filled_eq hu
  have hroom : (u ++ data).length ≤ 65536 := by
    by_contra hfull
    rw [hrec, write_filled_full hu (Nat.lt_of_not_le hfull)] at hfit
    cases hfit
  have hset : Small Gate.open p s
      (s.modify p (ClientHandle.setReceived (Fifo.filled 65536 (u ++ data)))) :=
    setReceived_small hroom s
  have hself : (s.modify p (ClientHandle.setReceived (Fifo.filled 65536 (u ++ data)))).heap p =
      (s.heap p).setReceived (Fifo.filled 65536 (u ++ data)) := if_pos rfl
  have hstart : Follows p s (s.heap p).protocol.state (u ++ data)
      (s.modify p (ClientHandle.setReceived (Fifo.filled 65536 (u ++ data)))) :=
    ⟨.single hset, hroom, by rw [hself]; rfl, by rw [hself]; rfl⟩
  rw [stalls, hrec, readAll_fifo, hunread]
  exact (endpoint_follows hs hlive).drained_iff (by omega) hu hrec hroom hstart

end Server

namespace PeerConnectionClient

/-- The packet buffer is empty, the receive buffer has all its room. -/
structure Sound (c : PeerConnectionClient Fifo) : Prop where
  out : c.outPacketBuffer = Fifo.empty 65536
  received : ∃ u : AString, u.length ≤ 65536 ∧ c.receivedData = Fifo.filled 65536 u

theorem handleErrorCode_closes {c : PeerConnectionClient Fifo} (h : c.closes = true) (code : Int32) :
    (c.handleErrorCode code).protocolState = 1 ∧
      (c.handleErrorCode code).receivedData = clearAll c.receivedData ∧
      (c.handleErrorCode code).isConnected = false := by
  simp only [closes, Bool.and_eq_true, bne_iff_ne] at h
  obtain ⟨⟨hconnected, hleaving⟩, hsocket⟩ := h
  rw [handleErrorCode, signOut, if_neg (not_or.mpr ⟨hconnected, hleaving⟩), if_pos hsocket]
  exact ⟨rfl, rfl, rfl⟩

theorem handleErrorCode_stays {c : PeerConnectionClient Fifo} (h : c.closes = false) (code : Int32) :
    (c.handleErrorCode code).protocolState = c.protocolState ∧
      (c.handleErrorCode code).receivedData = c.receivedData ∧
      (c.handleErrorCode code).outPacketBuffer = c.outPacketBuffer ∧
      (c.handleErrorCode code).closes = false := by
  rw [handleErrorCode, signOut]
  split
  next => exact ⟨rfl, rfl, rfl, h⟩
  next hopen =>
    split
    next hsocket =>
      obtain ⟨hconnected, hleaving⟩ := not_or.mp hopen
      rw [closes, bne_iff_ne.mpr hconnected, bne_iff_ne.mpr hleaving, hsocket] at h
      cases h
    next hsocket =>
      rw [Bool.not_eq_true] at hsocket
      refine ⟨rfl, rfl, rfl, ?_⟩
      change (_ && c.isConnected) = false
      rw [hsocket, Bool.and_false]

variable [Platform]

/-- The state after a packet of a type that the `switch` has, and whether the connection is still open. -/
def next {β : Type} (c : PeerConnectionClient β) (state type : UInt32) (bytes : AString) :
    UInt32 × Bool :=
  if state = 1 then
    ((parseStatus bytes).1.elim 1 fun status =>
      if 3 < status.1 ∨ status.1 < 1 then 1 else status.1.toUInt32, true)
  else if state = 2 ∧ type = 0x01 then (3, true)
  else if (state = 2 ∨ type = 0x40) ∧ (parseBEInt32 bytes).1.isSome ∧ c.closes then (1, false)
  else (state, true)

/-- What the client does with a packet in this state. -/
def reaction {β : Type} (c : PeerConnectionClient β) (state type : UInt32) (bytes : AString) :
    Verdict UInt32 :=
  if (c.setProtocolState state).halts type bytes then .halts
  else if knows state type then .takes (c.next state type bytes).1 (c.next state type bytes).2
  else .refuses

/-- Where the loop of `AddReceivedData` stands, with these bytes to go, in this state. -/
structure Standing (c₀ : PeerConnectionClient Fifo) (state : UInt32) (u : AString)
    (c : PeerConnectionClient Fifo) : Prop where
  out : c.outPacketBuffer = Fifo.empty 65536
  room : u.length ≤ 65536
  received : c.receivedData = Fifo.filled 65536 u
  protocolState : c.protocolState = state
  closes : c.closes = c₀.closes
  overlong : state = 1 → c.overlong = c₀.overlong

/-- The same, or the connection was closed, and nothing is left. -/
def Follows (c₀ : PeerConnectionClient Fifo) (state : UInt32) (u : AString)
    (c : PeerConnectionClient Fifo) : Prop :=
  Standing c₀ state u c ∨ u = [] ∧ c.receivedData = Fifo.filled 65536 []

/-- A packet leaves the connection open, with the rest of the bytes, or closes it. -/
inductive Took (c₀ : PeerConnectionClient Fifo) (next : UInt32 × Bool) (rest : AString)
    (c : PeerConnectionClient Fifo) : Prop
  | stays : next.2 = true → Standing c₀ next.1 rest c → Took c₀ next rest c
  | closed : next.2 = false → c.receivedData = Fifo.filled 65536 [] → c.isConnected = false →
      Took c₀ next rest c

variable {c₀ c : PeerConnectionClient Fifo} {state type : UInt32} {rest bytes : AString}

omit [Platform] in
theorem Took.follows {next : UInt32 × Bool} (h : Took c₀ next rest c) :
    Follows c₀ next.1 (if next.2 then rest else []) c := by
  cases h with
  | stays hnext hc =>
    rw [if_pos hnext]
    exact Or.inl hc
  | closed hnext hreceived hsocket =>
    rw [if_neg (Bool.eq_false_iff.mp hnext)]
    exact Or.inr ⟨rfl, hreceived⟩

omit [Platform] in
theorem Standing.send (h : Standing c₀ state rest c) (p : Packet) : Standing c₀ state rest (c.send p) := by
  unfold PeerConnectionClient.send sendData
  split
  next => exact ⟨h.out, h.room, h.received, h.protocolState, h.closes, h.overlong⟩
  next => exact h

omit [Platform] in
theorem Standing.notify (h : Standing c₀ state rest c) (callback : Callback) :
    Standing c₀ state rest (c.notify callback) :=
  ⟨h.out, h.room, h.received, h.protocolState, h.closes, h.overlong⟩

omit [Platform] in
/-- An error code closes the connection, or leaves all that the loop needs. -/
theorem Standing.handleErrorCode (h : Standing c₀ state rest c) (hstate : state ≠ 1) (code : Int32) :
    Took c₀ (if c₀.closes then 1 else state, !c₀.closes) rest (c.handleErrorCode code) := by
  rcases hcloses : c₀.closes with _ | _
  · obtain ⟨hsame, hreceived, hout, hstill⟩ := handleErrorCode_stays (h.closes.trans hcloses) code
    exact .stays rfl ⟨hout.trans h.out, h.room, hreceived.trans h.received, hsame.trans h.protocolState,
      hstill.trans hcloses.symm, fun hone => absurd hone hstate⟩
  · obtain ⟨_, hreceived, hsocket⟩ := handleErrorCode_closes (h.closes.trans hcloses) code
    obtain ⟨hcapacity, _, _⟩ := Fifo.filled_eq h.room
    refine .closed rfl ?_ hsocket
    rw [hreceived, h.received]
    change Fifo.empty (Fifo.filled 65536 rest).capacity = _
    rw [hcapacity]
    rfl

theorem next_error (hstate : state ≠ 1) (herror : ¬(state = 2 ∧ type = 0x01))
    (htype : state = 2 ∨ type = 0x40) (hread : (parseBEInt32 bytes).1.isSome = true) :
    c₀.next state type bytes = (if c₀.closes then 1 else state, !c₀.closes) := by
  rw [next, if_neg hstate, if_neg herror]
  rcases hcloses : c₀.closes with _ | _
  · rw [if_neg (fun h => nomatch h.2.2)]
    rfl
  · rw [if_pos ⟨htype, hread, rfl⟩]
    rfl

theorem next_other (hstate : state ≠ 1) (hlogin : ¬(state = 2 ∧ type = 0x01))
    (hno : ¬((state = 2 ∨ type = 0x40) ∧ (parseBEInt32 bytes).1.isSome = true)) :
    c₀.next state type bytes = (state, true) := by
  rw [next, if_neg hstate, if_neg hlogin, if_neg (fun h => hno ⟨h.1, h.2.1⟩)]

/-- A packet that is taken leaves the state that `next` says. -/
theorem Standing.reacted (h : Standing c₀ state rest c) (hknown : knows state type = true) :
    Took c₀ (c₀.next state type bytes) rest (c.reacted type bytes) := by
  have hstate := h.protocolState
  by_cases h1 : state = 1
  · have h0 : type = 0x00 := by
      rw [knows, if_pos h1] at hknown
      exact eq_of_beq hknown
    rw [next, PeerConnectionClient.reacted, hstate, if_pos h1, if_pos h1, if_pos h0]
    subst h1
    rcases (parseStatus bytes).1 with _ | status
    · exact .stays rfl h
    · simp only [Option.elim_some, greeted]
      split
      next => exact .stays rfl h
      next =>
        have hset : Standing c₀ status.1.toUInt32 rest (c.setProtocolState status.1.toUInt32) :=
          ⟨h.out, h.room, h.received, rfl, h.closes, fun _ => h.overlong rfl⟩
        exact .stays rfl (hset.send _)
  · by_cases h2 : state = 2
    · by_cases hlogin : type = 0x01
      · have h0 : type ≠ 0x00 := by
          rw [hlogin]
          decide
        rw [next, PeerConnectionClient.reacted, hstate, if_neg h1, if_neg h1, if_pos ⟨h2, hlogin⟩,
          if_pos h2, if_neg h0, if_pos hlogin]
        exact .stays rfl ⟨h.out, h.room, h.received, rfl, h.closes, fun hone => absurd hone (by decide)⟩
      · have h0 : type = 0x00 := by
          rw [knows, if_neg h1, if_pos h2, beq_eq_false_iff_ne.mpr hlogin, Bool.or_false] at hknown
          exact eq_of_beq hknown
        have hno : ¬(state = 2 ∧ type = 0x01) := fun hboth => hlogin hboth.2
        rw [PeerConnectionClient.reacted, hstate, if_neg h1, if_pos h2, if_pos h0]
        rcases hread : (parseBEInt32 bytes).1 with _ | reason
        · rw [next_other h1 hno (fun hboth => by rw [hread] at hboth; cases hboth.2)]
          exact .stays rfl h
        · rw [next_error h1 hno (Or.inl h2) (by rw [hread]; rfl)]
          exact h.handleErrorCode h1 reason
    · have h3 : state = 3 := by
        by_contra h3
        rw [knows, if_neg h1, if_neg h2, if_neg h3] at hknown
        cases hknown
      have hno : ¬(state = 2 ∧ type = 0x01) := fun hboth => h2 hboth.1
      by_cases h40 : type = 0x40
      · subst h40
        have hreacted : c.reacted 0x40 bytes =
            (parseBEInt32 bytes).1.elim c fun reason => c.handleErrorCode reason := by
          rw [PeerConnectionClient.reacted, hstate, if_neg h1, if_neg h2, if_pos h3]
          rfl
        rw [hreacted]
        rcases hread : (parseBEInt32 bytes).1 with _ | reason
        · rw [next_other h1 hno (fun hboth => by rw [hread] at hboth; cases hboth.2)]
          exact .stays rfl h
        · rw [next_error h1 hno (Or.inr rfl) (by rw [hread]; rfl)]
          exact h.handleErrorCode h1 reason
      · rw [next_other h1 hno (fun hboth => hboth.1.elim h2 h40),
          PeerConnectionClient.reacted, hstate, if_neg h1, if_neg h2, if_pos h3, if_neg h40]
        refine .stays rfl ?_
        split
        next =>
          rcases (parseVarInt32 bytes).1 with _ | id
          · exact h
          · exact h.send _
        next =>
          split
          next =>
            rcases (parseUserInfo bytes).1 with _ | info
            · exact h
            · simp only [Option.elim_some, userInfo]
              split
              next => exact ⟨h.out, h.room, h.received, h.protocolState, h.closes, h.overlong⟩
              next => exact ⟨h.out, h.room, h.received, h.protocolState, h.closes, h.overlong⟩
          next =>
            split
            next =>
              rcases (parseMedia bytes).1 with _ | media
              · exact h
              · simp only [Option.elim_some, asked]
                split
                next =>
                  have hasked : Standing c₀ state rest { c with isBusy := fun n => c.isBusy (n + 1) } :=
                    ⟨h.out, h.room, h.received, h.protocolState, h.closes, h.overlong⟩
                  exact hasked.send _
                next => exact h.notify _
            next =>
              split
              next =>
                rcases (parseMediaMsg bytes).1 with _ | media
                · exact h
                · simp only [Option.elim_some, mediaMsgArrived]
                  split
                  next => exact h.notify _
                  next => exact h.notify _
              next => exact h

/-- A packet that is refused leaves the buffer alone. -/
theorem reacted_refused {c : PeerConnectionClient Fifo} {type : UInt32}
    (hunknown : knows c.protocolState type = false) (bytes : AString) :
    (c.reacted type bytes).receivedData = c.receivedData := by
  rw [reacted_unknown hunknown]
  rfl

theorem halts_congr {c c' : PeerConnectionClient Fifo} {state : UInt32}
    (hstate : c.protocolState = state) (hlong : state = 1 → c.overlong = c'.overlong) (type : UInt32)
    (bytes : AString) : c.halts type bytes = (c'.setProtocolState state).halts type bytes := by
  have hsame : (c'.setProtocolState state).overlong = c'.overlong := rfl
  rw [halts, halts, hsame, hstate]
  by_cases h1 : state = 1
  · rw [hlong h1]
    rfl
  · change ((state == 1) && _ && _ && _) = ((state == 1) && _ && _ && _)
    rw [beq_eq_false_iff_ne.mpr h1]
    rfl

theorem endpoint_follows (c₀ : PeerConnectionClient Fifo) :
    (endpoint : Endpoint Fifo (PeerConnectionClient Fifo)).Follows 65536 (reaction c₀) (Follows c₀) where
  received state u c h := by
    rcases h with h | ⟨hnil, hreceived⟩
    · exact ⟨h.room, h.received⟩
    · rw [hnil]
      exact ⟨Nat.zero_le _, hreceived⟩
  setReceived _ _ := rfl
  packetError state u c packetType h := ⟨c, rfl, h⟩
  packet state u c payload rest packetType bb h hnext hopen := by
    have hlen := nextFrame_length hnext
    rcases h with h | ⟨hnil, _⟩
    · have hroom := h.room
      have hcall : Standing c₀ state rest
          ((c.setReceived (Fifo.filled 65536 rest)).record (packetType, bb.unread)) :=
        ⟨h.out, by omega, rfl, h.protocolState, h.closes, h.overlong⟩
      have hhalts : (c.setReceived (Fifo.filled 65536 rest)).halts packetType bb.unread =
          (c₀.setProtocolState state).halts packetType bb.unread :=
        halts_congr h.protocolState h.overlong packetType bb.unread
      change Verdict.Describes endpoint 65536 (Follows c₀) rest
        (handlePacket bb packetType (c.setReceived (Fifo.filled 65536 rest))) _
      unfold reaction
      split
      next hlong => exact ⟨_, handlePacket_verify h.out (hhalts.trans hlong)⟩
      next hshort =>
        have heq := handlePacket_eq (c := c.setReceived (Fifo.filled 65536 rest)) h.out
          (hhalts.trans (Bool.eq_false_iff.mpr hshort))
        have hstate : (c.setReceived (Fifo.filled 65536 rest)).protocolState = state := h.protocolState
        rw [hstate] at heq
        split
        next hknown =>
          rw [hknown] at heq
          exact ⟨_, _, heq, (hcall.reacted hknown).follows⟩
        next hknown =>
          rw [Bool.not_eq_true] at hknown
          rw [hknown] at heq
          refine ⟨_, _, heq, ?_⟩
          exact reacted_refused (c := (c.setReceived (Fifo.filled 65536 rest)).record
            (packetType, bb.unread)) (by rw [← hknown, ← hstate]; rfl) bb.unread
    · rw [hnil] at hlen
      exact absurd hlen (Nat.not_lt_zero _)

/-- A packet in what is left or comes in stops the loop with a complete frame behind it. -/
def stalls {β : Type} [ByteQueue β] (data : AString) (c : PeerConnectionClient β) : Bool :=
  P2PChat.stalls (reaction c) c.protocolState ((readAll c.receivedData).1 ++ data)

theorem dataReceived_drained {c : PeerConnectionClient Fifo} (hc : c.Sound) {data : AString}
    (hfit : (write data c.receivedData).1 = true) :
    (∀ c', c.dataReceived data = .ok c' → endpoint.Drained c') ↔ c.stalls data = false := by
  obtain ⟨u, hu, hrec⟩ := hc.received
  obtain ⟨_, _, hunread⟩ := Fifo.filled_eq hu
  have hroom : (u ++ data).length ≤ 65536 := by
    by_contra hfull
    rw [hrec, write_filled_full hu (Nat.lt_of_not_le hfull)] at hfit
    cases hfit
  have hstart : Follows c c.protocolState (u ++ data)
      (c.setReceived (Fifo.filled 65536 (u ++ data))) :=
    Or.inl ⟨hc.out, hroom, rfl, rfl, rfl, fun _ => rfl⟩
  rw [stalls, hrec, readAll_fifo, hunread]
  exact (endpoint_follows c).drained_iff (by omega) hu hrec hroom hstart

theorem stalls_map {β γ : Type} [ByteQueue β] [ByteQueue γ] {f : β → γ} (hf : Hom f) (data : AString)
    (c : PeerConnectionClient β) : (c.map f).stalls data = c.stalls data := by
  have hread : (readAll (f c.receivedData)).1 = (readAll c.receivedData).1 := by
    rw [hf.readAll]
  unfold stalls
  change P2PChat.stalls _ _ ((readAll (f c.receivedData)).1 ++ data) = _
  rw [hread]
  rfl

end PeerConnectionClient

section Runs

variable [Platform]

theorem drained_map {β γ σ τ : Type} [ByteQueue β] [ByteQueue γ] {f : β → γ} (hf : Hom f) {F : σ → τ}
    {E : Endpoint β σ} {E' : Endpoint γ τ} (h : Endpoint.Simulates f F E E') (s : σ) :
    E'.Drained (F s) ↔ E.Drained s := by
  rw [Endpoint.Drained, h.received, hf.readAll]
  exact Iff.rfl

/-- Through buffers that are seen as queues, the same is left behind. -/
theorem drains_map {β γ σ τ : Type} [ByteQueue β] [ByteQueue γ] {f : β → γ} (hf : Hom f) {F : σ → τ}
    {E : Endpoint β σ} {E' : Endpoint γ τ} (h : Endpoint.Simulates f F E E') (data : AString) (s : σ) :
    (∀ s', E'.addReceivedData data (F s) = .ok s' → E'.Drained s') ↔
      ∀ s', E.addReceivedData data s = .ok s' → E.Drained s' := by
  rw [addReceivedData_simulates hf h]
  rcases E.addReceivedData data s with e | s'
  · constructor
    · intro _ s' hok
      cases hok
    · intro _ s' hok
      cases hok
  · constructor
    · intro hdrained s'' hok
      cases hok
      exact (drained_map hf h s').mp (hdrained _ rfl)
    · intro hdrained t hok
      cases hok
      exact (drained_map hf h s').mpr (hdrained _ rfl)

theorem Server.stalls_map {β γ : Type} [ByteQueue β] [ByteQueue γ] {f : β → γ} (hf : Hom f) (p : Nat)
    (data : AString) (s : Server β) : (s.map f).stalls p data = s.stalls p data := by
  have hread : (readAll (f (s.heap p).protocol.receivedData)).1 =
      (readAll (s.heap p).protocol.receivedData).1 := by
    rw [hf.readAll]
  unfold Server.stalls
  change P2PChat.stalls _ _ ((readAll (f (s.heap p).protocol.receivedData)).1 ++ data) = _
  rw [hread]
  rfl

/-- With data that fits, `AddReceivedData` of the server and of the client leaves no complete frame at
the head of `m_ReceivedData` if and only if no packet stops it with a complete frame behind. -/
theorem buffers_drained_iff :
    (∀ (s : Server ByteBuffer) (p : Nat) (data : AString), (s.map ByteBuffer.contents).Sound →
      (s.heap p).state.toNat < 4 → (write data (s.heap p).protocol.receivedData).1 = true →
        ((∀ s', s.addReceivedData p data = .ok s' → (Server.endpoint p).Drained s') ↔
          s.stalls p data = false)) ∧
      ∀ (c : PeerConnectionClient ByteBuffer) (data : AString), (c.map ByteBuffer.contents).Sound →
        (write data c.receivedData).1 = true →
          ((∀ c', c.dataReceived data = .ok c' → PeerConnectionClient.endpoint.Drained c') ↔
            c.stalls data = false) := by
  have hf := ByteBuffer.contents_hom
  refine ⟨fun s p data hs hlive hfit => ?_, fun c data hc hfit => ?_⟩
  · have hfit' : (write data ((s.map ByteBuffer.contents).heap p).protocol.receivedData).1 = true :=
      (congrArg Prod.fst (hf.write data (s.heap p).protocol.receivedData)).trans hfit
    rw [← Server.stalls_map hf, ← Server.addReceivedData_drained hs hlive hfit']
    exact (drains_map hf (endpoint_simulates hf p) data s).symm
  · have hfit' : (write data (c.map ByteBuffer.contents).receivedData).1 = true :=
      (congrArg Prod.fst (hf.write data c.receivedData)).trans hfit
    rw [← PeerConnectionClient.stalls_map hf, ← PeerConnectionClient.dataReceived_drained hc hfit']
    exact (drains_map hf (PeerConnectionClient.endpoint_simulates hf) data c).symm

theorem accept_sound : ((Server.initial.accept [] : Server ByteBuffer).map ByteBuffer.contents).Sound :=
  Server.reachable_sound (by rw [Server.initial_contents]; exact Server.initial_sound)
    (.next .start (e := .connectionAccepted []) rfl trivial rfl)

/-- A client whose socket is connected. -/
def connectedClient : PeerConnectionClient ByteBuffer :=
  { PeerConnectionClient.create fun _ => false with state := .signingIn, isConnected := true }

theorem connectedClient_sound : (connectedClient.map ByteBuffer.contents).Sound where
  out := ByteBuffer.contents_hom.new 65536
  received := ⟨[], Nat.zero_le _, ByteBuffer.contents_hom.new 65536⟩

omit [Platform] in
/-- The greeting of a client, and the answer to it. -/
theorem buffers_drained_greeting :
    letI := zeroPlatform
    (∃ s', (Server.initial.accept [] : Server ByteBuffer).addReceivedData 0
        (frame (statusRequestPacket appP2pchat [] 0 2).body) = .ok s' ∧ (Server.endpoint 0).Drained s') ∧
      ∃ c', connectedClient.dataReceived (frame (⟨0x00, [.beInt32 2, .string []]⟩ : Packet).body) =
        .ok c' ∧ PeerConnectionClient.endpoint.Drained c' := by
  let : Platform := zeroPlatform
  obtain ⟨hserver, hclient⟩ := buffers_drained_iff
  have hgreets : ((Server.initial.accept [] : Server ByteBuffer).addReceivedData 0
      (frame (statusRequestPacket appP2pchat [] 0 2).body)).toOption.isSome = true := by
    decide +kernel
  have hanswers : (connectedClient.dataReceived
      (frame (⟨0x00, [.beInt32 2, .string []]⟩ : Packet).body)).toOption.isSome = true := by
    decide +kernel
  obtain ⟨s', hs'⟩ := Option.isSome_iff_exists.mp hgreets
  obtain ⟨c', hc'⟩ := Option.isSome_iff_exists.mp hanswers
  refine ⟨⟨s', toOption_eq_some.mp hs', ?_⟩, c', toOption_eq_some.mp hc', ?_⟩
  · exact (hserver _ 0 _ accept_sound (by decide +kernel) (by decide +kernel)).mpr (by decide +kernel) s'
      (toOption_eq_some.mp hs')
  · exact (hclient _ _ connectedClient_sound (by decide +kernel)).mpr (by decide +kernel) c'
      (toOption_eq_some.mp hc')

omit [Platform] in
/-- A frame of no bytes before a ping, and a packet of no known type before the answer to the
greeting. -/
theorem buffers_not_drained :
    letI := zeroPlatform
    (∃ s', (Server.initial.accept [] : Server ByteBuffer).addReceivedData 0
        (frame [] ++ frame (⟨0x01, [.beInt64 7]⟩ : Packet).body) = .ok s' ∧
          ¬(Server.endpoint 0).Drained s') ∧
      ∃ c', connectedClient.dataReceived
        (frame (⟨0x55, []⟩ : Packet).body ++ frame (⟨0x00, [.beInt32 2, .string []]⟩ : Packet).body) =
          .ok c' ∧ ¬PeerConnectionClient.endpoint.Drained c' := by
  let : Platform := zeroPlatform
  have hserver : ((Server.initial.accept [] : Server ByteBuffer).addReceivedData 0
      (frame [] ++ frame (⟨0x01, [.beInt64 7]⟩ : Packet).body)).toOption.map
        (fun s' => decide ((Server.endpoint 0).Drained s')) = some false := by
    decide +kernel
  have hclient : (connectedClient.dataReceived (frame (⟨0x55, []⟩ : Packet).body ++
      frame (⟨0x00, [.beInt32 2, .string []]⟩ : Packet).body)).toOption.map
        (fun c' => decide (PeerConnectionClient.endpoint.Drained c')) = some false := by
    decide +kernel
  obtain ⟨s', hs', hleft⟩ := Option.map_eq_some_iff.mp hserver
  obtain ⟨c', hc', hleft'⟩ := Option.map_eq_some_iff.mp hclient
  exact ⟨⟨s', toOption_eq_some.mp hs', of_decide_eq_false hleft⟩, c', toOption_eq_some.mp hc',
    of_decide_eq_false hleft'⟩

end Runs

end P2PChat

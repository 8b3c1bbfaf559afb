import P2PChat.Kicked
import P2PChat.PacketEffects
import P2PChat.PacketLayouts
import P2PChat.ServerCalls

namespace P2PChat

open ByteQueue Relation

namespace Server

/-- The fields that the handler of this type reads in this state. -/
def layout (state type : UInt32) : List Shape :=
  if state = 1 then
    if type = 0x00 then [.string, .string, .beInt 4, .beInt 4] else [.beInt 8]
  else if state = 2 then [.string, .string]
  else if type = 0x00 then [.varInt32]
  else if type = 0x11 then [.varInt32, .varInt32]
  else [.varInt32, .string]

variable [Platform]

/-- The reads of the handler do not take exactly this body. -/
def malformed (state type : UInt32) (body : AString) : Bool :=
  reads state type body != (true, body.length)

section Layouts

theorem statusRequest_outcome (u : AString) :
    parseStatusRequest.outcome u = readsAll [.string, .string, .beInt 4, .beInt 4] u :=
  andThen_outcome (fun _ => rfl) (fun _ => andThen_outcome (fun _ => rfl) fun _ =>
    andThen_outcome beInt32_outcome fun _ => andThen_outcome beInt32_outcome fun _ => ret_outcome _) u

theorem loginInfo_outcome (u : AString) : parseLoginInfo.outcome u = readsAll [.string, .string] u :=
  andThen_outcome (fun _ => rfl) (fun _ => andThen_outcome (fun _ => rfl) fun _ => ret_outcome _) u

theorem media_outcome (u : AString) : parseMedia.outcome u = readsAll [.varInt32, .varInt32] u :=
  andThen_outcome (fun _ => rfl) (fun _ => andThen_outcome (fun _ => rfl) fun _ => ret_outcome _) u

theorem mediaMsg_outcome (u : AString) : parseMediaMsg.outcome u = readsAll [.varInt32, .string] u :=
  andThen_outcome (fun _ => rfl) (fun _ => andThen_outcome (fun _ => rfl) fun _ => ret_outcome _) u

/-- Each handler reads the fields of its layout. -/
theorem reads_layout {state type : UInt32} (hknown : knows state type = true) (u : AString) :
    reads state type u = readsAll (layout state type) u := by
  unfold knows at hknown
  unfold reads layout
  split
  next h1 =>
    rw [if_pos h1] at hknown
    split
    next => exact statusRequest_outcome u
    next h0 =>
      rw [beq_eq_false_iff_ne.mpr h0, Bool.false_or] at hknown
      rw [if_pos (eq_of_beq hknown), readsAll_single]
      exact beInt64_outcome u
  next h1 =>
    rw [if_neg h1] at hknown
    split
    next h2 =>
      rw [if_pos h2] at hknown
      rw [if_pos (eq_of_beq hknown)]
      exact loginInfo_outcome u
    next h2 =>
      rw [if_neg h2] at hknown
      split at hknown
      next h3 =>
        rw [if_pos h3]
        split
        next =>
          rw [readsAll_single]
          rfl
        next h0 =>
          split
          next => exact media_outcome u
          next h11 =>
            rw [beq_eq_false_iff_ne.mpr h0, beq_eq_false_iff_ne.mpr h11, Bool.false_or,
              Bool.false_or] at hknown
            rw [if_pos (eq_of_beq hknown)]
            exact mediaMsg_outcome u
      next => cases hknown

/-- The NUL behind a body that is read exactly is left over. -/
theorem exact_body {state type : UInt32} (hknown : knows state type = true) {body : AString}
    (h : malformed state type body = false) :
    reads state type (body ++ [0]) = (true, body.length) := by
  rw [malformed, bne_eq_false_iff_eq, reads_layout hknown] at h
  rw [reads_layout hknown]
  exact (readsAll_extend h [0]).1

/-- The count of what is left shows a malformed body but where it is cut before a number of fixed width
or the characters of a string. -/
theorem length_shows {state type : UInt32} (hknown : knows state type = true) (body : AString) :
    ((reads state type (body ++ [0])).2 ≠ body.length ↔ malformed state type body = true) ↔
      cut (layout state type) body = false := by
  have hnul := reads_layout hknown (body ++ [0])
  have halone := reads_layout hknown body
  have hexact := @exact_body _ state type hknown body
  rw [malformed, hnul, halone] at *
  rw [bne_iff_ne, ← Bool.not_eq_true, ← readsAll_cut]
  rcases hread : readsAll (layout state type) (body ++ [0]) with ⟨_ | _, n⟩
  · -- a failure behind the NUL is a failure without it
    have hmalformed : readsAll (layout state type) body ≠ (true, body.length) := by
      intro h
      have hext := hexact (bne_eq_false_iff_eq.mpr h)
      rw [hread] at hext
      cases hext
    simp only [ne_eq, hmalformed, not_false_eq_true, iff_true, Prod.mk.injEq, true_and]
  · have hfound : n = body.length ↔ readsAll (layout state type) body = (true, body.length) := by
      constructor
      · rintro rfl
        exact readsAll_restrict hread (Nat.le_refl _)
      · intro h
        have hext := hexact (bne_eq_false_iff_eq.mpr h)
        rw [hread] at hext
        exact (Prod.mk.inj hext).2
    simp only [ne_eq, hfound, Prod.mk.injEq, Bool.true_eq_false, false_and, not_false_eq_true]

end Layouts

section Effects

omit [Platform] in
theorem modify_unaffected {s : Server Fifo} {p : Nat} {g : ClientHandle Fifo → ClientHandle Fifo}
    (husername : (g (s.heap p)).username = (s.heap p).username)
    (hstate : (g (s.heap p)).state = (s.heap p).state) :
    Unaffected p s (s.modify p g) ↔ (g (s.heap p)).protocol.state = (s.heap p).protocol.state := by
  have hself : (s.modify p g).heap p = g (s.heap p) := if_pos rfl
  constructor
  · intro h
    have hsame := h.protocolState
    rw [hself] at hsame
    exact hsame
  · intro h
    refine ⟨fun q hq => ?_, rfl, ?_, ?_, ?_⟩
    · rw [modify_heap, if_neg hq]
    · rw [hself, husername]
    · rw [hself, hstate]
    · rw [hself, h]

omit [Platform] in
theorem disconnect_unaffected (s : Server Fifo) (p : Nat) (reason : Int32) :
    Unaffected p s (s.modify p (ClientHandle.disconnect reason)) := by
  refine (modify_unaffected ?_ ?_).mpr ?_ <;> rw [ClientHandle.disconnect_eq]

omit [Platform] in
/-- A packet to `q` is no other connection's, or it is not queued. -/
theorem tell_unaffected (s : Server Fifo) (p q : Nat) (pkt : Packet) :
    Unaffected p s (s.tell q pkt) ↔ (q != p && !(s.heap q).hasSentDC) = false := by
  rcases eq_or_ne q p with rfl | hne
  · rw [bne_self_eq_false, Bool.false_and]
    refine iff_of_true ((modify_unaffected ?_ ?_).mpr ?_) rfl
    · exact ClientHandle.queue_username pkt _
    · exact ClientHandle.queue_state pkt _
    · rw [ClientHandle.queue_protocol]
  · rw [bne_iff_ne.mpr hne, Bool.true_and, Bool.not_eq_false']
    constructor
    · intro h
      have hsame := h.outgoing q hne
      rw [tell_self, ClientHandle.queue_outgoing] at hsame
      by_contra hdc
      rw [if_neg hdc] at hsame
      have hlen := congrArg List.length hsame
      have hpos := frame_length_pos pkt.body
      rw [List.length_append] at hlen
      omega
    · intro hdc
      rw [tell_kicked hdc]
      exact (Idle.refl p s).unaffected

omit [Platform] in
theorem Unaffected.refl (p : Nat) (s : Server Fifo) : Unaffected p s s := (Idle.refl p s).unaffected

omit [Platform] in
theorem Unaffected.symm {p : Nat} {s s' : Server Fifo} (h : Unaffected p s s') : Unaffected p s' s :=
  ⟨fun q hq => (h.outgoing q hq).symm, h.queue.symm, h.username.symm, h.state.symm,
    h.protocolState.symm⟩

omit [Platform] in
theorem Unaffected.trans {p : Nat} {s s' s'' : Server Fifo} (h : Unaffected p s s')
    (h' : Unaffected p s' s'') : Unaffected p s s'' :=
  ⟨fun q hq => (h'.outgoing q hq).trans (h.outgoing q hq), h'.queue.trans h.queue,
    h'.username.trans h.username, h'.state.trans h.state, h'.protocolState.trans h.protocolState⟩

omit [Platform] in
theorem answered_unaffected {s : Server Fifo} {p : Nat} (h1 : (s.heap p).protocol.state = 1)
    (request : AString × AString × Int32 × Int32) :
    Unaffected p s (s.modify p (answered request)) ↔
      (request.1 == appP2pchat && request.2.2.2 == 2) = false := by
  have hsame : (answered request (s.heap p)).username = (s.heap p).username ∧
      (answered request (s.heap p)).state = (s.heap p).state := by
    unfold answered
    split
    next => exact ⟨ClientHandle.queue_username _ _, ClientHandle.queue_state _ _⟩
    next =>
      rw [ClientHandle.disconnect_eq]
      exact ⟨rfl, rfl⟩
  rw [modify_unaffected hsame.1 hsame.2, answered_state, h1, Bool.and_eq_false_iff,
    beq_eq_false_iff_ne, beq_eq_false_iff_ne]
  by_cases happ : request.1 = appP2pchat
  · by_cases h2 : request.2.2.2 = 2
    · have hyes : accepts request := And.intro happ (Or.inr h2)
      rw [if_pos hyes, h2]
      exact iff_of_false (by decide) (not_or.mpr ⟨fun h => h happ, fun h => h rfl⟩)
    · refine iff_of_true ?_ (Or.inr h2)
      split
      next hok =>
        rw [hok.2.resolve_right h2]
        rfl
      next => rfl
  · have hno : ¬accepts request := fun h => happ h.1
    rw [if_neg hno]
    exact iff_of_true rfl (Or.inl happ)

/-- What a packet comes to changes nothing that it must not just if the packet is harmless. -/
theorem reacted_unaffected {s : Server Fifo} {p : Nat} {type : UInt32} {bytes : AString}
    (hknown : knows (s.heap p).protocol.state type = true) :
    Unaffected p s (s.reacted p type bytes) ↔ s.harmful p type bytes = false := by
  have hrefl := Unaffected.refl p s
  unfold knows at hknown
  unfold reacted
  split
  next h1 =>
    rw [if_pos h1] at hknown
    rw [harmful_status h1]
    split
    next h0 =>
      rw [beq_iff_eq.mpr h0, Bool.true_and]
      rcases (parseStatusRequest bytes).1 with _ | request
      · exact iff_of_true hrefl rfl
      · exact answered_unaffected h1 request
    next h0 =>
      rw [beq_eq_false_iff_ne.mpr h0, Bool.false_or] at hknown
      rw [if_pos (eq_of_beq hknown), beq_eq_false_iff_ne.mpr h0, Bool.false_and]
      refine iff_of_true ?_ rfl
      rcases (parseBEInt64 bytes).1 with _ | timestamp
      · exact hrefl
      · refine (tell_unaffected s p p _).mpr ?_
        rw [bne_self_eq_false, Bool.false_and]
  next h1 =>
    rw [if_neg h1] at hknown
    split
    next h2 =>
      rw [if_pos h2] at hknown
      rw [if_pos (eq_of_beq hknown), harmful_login h2, hknown, Bool.true_and]
      rcases (parseLoginInfo bytes).1 with _ | login
      · exact iff_of_true hrefl rfl
      · refine iff_of_false (fun h => ?_) (fun h => by cases h)
        have hlen := congrArg List.length h.queue
        simp only [Option.elim_some, handleLogin, List.length_append, List.length_singleton] at hlen
        omega
    next h2 =>
      rw [if_neg h2] at hknown
      split
      next h3 =>
        rw [if_pos h3] at hknown
        rw [harmful_work h3]
        split
        next h0 =>
          rw [relay_none (by rw [h0]; decide) (by rw [h0]; decide)]
          refine iff_of_true ?_ rfl
          rcases (parseVarInt32 bytes).1 with _ | id
          · exact hrefl
          · refine (modify_unaffected ?_ ?_).mpr ?_ <;> rw [ClientHandle.handleKeepAlive] <;> split <;> rfl
        next h0 =>
          have hmedia : type = 0x11 ∨ type = 0x12 := by
            rw [beq_eq_false_iff_ne.mpr h0, Bool.false_or] at hknown
            exact (Bool.or_eq_true_iff.mp hknown).imp eq_of_beq eq_of_beq
          rw [if_pos hmedia]
          rcases s.relay p type bytes with _ | x
          · exact iff_of_true hrefl rfl
          · exact tell_unaffected s p x.1 x.2
      next h3 =>
        rw [if_neg h3] at hknown
        cases hknown

end Effects

section Calls

variable {s : Server Fifo} {p : Nat} {type : UInt32} {bb : Fifo} {body : AString}

/-- What the loop makes of a call with these bytes. -/
theorem call_cases (hs : s.Sound) (hlive : (s.heap p).state.toNat < 4)
    (hbody : bb.unread = body ++ [0]) (hknown : knows (s.heap p).protocol.state type = true) :
    (overlong (s.relay p type (body ++ [0])).toList = true ∧
        handlePacket p bb type s = .error .verify) ∨
      overlong (s.relay p type (body ++ [0])).toList = false ∧
        handlePacket p bb type s = .ok (true,
          bb.advance (reads (s.heap p).protocol.state type (body ++ [0])).2,
          (s.handled p type (body ++ [0])).reacted p type (body ++ [0])) := by
  rw [← hbody]
  rcases hlong : overlong (s.relay p type bb.unread).toList with _ | _
  · have heq := @handlePacket_eq _ s p bb type hs fun x hx => relay_fits hlong hx
    rw [hknown] at heq
    exact Or.inr ⟨rfl, heq⟩
  · obtain ⟨x, hx, hlong⟩ := relay_long hlong
    exact Or.inl ⟨rfl, handlePacket_verify hs hlive hx hlong⟩

theorem reports_iff (hs : s.Sound) (hlive : (s.heap p).state.toNat < 4)
    (hbody : bb.unread = body ++ [0]) (hknown : knows (s.heap p).protocol.state type = true) :
    (endpoint p).Reports (type, bb, s) ↔
      overlong (s.relay p type (body ++ [0])).toList = false ∧
        (reads (s.heap p).protocol.state type (body ++ [0])).2 ≠ body.length := by
  have hspace : ∀ n, getReadableSpace (bb.advance n) ≠ 1 ↔ n ≠ body.length := by
    intro n
    have hleft : getReadableSpace (bb.advance n) = (body ++ [0]).length - n := by
      rw [← hbody, ← List.length_drop]
      rfl
    rw [hleft, List.length_append, List.length_singleton]
    omega
  rcases call_cases hs hlive hbody hknown with ⟨hlong, herror⟩ | ⟨hshort, hok⟩
  · rw [hlong]
    refine iff_of_false ?_ (fun h => by cases h.1)
    rintro ⟨bb', s', hok, _⟩
    have hok : handlePacket p bb type s = _ := hok
    rw [herror] at hok
    cases hok
  · rw [← hspace]
    constructor
    · rintro ⟨bb', s', hok', hone⟩
      have heq := Except.ok.inj (hok.symm.trans hok')
      cases heq
      exact ⟨hshort, hone⟩
    · rintro ⟨_, hone⟩
      exact ⟨_, _, hok, hone⟩

theorem completes_unaffected_iff (hs : s.Sound) (hlive : (s.heap p).state.toNat < 4)
    (hlen : bb.unread.length ≤ 65536) (hbody : bb.unread = body ++ [0])
    (hknown : knows (s.heap p).protocol.state type = true) :
    (∃ s', (endpoint p).Completes (type, bb, s) s' ∧ Unaffected p s s') ↔
      s.harmful p type (body ++ [0]) = false ∧
        overlong (s.relay p type (body ++ [0])).toList = false := by
  rcases call_cases hs hlive hbody hknown with ⟨hlong, herror⟩ | ⟨hshort, hok⟩
  · rw [hlong]
    refine iff_of_false ?_ (fun h => by cases h.2)
    rintro ⟨_, ⟨bb', s', hok, _⟩, _⟩
    have hok : handlePacket p bb type s = _ := hok
    rw [herror] at hok
    cases hok
  · have hidle : Idle p s (s.handled p type (body ++ [0])) := Idle.store rfl rfl rfl rfl rfl
    have hstate : ((s.handled p type (body ++ [0])).heap p).protocol.state =
        (s.heap p).protocol.state := hidle.protocolState
    have hsound : ((s.handled p type (body ++ [0])).reacted p type (body ++ [0])).Sound := by
      obtain ⟨_, s', hok', hleads⟩ := handlePacket_returns hs hlive (G := Gate.open) hlen
        fun x hx => ⟨relay_fits (by rw [hbody]; exact hshort) hx, rfl⟩
      have heq := congrArg (fun r => r.2.2) (Except.ok.inj (hok.symm.trans hok'))
      dsimp only at heq
      rw [heq]
      exact sound_of_small hs hleads.small
    have hcheck : ∃ s', (endpoint p).checkLength type
        (bb.advance (reads (s.heap p).protocol.state type (body ++ [0])).2)
        ((s.handled p type (body ++ [0])).reacted p type (body ++ [0])) = .ok s' ∧
          Unaffected p ((s.handled p type (body ++ [0])).reacted p type (body ++ [0])) s' := by
      unfold Endpoint.checkLength
      split
      next => exact ⟨_, kick_modify hsound p errorCodePacketError, disconnect_unaffected _ p _⟩
      next => exact ⟨_, rfl, Unaffected.refl p _⟩
    have hsame : s.harmful p type (body ++ [0]) = false ↔
        Unaffected p s ((s.handled p type (body ++ [0])).reacted p type (body ++ [0])) := by
      rw [← harmful_congr hidle, ← reacted_unaffected (by rw [hstate]; exact hknown)]
      exact ⟨hidle.unaffected.trans, hidle.unaffected.symm.trans⟩
    obtain ⟨s', hs', hafter⟩ := hcheck
    rw [hsame]
    constructor
    · rintro ⟨s'', ⟨bb', t, hok', hdone⟩, h⟩
      have heq := Except.ok.inj (hok.symm.trans hok')
      cases heq
      have heq := Except.ok.inj (hs'.symm.trans hdone)
      subst heq
      exact ⟨h.trans hafter.symm, hshort⟩
    · rintro ⟨h, _⟩
      exact ⟨s', ⟨_, _, hok, hs'⟩, h.trans hafter⟩

end Calls

section Buffers

variable {s s₁ : Server ByteBuffer} {p : Nat} {data : AString} {type : UInt32} {bb : ByteBuffer}

/-- A call on the code's buffers, seen on queues. -/
theorem callsFor_contents (hs : (s.map ByteBuffer.contents).Sound) (hlive : (s.heap p).state.toNat < 4)
    (hcall : (endpoint p).CallsFor data s (type, bb, s₁)) :
    (s₁.map ByteBuffer.contents).Sound ∧ (s₁.heap p).state.toNat < 4 ∧
      bb.contents.unread.length ≤ 65536 ∧
        ∃ body, bb.contents.unread = body ++ [0] ∧ (readAll bb).1 = body ++ [0] := by
  have hf := ByteBuffer.contents_hom
  have hlive' : ((s.map ByteBuffer.contents).heap p).state.toNat < 4 := hlive
  obtain ⟨hsmall, hlen, body, hbody⟩ :=
    callsFor_small hs hlive' (callsFor_simulates hf (endpoint_simulates hf p) hcall)
  have hbytes : bb.contents.unread = (readAll bb).1 := congrArg Prod.fst (hf.readAll bb)
  exact ⟨sound_of_small hs hsmall, (framed_of_small hsmall).live.mpr hlive', hlen, body, hbody,
    hbytes.symm.trans hbody⟩

/-- `PacketError` is called for a packet if and only if its body is malformed, just where the body is
not cut before a number of fixed width or the characters of a string, and the relay of a malformed one
is not too long. -/
theorem malformed_reported_iff (hs : (s.map ByteBuffer.contents).Sound)
    (hlive : (s.heap p).state.toNat < 4) (hcall : (endpoint p).CallsFor data s (type, bb, s₁))
    (hknown : knows (s₁.heap p).protocol.state type = true) :
    ∃ body, (readAll bb).1 = body ++ [0] ∧
      (((endpoint p).Reports (type, bb, s₁) ↔
          malformed (s₁.heap p).protocol.state type body = true) ↔
        cut (layout (s₁.heap p).protocol.state type) body = false ∧
          ¬(malformed (s₁.heap p).protocol.state type body = true ∧
            overlong (s₁.relay p type (body ++ [0])).toList = true)) := by
  have hf := ByteBuffer.contents_hom
  obtain ⟨hs₁, hlive₁, _, body, hunread, hbody⟩ := callsFor_contents hs hlive hcall
  refine ⟨body, hbody, ?_⟩
  have hreports := (reports_simulates hf (endpoint_simulates hf p) (type, bb, s₁)).symm.trans
    (reports_iff hs₁ hlive₁ hunread hknown)
  change (endpoint p).Reports (type, bb, s₁) ↔ overlong (s₁.relay p type (body ++ [0])).toList = false ∧
    (reads (s₁.heap p).protocol.state type (body ++ [0])).2 ≠ body.length at hreports
  have hshows := length_shows hknown body
  rw [hreports, ← hshows]
  cases overlong (s₁.relay p type (body ++ [0])).toList with
  | true =>
    -- the call does not return, so a malformed body goes unreported
    have hexact : malformed (s₁.heap p).protocol.state type body = false →
        (reads (s₁.heap p).protocol.state type (body ++ [0])).2 = body.length := by
      intro h
      rw [exact_body hknown h]
    cases hmalformed : malformed (s₁.heap p).protocol.state type body with
    | true => simp
    | false => simp [hexact hmalformed]
  | false => simp only [true_and, Bool.false_eq_true, and_false, not_false_eq_true, and_true]

omit [Platform] in
/-- A ping that lacks its last byte is reported. -/
theorem malformed_reported_ping :
    letI := zeroPlatform
    ∃ s s₁ : Server ByteBuffer, ∃ bb : ByteBuffer,
      (endpoint 0).CallsFor (frame [0x01, 0, 0, 0, 0, 0, 0, 7]) s (0x01, bb, s₁) ∧
        (endpoint 0).Reports (0x01, bb, s₁) := by
  let : Platform := zeroPlatform
  have hrun : ((serverMachine ByteBuffer).replay enabled [.connectionAccepted []] initial).bind (fun s =>
      ((endpoint 0).firstCall (frame [0x01, 0, 0, 0, 0, 0, 0, 7]) s).map fun call => decide
        ((s.heap 0).state.toNat < 4 ∧ call.1 = 0x01 ∧ (call.2.2.heap 0).protocol.state = 1 ∧
          (readAll call.2.1).1 = [0, 0, 0, 0, 0, 0, 7] ++ [0] ∧
            (call.2.2.relay 0 0x01 ([0, 0, 0, 0, 0, 0, 7] ++ [0])).isNone)) = some true := by
    decide +kernel
  obtain ⟨s, hs, hnext⟩ := Option.bind_eq_some_iff.mp hrun
  obtain ⟨⟨type, bb, s₁⟩, hcall, hall⟩ := Option.map_eq_some_iff.mp hnext
  obtain ⟨hlive, htype, hstate, hbytes, hrelay⟩ := of_decide_eq_true hall
  dsimp only at htype
  subst htype
  dsimp only at hstate hbytes hrelay
  have hcalls := Endpoint.firstCall_callsFor hcall
  have hsound : (s.map ByteBuffer.contents).Sound :=
    reachable_sound (by rw [initial_contents]; exact initial_sound) (replay_reachable hs)
  refine ⟨s, s₁, bb, hcalls, ?_⟩
  obtain ⟨body, hbody, hiff⟩ :=
    malformed_reported_iff hsound hlive hcalls (by rw [hstate]; decide)
  have hsame : body = [0, 0, 0, 0, 0, 0, 7] := List.append_cancel_right (hbody.symm.trans hbytes)
  subst hsame
  rw [hstate, Option.isNone_iff_eq_none.mp hrelay] at hiff
  exact (hiff.mpr (by decide +kernel)).mpr (by decide +kernel)

omit [Platform] in
/-- A ping without its timestamp is not. -/
theorem malformed_unreported :
    letI := zeroPlatform
    ∃ s s₁ : Server ByteBuffer, ∃ bb : ByteBuffer,
      (serverMachine ByteBuffer).Reachable initial s ∧ (s.heap 0).state.toNat < 4 ∧
        (endpoint 0).CallsFor (frame [0x01]) s (0x01, bb, s₁) ∧ (readAll bb).1 = [] ++ [0] ∧
          knows (s₁.heap 0).protocol.state 0x01 = true ∧
            malformed (s₁.heap 0).protocol.state 0x01 [] = true ∧
              ¬(endpoint 0).Reports (0x01, bb, s₁) := by
  let : Platform := zeroPlatform
  have hrun : ((serverMachine ByteBuffer).replay enabled [.connectionAccepted []] initial).bind (fun s =>
      ((endpoint 0).firstCall (frame [0x01]) s).map fun call => decide
        ((s.heap 0).state.toNat < 4 ∧ call.1 = 0x01 ∧ (readAll call.2.1).1 = [] ++ [0] ∧
          knows (call.2.2.heap 0).protocol.state 0x01 = true ∧
            malformed (call.2.2.heap 0).protocol.state 0x01 [] = true ∧
              ¬(endpoint 0).Reports (0x01, call.2))) = some true := by
    decide +kernel
  obtain ⟨s, hs, hnext⟩ := Option.bind_eq_some_iff.mp hrun
  obtain ⟨⟨type, bb, s₁⟩, hcall, hall⟩ := Option.map_eq_some_iff.mp hnext
  obtain ⟨hlive, htype, hbytes, hknown, hmalformed, hsilent⟩ := of_decide_eq_true hall
  dsimp only at htype
  subst htype
  exact ⟨s, s₁, bb, replay_reachable hs, hlive, Endpoint.firstCall_callsFor hcall, hbytes, hknown,
    hmalformed, hsilent⟩

/-- Handling a malformed packet leaves all that it must not change if and only if the packet, the NUL
behind its body included, is harmless, and its relay is not too long. -/
theorem malformed_unaffected_iff (hs : (s.map ByteBuffer.contents).Sound)
    (hlive : (s.heap p).state.toNat < 4) (hcall : (endpoint p).CallsFor data s (type, bb, s₁))
    (hknown : knows (s₁.heap p).protocol.state type = true) :
    ∃ body, (readAll bb).1 = body ++ [0] ∧
      (malformed (s₁.heap p).protocol.state type body = true →
        ((∃ s', (endpoint p).Completes (type, bb, s₁) s' ∧ Unaffected p s₁ s') ↔
          s₁.harmful p type (body ++ [0]) = false ∧
            overlong (s₁.relay p type (body ++ [0])).toList = false)) := by
  have hf := ByteBuffer.contents_hom
  obtain ⟨hs₁, hlive₁, hlen, body, hunread, hbody⟩ := callsFor_contents hs hlive hcall
  refine ⟨body, hbody, fun _ => ?_⟩
  have hcompletes := completes_unaffected_iff hs₁ hlive₁ hlen hunread hknown
  rw [completes_simulates hf (endpoint_simulates hf p) (type, bb, s₁)] at hcompletes
  simp only [unaffected_map] at hcompletes
  exact hcompletes

omit [Platform] in
/-- A ping that lacks its last byte has no effect. -/
theorem malformed_unaffected_ping :
    letI := zeroPlatform
    ∃ s s₁ s' : Server ByteBuffer, ∃ bb : ByteBuffer,
      (endpoint 0).CallsFor (frame [0x01, 0, 0, 0, 0, 0, 0, 7]) s (0x01, bb, s₁) ∧
        (endpoint 0).Completes (0x01, bb, s₁) s' ∧ Unaffected 0 s₁ s' := by
  let : Platform := zeroPlatform
  have hrun : ((serverMachine ByteBuffer).replay enabled [.connectionAccepted []] initial).bind (fun s =>
      ((endpoint 0).firstCall (frame [0x01, 0, 0, 0, 0, 0, 0, 7]) s).map fun call => decide
        ((s.heap 0).state.toNat < 4 ∧ call.1 = 0x01 ∧ (call.2.2.heap 0).protocol.state = 1 ∧
          (readAll call.2.1).1 = [0, 0, 0, 0, 0, 0, 7] ++ [0] ∧
            call.2.2.harmful 0 0x01 ([0, 0, 0, 0, 0, 0, 7] ++ [0]) = false ∧
              overlong (call.2.2.relay 0 0x01 ([0, 0, 0, 0, 0, 0, 7] ++ [0])).toList = false)) =
        some true := by
    decide +kernel
  obtain ⟨s, hs, hnext⟩ := Option.bind_eq_some_iff.mp hrun
  obtain ⟨⟨type, bb, s₁⟩, hcall, hall⟩ := Option.map_eq_some_iff.mp hnext
  obtain ⟨hlive, htype, hstate, hbytes, hharmless, hfits⟩ := of_decide_eq_true hall
  dsimp only at htype
  subst htype
  dsimp only at hstate hbytes hharmless hfits
  have hcalls := Endpoint.firstCall_callsFor hcall
  have hsound : (s.map ByteBuffer.contents).Sound :=
    reachable_sound (by rw [initial_contents]; exact initial_sound) (replay_reachable hs)
  obtain ⟨body, hbody, hiff⟩ :=
    malformed_unaffected_iff hsound hlive hcalls (by rw [hstate]; decide)
  have hsame : body = [0, 0, 0, 0, 0, 0, 7] := List.append_cancel_right (hbody.symm.trans hbytes)
  subst hsame
  rw [hstate] at hiff
  obtain ⟨s', hs', h⟩ := (hiff (by decide +kernel)).mpr ⟨hharmless, hfits⟩
  exact ⟨s, s₁, s', bb, hcalls, hs', h⟩

omit [Platform] in
/-- A login without a password: the NUL is read as the length of an empty one, and the request is
queued. -/
theorem malformed_queued :
    letI := zeroPlatform
    ∃ s s₁ s' : Server ByteBuffer, ∃ bb : ByteBuffer,
      (serverMachine ByteBuffer).Reachable initial s ∧ (s.heap 0).state.toNat < 4 ∧
        (endpoint 0).CallsFor (frame [0x00, 1, 97]) s (0x00, bb, s₁) ∧ (readAll bb).1 = [1, 97] ++ [0] ∧
          knows (s₁.heap 0).protocol.state 0x00 = true ∧
            malformed (s₁.heap 0).protocol.state 0x00 [1, 97] = true ∧
              (endpoint 0).Completes (0x00, bb, s₁) s' ∧ ¬Unaffected 0 s₁ s' := by
  let : Platform := zeroPlatform
  have hrun : ((serverMachine ByteBuffer).replay enabled (.connectionAccepted [] :: greets 0)
      initial).bind (fun s => ((endpoint 0).firstCall (frame [0x00, 1, 97]) s).bind fun call =>
        ((endpoint 0).handlePacket call.2.1 0x00 call.2.2).toOption.bind fun r =>
          ((endpoint 0).checkLength 0x00 r.2.1 r.2.2).toOption.map fun s' => decide
            ((s.heap 0).state.toNat < 4 ∧ call.1 = 0x00 ∧ r.1 = true ∧
              (readAll call.2.1).1 = [1, 97] ++ [0] ∧
                knows (call.2.2.heap 0).protocol.state 0x00 = true ∧
                  malformed (call.2.2.heap 0).protocol.state 0x00 [1, 97] = true ∧
                    call.2.2.queue.length < s'.queue.length)) = some true := by
    decide +kernel
  obtain ⟨s, hs, hnext⟩ := Option.bind_eq_some_iff.mp hrun
  obtain ⟨⟨type, bb, s₁⟩, hcall, hhandle⟩ := Option.bind_eq_some_iff.mp hnext
  obtain ⟨⟨understood, bb', t⟩, hok, hcheck⟩ := Option.bind_eq_some_iff.mp hhandle
  obtain ⟨s', hs', hall⟩ := Option.map_eq_some_iff.mp hcheck
  obtain ⟨hlive, htype, htrue, hbytes, hknown, hmalformed, hqueue⟩ := of_decide_eq_true hall
  dsimp only at htype htrue
  subst htype htrue
  have hok' := toOption_eq_some.mp hok
  refine ⟨s, s₁, s', bb, replay_reachable hs, hlive, Endpoint.firstCall_callsFor hcall, hbytes, hknown,
    hmalformed, ⟨bb', t, hok', toOption_eq_some.mp hs'⟩, fun h => ?_⟩
  dsimp only at hqueue
  rw [h.queue] at hqueue
  omega

end Buffers

end Server

end P2PChat

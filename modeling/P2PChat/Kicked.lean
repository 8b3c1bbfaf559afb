import P2PChat.KickedPackets

namespace P2PChat

open ByteQueue Relation

namespace Server

theorem Change.started {c c' : ClientHandle Fifo} (h : ClientHandle.Change c c')
    (hone : c.protocol.state ≠ 1) : c'.protocol.state ≠ 1 := by
  cases h with
  | quiet h => rw [h.protocolState]; exact hone
  | handled packetType bytes _ => exact hone
  | status state _ h _ => exact absurd h hone
  | pong timestamp h => exact absurd h hone
  | lost _ _ _ _ => exact (by decide : (255 : UInt32) ≠ 1)
  | disconnect reason => rw [ClientHandle.disconnect_eq]; exact hone
  | flush => exact hone
  | working _ => exact hone
  | keepAlive id now _ =>
    unfold ClientHandle.keepAliveSent
    split
    next => exact hone
    next => rw [ClientHandle.queue_eq]; exact hone

section Loop

variable [Platform]

/-- Harm is not undone by what the packets that follow do. -/
theorem Small.harmed {G : Gate} {p : Nat} {s₀ s s' : Server Fifo} (hsmall : Small G p s s')
    (h : Harmed p s₀ s) : Harmed p s₀ s' := by
  cases hsmall with
  | @change c hc =>
    have hself : (s.store p c).heap p = c := if_pos rfl
    rcases h with hqueue | ⟨hone, hnot⟩ | ⟨q, hq, hlen⟩
    · exact Or.inl hqueue
    · refine Or.inr (Or.inl ⟨hone, ?_⟩)
      rw [hself]
      exact Change.started hc hnot
    · refine Or.inr (Or.inr ⟨q, hq, ?_⟩)
      rw [store_heap, if_neg hq]
      exact hlen
  | @request bytes username password _ _ _ _ _ =>
    rcases h with hqueue | ⟨hone, hnot⟩ | ⟨q, hq, hlen⟩
    · refine Or.inl ?_
      rw [handleLogin, List.length_append]
      omega
    · refine Or.inr (Or.inl ⟨hone, ?_⟩)
      rw [handleLogin, modify_heap, if_pos rfl]
      exact hnot
    · refine Or.inr (Or.inr ⟨q, hq, ?_⟩)
      rw [handleLogin, modify_heap, if_neg hq]
      exact hlen
  | @relayed r pkt _ _ _ _ =>
    rcases h with hqueue | ⟨hone, hnot⟩ | ⟨q, hq, hlen⟩
    · exact Or.inl hqueue
    · refine Or.inr (Or.inl ⟨hone, ?_⟩)
      rcases eq_or_ne p r with rfl | hne
      · rw [tell_self, ClientHandle.queue_protocol]
        exact hnot
      · rw [tell_other hne]
        exact hnot
    · refine Or.inr (Or.inr ⟨q, hq, ?_⟩)
      rcases eq_or_ne q r with rfl | hne
      · rw [tell_self, ClientHandle.queue_outgoing]
        split
        next => exact hlen
        next => rw [List.length_append]; omega
      · rw [tell_other hne]
        exact hlen

theorem harmed_of_small {G : Gate} {p : Nat} {s₀ s s' : Server Fifo}
    (hsmall : ReflTransGen (Small G p) s s') (h : Harmed p s₀ s) : Harmed p s₀ s' := by
  induction hsmall with
  | refl => exact h
  | tail _ hlast ih => exact hlast.harmed ih

/-- Whether there is harm in these bytes of `p`. -/
def harmIn (p : Nat) (u : AString) (s : Server Fifo) : Bool :=
  (packets (knows (s.heap p).protocol.state) u).any fun packet => s.harmful p packet.1 packet.2

/-- Where the loop of `AddReceivedData` stands, with these bytes to go: the harm is done, or it is
still to come. -/
structure Judged (p : Nat) (s₀ : Server Fifo) (harm : Bool) (u : AString) (s : Server Fifo) : Prop where
  small : ReflTransGen (Small Gate.open p) s₀ s
  room : u.length ≤ 65536
  received : (s.heap p).protocol.receivedData = Fifo.filled 65536 u
  verdict : (harm = true ∧ Harmed p s₀ s) ∨ (harm = s₀.harmIn p u ∧ Idle p s₀ s)

/-- What the loop comes to. -/
def Settled (p : Nat) (s₀ : Server Fifo) (harm : Bool) (r : Except Halt (Server Fifo)) : Prop :=
  match r with
  | .ok s => Outcome p harm s₀ s
  | .error _ => True

theorem Judged.settled {p : Nat} {s₀ s s' : Server Fifo} {harm : Bool} {u : AString}
    (h : Judged p s₀ harm u s) (hno : s₀.harmIn p u = false) (hsmall : Small Gate.open p s s')
    (hidle : Idle p s s') : Settled p s₀ harm (.ok s') := by
  rcases h.verdict with ⟨rfl, hharmed⟩ | ⟨rfl, hstill⟩
  · exact (hsmall.harmed hharmed).outcome
  · rw [hno]
    exact (hstill.trans hidle).outcome

theorem harmIn_cons {p : Nat} {s : Server Fifo} {u payload rest bytes : AString} {packetType : UInt32}
    (hnext : nextFrame u = some (payload, rest)) (hopen : opened payload = some (packetType, bytes)) :
    s.harmIn p u = (s.harmful p packetType bytes ||
      if knows (s.heap p).protocol.state packetType then s.harmIn p rest else false) := by
  unfold harmIn
  rw [packets_cons hnext hopen, List.any_cons]
  split <;> rfl

/-- The verdict after a packet that was handled. -/
theorem Judged.handled {p : Nat} {s₀ s s₁ s' : Server Fifo} {harm understood : Bool}
    {u payload rest : AString} {packetType : UInt32} {bb bb' : Fifo} (h : Judged p s₀ harm u s)
    (hdc : (s₀.heap p).hasSentDC = true)
    (hrange : (s₀.heap p).protocol.state = 1 ∨ (s₀.heap p).protocol.state = 2 ∨
      (s₀.heap p).protocol.state = 3)
    (hnext : nextFrame u = some (payload, rest)) (hopen : opened payload = some (packetType, bb.unread))
    (hs₁ : s₁.Sound) (hlive : (s₁.heap p).state.toNat < 4) (hset : Small Gate.open p s s₁)
    (hsetidle : Idle p s s₁) (hok : handlePacket p bb packetType s₁ = .ok (understood, bb', s'))
    (hsmall : ReflTransGen (Small Gate.open p) s₁ s') :
    (harm = true ∧ Harmed p s₀ s') ∨
      (harm = (if knows (s₁.heap p).protocol.state packetType then s₀.harmIn p rest else false) ∧
        Idle p s₀ s') := by
  rcases h.verdict with ⟨hharm, hharmed⟩ | ⟨hharm, hidle⟩
  · exact Or.inl ⟨hharm, harmed_of_small hsmall (hset.harmed hharmed)⟩
  · have hidle₁ := hidle.trans hsetidle
    have hreacts : Reacts s₁ (Outcome p (s₁.harmful p packetType bb.unread))
        (knows (s₁.heap p).protocol.state packetType) (handlePacket p bb packetType s₁) :=
      handlePacket_kicked hs₁ hlive (hidle₁.hasSentDC.trans hdc)
        (by rw [hidle₁.protocolState]; exact hrange)
    rw [harmful_congr hidle₁] at hreacts
    rw [harmIn_cons hnext hopen] at hharm
    rcases hreacts with herror | ⟨bb'', s'', hok', houtcome⟩
    · rw [herror] at hok
      cases hok
    · have heq : s'' = s' := by
        have htriple := Except.ok.inj (hok'.symm.trans hok)
        exact (Prod.mk.inj (Prod.mk.inj htriple).2).2
      rw [heq] at houtcome
      rw [hidle₁.protocolState]
      cases hharmful : s₀.harmful p packetType bb.unread with
      | true =>
        rw [hharmful] at houtcome hharm
        exact Or.inl ⟨hharm, houtcome.of_idle hidle₁⟩
      | false =>
        rw [hharmful, Bool.false_or] at hharm
        rw [hharmful] at houtcome
        exact Or.inr ⟨hharm, hidle₁.trans houtcome⟩

theorem kicked_rule {p : Nat} {s₀ : Server Fifo} (hs₀ : s₀.Sound)
    (hlive : (s₀.heap p).state.toNat < 4) (hdc : (s₀.heap p).hasSentDC = true)
    (hrange : (s₀.heap p).protocol.state = 1 ∨ (s₀.heap p).protocol.state = 2 ∨
      (s₀.heap p).protocol.state = 3) (harm : Bool) :
    (endpoint p).Rule 65536 (Judged p s₀ harm) (Settled p s₀ harm) where
  received u s h := ⟨h.room, h.received⟩
  wait u s h hnext := by
    have hno : s₀.harmIn p u = false := by
      rw [harmIn, packets_none hnext]
      rfl
    exact h.settled hno (setReceived_small h.room s) (Idle.store rfl rfl rfl rfl rfl)
  unreadable u s payload rest h hnext hopen := by
    have hlen := nextFrame_length hnext
    have hroom := h.room
    have hno : s₀.harmIn p u = false := by
      rw [harmIn, packets_unreadable hnext hopen]
      rfl
    exact h.settled hno (setReceived_small (by omega) s) (Idle.store rfl rfl rfl rfl rfl)
  packetError u s packetType h := by
    have hs := sound_of_small hs₀ h.small
    obtain ⟨s', hok, hleads⟩ := kick_ok hs (G := Gate.open) p errorCodePacketError
    refine ⟨s', hok, h.small.trans hleads.small, h.room, hleads.received.trans h.received, ?_⟩
    rcases h.verdict with ⟨hharm, hharmed⟩ | ⟨hharm, hidle⟩
    · exact Or.inl ⟨hharm, harmed_of_small hleads.small hharmed⟩
    · obtain ⟨s'', hok', hidle'⟩ := kick_idle hs (hidle.hasSentDC.trans hdc) errorCodePacketError
      have heq : s'' = s' := Except.ok.inj (hok'.symm.trans hok)
      rw [heq] at hidle'
      exact Or.inr ⟨hharm, hidle.trans hidle'⟩
  packet u s payload rest packetType bb h hnext hopen := by
    have hlen := nextFrame_length hnext
    have hroom := h.room
    have hrest : rest.length ≤ 65536 := by omega
    have hset := setReceived_small (G := Gate.open) (p := p) hrest s
    have hsetidle : Idle p s (s.modify p (ClientHandle.setReceived (Fifo.filled 65536 rest))) :=
      Idle.store rfl rfl rfl rfl rfl
    have hreceived : ((s.modify p (ClientHandle.setReceived (Fifo.filled 65536 rest))).heap
        p).protocol.receivedData = Fifo.filled 65536 rest := by
      rw [modify_heap, if_pos rfl]
      rfl
    have hcall : (endpoint p).setReceived (Fifo.filled 65536 rest) s =
        s.modify p (ClientHandle.setReceived (Fifo.filled 65536 rest)) := rfl
    rw [hcall]
    generalize s.modify p (ClientHandle.setReceived (Fifo.filled 65536 rest)) = s₁ at *
    have hsmall := h.small.tail hset
    have hs₁ := sound_of_small hs₀ hsmall
    have hlive₁ := (framed_of_small hsmall).live.mpr hlive
    have hbytes := opened_length hopen
    have hbb : bb.unread.length ≤ 65536 := by omega
    by_cases hlong : ∃ x, s₁.relay p packetType bb.unread = some x ∧ 65536 < x.2.body.length
    · obtain ⟨x, hx, hbody⟩ := hlong
      exact Or.inl ⟨_, handlePacket_verify hs₁ hlive₁ hx hbody, trivial⟩
    · obtain ⟨bb', s', hok, hleads⟩ := handlePacket_returns hs₁ hlive₁ hbb (G := Gate.open)
        (fun x hx => ⟨Nat.le_of_not_lt fun hbody => hlong ⟨x, hx, hbody⟩, rfl⟩)
      have hverdict := h.handled hdc hrange hnext hopen hs₁ hlive₁ hset hsetidle hok hleads.small
      by_cases hknown : knows (s₁.heap p).protocol.state packetType = true
      · rw [if_pos hknown] at hverdict
        rw [hknown] at hok
        exact Or.inr (Or.inr ⟨bb', s', rest, hok, Nat.le_refl _, hsmall.trans hleads.small, hrest,
          hleads.received.trans hreceived, hverdict⟩)
      · rw [if_neg hknown] at hverdict
        rw [Bool.not_eq_true] at hknown
        rw [hknown] at hok
        refine Or.inr (Or.inl ⟨bb', s', hok, ?_⟩)
        rcases hverdict with ⟨hharm, hharmed⟩ | ⟨hharm, hidle⟩
        · rw [hharm]
          exact hharmed.outcome
        · rw [hharm]
          exact hidle.outcome

/-- What a tick of a kicked connection does with the data. -/
theorem tickReceived_kicked {p : Nat} {s s' : Server Fifo} (hs : s.Sound)
    (hlive : (s.heap p).state.toNat < 4) (hdc : (s.heap p).hasSentDC = true)
    (hrange : (s.heap p).protocol.state = 1 ∨ (s.heap p).protocol.state = 2 ∨
      (s.heap p).protocol.state = 3) (hok : s.tickReceived p = .ok s') :
    Outcome p (!s.harmless p) s s' := by
  have hnot : (s.heap p).isDestroyed = false := by
    rw [ClientHandle.isDestroyed, beq_eq_false_iff_ne]
    intro h
    rw [h] at hlive
    exact absurd hlive (by decide)
  obtain ⟨u, hu, hrec⟩ := (hs.connections p).received
  have hinbound := inbound_eq hu hrec
  have hnone : s.arriving p = [] → (!s.harmless p) = false := by
    intro h
    rw [harmless, h]
    rfl
  unfold tickReceived at hok
  split at hok
  next hin =>
    have htake : Small Gate.open p s (s.modify p ClientHandle.takeIncoming) :=
      .change (.quiet ⟨rfl, rfl, rfl, rfl, rfl, Or.inl rfl, rfl, rfl, rfl, rfl, id, rfl, rfl⟩)
    have htakeidle : Idle p s (s.modify p ClientHandle.takeIncoming) :=
      Idle.store rfl rfl rfl rfl rfl
    have hrec' : (endpoint p).received (s.modify p ClientHandle.takeIncoming) =
        Fifo.filled 65536 u := by
      change ((s.modify p ClientHandle.takeIncoming).heap p).protocol.receivedData = _
      rw [modify_heap, if_pos rfl]
      exact hrec
    by_cases hfit : (u ++ (s.heap p).incomingData).length ≤ 65536
    · have hharm : (!s.harmless p) = s.harmIn p (u ++ (s.heap p).incomingData) := by
        rw [harmless, arriving, if_pos ⟨hnot, hin, by rw [hinbound]; exact hfit⟩, hinbound, harmIn,
          List.not_all_eq_any_not]
        simp only [Bool.not_not]
      have hset := setReceived_small (G := Gate.open) (p := p) hfit
        (s.modify p ClientHandle.takeIncoming)
      have hsettled := Endpoint.Rule.addReceivedData
        (kicked_rule hs hlive hdc hrange (s.harmIn p (u ++ (s.heap p).incomingData))) (by omega) hu hrec'
        hfit ⟨.tail (.single htake) hset, hfit, by
          change ((((s.modify p ClientHandle.takeIncoming).modify p
            (ClientHandle.setReceived _)).heap p).protocol.receivedData) = _
          rw [modify_heap, if_pos rfl]
          rfl, Or.inr ⟨rfl, htakeidle.trans (Idle.store rfl rfl rfl rfl rfl)⟩⟩
      change Settled p s _ (addReceivedData p _ _) at hsettled
      rw [hok] at hsettled
      rw [hharm]
      exact hsettled
    · have hset : Idle p (s.modify p ClientHandle.takeIncoming)
          ((s.modify p ClientHandle.takeIncoming).modify p
            (ClientHandle.setReceived (Fifo.filled 65536 u))) := Idle.store rfl rfl rfl rfl rfl
      have hidle := htakeidle.trans hset
      have hs' := ((setReceived_small (G := Gate.open) (p := p) hu _).sound (htake.sound hs))
      obtain ⟨s'', hok', hkick⟩ := kick_idle hs' (hidle.hasSentDC.trans hdc) errorCodeServerBusy
      rw [addReceivedData, addReceivedData_full hu hrec' (by omega)] at hok
      have heq : s'' = s' := Except.ok.inj (hok'.symm.trans hok)
      rw [heq] at hkick
      rw [hnone (by rw [arriving, if_neg (fun h => hfit (by rw [← hinbound]; exact h.2.2))])]
      exact (hidle.trans hkick).outcome
  next hin =>
    cases hok
    rw [hnone (by rw [arriving, if_neg (fun h => hin h.2.1)])]
    exact (Idle.refl p s).outcome

theorem tickReceived_unaffected {p : Nat} {s s' : Server Fifo} (hs : s.Sound)
    (hlive : (s.heap p).state.toNat < 4) (hdc : (s.heap p).hasSentDC = true)
    (hrange : (s.heap p).protocol.state = 1 ∨ (s.heap p).protocol.state = 2 ∨
      (s.heap p).protocol.state = 3) (hok : s.tickReceived p = .ok s') :
    Unaffected p s s' ↔ s.harmless p = true := by
  have houtcome := tickReceived_kicked hs hlive hdc hrange hok
  cases hharm : s.harmless p with
  | true =>
    rw [hharm] at houtcome
    have hidle : Idle p s s' := houtcome
    exact ⟨fun _ => rfl, fun _ => hidle.unaffected⟩
  | false =>
    rw [hharm] at houtcome
    have hharmed : Harmed p s s' := houtcome
    exact ⟨fun h => absurd h hharmed.not_unaffected, fun h => nomatch h⟩

end Loop

section Runs

variable [Platform]

/-- Data that comes in, or is processed, on a connection that was kicked changes only that
connection, and there nothing of who it is and how far it has come. -/
def spares {β : Type} [ByteQueue β] (s : Server β) : Event → Prop
  | .receivedData p data => (s.heap p).hasSentDC = true → Unaffected p s (s.receivedData p data)
  | .tickClient p => (s.heap p).hasSentDC = true → (s.heap p).isDestroyed = false →
      ∀ s', s.tickReceived p = .ok s' → Unaffected p s s'
  | _ => True

/-- The data that a kicked connection processes has nothing harmful in it, or a packet to relay that
is too long ends the server. -/
def receivesHarmless {β : Type} [ByteQueue β] (s : Server β) : Event → Prop
  | .tickClient p => (s.heap p).hasSentDC = true → (s.heap p).isDestroyed = false →
      s.harmless p = true ∨ overlong (s.relays p) = true
  | _ => True

instance {β : Type} [ByteQueue β] (s : Server β) : (e : Event) → Decidable (s.receivesHarmless e)
  | .tickClient p => inferInstanceAs (Decidable ((s.heap p).hasSentDC = true →
      (s.heap p).isDestroyed = false → s.harmless p = true ∨ overlong (s.relays p) = true))
  | .connectionAccepted _ => inferInstanceAs (Decidable True)
  | .receivedData _ _ => inferInstanceAs (Decidable True)
  | .remoteClosed _ => inferInstanceAs (Decidable True)
  | .released _ => inferInstanceAs (Decidable True)
  | .authenticatorTake => inferInstanceAs (Decidable True)
  | .authenticatorAnswer => inferInstanceAs (Decidable True)
  | .clock _ => inferInstanceAs (Decidable True)

section Map

variable {β γ : Type} [ByteQueue β] [ByteQueue γ] {f : β → γ} (hf : Hom f)

include hf in
theorem harmless_map (p : Nat) (s : Server β) : (s.map f).harmless p = s.harmless p := by
  rw [harmless, harmless, arriving_map hf]
  rfl

end Map

omit [Platform] in
theorem unaffected_map {β γ : Type} {f : β → γ} (p : Nat) (s s' : Server β) :
    Unaffected p (s.map f) (s'.map f) ↔ Unaffected p s s' :=
  ⟨fun h => ⟨h.outgoing, h.queue, h.username, h.state, h.protocolState⟩,
    fun h => ⟨h.outgoing, h.queue, h.username, h.state, h.protocolState⟩⟩

theorem spares_iff {s : Server ByteBuffer} (h : (serverMachine ByteBuffer).Reachable initial s)
    (e : Event) : s.spares e ↔ s.receivesHarmless e := by
  cases e with
  | tickClient p =>
    have hs := reachable_sound (by rw [initial_contents]; exact initial_sound) h
    have hmap := tickReceived_map ByteBuffer.contents_hom p s
    have hlive : (s.heap p).isDestroyed = false → (s.heap p).state.toNat < 4 := fun hnot =>
      live_of_not (hs.connections p) (Bool.eq_false_iff.mp hnot)
    have hhandled := fun hnot => tickReceived_handled (G := Gate.open) hs (hlive hnot) fun _ _ => rfl
    rw [relays_map ByteBuffer.contents_hom, hmap] at hhandled
    rcases htick : s.tickReceived p with e | s'
    · refine ⟨fun _ _ hnot => ?_, fun _ _ _ s' hok => ?_⟩
      · have herror := hhandled hnot
        rw [htick] at herror
        exact Or.inr herror.1
      · rw [htick] at hok
        cases hok
    · have hone : (s.heap p).hasSentDC = true → (s.heap p).isDestroyed = false →
          (Unaffected p s s' ↔ s.harmless p = true) := by
        intro hdc hnot
        have hstate : (s.heap p).state ≠ .csDestroyed := by
          rw [ClientHandle.isDestroyed, beq_eq_false_iff_ne] at hnot
          exact hnot
        rw [htick] at hmap
        rw [← unaffected_map (f := ByteBuffer.contents), ← harmless_map ByteBuffer.contents_hom]
        exact tickReceived_unaffected hs (hlive hnot) hdc ((states_agree h p).1 hstate).range hmap
      refine ⟨fun hspares hdc hnot => ?_, fun hharmless hdc hnot s'' hok => ?_⟩
      · exact Or.inl ((hone hdc hnot).mp (hspares hdc hnot s' htick))
      · rw [htick] at hok
        cases hok
        refine (hone hdc hnot).mpr ((hharmless hdc hnot).resolve_right fun hlong => ?_)
        have hok := hhandled hnot
        rw [htick] at hok
        exact absurd hlong (by rw [hok.1]; decide)
  | receivedData p data =>
    refine ⟨fun _ => trivial, fun _ _ => ?_⟩
    have hself : (s.receivedData p data).heap p = (s.heap p).receive data := if_pos rfl
    refine ⟨fun q hq => ?_, rfl, ?_, ?_, ?_⟩
    · rw [receivedData, modify_heap, if_neg hq]
    · rw [hself]; rfl
    · rw [hself]; rfl
    · rw [hself]; rfl
  | connectionAccepted ip => exact Iff.rfl
  | remoteClosed p => exact Iff.rfl
  | released p => exact Iff.rfl
  | authenticatorTake => exact Iff.rfl
  | authenticatorAnswer => exact Iff.rfl
  | clock elapsed => exact Iff.rfl

/-- In a run nothing comes of what kicked connections send if and only if nothing of it is harmful. -/
theorem kicked_spares_iff {events : List Event}
    (h : (serverMachine ByteBuffer).Along (fun s e => s.enabled e = true) events initial) :
    (serverMachine ByteBuffer).Along spares events initial ↔
      (serverMachine ByteBuffer).Along receivesHarmless events initial :=
  Machine.along_congr (fun _ e hr _ => spares_iff hr e) .start h

/-- A packet of a type that the `switch` does not have, and the tick that kicks for it. -/
def sendsUnknown (p : Nat) : List Event := [.receivedData p (frame (⟨0x55, []⟩ : Packet).body), .tickClient p]

omit [Platform] in
/-- A client that is kicked in the login state, and then sends the same packet again. -/
theorem kicked_spares_unknown :
    letI := zeroPlatform
    (serverMachine ByteBuffer).Along spares
      (.connectionAccepted [] :: (greets 0 ++ sendsUnknown 0 ++ sendsUnknown 0)) initial := by
  let : Platform := zeroPlatform
  have hrun : ((serverMachine ByteBuffer).replay
      (fun s e => s.enabled e && decide (s.receivesHarmless e))
      (.connectionAccepted [] :: (greets 0 ++ sendsUnknown 0 ++ sendsUnknown 0)) initial).isSome =
      true := by
    decide +kernel
  obtain ⟨s, hs⟩ := Option.isSome_iff_exists.mp hrun
  exact (kicked_spares_iff (Machine.replay_along (fun s e h => (Bool.and_eq_true_iff.mp h).1) hs)).mpr
    (Machine.replay_along (fun s e h => of_decide_eq_true (Bool.and_eq_true_iff.mp h).2) hs)

omit [Platform] in
/-- A client that is kicked in the login state, and then logs in. -/
theorem kicked_logs_in :
    letI := zeroPlatform
    ∃ s s' : Server ByteBuffer, (serverMachine ByteBuffer).Reachable initial s ∧
      (s.heap 0).hasSentDC = true ∧ (s.heap 0).incomingData = [] ∧
      (s.receivedData 0 (frame (loginInfoPacket [97] (md5Password [97])).body)).tickReceived 0 = .ok s' ∧
      (s.queue = [] ∧ s'.queue = [⟨1, [97], md5Password [97]⟩]) ∧
      ((s.heap 0).state = .csConnected ∧ (s'.heap 0).state = .csAuthenticating) := by
  let : Platform := zeroPlatform
  have hrun : ((serverMachine ByteBuffer).replay enabled
      (.connectionAccepted [] :: (greets 0 ++ sendsUnknown 0)) initial).bind (fun s =>
        ((s.receivedData 0 (frame (loginInfoPacket [97] (md5Password [97])).body)).tickReceived
          0).toOption.map fun s' => decide ((s.heap 0).hasSentDC = true ∧
            (s.heap 0).incomingData = [] ∧ (s.queue = [] ∧ s'.queue = [⟨1, [97], md5Password [97]⟩]) ∧
            ((s.heap 0).state = .csConnected ∧ (s'.heap 0).state = .csAuthenticating))) =
      some true := by
    decide +kernel
  obtain ⟨s, hs, hnext⟩ := Option.bind_eq_some_iff.mp hrun
  obtain ⟨s', hs', hall⟩ := Option.map_eq_some_iff.mp hnext
  obtain ⟨hdc, hin, hqueue, hstate⟩ := of_decide_eq_true hall
  refine ⟨s, s', replay_reachable hs, hdc, hin, ?_, hqueue, hstate⟩
  rcases htick : (s.receivedData 0
      (frame (loginInfoPacket [97] (md5Password [97])).body)).tickReceived 0 with e | t
  · rw [htick] at hs'
    cases hs'
  · rw [htick] at hs'
    cases hs'
    rfl

end Runs

end Server

end P2PChat

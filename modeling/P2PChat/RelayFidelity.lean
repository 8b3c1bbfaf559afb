import P2PChat.EstablishedWires
import P2PChat.ServerRuns

namespace P2PChat

open ByteQueue PeerConnectionClient

namespace Wires

/-- The bytes of both connections come from their clients. -/
def bothGenuine {β : Type} [ByteQueue β] (a b : Nat) (s : Wires β) (e : WireEvent) : Prop :=
  s.genuine a e ∧ s.genuine b e

variable [Platform]

section Runs

variable {clients : Nat → PeerConnectionClient Fifo} {s : Wires Fifo} {a b p : Nat}

/-- A step that keeps both connections established returns, and the texts for `b` are neither lost nor
doubled in it. -/
theorem allowed_step {e : WireEvent} (hclients : ∀ p, (clients p).Offline ∧ (clients p).sent = [])
    (h : (wireMachine Fifo).Reach (bothGenuine a b) (start clients) s) (ha : Established a s)
    (hb : Established b s) (hallowed : Allowed a b s e) :
    ∃ s', s.step e = .ok s' ∧ Established a s' ∧ Established b s' ∧
      (s'.server.heap b).uniqueID = (s.server.heap b).uniqueID ∧
      heard a b s' ++ underway a b s' = heard a b s ++ underway a b s ++ asked a (s.server.heap b).uniqueID e := by
  have hja := joined_of_reach (hclients a).1 (hclients a).2 (fun _ _ hboth => hboth.1) h
  have hjb := joined_of_reach (hclients b).1 (hclients b).2 (fun _ _ hboth => hboth.2) h
  have hs := sane_of_reach h
  have hla := ha.linked hja hs
  have hlb := hb.linked hjb hs
  obtain ⟨s', hok⟩ : ∃ s', s.step e = .ok s' :=
    hallowed.returns.elim (step_returns ha hb hla hlb hs hallowed.enabled hallowed.genuine) id
  obtain ⟨ha', hb'⟩ : Established a s' ∧ Established b s' := by
    rcases hallowed.keeps with hkeeps | hstays
    · exact ⟨step_established ha hja hs hallowed.enabled hallowed.genuine.1 hkeeps.1 hok,
        step_established hb hjb hs hallowed.enabled hallowed.genuine.2 hkeeps.2 hok⟩
    · exact hstays s' hok
  have hs' := sane_of_reach (.next h hallowed.enabled hallowed.genuine hok)
  exact ⟨s', hok, ha', hb', hb.uniqueID hb' hs hs',
    step_texts ha hb hla hlb hs ha' hb' hs' hallowed.enabled hallowed.genuine hok⟩

/-- As long as both connections stay established, the texts for `b` are neither lost nor doubled. -/
theorem run_texts {events : List WireEvent} (hclients : ∀ p, (clients p).Offline ∧ (clients p).sent = [])
    (h : (wireMachine Fifo).Reach (bothGenuine a b) (start clients) s) (ha : Established a s)
    (hb : Established b s) (hrun : (wireMachine Fifo).Along (Allowed a b) events s) :
    ∃ s', (wireMachine Fifo).run events s = .ok s' ∧ Established a s' ∧ Established b s' ∧
      heard a b s' ++ underway a b s' = heard a b s ++ underway a b s ++
        events.flatMap (asked a (s.server.heap b).uniqueID) ∧
      (Arrived a b s' → underway a b s' = []) := by
  induction events generalizing s with
  | nil =>
    have hs := sane_of_reach h
    have hla := ha.linked (joined_of_reach (hclients a).1 (hclients a).2 (fun _ _ hboth => hboth.1) h) hs
    have hlb := hb.linked (joined_of_reach (hclients b).1 (hclients b).2 (fun _ _ hboth => hboth.2) h) hs
    refine ⟨s, rfl, ha, hb, ?_, fun harrived => harrived.underway hb hla hlb⟩
    rw [List.flatMap_nil, List.append_nil]
  | cons e events ih =>
    obtain ⟨hallowed, hrest⟩ := hrun
    obtain ⟨s₁, hok, ha₁, hb₁, hid, hstep⟩ := allowed_step hclients h ha hb hallowed
    obtain ⟨s', hrun, ha', hb', htexts, harrived⟩ :=
      ih (.next h hallowed.enabled hallowed.genuine hok) ha₁ hb₁ (hrest s₁ hok)
    refine ⟨s', ?_, ha', hb', ?_, harrived⟩
    · have hfirst : (wireMachine Fifo).step s e = .ok s₁ := hok
      rw [Machine.run, hfirst]
      exact hrun
    · rw [htexts, hstep, hid, List.flatMap_cons, List.append_assoc]

end Runs

section Refinement

omit [Platform] in
def map {β γ : Type} (f : β → γ) (s : Wires β) : Wires γ where
  toNetwork := s.toNetwork.map f
  delivered := s.delivered

variable {β γ : Type} [ByteQueue β] [ByteQueue γ] {f : β → γ} {s : Wires β} {a b p : Nat} {e : WireEvent}
  (hf : Hom f)

omit [Platform] [ByteQueue β] [ByteQueue γ] in
theorem enabled_map (s : Wires β) (e : WireEvent) : (s.map f).enabled e = s.enabled e := by
  cases e with
  | deliver p n => rfl
  | network e => cases e <;> rfl

omit [Platform] [ByteQueue β] [ByteQueue γ] in
theorem established_map : Established p (s.map f) ↔ Established p s :=
  ⟨fun h => ⟨⟨h.serves.member, h.serves.live, h.serves.link, h.serves.working, h.serves.hasSentDC⟩, h.isConnected,
    h.protocolState⟩,
   fun h => ⟨⟨h.serves.member, h.serves.live, h.serves.link, h.serves.working, h.serves.hasSentDC⟩, h.isConnected,
    h.protocolState⟩⟩

omit [Platform] [ByteQueue β] [ByteQueue γ] in
theorem arrived_map : Arrived a b (s.map f) ↔ Arrived a b s :=
  ⟨fun h => ⟨h.delivered, h.incoming, h.outgoing, h.read⟩, fun h => ⟨h.delivered, h.incoming, h.outgoing, h.read⟩⟩

include hf

omit [Platform] in
theorem start_map (clients : Nat → PeerConnectionClient β) :
    (start clients).map f = start fun p => (clients p).map f := by
  have hstart := Network.start_map hf clients
  exact congrArg (fun network => ({ network with delivered := fun _ => 0 } : Wires γ)) hstart

theorem step_map (s : Wires β) (e : WireEvent) : (s.map f).step e = (s.step e).map (map f) := by
  cases e with
  | network e =>
    have hstep := Network.step_map hf s.toNetwork e
    have hnetwork : (s.map f).toNetwork = s.toNetwork.map f := rfl
    rw [step, step, hnetwork, hstep]
    rcases s.toNetwork.step e with h | network
    · rfl
    · rfl
  | deliver p n =>
    have hserver := Except.ok.inj (P2PChat.step_map hf s.server (.receivedData p (s.packet p n)))
    have hnext : (s.map f).deliver p n = (s.deliver p n).map f :=
      congrArg (fun server => ({ s.map f with
        server := server
        delivered := fun q => if q = p then s.delivered p + n else s.delivered q } : Wires γ)) hserver
    exact congrArg Except.ok hnext

omit [Platform] in
theorem genuine_map (s : Wires β) (e : WireEvent) (h : s.genuine p e) : (s.map f).genuine p e := by
  cases e with
  | deliver q n => trivial
  | network e =>
    cases e with
    | server e => cases e <;> exact h
    | read q n => exact fun hq => (hf.getFreeSpace _).symm ▸ h hq
    | _ => trivial

theorem keeps_map (s : Wires β) (e : WireEvent) (h : s.keeps p e) : (s.map f).keeps p e := by
  have hinbound : (s.map f).server.inbound p = s.server.inbound p := Server.inbound_map hf p s.server
  have harriving : (s.map f).server.arriving p = s.server.arriving p := Server.arriving_map hf p s.server
  cases e with
  | deliver q n => trivial
  | network e =>
    cases e with
    | server e =>
      cases e with
      | tickClient q =>
        intro hq
        obtain ⟨hticks, hfit, hpings⟩ := h hq
        refine ⟨hticks, ?_, ?_⟩
        · rw [hinbound]
          exact hfit
        · rw [harriving]
          exact hpings
      | _ => exact h
    | _ => exact h

theorem allowed_map (s : Wires β) (e : WireEvent) (h : Allowed a b s e) : Allowed a b (s.map f) e := by
  have hstep : ∀ t, (s.map f).step e = .ok t → ∃ s', s.step e = .ok s' ∧ t = s'.map f := by
    intro t ht
    rw [step_map hf] at ht
    rcases hs : s.step e with halt | s'
    · rw [hs] at ht
      cases ht
    · rw [hs] at ht
      exact ⟨s', rfl, (Except.ok.inj ht).symm⟩
  refine ⟨?_, ⟨genuine_map hf s e h.genuine.1, genuine_map hf s e h.genuine.2⟩, ?_, ?_⟩
  · rw [enabled_map]
    exact h.enabled
  · refine h.keeps.imp (fun hkeeps => ⟨keeps_map hf s e hkeeps.1, keeps_map hf s e hkeeps.2⟩) fun hstays t ht => ?_
    obtain ⟨s', hs', rfl⟩ := hstep t ht
    exact ⟨established_map.mpr (hstays s' hs').1, established_map.mpr (hstays s' hs').2⟩
  · refine h.returns.imp (fun hcarries => ?_) fun ⟨s', hs'⟩ => ⟨s'.map f, by rw [step_map hf, hs']; rfl⟩
    cases e with
    | deliver q n => trivial
    | network e =>
      cases e with
      | server e => exact ⟨(Server.ticksOverlong_map hf s.server e).trans hcarries.1, by cases e <;> exact hcarries.2⟩
      | _ => exact hcarries

theorem underway_map (s : Wires β) (a b : Nat) : underway a b (s.map f) = underway a b s := by
  have htoServer : (s.map f).toServer a = s.toServer a := by
    have hinbound : (s.map f).server.inbound a = s.server.inbound a := Server.inbound_map hf a s.server
    rw [toServer, toServer, hinbound]
    rfl
  have htoClient : (s.map f).toClient b = s.toClient b := by
    have hread : (readAll (f (s.clients b).receivedData)).1 = (readAll (s.clients b).receivedData).1 := by
      rw [hf.readAll]
    exact congrArg (fun u => u ++ ((s.server.heap b).sent.drop (s.read b) ++ (s.server.heap b).outgoingData)) hread
  rw [underway, underway, htoServer, htoClient]
  rfl

end Refinement

/-- Two clients are logged in and open, and stay so, and what is composed fits: then `b` is given the texts
that `a` sends to it, each once, in order and as they were sent, behind those that were on their way; none is
on its way once all bytes have come and were handled. -/
theorem relay_fidelity {clients : Nat → PeerConnectionClient ByteBuffer}
    (hclients : ∀ p, ((clients p).map ByteBuffer.contents).Offline ∧ (clients p).sent = [])
    {s : Wires ByteBuffer} {a b : Nat}
    (h : (wireMachine ByteBuffer).Reach (bothGenuine a b) (start clients) s) (ha : Established a s)
    (hb : Established b s) {events : List WireEvent}
    (hrun : (wireMachine ByteBuffer).Along (Allowed a b) events s) :
    ∃ s', (wireMachine ByteBuffer).run events s = .ok s' ∧ Established a s' ∧ Established b s' ∧
      heard a b s' ++ underway a b s' = heard a b s ++ underway a b s ++
        events.flatMap (asked a (s.server.heap b).uniqueID) ∧
      (Arrived a b s' → underway a b s' = []) := by
  have hf := ByteBuffer.contents_hom
  have hstep : ∀ s e, (wireMachine Fifo).step (map ByteBuffer.contents s) e =
      ((wireMachine ByteBuffer).step s e).map (map ByteBuffer.contents) := step_map hf
  have hreach : (wireMachine Fifo).Reach (bothGenuine a b) (start fun p => (clients p).map ByteBuffer.contents)
      (s.map ByteBuffer.contents) := by
    rw [← start_map hf]
    refine h.map (fun s e he => (enabled_map s e).trans he)
      (fun s e hboth => ⟨genuine_map hf s e hboth.1, genuine_map hf s e hboth.2⟩) hstep
  obtain ⟨t, ht, ha', hb', htexts, harrived⟩ := run_texts hclients hreach (established_map.mpr ha)
    (established_map.mpr hb) (hrun.map (allowed_map hf) hstep)
  rw [Machine.run_map hstep] at ht
  rcases hok : (wireMachine ByteBuffer).run events s with halt | s'
  · rw [hok] at ht
    cases ht
  · rw [hok] at ht
    cases ht
    rw [underway_map hf, underway_map hf] at htexts
    rw [underway_map hf] at harrived
    exact ⟨s', rfl, established_map.mp ha', established_map.mp hb', htexts,
      fun hdone => harrived (arrived_map.mpr hdone)⟩

section Texts

instance {β : Type} [ByteQueue β] (p : Nat) (s : Wires β) (e : WireEvent) : Decidable (s.genuine p e) := by
  unfold genuine
  split <;> infer_instance

instance {β : Type} (p : Nat) (s : Wires β) : Decidable (Established p s) :=
  decidable_of_iff ((p ∈ s.server.clients ∧ (s.server.heap p).isDestroyed = false ∧
    (s.server.heap p).link = true ∧ (s.server.heap p).protocol.state = 3 ∧
    (s.server.heap p).hasSentDC = false) ∧ (s.clients p).isConnected = true ∧ (s.clients p).protocolState = 3)
    ⟨fun ⟨⟨hmember, hlive, hlink, hworking, hdc⟩, hsocket, hstate⟩ =>
      ⟨⟨hmember, hlive, hlink, hworking, hdc⟩, hsocket, hstate⟩,
     fun ⟨⟨hmember, hlive, hlink, hworking, hdc⟩, hsocket, hstate⟩ =>
      ⟨⟨hmember, hlive, hlink, hworking, hdc⟩, hsocket, hstate⟩⟩

omit [Platform] in
theorem connect_sent {β : Type} [ByteQueue β] (user pass : AString) (c : PeerConnectionClient β) :
    (c.connect user pass).sent = c.sent := by
  unfold PeerConnectionClient.connect
  split
  next => rfl
  next => rfl

/-- What comes to the server is what the client sent. -/
def signing (p : Nat) (name : AString) : List WireEvent :=
  [.network (.server (.connectionAccepted [])), .network (.opened p),
    .deliver p (frame (statusRequestPacket appP2pchat SERVER PORT 2).body).length,
    .network (.server (.tickClient p)), .network (.read p 7),
    .deliver p (frame (loginInfoPacket name (md5Password name)).body).length,
    .network (.server (.tickClient p)), .network (.server .authenticatorTake),
    .network (.server .authenticatorAnswer), .network (.server (.tickClient p))]

/-- The first client sends a text to the second. -/
def texting (msg : AString) : List WireEvent :=
  [.network (.sendToPeer 0 2 msg), .deliver 0 (msg.length + 4), .network (.server (.tickClient 0)),
    .network (.server (.tickClient 1)), .network (.read 1 (msg.length + 4))]

omit [Platform] in
/-- A text with a NUL in it comes as it is. -/
theorem relay_fidelity_nul :
    letI := zeroPlatform
    ∃ s s' : Wires ByteBuffer, (wireMachine ByteBuffer).run (texting [104, 0, 105]) s = .ok s' ∧
      (Arrived 0 1 s' → heard 0 1 s' = [[104, 0, 105]]) := by
  let : Platform := zeroPlatform
  let genuineTest : Wires ByteBuffer → WireEvent → Bool := fun s e =>
    s.enabled e && decide (s.genuine 0 e ∧ s.genuine 1 e)
  let openTest : Wires ByteBuffer → WireEvent → Bool := fun s e => genuineTest s e &&
    match s.step e with
    | .ok s' => decide (Established 0 s' ∧ Established 1 s')
    | .error _ => false
  have hrun : ((wireMachine ByteBuffer).replay genuineTest
      (signing 0 [97] ++ signing 1 [98] ++ [.network (.read 0 2), .network (.read 1 8)])
      (start Network.dialling)).map (fun s => (decide (Established 0 s ∧ Established 1 s),
        ((wireMachine ByteBuffer).replay openTest (texting [104, 0, 105]) s).isSome,
        heard 0 1 s ++ underway 0 1 s ++
          (texting [104, 0, 105]).flatMap (asked 0 (s.server.heap 1).uniqueID))) =
        some (true, true, [[104, 0, 105]]) := by
    decide +kernel
  obtain ⟨s, hs, hall⟩ := Option.map_eq_some_iff.mp hrun
  obtain ⟨hestablished, hrest⟩ := Prod.mk.inj hall
  obtain ⟨hreplay, htexts⟩ := Prod.mk.inj hrest
  obtain ⟨ha, hb⟩ := of_decide_eq_true hestablished
  obtain ⟨t, ht⟩ := Option.isSome_iff_exists.mp hreplay
  have hreach : (wireMachine ByteBuffer).Reach (bothGenuine 0 1) (start Network.dialling) s := by
    refine Machine.replay_reach (fun s e he => ?_) .start hs
    obtain ⟨hen, hgenuine⟩ := Bool.and_eq_true_iff.mp he
    have hgenuine : s.genuine 0 e ∧ s.genuine 1 e := of_decide_eq_true hgenuine
    exact ⟨hen, hgenuine⟩
  have halong : (wireMachine ByteBuffer).Along (Allowed 0 1) (texting [104, 0, 105]) s := by
    refine Machine.replay_along (fun s e he => ?_) ht
    obtain ⟨hboth, hopen⟩ := Bool.and_eq_true_iff.mp he
    obtain ⟨hen, hgenuine⟩ := Bool.and_eq_true_iff.mp hboth
    rcases hok : s.step e with halt | s'
    · rw [hok] at hopen
      cases hopen
    · rw [hok] at hopen
      refine ⟨hen, of_decide_eq_true hgenuine, Or.inr fun t ht => ?_, Or.inr ⟨s', hok⟩⟩
      rw [hok] at ht
      cases ht
      exact of_decide_eq_true hopen
  obtain ⟨s', hok, _, _, htold, harrived⟩ :=
    relay_fidelity (fun p => ⟨Network.dialling_offline p, connect_sent _ _ _⟩) hreach ha hb halong
  refine ⟨s, s', hok, fun hdone => ?_⟩
  rw [harrived hdone, List.append_nil, htexts] at htold
  exact htold

end Texts

end Wires

end P2PChat

import P2PChat.RelayedMessages
import P2PChat.WireStreams

namespace P2PChat

open ByteQueue Relation PeerConnectionClient

namespace Wires

variable [Platform]

section Steps

variable {s s' : Wires Fifo} {p : Nat} {e : WireEvent}

theorem Established.linked (h : Established p s) (hj : Joined p s) (hs : Sane s) : Linked p s := by
  rcases hj.linked (hs.sound.allocated p h.serves.member) h.serves.link h.serves.hasSentDC with hgone | hl
  · have hsocket := hgone.isConnected
    rw [h.isConnected] at hsocket
    cases hsocket
  · exact hl

/-- What comes in from the client is packets of it. -/
theorem Linked.inbound (h : Linked p s) :
    ∃ todo, (∀ q ∈ todo, Written q) ∧ s.server.inbound p <+: stream todo := by
  obtain ⟨up, hup, htoServer⟩ := h.attached.written
  refine ⟨up, hup, ?_⟩
  rw [← htoServer]
  exact List.prefix_append _ _

/-- Where only the server moves, the connection stays established if the server keeps it. -/
theorem Established.serverStep {e : Event} (h : Established p s) (hl : Linked p s) (hs : Sane s)
    (he : s.server.enabled e = true) (hquiet : s.server.quiet p e) (hok : s.server.step e = .ok s'.server)
    (hclient : s'.clients p = s.clients p) : Established p s' := by
  obtain ⟨todo, hwritten, hstart⟩ := hl.inbound
  refine ⟨Server.step_serves hs.sound he h.serves hquiet hl.clear hwritten hstart hok, ?_, ?_⟩
  · rw [hclient]
    exact h.isConnected
  · rw [hclient]
    exact h.protocolState

omit [Platform] in
theorem Established.of_same (h : Established p s) (hserver : s'.server = s.server)
    (hclient : s'.clients p = s.clients p) : Established p s' := by
  refine ⟨?_, ?_, ?_⟩
  · rw [hserver]
    exact h.serves
  · rw [hclient]
    exact h.isConnected
  · rw [hclient]
    exact h.protocolState

omit [Platform] in
/-- To send a packet changes no state. -/
theorem Established.packet {q : Nat} {packet : Packet} {c' : PeerConnectionClient Fifo} (h : Established p s)
    (hok : (s.clients q).packet packet = .ok c') :
    Established p { s with toNetwork := s.toNetwork.setClient q c' } := by
  rcases eq_or_ne q p with rfl | hne
  · obtain ⟨out, sent, heq⟩ := packet_changes hok
    have hclient : (s.toNetwork.setClient q c').clients q = c' := if_pos rfl
    refine ⟨h.serves, ?_, ?_⟩
    · rw [hclient, heq]
      exact h.isConnected
    · rw [hclient, heq]
      exact h.protocolState
  · exact h.of_same rfl (if_neg hne.symm)

/-- A client that acts keeps its connection if it is not to close it. -/
theorem Established.call {event : NetworkEvent} {q : Nat} (h : Established p s) (hcaller : event.caller = some q)
    (he : s.toNetwork.enabled event = true) (hkeeps : s.keeps p (.network event))
    (hok : s.step (.network event) = .ok s') : Established p s' := by
  obtain ⟨c', hnext, _⟩ := call_step hcaller he hok
  have hother : q ≠ p → Established p s' := by
    intro hne
    rw [hnext]
    exact h.of_same rfl (if_neg hne.symm)
  cases event with
  | server e => cases hcaller
  | read r n => cases hcaller
  | opened r =>
    cases hcaller
    refine hother fun heq => ?_
    simp only [Network.enabled, heq, h.isConnected, Bool.not_true, Bool.false_and] at he
    cases he
  | requestToPeer r peer_id =>
    cases hcaller
    obtain ⟨c', hcalled, heq⟩ := act_ok hok
    rw [heq]
    exact h.packet hcalled
  | sendToPeer r peer_id message =>
    cases hcaller
    obtain ⟨c', hcalled, heq⟩ := act_ok hok
    rw [heq]
    exact h.packet hcalled
  | signOut r =>
    cases hcaller
    exact hother hkeeps
  | closed r =>
    cases hcaller
    exact hother hkeeps

/-- A connection stays established that neither end closes. -/
theorem step_established (h : Established p s) (hj : Joined p s) (hs : Sane s) (he : s.enabled e = true)
    (hgenuine : s.genuine p e) (hkeeps : s.keeps p e) (hok : s.step e = .ok s') : Established p s' := by
  have hl := h.linked hj hs
  obtain ⟨event, hserving⟩ | ⟨event, q, rfl, hcaller⟩ | ⟨q, n, c', rfl, hcalled, heq⟩ := step_cases he hok
  · exact h.serverStep hl hs hserving.enabled (hserving.keeps p hkeeps) hserving.step (by rw [hserving.clients])
  · exact h.call hcaller he hkeeps hok
  · rcases eq_or_ne q p with rfl | hne
    · have hclient : s'.clients q = c' := by
        rw [heq]
        exact if_pos rfl
      rw [← hclient] at hcalled
      have hserver : s'.server = s.server := by
        rw [heq]
        rfl
      rcases hl.reads he (hgenuine rfl) hcalled hserver (by rw [heq]; exact if_pos rfl) (by rw [heq]) with
        hgone | ⟨_, _, _, _, _, _, _, hlast⟩
      · exact absurd h.protocolState hgone.2
      · obtain ⟨hstate, hsocket, _⟩ := hlast h.protocolState
        exact ⟨by rw [hserver]; exact h.serves, hsocket, hstate⟩
    · rw [heq]
      exact h.of_same rfl (if_neg hne.symm)

/-- What a step makes of a connection: the client sends packets and the server handles some, and the other
way round. -/
structure Exchanges (p : Nat) (e : WireEvent) (s s' : Wires Fifo) : Prop where
  server : ∃ posts handled, (∀ q ∈ posts, Written q) ∧ (∀ q ∈ handled, Written q) ∧
    s.toServer p ++ stream posts = stream handled ++ s'.toServer p ∧
    (s'.server.heap p).calls = (s.server.heap p).calls ++ handled.map call ∧
    ∀ id, messages id (posts.map call) = asked p id e
  client : ∃ more new, (∀ q ∈ more, Readable q) ∧ (∀ q ∈ new, Readable q) ∧
    s.toClient p ++ stream more = stream new ++ s'.toClient p ∧
    (s'.server.heap p).told = (s.server.heap p).told ++ more ∧
    ∀ id, (s'.clients p).heardFrom id = (s.clients p).heardFrom id ++ messages id (new.map call)

theorem Exchanges.of_same (hserver : s'.server = s.server) (hclient : s'.clients p = s.clients p)
    (hread : s'.read p = s.read p) (hdelivered : s'.delivered p = s.delivered p)
    (hasked : ∀ id, asked p id e = []) : Exchanges p e s s' := by
  have htoServer : s'.toServer p = s.toServer p := by
    rw [toServer, toServer, hserver, hclient, hdelivered]
  have htoClient : s'.toClient p = s.toClient p := by
    rw [toClient, toClient, hserver, hclient, hread]
  have hnil : ∀ q ∈ ([] : List (UInt32 × AString)), Written q := List.forall_mem_nil _
  refine ⟨⟨[], [], hnil, hnil, ?_, ?_, fun id => (hasked id).symm⟩,
    ⟨[], [], List.forall_mem_nil _, List.forall_mem_nil _, ?_, ?_, fun id => ?_⟩⟩
  · rw [htoServer]
    exact List.append_nil _
  · rw [hserver]
    exact (List.append_nil _).symm
  · rw [htoClient]
    exact List.append_nil _
  · rw [hserver]
    exact (List.append_nil _).symm
  · rw [hclient]
    exact (List.append_nil _).symm

theorem Relays.exchanges (h : Relays p s s') (hclient : s'.clients p = s.clients p)
    (hasked : ∀ id, asked p id e = []) : Exchanges p e s s' := by
  obtain ⟨handled, hhandled, htoServer, hcalls⟩ := h.handled
  obtain ⟨more, hmore, htoClient, htold⟩ := h.told
  refine ⟨⟨[], handled, nofun, hhandled, ?_, hcalls, fun id => (hasked id).symm⟩,
    ⟨more, [], hmore, nofun, htoClient.symm, htold, fun id => ?_⟩⟩
  · rw [htoServer]
    exact List.append_nil _
  · rw [hclient]
    exact (List.append_nil _).symm

/-- A client that only sends. -/
theorem Linked.calls {c' : PeerConnectionClient Fifo} {posts : List (UInt32 × AString)} (hl : Linked p s)
    (heq : s' = { s with toNetwork := s.toNetwork.setClient p c' }) (h' : Established p s')
    (hposts : ∀ q ∈ posts, Written q) (hcalled : Called posts (s.clients p) c')
    (hasked : ∀ id, messages id (posts.map call) = asked p id e) : Exchanges p e s s' := by
  have hclient : s'.clients p = c' := by
    rw [heq]
    exact if_pos rfl
  have hserver : s'.server = s.server := by
    rw [heq]
    rfl
  rw [← hclient] at hcalled
  rcases hl.called hserver (by rw [heq]; rfl) (by rw [heq]) hposts hcalled with hgone | ⟨_, htoServer, htoClient⟩
  · have hsocket := hgone.isConnected
    rw [h'.isConnected] at hsocket
    cases hsocket
  · have hheard : ∀ id, (s'.clients p).heardFrom id = (s.clients p).heardFrom id := by
      cases hcalled with
      | gone hgone =>
        have hsocket := hgone.isConnected
        rw [h'.isConnected] at hsocket
        cases hsocket
      | sends _ _ _ _ hheard _ => exact hheard
    refine ⟨⟨posts, [], hposts, nofun, htoServer.symm, ?_, hasked⟩,
      ⟨[], [], nofun, nofun, ?_, ?_, fun id => (hheard id).trans (List.append_nil _).symm⟩⟩
    · rw [hserver]
      exact (List.append_nil _).symm
    · rw [htoClient]
      exact List.append_nil _
    · rw [hserver]
      exact (List.append_nil _).symm

omit [Platform] in
theorem asked_other {event : NetworkEvent} {q : Nat} {id : UInt32} (hcaller : event.caller = some q)
    (hne : q ≠ p) : asked p id (.network event) = [] := by
  cases event with
  | sendToPeer r peer_id message =>
    cases hcaller
    exact if_neg fun hall => hne hall.1
  | _ => rfl

/-- A client in its last state that reads. -/
theorem Linked.exchanges {n : Nat} (hl : Linked p s) (hstate : (s.clients p).protocolState = 3)
    (he : s.toNetwork.enabled (.read p n) = true) (hfit : n ≤ getFreeSpace (s.clients p).receivedData)
    (hok : (s.clients p).onRead [s.chunk p n] = .ok (s'.clients p)) (hserver : s'.server = s.server)
    (hread : s'.read p = s.read p + n) (hdelivered : s'.delivered p = s.delivered p) :
    Exchanges p (.network (.read p n)) s s' := by
  rcases hl.reads he hfit hok hserver hread hdelivered with
    hgone | ⟨_, new, posts, hnew, hposts, htoServer, htoClient, hlast⟩
  · exact absurd hstate hgone.2
  · obtain ⟨_, _, hheard⟩ := hlast hstate
    have hnone : ∀ id, messages id (posts.map call) = [] := fun id => messages_other (by
      intro packet hmem
      obtain ⟨post, hpost, rfl⟩ := List.mem_map.mp hmem
      exact (hposts post hpost).type)
    refine ⟨⟨posts, [], fun q hq => (hposts q hq).written, nofun, htoServer.symm, ?_, hnone⟩,
      ⟨[], new, nofun, hnew, ?_, ?_, hheard⟩⟩
    · rw [hserver]
      exact (List.append_nil _).symm
    · rw [htoClient]
      exact List.append_nil _
    · rw [hserver]
      exact (List.append_nil _).symm

/-- Every step is such an exchange where the connection stays established. -/
theorem step_exchanges (h : Established p s) (hl : Linked p s) (hs : Sane s) (he : s.enabled e = true)
    (hgenuine : s.genuine p e) (h' : Established p s') (hok : s.step e = .ok s') : Exchanges p e s s' := by
  obtain ⟨event, hserving⟩ | ⟨event, q, rfl, hcaller⟩ | ⟨q, n, c', rfl, hcalled, heq⟩ := step_cases he hok
  · have hclient : s'.clients p = s.clients p := by rw [hserving.clients]
    obtain ⟨⟨rest, hrest⟩, hdelivered⟩ := hserving.bytes p hgenuine
    have hdrop : (s.clients p).sent.drop (s.delivered p) =
        event.bytesFor p ++ (s.clients p).sent.drop (s'.delivered p) := by
      rw [hdelivered, ← List.drop_drop, ← hrest, List.drop_left]
    obtain ⟨hrelays, _⟩ := server_relays hs.sound (hs.inStep p) hserving.enabled
      (hs.sound.allocated p h.serves.member) hserving.step hclient (by rw [hserving.read]) hdrop
      h'.serves.link h'.serves.hasSentDC hl.read hl.clear hl.attached
    exact hrelays.exchanges hclient (hserving.asked p)
  · obtain ⟨c', hnext, _, hcalled⟩ := call_step hcaller he hok
    rcases eq_or_ne q p with rfl | hne
    · obtain ⟨posts, hposts, hcalled, hasked⟩ := hcalled _ _ hl.attached
      exact hl.calls hnext h' hposts hcalled (hasked h.isConnected)
    · exact Exchanges.of_same (by rw [hnext]; rfl) (by rw [hnext]; exact if_neg hne.symm) (by rw [hnext]; rfl)
        (by rw [hnext]) fun id => asked_other hcaller hne
  · rcases eq_or_ne q p with rfl | hne
    · have hclient : s'.clients q = c' := by
        rw [heq]
        exact if_pos rfl
      rw [← hclient] at hcalled
      exact hl.exchanges h.protocolState he (hgenuine rfl) hcalled (by rw [heq]; rfl) (by rw [heq]; exact if_pos rfl)
        (by rw [heq])
    · rw [heq]
      exact Exchanges.of_same rfl (if_neg hne.symm) (if_neg hne.symm) rfl fun _ => rfl

end Steps

section Texts

variable {s s' : Wires Fifo} {a b : Nat} {e : WireEvent}

/-- A step ends no process if what is composed in it fits. -/
theorem step_returns (ha : Established a s) (hb : Established b s) (hla : Linked a s) (hlb : Linked b s)
    (hs : Sane s) (he : s.enabled e = true) (hgenuine : s.genuine a e ∧ s.genuine b e)
    (hcarries : s.carries a b e) : ∃ s', s.step e = .ok s' := by
  cases e with
  | deliver q n => exact ⟨_, rfl⟩
  | network e =>
    cases e with
    | server e =>
      obtain ⟨hticks, hcounts⟩ := hcarries
      have hstepped := Server.step_stepped hs.sound he (Server.gated_open s.server e)
      rcases hok : s.server.step e with halt | server
      · rw [hok] at hstepped
        rcases hstepped with ⟨_, hno⟩ | ⟨_, hno⟩
        · rw [hticks] at hno
          cases hno
        · rw [hcounts] at hno
          cases hno
      · refine ⟨{ s with server := server }, ?_⟩
        rw [step, Network.step, hok]
        rfl
    | read q n =>
      have hown : ∀ p, Established p s → Linked p s → s.genuine p (.network (.read q n)) → q = p →
          ∃ s', s.step (.network (.read q n)) = .ok s' := by
        intro p h hl hgenuine hq
        subst hq
        have hfit : (s.chunk q n).length ≤ getFreeSpace (s.clients q).receivedData :=
          Nat.le_trans (List.length_take_le _ _) (hgenuine rfl)
        have hbytes : s.toClient q = (readAll (s.clients q).receivedData).1 ++ (s.chunk q n ++
            ((s.server.heap q).sent.drop (s.read q + n) ++ (s.server.heap q).outgoingData)) := by
          rw [toClient, ← List.append_assoc (s.chunk q n), ← List.drop_drop]
          exact congrArg (fun bytes => (readAll (s.clients q).receivedData).1 ++
            (bytes ++ (s.server.heap q).outgoingData)) (List.take_append_drop n _).symm
        have hafter := hl.attached.onRead h.isConnected hfit hbytes
        rcases hok : (s.clients q).onRead [s.chunk q n] with halt | c'
        · rw [hok] at hafter
          exact absurd h.protocolState hafter
        · refine ⟨{ s with toNetwork := (s.toNetwork.setClient q c').advance q n }, ?_⟩
          rw [step, Network.step, Network.act, hok]
          rfl
      exact hcarries.elim (hown a ha hla hgenuine.1) (hown b hb hlb hgenuine.2)
    | sendToPeer q peer_id message =>
      obtain ⟨hq, hfits⟩ := hcarries
      have hout : (s.clients q).outPacketBuffer = Fifo.empty 65536 := by
        rcases hq with rfl | rfl
        · exact hla.attached.out
        · exact hlb.attached.out
      refine ⟨{ s with
        toNetwork := s.toNetwork.setClient q ((s.clients q).send (mediaMsgPacket peer_id message)) }, ?_⟩
      rw [step, Network.step, Network.act, PeerConnectionClient.sendToPeer, packet_send hout hfits]
      rfl
    | opened q => cases hcarries
    | requestToPeer q peer_id => cases hcarries
    | signOut q => cases hcarries
    | closed q => cases hcarries

/-- The texts that are handled from `a` for `b` in a step are those that `b` is told. -/
theorem step_relays (ha : Established a s) (hb : Established b s) (hs : Sane s) (he : s.enabled e = true)
    (hok : s.step e = .ok s') : Server.Passes a b s.server s'.server := by
  have hids : ∀ q ∈ s.server.clients, ∀ r ∈ s.server.clients,
      (s.server.heap q).uniqueID = (s.server.heap r).uniqueID → q = r :=
    fun q hq r hr => hs.authentic.id_inj (hs.sound.allocated q hq) (hs.sound.allocated r hr)
  have hsame : s'.server = s.server → Server.Passes a b s.server s'.server := by
    intro heq
    rw [heq]
    exact ⟨[], (List.append_nil _).symm, ClientHandle.silent_passive.refl _⟩
  obtain ⟨event, hserving⟩ | ⟨event, q, rfl, hcaller⟩ | ⟨q, n, c', rfl, _, heq⟩ := step_cases he hok
  · exact Server.step_passes hs.sound hserving.enabled ha.serves.member hb.serves.member ha.serves.working hids
      hserving.step
  · obtain ⟨c', heq, _⟩ := call_step hcaller he hok
    exact hsame (by rw [heq]; rfl)
  · exact hsame (by rw [heq]; rfl)

theorem Established.uniqueID {p : Nat} (h : Established p s) (h' : Established p s') (hs : Sane s)
    (hs' : Sane s') : (s'.server.heap p).uniqueID = (s.server.heap p).uniqueID :=
  (hs'.authentic.ids p (hs'.sound.allocated p h'.serves.member)).trans
    (hs.authentic.ids p (hs.sound.allocated p h.serves.member)).symm

omit [Platform] in
theorem readable_size {todo : List (UInt32 × AString)} (h : ∀ q ∈ todo, Readable q) :
    ∀ q ∈ todo, (rawPacket q).body.length < 2 ^ 32 := by
  intro q hq
  have hfits := (h q hq).fits
  omega

/-- What `b` was given from `a` and what is on its way to it stays the same, but for what `a` sends to it. -/
theorem step_texts (ha : Established a s) (hb : Established b s) (hla : Linked a s) (hlb : Linked b s)
    (hs : Sane s) (ha' : Established a s') (hb' : Established b s') (hs' : Sane s') (he : s.enabled e = true)
    (hgenuine : s.genuine a e ∧ s.genuine b e) (hok : s.step e = .ok s') :
    heard a b s' ++ underway a b s' = heard a b s ++ underway a b s ++ asked a (s.server.heap b).uniqueID e := by
  obtain ⟨posts, handled, hposts, hhandled, htoServer, hcalls, hasked⟩ :=
    (step_exchanges ha hla hs he hgenuine.1 ha' hok).server
  obtain ⟨more, new, hmore, hnew, htoClient, htold, hheard⟩ :=
    (step_exchanges hb hlb hs he hgenuine.2 hb' hok).client
  obtain ⟨up, hup, hupward⟩ := hla.attached.written
  obtain ⟨down, hdown, hdownward⟩ := hlb.attached.readable
  obtain ⟨ida, hida⟩ : ∃ ida, ida = (s.server.heap a).uniqueID := ⟨_, rfl⟩
  obtain ⟨idb, hidb⟩ : ∃ idb, idb = (s.server.heap b).uniqueID := ⟨_, rfl⟩
  have hrelayed : messages ida (more.map call) = messages idb (handled.map call) := by
    obtain ⟨news, hnews, hears⟩ := step_relays ha hb hs he hok
    obtain ⟨_, htexts⟩ := hears hb'.serves.hasSentDC
    have hhandled : news = handled.map call := List.append_cancel_left (hnews.symm.trans hcalls)
    rw [ClientHandle.relayed, ClientHandle.relayed, htold, List.map_append, messages_append, hhandled, ← hida,
      ← hidb] at htexts
    exact List.append_cancel_left htexts
  have hdownSize := readable_size fun q hq => (hdown q hq).1
  have hclient : messages ida (new.map call) ++ messagesIn ida (s'.toClient b) =
      messagesIn ida (s.toClient b) ++ messages ida (more.map call) := by
    rw [← messagesIn_stream (readable_size hnew), ← htoClient, hdownward, messagesIn_stream hdownSize,
      messagesIn_all hdownSize, messagesIn_all (readable_size hmore)]
  have hserver : messages idb (handled.map call) ++ messagesIn idb (s'.toServer a) =
      messagesIn idb (s.toServer a) ++ messages idb (posts.map call) := by
    rw [← messagesIn_stream (written_size hhandled), ← htoServer, hupward, messagesIn_stream (written_size hup),
      messagesIn_all (written_size hup), messagesIn_all (written_size hposts)]
  calc heard a b s' ++ underway a b s'
      = heard a b s ++ (messages ida (new.map call) ++ messagesIn ida (s'.toClient b)) ++
          messagesIn idb (s'.toServer a) := by
        rw [heard, heard, underway, ha.uniqueID ha' hs hs', hb.uniqueID hb' hs hs', hheard, ← hida, ← hidb]
        simp
    _ = heard a b s ++ messagesIn ida (s.toClient b) ++
          (messages idb (handled.map call) ++ messagesIn idb (s'.toServer a)) := by
        rw [hclient, hrelayed]
        simp
    _ = heard a b s ++ messagesIn ida (s.toClient b) ++
          (messagesIn idb (s.toServer a) ++ messages idb (posts.map call)) := by rw [hserver]
    _ = heard a b s ++ underway a b s ++ asked a (s.server.heap b).uniqueID e := by
        rw [hasked, underway, ← hida, ← hidb]
        simp

/-- Once all has come and was handled, no text is on its way. -/
theorem Arrived.underway (h : Arrived a b s) (hb : Established b s) (hla : Linked a s) (hlb : Linked b s) :
    Wires.underway a b s = [] := by
  obtain ⟨u, hu, hinput, hunread⟩ := hla.clear
  obtain ⟨v, hv, hreceived, hlast⟩ := hlb.attached.received
  have htoServer : s.toServer a = u := by
    rw [toServer, Server.inbound_eq hu hinput, h.delivered, h.incoming, List.drop_length]
    simp
  have htoClient : s.toClient b = v := by
    rw [toClient, hreceived, readAll_fifo, (Fifo.filled_eq hv).2.2, h.read, h.outgoing, List.drop_length]
    simp
  rw [Wires.underway, htoClient, htoServer, messagesIn_none (hlast hb.protocolState), messagesIn_none hunread]
  rfl

end Texts

end Wires

end P2PChat

import P2PChat.RelayFidelity
import P2PChat.ToldPeers

namespace P2PChat

open ByteQueue PeerConnectionClient

section Announcements

variable [Platform]

end Announcements

namespace Wires

section Definitions

variable {β : Type} [ByteQueue β] [Platform]

/-- The server logs nobody in beside somebody who is not, and tells of others no connection that waits for
its login. -/
def orderly (s : Wires β) : WireEvent → Prop
  | .network (.server e) => s.server.gated Gate.together e ∧ s.server.gated Gate.undisturbed e
  | _ => True

end Definitions

variable [Platform] {s s' : Wires Fifo} {p : Nat}

/-- Of what a client was told, it shows what has come, and the rest is on its way. -/
structure Pictured (p : Nat) (s : Wires Fifo) : Prop where
  linked : p < s.server.allocated → (s.server.heap p).link = true → (s.server.heap p).hasSentDC = false →
    (s.clients p).Gone ∨ ∃ done todo, (s.server.heap p).told = done ++ todo ∧ (∀ q ∈ todo, Readable q) ∧
      s.toClient p = stream todo ∧ (s.clients p).picture = done.foldl shows (1, fun _ => none)
  waiting : s.server.allocated ≤ p → (s.clients p).Gone ∨
    (s.clients p).picture = (1, fun _ => none) ∧ (readAll (s.clients p).receivedData).1 = []

theorem Pictured.of_same (h : Pictured p s) (hserver : s'.server = s.server) (hclient : s'.clients p = s.clients p)
    (hread : s'.read p = s.read p) : Pictured p s' := by
  have htoClient : s'.toClient p = s.toClient p := by
    rw [toClient, toClient, hserver, hclient, hread]
  refine ⟨fun hp hlink hdc => ?_, fun hp => ?_⟩
  · rw [hserver] at hp hlink hdc
    rw [hclient, htoClient, hserver]
    exact h.linked hp hlink hdc
  · rw [hserver] at hp
    rw [hclient]
    exact h.waiting hp

omit [Platform] in
/-- A connection that a step of the server brings has just been made. -/
theorem accepted_heap {e : Event} [Platform] (hs : s.server.Sound) (hok : s.server.step e = .ok s'.server)
    (hp : p < s'.server.allocated) (hnew : s.server.allocated ≤ p) :
    ∃ ip, e = .connectionAccepted ip ∧ s'.server.heap p =
      (ClientHandle.create ip (UInt32.ofNat (s.server.clientCount + 1)) s.server.now).onLinkCreated := by
  obtain ⟨ip, rfl⟩ : ∃ ip, e = .connectionAccepted ip := by
    by_contra hnone
    rw [Server.step_allocated hs (fun ip heq => hnone ⟨ip, heq⟩) hok] at hp
    omega
  have haccepted : s'.server = s.server.accept ip := by
    have hok : s.server.connectionAccepted ip = .ok s'.server := hok
    unfold Server.connectionAccepted at hok
    split at hok
    next => cases hok
    next => exact (Except.ok.inj hok).symm
  have hlast : p = s.server.allocated := by
    rw [haccepted] at hp
    have hp : p < s.server.allocated + 1 := hp
    omega
  exact ⟨ip, rfl, by rw [haccepted, Server.accept_heap, if_pos hlast]⟩

/-- What the server tells is behind the rest. -/
theorem Pictured.serverStep {e : WireEvent} {event : Event} (h : Pictured p s) (hj : Joined p s) (hsane : Sane s)
    (hgenuine : s.genuine p e) (hserving : Serving e event s s') : Pictured p s' := by
  have hclient : s'.clients p = s.clients p := by rw [hserving.clients]
  refine ⟨fun hp hlink hdc => ?_, fun hp => ?_⟩
  · rw [hclient]
    rcases Nat.lt_or_ge p s.server.allocated with hold | hnew
    · obtain ⟨more, hmore⟩ := Server.step_speaks hsane.sound hold hserving.step
      have hlink₀ := hmore.link hlink
      have hdc₀ := hmore.hasSentDC hdc
      rcases h.linked hold hlink₀ hdc₀ with hgone | ⟨done, todo, hall, hreadable, htoClient, hpicture⟩
      · exact Or.inl hgone
      rcases hj.linked hold hlink₀ hdc₀ with hgone | hl
      · exact Or.inl hgone
      obtain ⟨⟨rest, hrest⟩, hdelivered⟩ := hserving.bytes p hgenuine
      have hdrop : (s.clients p).sent.drop (s.delivered p) =
          event.bytesFor p ++ (s.clients p).sent.drop (s'.delivered p) := by
        rw [hdelivered, ← List.drop_drop, ← hrest, List.drop_left]
      obtain ⟨hrelays, _⟩ := server_relays hsane.sound (hsane.inStep p) hserving.enabled hold hserving.step hclient
        (by rw [hserving.read]) hdrop hlink hdc hl.read hl.clear hl.attached
      obtain ⟨new, hnew, hbytes, htold⟩ := hrelays.told
      refine Or.inr ⟨done, todo ++ new, ?_, fun q hq => (List.mem_append.mp hq).elim (hreadable q) (hnew q), ?_,
        hpicture⟩
      · rw [htold, hall, List.append_assoc]
      · rw [hbytes, htoClient, stream_append]
    · obtain ⟨ip, _, hheap⟩ := accepted_heap hsane.sound hserving.step hp hnew
      refine (h.waiting hnew).imp id ?_
      rintro ⟨hpicture, hreceived⟩
      have htoClient : s'.toClient p = [] := by
        rw [toClient, hheap, hclient, hreceived, hserving.read]
        change [] ++ (([] : AString).drop (s.read p) ++ []) = []
        rw [List.drop_nil]
        rfl
      exact ⟨[], [], by rw [hheap]; rfl, List.forall_mem_nil _, htoClient, hpicture⟩
  · have hgrows : s.server.allocated ≤ s'.server.allocated := by
      have hstepped := Server.step_stepped hsane.sound hserving.enabled (Server.gated_open s.server event)
      rw [hserving.step] at hstepped
      exact Server.effects_allocated hstepped.2.2
    rw [hclient]
    exact h.waiting (Nat.le_trans hgrows hp)

/-- A client that acts on its own keeps its list. -/
theorem call_peers {event : NetworkEvent} {c' : PeerConnectionClient Fifo} (hcaller : event.caller = some p)
    (hok : s.step (.network event) = .ok s') (heq : s' = { s with toNetwork := s.toNetwork.setClient p c' }) :
    c'.peers = (s.clients p).peers := by
  have hclient : s'.clients p = c' := by
    rw [heq]
    exact if_pos rfl
  have hsame : ∀ {f : PeerConnectionClient Fifo → Except Halt (PeerConnectionClient Fifo)},
      (s.toNetwork.act p f).map (fun network => ({ s with toNetwork := network } : Wires Fifo)) = .ok s' →
      f (s.clients p) = .ok c' := by
    intro f hact
    obtain ⟨c'', hcall, hnext⟩ := act_ok hact
    have hself : s'.clients p = c'' := by
      rw [hnext]
      exact if_pos rfl
    rw [← hclient, hself]
    exact hcall
  have hpacket : ∀ {c : PeerConnectionClient Fifo} {packet : Packet}, c.packet packet = .ok c' →
      c.peers = (s.clients p).peers → c'.peers = (s.clients p).peers := by
    intro c packet hcall hpeers
    obtain ⟨out, sent, hchanged⟩ := packet_changes hcall
    rw [hchanged]
    exact hpeers
  cases event with
  | server e => cases hcaller
  | read q n => cases hcaller
  | opened q =>
    cases hcaller
    exact hpacket (c := { s.clients p with isConnected := true }) (hsame (f := onConnect) hok) rfl
  | requestToPeer q peer_id =>
    cases hcaller
    exact hpacket (hsame (f := PeerConnectionClient.requestToPeer peer_id) hok) rfl
  | sendToPeer q peer_id message =>
    cases hcaller
    exact hpacket (hsame (f := PeerConnectionClient.sendToPeer peer_id message) hok) rfl
  | signOut q =>
    cases hcaller
    have hcall := Except.ok.inj (hsame (f := fun c => .ok c.signOut) hok)
    rw [← hcall]
    exact (peers_rule (s.clients p).peers).signOut _ rfl
  | closed q =>
    cases hcaller
    have hcall := Except.ok.inj (hsame (f := fun c => .ok c.onClose) hok)
    rw [← hcall]
    rfl

/-- What a client sends leaves what it shows. -/
theorem Pictured.called (h : Pictured p s) (hj : Joined p s) (hserver : s'.server = s.server)
    (hread : s'.read p = s.read p) (hpeers : (s'.clients p).peers = (s.clients p).peers)
    (hgone : (s.clients p).Gone → (s'.clients p).Gone)
    (hcalled : ∀ toServer toClient, Attached toServer toClient (s.clients p) → ∃ posts,
      (∀ q ∈ posts, Written q) ∧ Called posts (s.clients p) (s'.clients p)) : Pictured p s' := by
  have hsends : ∀ toServer toClient, Attached toServer toClient (s.clients p) → (s'.clients p).Gone ∨
      (s'.clients p).receivedData = (s.clients p).receivedData ∧ (s'.clients p).picture = (s.clients p).picture := by
    intro toServer toClient hattached
    obtain ⟨posts, _, hcall⟩ := hcalled _ _ hattached
    cases hcall with
    | gone hno => exact Or.inl hno
    | sends _ hreceived hstate _ _ _ =>
      exact Or.inr ⟨hreceived, by rw [picture, picture, hstate, hpeers]⟩
  refine ⟨fun hp hlink hdc => ?_, fun hp => ?_⟩
  · rw [hserver] at hp hlink hdc
    rcases h.linked hp hlink hdc with hno | ⟨done, todo, hall, hreadable, htoClient, hshown⟩
    · exact Or.inl (hgone hno)
    rcases hj.linked hp hlink hdc with hno | hl
    · exact Or.inl (hgone hno)
    refine (hsends _ _ hl.attached).imp id ?_
    rintro ⟨hreceived, hpicture⟩
    refine ⟨done, todo, by rw [hserver]; exact hall, hreadable, ?_, hpicture.trans hshown⟩
    rw [← htoClient, toClient, toClient, hreceived, hserver, hread]
  · rw [hserver] at hp
    rcases h.waiting hp with hno | ⟨hstart, hnothing⟩
    · exact Or.inl (hgone hno)
    obtain ⟨_, _, hwaiting⟩ := hj.waiting hp
    rcases hwaiting with hno | hattached
    · exact Or.inl (hgone hno)
    refine (hsends _ _ hattached).imp id ?_
    rintro ⟨hreceived, hpicture⟩
    exact ⟨hpicture.trans hstart, by rw [hreceived]; exact hnothing⟩

/-- What a client reads it shows. -/
theorem Pictured.reads {n : Nat} (h : Pictured p s) (hj : Joined p s)
    (he : s.toNetwork.enabled (.read p n) = true) (hfit : n ≤ getFreeSpace (s.clients p).receivedData)
    (hok : (s.clients p).onRead [s.chunk p n] = .ok (s'.clients p)) (hserver : s'.server = s.server)
    (hread : s'.read p = s.read p + n) : Pictured p s' := by
  have hopen := he
  simp only [Network.enabled, Bool.and_eq_true, decide_eq_true_eq] at hopen
  obtain ⟨⟨⟨⟨hp, hsocket⟩, _⟩, _⟩, _⟩ := hopen
  refine ⟨fun _ hlink hdc => ?_, fun hnot => ?_⟩
  · rw [hserver] at hlink hdc
    have hthere : ¬(s.clients p).Gone := by
      intro hgone
      rw [hgone.isConnected] at hsocket
      cases hsocket
    obtain ⟨done, todo, hall, hreadable, htoClient, hshown⟩ := (h.linked hp hlink hdc).resolve_left hthere
    have hl := (hj.linked hp hlink hdc).resolve_left hthere
    obtain ⟨rest, hrest⟩ : ∃ rest, rest =
        (s.server.heap p).sent.drop (s.read p + n) ++ (s.server.heap p).outgoingData := ⟨_, rfl⟩
    have hbytes : s.toClient p = (readAll (s.clients p).receivedData).1 ++ (s.chunk p n ++ rest) := by
      have hchunk : (s.server.heap p).sent.drop (s.read p) =
          s.chunk p n ++ (s.server.heap p).sent.drop (s.read p + n) := by
        rw [← List.drop_drop]
        exact (List.take_append_drop n _).symm
      rw [toClient, hchunk, hrest, List.append_assoc]
    have hrange : (s.clients p).protocolState = 1 ∨ (s.clients p).protocolState = 2 ∨
        (s.clients p).protocolState = 3 := by
      have hstate : (s.clients p).protocolState = done.foldl meets 1 :=
        (congrArg Prod.fst hshown).trans (foldl_shows done _)
      rw [hstate]
      exact foldl_meets_range (Or.inl rfl) done
    have hsmall : (s.chunk p n).length ≤ getFreeSpace (s.clients p).receivedData :=
      Nat.le_trans (List.length_take_le _ _) hfit
    refine (hl.attached.shows hsocket hrange hsmall hreadable htoClient hbytes hok).imp id ?_
    rintro ⟨new, left, hsplit, hleft, hpicture⟩
    refine ⟨done ++ new, left, ?_, fun q hq => hreadable q (by rw [hsplit]; exact List.mem_append_right _ hq), ?_, ?_⟩
    · rw [hserver, hall, hsplit, List.append_assoc]
    · rw [← hleft, toClient, hserver, hread, hrest]
    · rw [hpicture, hshown, List.foldl_append]
  · rw [hserver] at hnot
    omega

/-- Every step keeps what a client shows whose bytes go both ways. -/
theorem step_pictured {e : WireEvent} (h : Pictured p s) (hj : Joined p s) (hsane : Sane s) (he : s.enabled e = true)
    (hgenuine : s.genuine p e) (hok : s.step e = .ok s') : Pictured p s' := by
  obtain ⟨event, hserving⟩ | ⟨event, q, rfl, hcaller⟩ | ⟨q, n, c', rfl, hcalled, heq⟩ := step_cases he hok
  · exact h.serverStep hj hsane hgenuine hserving
  · obtain ⟨c', heq, hgone, hcalled⟩ := call_step hcaller he hok
    rcases eq_or_ne q p with rfl | hne
    · have hclient : s'.clients q = c' := by
        rw [heq]
        exact if_pos rfl
      have hpeers := call_peers hcaller hok heq
      rw [← hclient] at hgone hcalled hpeers
      refine h.called hj (by rw [heq]; rfl) (by rw [heq]; rfl) hpeers hgone fun S T hattached => ?_
      obtain ⟨posts, hposts, hcall, _⟩ := hcalled S T hattached
      exact ⟨posts, hposts, hcall⟩
    · rw [heq]
      exact h.of_same rfl (if_neg hne.symm) rfl
  · rcases eq_or_ne q p with rfl | hne
    · have hclient : s'.clients q = c' := by
        rw [heq]
        exact if_pos rfl
      rw [← hclient] at hcalled
      exact h.reads hj he (hgenuine rfl) hcalled (by rw [heq]; rfl) (by rw [heq]; exact if_pos rfl)
    · rw [heq]
      exact h.of_same rfl (if_neg hne.symm) (if_neg hne.symm)

section Runs

variable {clients : Nat → PeerConnectionClient Fifo} {allowed : Wires Fifo → WireEvent → Prop}

theorem start_pictured (hclient : (clients p).Offline) (hpeers : (clients p).peers = fun _ => none) :
    Pictured p (start clients) where
  linked hp := absurd hp (Nat.not_lt_zero p)
  waiting _ := by
    have hreceived : (clients p).receivedData = Fifo.empty 65536 := hclient.received
    have hpicture : (clients p).picture = (1, fun _ => none) := by
      rw [picture, hclient.protocolState, hpeers]
    have hnothing : (readAll (clients p).receivedData).1 = [] := by
      rw [hreceived]
      rfl
    exact Or.inr ⟨hpicture, hnothing⟩

theorem pictured_of_reach (hclient : (clients p).Offline) (hsent : (clients p).sent = [])
    (hpeers : (clients p).peers = fun _ => none) (hgenuine : ∀ s e, allowed s e → s.genuine p e)
    (h : (wireMachine Fifo).Reach allowed (start clients) s) : Pictured p s := by
  refine h.invariant (I := Pictured p) (start_pictured hclient hpeers) ?_
  intro s e s' hr hi he hallowed hok
  have hj := joined_of_reach hclient hsent hgenuine hr
  exact step_pictured hi hj (sane_of_reach hr) he (hgenuine s e hallowed) hok

end Runs

end Wires

namespace Server

open ClientHandle

variable [Platform]

/-- What is told stays in step with the connections. -/
theorem Effect.tells {who : Nat → Prop} {s s' : Server Fifo} (hs : s.Sound) (hin : ∀ q, (s.heap q).InStep)
    (h : ∀ q < s.allocated, Tells (s.heap q)) (he : Effect Gate.undisturbed who s s') :
    ∀ q < s'.allocated, Tells (s'.heap q) := by
  intro q hq
  by_cases hold : q < s.allocated
  · exact he.guarded tells_guarded hs hin hold (h q hold)
  · obtain ⟨ip, id, now, hborn⟩ := he.born hq hold
    rw [hborn]
    intro _ _
    rfl

end Server

namespace Wires

variable [Platform] {clients : Nat → PeerConnectionClient ByteBuffer} {s : Wires ByteBuffer} {p : Nat}

omit [Platform] in
theorem connect_peers {β : Type} [ByteQueue β] (user pass : AString) (c : PeerConnectionClient β) :
    (c.connect user pass).peers = c.peers := by
  unfold PeerConnectionClient.connect
  split
  next => rfl
  next => rfl

/-- A run with ring buffers is one over plain queues. -/
theorem reach_contents {allowed : Wires ByteBuffer → WireEvent → Prop} {allowed' : Wires Fifo → WireEvent → Prop}
    (hallowed : ∀ s e, allowed s e → allowed' (s.map ByteBuffer.contents) e)
    (h : (wireMachine ByteBuffer).Reach allowed (start clients) s) :
    (wireMachine Fifo).Reach allowed' (start fun p => (clients p).map ByteBuffer.contents)
      (s.map ByteBuffer.contents) := by
  have hf := ByteBuffer.contents_hom
  have hstep : ∀ s e, (wireMachine Fifo).step (map ByteBuffer.contents s) e =
      ((wireMachine ByteBuffer).step s e).map (map ByteBuffer.contents) := step_map hf
  rw [← start_map hf]
  exact h.map (fun s e he => (enabled_map s e).trans he) hallowed hstep

theorem toClient_map (s : Wires ByteBuffer) (p : Nat) : (s.map ByteBuffer.contents).toClient p = s.toClient p := by
  have hread := ByteBuffer.contents_hom.readAll (s.clients p).receivedData
  have hread : (readAll (s.clients p).receivedData.contents).1 = (readAll (s.clients p).receivedData).1 := by
    rw [hread]
  exact congrArg (fun u => u ++ ((s.server.heap p).sent.drop (s.read p) ++ (s.server.heap p).outgoingData)) hread

/-- Whatever the others do: a client that reads what fits its buffer and is connected, as the server is to it, has
come in its state and in its list to what the packets say that it was told first, and the others are, byte for byte,
on their way. -/
theorem pictures_follow
    (hclients : ∀ p, ((clients p).map ByteBuffer.contents).Offline ∧ (clients p).sent = [] ∧
      (clients p).peers = fun _ => none)
    (h : (wireMachine ByteBuffer).Reach (fun s e => s.genuine p e) (start clients) s)
    (hp : p < s.server.allocated) (hlink : (s.server.heap p).link = true)
    (hdc : (s.server.heap p).hasSentDC = false) (hsocket : (s.clients p).isConnected = true) :
    ∃ done todo, (s.server.heap p).told = done ++ todo ∧ s.toClient p = stream todo ∧
      (s.clients p).picture = done.foldl shows (1, fun _ => none) := by
  have hpictured := pictured_of_reach (hclients p).1 (hclients p).2.1 (hclients p).2.2 (fun _ _ hgenuine => hgenuine)
    (reach_contents (genuine_map ByteBuffer.contents_hom) h)
  rcases hpictured.linked hp hlink hdc with hgone | ⟨done, todo, htold, _, htoClient, hpicture⟩
  · have hnone : (s.clients p).isConnected = false := hgone.isConnected
    rw [hsocket] at hnone
    cases hnone
  · exact ⟨done, todo, htold, (toClient_map s p).symm.trans htoClient, hpicture⟩

section Runs

instance {β : Type} [ByteQueue β] (s : Wires β) (e : WireEvent) : Decidable (s.orderly e) := by
  unfold orderly
  split <;> infer_instance

omit [Platform] in
/-- The second client reads that the first has logged in, and takes it for its own login; it shows what it
was told. -/
theorem pictures_follow_stranger :
    letI := zeroPlatform
    ∃ s : Wires ByteBuffer, ((s.clients 1).protocolState = 3 ∧ (s.server.heap 1).protocol.state = 2) ∧
      ∃ done todo, (s.server.heap 1).told = done ++ todo ∧ s.toClient 1 = stream todo ∧
        (s.clients 1).picture = done.foldl shows (1, fun _ => none) := by
  let : Platform := zeroPlatform
  have hrun : ((wireMachine ByteBuffer).replay (fun s e => s.enabled e && decide (s.genuine 1 e))
      ((signing 0 [97]).take 5 ++ (signing 1 [98]).take 5 ++ (signing 0 [97]).drop 5 ++
        [.network (.server (.tickClient 1)), .network (.read 1 6)])
      (start Network.dialling)).map (fun s => decide (((s.clients 1).protocolState = 3 ∧
        (s.server.heap 1).protocol.state = 2) ∧ 1 < s.server.allocated ∧ (s.server.heap 1).link = true ∧
          (s.server.heap 1).hasSentDC = false ∧ (s.clients 1).isConnected = true)) = some true := by
    decide +kernel
  obtain ⟨s, hs, hall⟩ := Option.map_eq_some_iff.mp hrun
  obtain ⟨hstates, hp, hlink, hdc, hsocket⟩ := of_decide_eq_true hall
  have hreach : (wireMachine ByteBuffer).Reach (fun s e => s.genuine 1 e) (start Network.dialling) s := by
    refine Machine.replay_reach (fun s e he => ?_) .start hs
    obtain ⟨hen, hgenuine⟩ := Bool.and_eq_true_iff.mp he
    exact ⟨hen, of_decide_eq_true hgenuine⟩
  exact ⟨s, hstates, pictures_follow (fun p => ⟨Network.dialling_offline p, connect_sent _ _ _, connect_peers _ _ _⟩)
    hreach hp hlink hdc hsocket⟩

end Runs

end Wires

end P2PChat

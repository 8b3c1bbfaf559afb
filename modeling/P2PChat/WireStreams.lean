import P2PChat.AttachedClients
import P2PChat.Authentication
import P2PChat.Wires

namespace P2PChat

open ByteQueue Relation PeerConnectionClient

/-- The client that its user, or a signal of its socket other than data, makes act. -/
def NetworkEvent.caller : NetworkEvent → Option Nat
  | .opened p => some p
  | .requestToPeer p _ => some p
  | .sendToPeer p _ _ => some p
  | .signOut p => some p
  | .closed p => some p
  | _ => none

namespace Wires

variable [Platform]

section Steps

variable {s s' : Wires Fifo} {p q : Nat}

/-- What a step of the server makes of the bytes of a connection: it handles packets from the client, and
has packets for it. -/
structure Relays (p : Nat) (s s' : Wires Fifo) : Prop where
  handled : ∃ new, (∀ q ∈ new, Written q) ∧ s.toServer p = stream new ++ s'.toServer p ∧
    (s'.server.heap p).calls = (s.server.heap p).calls ++ new.map call
  told : ∃ more, (∀ q ∈ more, Readable q) ∧ s'.toClient p = s.toClient p ++ stream more ∧
    (s'.server.heap p).told = (s.server.heap p).told ++ more

theorem server_relays {e : Event} (hs : s.server.Sound) (hagrees : (s.server.heap p).InStep)
    (he : s.server.enabled e = true) (hp : p < s.server.allocated) (hok : s.server.step e = .ok s'.server)
    (hclient : s'.clients p = s.clients p) (hread : s'.read p = s.read p)
    (hbytes : (s.clients p).sent.drop (s.delivered p) =
      e.bytesFor p ++ (s.clients p).sent.drop (s'.delivered p))
    (hlink : (s'.server.heap p).link = true) (hdc : (s'.server.heap p).hasSentDC = false)
    (hsent : s.read p ≤ (s.server.heap p).sent.length)
    (hclear : Clear (s.server.heap p).protocol.receivedData)
    (hattached : Attached (s.toServer p) (s.toClient p) (s.clients p)) :
    Relays p s s' ∧ Clear (s'.server.heap p).protocol.receivedData ∧
      Attached (s'.toServer p) (s'.toClient p) (s'.clients p) := by
  obtain ⟨up, hup, htoServer⟩ := hattached.written
  obtain ⟨down, hdown, htoClient⟩ := hattached.readable
  obtain ⟨more, hmore⟩ := Server.step_speaks hs hp hok
  have hall : (s.server.inbound p ++ e.bytesFor p) ++ (s.clients p).sent.drop (s'.delivered p) = stream up := by
    rw [List.append_assoc, ← hbytes]
    exact htoServer
  have hstart : s.server.inbound p ++ e.bytesFor p <+: stream up := by
    rw [← hall]
    exact List.prefix_append _ _
  obtain ⟨new, rest, hnew, htakes⟩ := Server.step_takes hs he hp hagrees hclear (written_size hup) hstart hok hdc
  have hserver : s.toServer p = stream new ++ s'.toServer p := by
    rw [toServer, toServer, hclient, hbytes, ← List.append_assoc, htakes.bytes, List.append_assoc]
  have hrest : s'.toServer p = stream rest := by
    rw [htoServer, hnew, stream_append] at hserver
    exact (List.append_cancel_left hserver).symm
  have hpending : (s'.server.heap p).sent.drop (s.read p) ++ (s'.server.heap p).outgoingData =
      (s.server.heap p).sent.drop (s.read p) ++ (s.server.heap p).outgoingData ++ stream more := by
    have hlen := hmore.sent.length_le
    rw [← List.drop_append_of_le_length (Nat.le_trans hsent hlen), hmore.bytes hlink,
      List.append_assoc, List.drop_append_of_le_length hsent, List.append_assoc]
  have hclientBytes : s'.toClient p = s.toClient p ++ stream more := by
    rw [toClient, toClient, hclient, hread, hpending, List.append_assoc, List.append_assoc, List.append_assoc]
  refine ⟨⟨⟨new, fun q hq => hup q (by rw [hnew]; exact List.mem_append_left _ hq), hserver, htakes.calls⟩,
    ⟨more, hmore.readable, hclientBytes, hmore.told⟩⟩, htakes.clear, ?_⟩
  rw [hclient]
  refine ⟨hattached.out, hattached.received, hattached.closes, ⟨rest, fun q hq => hup q ?_, hrest⟩,
    ⟨down ++ more, fun q hq => ?_, ?_⟩⟩
  · rw [hnew]
    exact List.mem_append_right _ hq
  · rcases List.mem_append.mp hq with hold | hnew
    · exact hdown q hold
    · exact ⟨hmore.readable q hnew, hmore.parting hdc q hnew⟩
  · rw [hclientBytes, htoClient, stream_append]

omit [Platform] in
theorem act_ok {f : PeerConnectionClient Fifo → Except Halt (PeerConnectionClient Fifo)}
    (h : (s.toNetwork.act p f).map (fun network => ({ s with toNetwork := network } : Wires Fifo)) = .ok s') :
    ∃ c', f (s.clients p) = .ok c' ∧ s' = { s with toNetwork := s.toNetwork.setClient p c' } := by
  unfold Network.act at h
  rcases hf : f (s.clients p) with halt | c'
  · rw [hf] at h
    cases h
  · rw [hf] at h
    cases h
    exact ⟨c', rfl, rfl⟩

/-- A step of a client that only sends. -/
theorem call_step {e : NetworkEvent} (hcaller : e.caller = some p) (he : s.toNetwork.enabled e = true)
    (hok : s.step (.network e) = .ok s') :
    ∃ c', s' = { s with toNetwork := s.toNetwork.setClient p c' } ∧ ((s.clients p).Gone → c'.Gone) ∧
      ∀ toServer toClient, Attached toServer toClient (s.clients p) → ∃ posts, (∀ q ∈ posts, Written q) ∧
        Called posts (s.clients p) c' ∧ ((s.clients p).isConnected = true →
          ∀ id, messages id (posts.map call) = asked p id (.network e)) := by
  cases e with
  | server e => cases hcaller
  | read q n => cases hcaller
  | opened q =>
    cases hcaller
    simp only [Network.enabled, Bool.and_eq_true, Bool.not_eq_true', Bool.or_eq_true, beq_iff_eq] at he
    obtain ⟨c', hcall, heq⟩ := act_ok hok
    refine ⟨c', heq, fun hgone => ?_, fun toServer toClient hattached => ?_⟩
    · have hnone := hgone.state
      rcases he.2 with hstate | hstate
      · rw [hstate] at hnone
        cases hnone
      · rw [hstate] at hnone
        cases hnone
    · obtain ⟨posts, hposts, hcalled⟩ := hattached.onConnect he.2 hcall
      refine ⟨posts, fun q hq => (hposts q hq).written, hcalled, fun hsocket => ?_⟩
      rw [he.1] at hsocket
      cases hsocket
  | requestToPeer q peer_id =>
    cases hcaller
    obtain ⟨c', hcall, heq⟩ := act_ok hok
    refine ⟨c', heq, fun hgone => hgone.packet hcall, fun toServer toClient hattached => ?_⟩
    obtain ⟨hcalled, _⟩ := hattached.packet hcall
    refine ⟨_, fun q hq => ?_, hcalled, fun hsocket id => ?_⟩
    · split at hq
      next => exact (List.mem_singleton.mp hq) ▸ (media_plain peer_id 0).written
      next => cases hq
    · rw [if_pos hsocket]
      exact messages_other (by simp [call, mediaPacket])
  | sendToPeer q peer_id message =>
    cases hcaller
    obtain ⟨c', hcall, heq⟩ := act_ok hok
    refine ⟨c', heq, fun hgone => hgone.packet hcall, fun toServer toClient hattached => ?_⟩
    obtain ⟨hcalled, hfits⟩ := hattached.packet hcall
    refine ⟨_, fun q hq => ?_, hcalled, fun hsocket id => ?_⟩
    · split at hq
      next => exact (List.mem_singleton.mp hq) ▸ mediaMsg_written hfits
      next => cases hq
    · have hone := @message_mediaMsg _ id peer_id message (mediaMsg_short hfits)
      have hcall : (call ((mediaMsgPacket peer_id message).type, (mediaMsgPacket peer_id message).fieldBytes)) =
          call (0x12, (mediaMsgPacket peer_id message).fieldBytes) := rfl
      have hasked : asked p id (.network (.sendToPeer p peer_id message)) =
          if peer_id = id ∧ message ≠ kByeMessage then [message] else [] := by simp [asked]
      rw [if_pos hsocket, List.map_singleton, hcall, messages_singleton, hone, hasked]
      split <;> rfl
  | signOut q =>
    cases hcaller
    obtain ⟨c', hcall, heq⟩ := act_ok (f := fun c => .ok c.signOut) hok
    cases hcall
    exact ⟨_, heq, fun hgone => hgone.signOut, fun _ _ hattached =>
      ⟨[], List.forall_mem_nil _, hattached.signOut, fun _ _ => rfl⟩⟩
  | closed q =>
    cases hcaller
    obtain ⟨c', hcall, heq⟩ := act_ok (f := fun c => .ok c.onClose) hok
    cases hcall
    exact ⟨_, heq, fun _ => onClose_gone _, fun _ _ _ =>
      ⟨[], List.forall_mem_nil _, .gone (onClose_gone _), fun _ _ => rfl⟩⟩

theorem read_step {n : Nat} (hok : s.step (.network (.read p n)) = .ok s') :
    ∃ c', (s.clients p).onRead [s.chunk p n] = .ok c' ∧
      s' = { s with toNetwork := (s.toNetwork.setClient p c').advance p n } := by
  have hstep : s.step (.network (.read p n)) = ((s.toNetwork.act p (onRead [s.chunk p n])).map
      (Network.advance p n)).map (fun network => { s with toNetwork := network }) := rfl
  rw [hstep] at hok
  unfold Network.act at hok
  rcases hcall : (s.clients p).onRead [s.chunk p n] with halt | c'
  · rw [hcall] at hok
    cases hok
  · rw [hcall] at hok
    cases hok
    exact ⟨c', rfl, rfl⟩

theorem server_step {e : Event} (hok : s.step (.network (.server e)) = .ok s') :
    s.server.step e = .ok s'.server ∧ s'.clients = s.clients ∧ s'.read = s.read ∧
      s'.delivered = s.delivered := by
  have hstep : s.step (.network (.server e)) = ((s.server.step e).map
      fun server => ({ s.toNetwork with server := server } : Network Fifo)).map
        (fun network => { s with toNetwork := network }) := rfl
  rw [hstep] at hok
  rcases hserver : s.server.step e with halt | server
  · rw [hserver] at hok
    cases hok
  · rw [hserver] at hok
    cases hok
    exact ⟨rfl, rfl, rfl, rfl⟩

/-- A step of the server, with the bytes of a client if there are any. -/
structure Serving (e : WireEvent) (event : Event) (s s' : Wires Fifo) : Prop where
  enabled : s.server.enabled event = true
  step : s.server.step event = .ok s'.server
  clients : s'.clients = s.clients
  read : s'.read = s.read
  bytes : ∀ p, s.genuine p e → event.bytesFor p <+: (s.clients p).sent.drop (s.delivered p) ∧
    s'.delivered p = s.delivered p + (event.bytesFor p).length
  keeps : ∀ p, s.keeps p e → s.server.quiet p event
  asked : ∀ p id, asked p id e = []

theorem deliver_serving {n : Nat} (he : s.enabled (.deliver q n) = true) :
    Serving (.deliver q n) (.receivedData q (s.packet q n)) s (s.deliver q n) := by
  simp only [Wires.enabled, Bool.and_eq_true, decide_eq_true_eq] at he
  obtain ⟨⟨⟨hq, hlink⟩, _⟩, hlen⟩ := he
  refine ⟨by simp [Server.enabled, hq, hlink], rfl, rfl, rfl, fun p _ => ?_, fun _ _ => trivial, fun _ _ => rfl⟩
  rcases eq_or_ne q p with rfl | hne
  · have hbytes : (Event.receivedData q (s.packet q n)).bytesFor q = s.packet q n := if_pos rfl
    have hsize : (s.packet q n).length = n := by
      rw [Wires.packet, List.length_take, List.length_drop]
      omega
    rw [hbytes, hsize]
    exact ⟨List.take_prefix _ _, if_pos rfl⟩
  · have hbytes : (Event.receivedData q (s.packet q n)).bytesFor p = [] := if_neg hne
    rw [hbytes]
    exact ⟨List.nil_prefix, if_neg hne.symm⟩

theorem server_serving {e : Event} (he : s.server.enabled e = true) (hok : s.step (.network (.server e)) = .ok s') :
    Serving (.network (.server e)) e s s' := by
  obtain ⟨hserver, hclients, hread, hdelivered⟩ := server_step hok
  refine ⟨he, hserver, hclients, hread, fun p hgenuine => ?_, fun _ hkeeps => hkeeps, fun _ _ => rfl⟩
  have hnone : e.bytesFor p = [] := by
    unfold Event.bytesFor
    split
    next q data => exact if_neg hgenuine
    next => rfl
  rw [hdelivered, hnone]
  exact ⟨List.nil_prefix, rfl⟩

/-- In a step the server moves, or a client acts on its own, or a client reads. -/
theorem step_cases {e : WireEvent} (he : s.enabled e = true) (hok : s.step e = .ok s') :
    (∃ event, Serving e event s s') ∨
    (∃ event q, e = .network event ∧ event.caller = some q) ∨
    (∃ q n c', e = .network (.read q n) ∧ (s.clients q).onRead [s.chunk q n] = .ok c' ∧
      s' = { s with toNetwork := (s.toNetwork.setClient q c').advance q n }) := by
  cases e with
  | deliver q n =>
    cases hok
    exact .inl ⟨_, deliver_serving he⟩
  | network e =>
    cases e with
    | server e => exact .inl ⟨e, server_serving he hok⟩
    | read q n =>
      obtain ⟨c', hcalled, heq⟩ := read_step hok
      exact .inr (.inr ⟨q, n, c', rfl, hcalled, heq⟩)
    | opened q => exact .inr (.inl ⟨_, q, rfl, rfl⟩)
    | requestToPeer q _ => exact .inr (.inl ⟨_, q, rfl, rfl⟩)
    | sendToPeer q _ _ => exact .inr (.inl ⟨_, q, rfl, rfl⟩)
    | signOut q => exact .inr (.inl ⟨_, q, rfl, rfl⟩)
    | closed q => exact .inr (.inl ⟨_, q, rfl, rfl⟩)

end Steps

section Invariant

variable {s s' : Wires Fifo} {p : Nat}

/-- The connection as both its ends have it. -/
structure Linked (p : Nat) (s : Wires Fifo) : Prop where
  delivered : s.delivered p ≤ (s.clients p).sent.length
  read : s.read p ≤ (s.server.heap p).sent.length
  clear : Clear (s.server.heap p).protocol.receivedData
  attached : Attached (s.toServer p) (s.toClient p) (s.clients p)

/-- As long as neither end has ended the connection, its bytes are in order. Before there is one, the
client may have sent some. -/
structure Joined (p : Nat) (s : Wires Fifo) : Prop where
  linked : p < s.server.allocated → (s.server.heap p).link = true → (s.server.heap p).hasSentDC = false →
    (s.clients p).Gone ∨ Linked p s
  waiting : s.server.allocated ≤ p → s.delivered p = 0 ∧ s.read p = 0 ∧
    ((s.clients p).Gone ∨ Attached (s.clients p).sent (readAll (s.clients p).receivedData).1 (s.clients p))

theorem Joined.of_same (h : Joined p s) (hserver : s'.server = s.server) (hclient : s'.clients p = s.clients p)
    (hread : s'.read p = s.read p) (hdelivered : s'.delivered p = s.delivered p) : Joined p s' := by
  have htoServer : s'.toServer p = s.toServer p := by
    rw [toServer, toServer, hserver, hclient, hdelivered]
  have htoClient : s'.toClient p = s.toClient p := by
    rw [toClient, toClient, hserver, hclient, hread]
  refine ⟨fun hp hlink hdc => ?_, fun hp => ?_⟩
  · rw [hserver] at hp hlink hdc
    rw [hclient]
    refine (h.linked hp hlink hdc).imp id fun hl => ⟨?_, ?_, ?_, ?_⟩
    · rw [hdelivered, hclient]
      exact hl.delivered
    · rw [hread, hserver]
      exact hl.read
    · rw [hserver]
      exact hl.clear
    · rw [htoServer, htoClient, hclient]
      exact hl.attached
  · rw [hserver] at hp
    rw [hdelivered, hread, hclient]
    exact h.waiting hp

/-- The server moves on, with bytes of the client if there are any. -/
theorem Joined.serverStep {e : Event} (h : Joined p s) (hs : s.server.Sound)
    (hagrees : ∀ q, (s.server.heap q).InStep) (he : s.server.enabled e = true)
    (hok : s.server.step e = .ok s'.server) (hclient : s'.clients p = s.clients p)
    (hread : s'.read p = s.read p) (hdelivered : s'.delivered p = s.delivered p + (e.bytesFor p).length)
    (hbytes : e.bytesFor p <+: (s.clients p).sent.drop (s.delivered p)) : Joined p s' := by
  have hnothing : s.server.allocated ≤ p → s'.delivered p = s.delivered p := by
    intro hp
    have hnone : e.bytesFor p = [] := by
      unfold Event.bytesFor
      split
      next q data =>
        simp only [Server.enabled, Bool.and_eq_true, decide_eq_true_eq] at he
        rw [if_neg (by omega)]
      next => rfl
    rw [hdelivered, hnone]
    rfl
  refine ⟨fun hp hlink hdc => ?_, fun hp => ?_⟩
  · by_cases hold : p < s.server.allocated
    · obtain ⟨more, hmore⟩ := Server.step_speaks hs hold hok
      rw [hclient]
      refine (h.linked hold (hmore.link hlink) (hmore.hasSentDC hdc)).imp id fun hl => ?_
      obtain ⟨rest, hrest⟩ := hbytes
      have hdrop : (s.clients p).sent.drop (s.delivered p) =
          e.bytesFor p ++ (s.clients p).sent.drop (s'.delivered p) := by
        rw [hdelivered, ← List.drop_drop, ← hrest, List.drop_left]
      obtain ⟨_, hclear, hattached⟩ := server_relays hs (hagrees p) he hold hok hclient hread hdrop hlink hdc
        hl.read hl.clear hl.attached
      refine ⟨?_, ?_, hclear, hattached⟩
      · have hlen := congrArg List.length hrest
        have hle := hl.delivered
        rw [List.length_append, List.length_drop] at hlen
        rw [hclient, hdelivered]
        omega
      · rw [hread]
        exact Nat.le_trans hl.read hmore.sent.length_le
    · have hold := Nat.le_of_not_lt hold
      obtain ⟨hdelivered₀, hread₀, hwaiting⟩ := h.waiting hold
      obtain ⟨ip, rfl⟩ : ∃ ip, e = .connectionAccepted ip := by
        by_contra hnone
        rw [Server.step_allocated hs (fun ip heq => hnone ⟨ip, heq⟩) hok] at hp
        omega
      have haccepted : s'.server = s.server.accept ip := by
        have hok : s.server.connectionAccepted ip = .ok s'.server := hok
        unfold Server.connectionAccepted at hok
        split at hok
        next => cases hok
        next => exact (Except.ok.inj hok).symm
      have hlast : p = s.server.allocated := by
        rw [haccepted] at hp
        have hp : p < s.server.allocated + 1 := hp
        omega
      have hheap : s'.server.heap p =
          (ClientHandle.create ip (UInt32.ofNat (s.server.clientCount + 1)) s.server.now).onLinkCreated := by
        rw [haccepted, Server.accept_heap, if_pos hlast]
      have htoServer : s'.toServer p = (s.clients p).sent := by
        rw [toServer, Server.inbound, hheap, hclient, hnothing hold, hdelivered₀, List.drop_zero]
        rfl
      have htoClient : s'.toClient p = (readAll (s.clients p).receivedData).1 := by
        rw [toClient, hheap, hclient, hread, hread₀]
        exact List.append_nil _
      rw [hclient]
      refine hwaiting.imp id fun hattached => ⟨?_, ?_, ?_, ?_⟩
      · rw [hnothing hold, hdelivered₀]
        exact Nat.zero_le _
      · rw [hread, hread₀]
        exact Nat.zero_le _
      · rw [hheap]
        exact ⟨[], Nat.zero_le _, rfl, nextFrame_nil⟩
      · rw [htoServer, htoClient, hclient]
        exact hattached
  · have hgrows : s.server.allocated ≤ s'.server.allocated := by
      have hstepped := Server.step_stepped hs he (Server.gated_open s.server e)
      rw [hok] at hstepped
      exact Server.effects_allocated hstepped.2.2
    have hold := Nat.le_trans hgrows hp
    rw [hnothing hold, hread, hclient]
    exact h.waiting hold

/-- What the client sends is behind the rest. -/
theorem Linked.called {posts : List (UInt32 × AString)} (h : Linked p s) (hserver : s'.server = s.server)
    (hread : s'.read p = s.read p) (hdelivered : s'.delivered p = s.delivered p)
    (hposts : ∀ q ∈ posts, Written q) (hcalled : Called posts (s.clients p) (s'.clients p)) :
    (s'.clients p).Gone ∨ Linked p s' ∧ s'.toServer p = s.toServer p ++ stream posts ∧
      s'.toClient p = s.toClient p := by
  refine (h.attached.called hposts hcalled).imp id ?_
  rintro ⟨hsent, hreceived, hattached⟩
  have htoServer : s'.toServer p = s.toServer p ++ stream posts := by
    rw [toServer, toServer, hserver, hdelivered, hsent, List.drop_append_of_le_length h.delivered,
      List.append_assoc]
  have htoClient : s'.toClient p = s.toClient p := by
    rw [toClient, toClient, hserver, hread, hreceived]
  refine ⟨⟨?_, ?_, ?_, ?_⟩, htoServer, htoClient⟩
  · have hle := h.delivered
    rw [hdelivered, hsent, List.length_append]
    omega
  · rw [hread, hserver]
    exact h.read
  · rw [hserver]
    exact h.clear
  · rw [htoServer, htoClient]
    exact hattached

/-- What the client reads it has handled, in the last state all of it. -/
theorem Linked.reads {n : Nat} (h : Linked p s) (he : s.toNetwork.enabled (.read p n) = true)
    (hfit : n ≤ getFreeSpace (s.clients p).receivedData)
    (hok : (s.clients p).onRead [s.chunk p n] = .ok (s'.clients p)) (hserver : s'.server = s.server)
    (hread : s'.read p = s.read p + n) (hdelivered : s'.delivered p = s.delivered p) :
    ((s'.clients p).Gone ∧ (s.clients p).protocolState ≠ 3) ∨ Linked p s' ∧ ∃ new posts,
      (∀ q ∈ new, Readable q) ∧ (∀ q ∈ posts, Plain q) ∧ s'.toServer p = s.toServer p ++ stream posts ∧
        s.toClient p = stream new ++ s'.toClient p ∧ ((s.clients p).protocolState = 3 →
          (s'.clients p).protocolState = 3 ∧ (s'.clients p).isConnected = true ∧
            ∀ id, (s'.clients p).heardFrom id = (s.clients p).heardFrom id ++ messages id (new.map call)) := by
  simp only [Network.enabled, Bool.and_eq_true, decide_eq_true_eq] at he
  obtain ⟨⟨⟨⟨_, hsocket⟩, _⟩, _⟩, hlen⟩ := he
  obtain ⟨rest, hrest⟩ : ∃ rest, rest =
      (s.server.heap p).sent.drop (s.read p + n) ++ (s.server.heap p).outgoingData := ⟨_, rfl⟩
  have hsmall : (s.chunk p n).length ≤ getFreeSpace (s.clients p).receivedData :=
    Nat.le_trans (List.length_take_le _ _) hfit
  have hbytes : s.toClient p = (readAll (s.clients p).receivedData).1 ++ (s.chunk p n ++ rest) := by
    have hchunk : (s.server.heap p).sent.drop (s.read p) =
        s.chunk p n ++ (s.server.heap p).sent.drop (s.read p + n) := by
      rw [← List.drop_drop]
      exact (List.take_append_drop n _).symm
    rw [toClient, hchunk, hrest, List.append_assoc]
  have hafter := h.attached.onRead hsocket hsmall hbytes
  rw [hok] at hafter
  refine hafter.imp id ?_
  rintro ⟨new, posts, hreadable, hposts, hsent, hnew, hattached, hlast⟩
  have htoServer : s'.toServer p = s.toServer p ++ stream posts := by
    rw [toServer, toServer, hserver, hdelivered, hsent, List.drop_append_of_le_length h.delivered,
      List.append_assoc]
  have htoClient : s'.toClient p = (readAll (s'.clients p).receivedData).1 ++ rest := by
    rw [toClient, hserver, hread, hrest]
  refine ⟨⟨?_, ?_, ?_, ?_⟩, new, posts, hreadable, hposts, htoServer, by rw [htoClient]; exact hnew, hlast⟩
  · have hle := h.delivered
    rw [hdelivered, hsent, List.length_append]
    omega
  · rw [hread, hserver]
    exact hlen
  · rw [hserver]
    exact h.clear
  · rw [htoServer, htoClient]
    exact hattached

theorem Joined.called (h : Joined p s) (hserver : s'.server = s.server) (hread : s'.read p = s.read p)
    (hdelivered : s'.delivered p = s.delivered p) (hgone : (s.clients p).Gone → (s'.clients p).Gone)
    (hcalled : ∀ toServer toClient, Attached toServer toClient (s.clients p) → ∃ posts,
      (∀ q ∈ posts, Written q) ∧ Called posts (s.clients p) (s'.clients p)) : Joined p s' := by
  refine ⟨fun hp hlink hdc => ?_, fun hp => ?_⟩
  · rw [hserver] at hp hlink hdc
    rcases h.linked hp hlink hdc with hno | hl
    · exact Or.inl (hgone hno)
    · obtain ⟨posts, hposts, hcall⟩ := hcalled _ _ hl.attached
      exact (hl.called hserver hread hdelivered hposts hcall).imp id And.left
  · rw [hserver] at hp
    obtain ⟨hdelivered₀, hread₀, hwaiting⟩ := h.waiting hp
    rw [hdelivered, hread]
    refine ⟨hdelivered₀, hread₀, ?_⟩
    rcases hwaiting with hno | hattached
    · exact Or.inl (hgone hno)
    · obtain ⟨posts, hposts, hcall⟩ := hcalled _ _ hattached
      refine (hattached.called hposts hcall).imp id ?_
      rintro ⟨hsent, hreceived, hattached⟩
      rw [hsent, hreceived]
      exact hattached

theorem Joined.reads {n : Nat} (h : Joined p s) (he : s.toNetwork.enabled (.read p n) = true)
    (hfit : n ≤ getFreeSpace (s.clients p).receivedData)
    (hok : (s.clients p).onRead [s.chunk p n] = .ok (s'.clients p)) (hserver : s'.server = s.server)
    (hread : s'.read p = s.read p + n) (hdelivered : s'.delivered p = s.delivered p) : Joined p s' := by
  have hopen := he
  simp only [Network.enabled, Bool.and_eq_true, decide_eq_true_eq] at hopen
  refine ⟨fun hp hlink hdc => ?_, fun hnot => ?_⟩
  · rw [hserver] at hp hlink hdc
    rcases h.linked hp hlink hdc with hno | hl
    · have hsocket := hno.isConnected
      rw [hopen.1.1.1.2] at hsocket
      cases hsocket
    · exact (hl.reads he hfit hok hserver hread hdelivered).imp And.left And.left
  · rw [hserver] at hnot
    omega

/-- Every step keeps the bytes of a connection in order whose bytes come from its client. -/
theorem step_joined {e : WireEvent} (h : Joined p s) (hs : s.server.Sound)
    (hagrees : ∀ q, (s.server.heap q).InStep) (he : s.enabled e = true) (hgenuine : s.genuine p e)
    (hok : s.step e = .ok s') : Joined p s' := by
  obtain ⟨event, hserving⟩ | ⟨event, q, rfl, hcaller⟩ | ⟨q, n, c', rfl, hcalled, heq⟩ := step_cases he hok
  · obtain ⟨hbytes, hdelivered⟩ := hserving.bytes p hgenuine
    exact h.serverStep hs hagrees hserving.enabled hserving.step (by rw [hserving.clients]) (by rw [hserving.read])
      hdelivered hbytes
  · obtain ⟨c', heq, hgone, hcalled⟩ := call_step hcaller he hok
    rcases eq_or_ne q p with rfl | hne
    · have hclient : s'.clients q = c' := by
        rw [heq]
        exact if_pos rfl
      rw [← hclient] at hgone hcalled
      refine h.called (by rw [heq]; rfl) (by rw [heq]; rfl) (by rw [heq]) hgone fun S T hattached => ?_
      obtain ⟨posts, hposts, hcall, _⟩ := hcalled S T hattached
      exact ⟨posts, hposts, hcall⟩
    · rw [heq]
      exact h.of_same rfl (if_neg hne.symm) rfl rfl
  · rcases eq_or_ne q p with rfl | hne
    · have hclient : s'.clients q = c' := by
        rw [heq]
        exact if_pos rfl
      rw [← hclient] at hcalled
      exact h.reads he (hgenuine rfl) hcalled (by rw [heq]; rfl) (by rw [heq]; exact if_pos rfl)
        (by rw [heq])
    · rw [heq]
      exact h.of_same rfl (if_neg hne.symm) (if_neg hne.symm) rfl

end Invariant

section Runs

variable {clients : Nat → PeerConnectionClient Fifo} {s : Wires Fifo} {p : Nat}

/-- Nobody is connected, and nothing was sent. -/
theorem start_joined (hclient : (clients p).Offline) (hsent : (clients p).sent = []) :
    Joined p (start clients) where
  linked hp := absurd hp (Nat.not_lt_zero p)
  waiting _ := by
    have hsent' : ((start clients).clients p).sent = stream [] := hsent
    have hread : (readAll ((start clients).clients p).receivedData).1 = stream [] := by
      have hreceived : ((start clients).clients p).receivedData = Fifo.empty 65536 := hclient.received
      rw [hreceived]
      rfl
    refine ⟨rfl, rfl, Or.inr ⟨hclient.out, ⟨[], Nat.zero_le _, hclient.received, fun _ => nextFrame_nil⟩,
      fun hsocket => ?_, ⟨[], nofun, hsent'⟩, ⟨[], nofun, hread⟩⟩⟩
    have hnone := hclient.isConnected
    have hsocket : (clients p).isConnected = true := hsocket
    rw [hnone] at hsocket
    cases hsocket

/-- What the server does in a run is a run of the server. -/
theorem server_reach {allowed : Wires Fifo → WireEvent → Prop}
    (h : (wireMachine Fifo).Reach allowed (start clients) s) :
    (serverMachine Fifo).Reach (fun s e => s.gated Gate.open e) Server.initial s.server := by
  induction h with
  | start => exact .start
  | @next s s' e _ he _ hok ih =>
    have hok : s.step e = .ok s' := hok
    obtain ⟨event, hserving⟩ | ⟨event, q, rfl, hcaller⟩ | ⟨q, n, c', rfl, _, heq⟩ := step_cases he hok
    · exact .next ih hserving.enabled (Server.gated_open _ _) hserving.step
    · obtain ⟨c', heq, _⟩ := call_step hcaller he hok
      rw [heq]
      exact ih
    · rw [heq]
      exact ih

/-- What holds of the server in every run. -/
structure Sane (s : Wires Fifo) : Prop where
  sound : s.server.Sound
  inStep : ∀ q, (s.server.heap q).InStep
  authentic : s.server.Authentic

theorem sane_of_reach {allowed : Wires Fifo → WireEvent → Prop}
    (h : (wireMachine Fifo).Reach allowed (start clients) s) : Sane s := by
  have hinv := Server.reach_invariant (I := fun s => (∀ q, (s.heap q).InStep) ∧ s.Authentic)
    Server.initial_sound ⟨fun _ => ClientHandle.create_inStep _ _ _, Server.initial_authentic⟩
    (fun _ _ _ hs hi he => ⟨he.inStep hi.1, he.authentic hs hi.2⟩) (server_reach h)
  exact ⟨hinv.1, hinv.2.1, hinv.2.2⟩

theorem joined_of_reach {allowed : Wires Fifo → WireEvent → Prop} (hclient : (clients p).Offline)
    (hsent : (clients p).sent = []) (hgenuine : ∀ s e, allowed s e → s.genuine p e)
    (h : (wireMachine Fifo).Reach allowed (start clients) s) : Joined p s := by
  refine h.invariant (I := Joined p) (start_joined hclient hsent) ?_
  intro s e s' hr hj he hallowed hok
  have hsane := sane_of_reach hr
  exact step_joined hj hsane.sound hsane.inStep he (hgenuine s e hallowed) hok

end Runs

end Wires

end P2PChat

import P2PChat.RelayFidelity
import P2PChat.Services

namespace P2PChat

open ByteQueue Relation

section Frames

variable [Platform] {xs handled : List (UInt32 × AString)} {grown v rest : AString}

/-- Packets of which nothing is left are among those that were handled, in front of all others. -/
theorem calls_front (hxs : ∀ q ∈ xs, (rawPacket q).body.length < 2 ^ 32)
    (hhandled : ∀ q ∈ handled, (rawPacket q).body.length < 2 ^ 32)
    (hbytes : stream xs ++ grown = stream handled ++ (v ++ rest)) (hwait : nextFrame v = none)
    (hrest : rest.length ≤ grown.length) : xs.map call <+: handled.map call := by
  have hlen := congrArg List.length hbytes
  simp only [List.length_append] at hlen
  have hall : stream handled ++ v <+: stream xs ++ grown := by
    rw [hbytes, ← List.append_assoc]
    exact List.prefix_append _ _
  have hfront : stream xs <+: stream handled ++ v := by
    apply List.prefix_of_prefix_length_le (List.prefix_append _ _) hall
    rw [List.length_append]
    omega
  obtain ⟨w, hw⟩ := hfront
  have hleft := @packets_stream _ (fun _ => true) xs hxs (fun _ _ => rfl) w
  have hright := @packets_stream _ (fun _ => true) handled hhandled (fun _ _ => rfl) v
  rw [hw, hright, packets_none hwait, List.append_nil] at hleft
  exact ⟨_, hleft.symm⟩

end Frames

namespace ClientHandle

variable {c c' : ClientHandle Fifo}

theorem pinged_speaks (now : Int) (c : ClientHandle Fifo) : Speaks c (c.pinged now) := by
  unfold pinged
  split
  next =>
    have hset : Speaks c { c with pingID := c.pingID + 1, pingStartTime := now } :=
      ⟨[], Utters.of_same rfl rfl rfl id id⟩
    exact hset.trans (keepAliveSent_speaks _ _)
  next => exact speaks_refl c

theorem timedOut_speaks (c : ClientHandle Fifo) : Speaks c c.timedOut := by
  have hcount : Speaks c c.countTick := ⟨[], Utters.of_same rfl rfl rfl id id⟩
  unfold timedOut
  split
  next => exact hcount.trans (disconnect_speaks _ _)
  next => exact hcount

/-- All that was queued before is in what the link was given. -/
theorem rested_sent (now : Int) (hlink : c.link = true) : c.sent ++ c.outgoingData <+: (c.rested now).sent := by
  have hwork : Speaks c.flush c.flush.startWorking := by
    unfold startWorking
    split
    next => exact ⟨[], Utters.of_same rfl rfl rfl id id⟩
    next => exact speaks_refl _
  obtain ⟨more, hmore⟩ := (hwork.trans (pinged_speaks now _)).trans (timedOut_speaks _)
  have hflush : c.flush.sent = c.sent ++ c.outgoingData := if_pos hlink
  rw [← hflush]
  exact hmore.sent

end ClientHandle

namespace Server

variable [Platform] {s s' : Server Fifo} {p : Nat}

/-- A tick gives the link all that was queued before. -/
theorem tickClient_sends (hs : s.Sound) (hnot : (s.heap p).isDestroyed = false) (hok : s.tickClient p = .ok s')
    (hlink : (s'.heap p).link = true) : (s.heap p).sent ++ (s.heap p).outgoingData <+: (s'.heap p).sent := by
  obtain ⟨t, _, hsmall, hheap⟩ := tickClient_parts hs hnot hok
  obtain ⟨more, hmore⟩ := speaks_of_small (q := p) hs hsmall
  have hopen : (t.heap p).link = true := by
    rw [hheap, (ClientHandle.rested_eq t.now (t.heap p)).1] at hlink
    exact hlink
  have hbefore : (s.heap p).sent ++ (s.heap p).outgoingData <+: (t.heap p).sent ++ (t.heap p).outgoingData := by
    rw [hmore.bytes hopen]
    exact List.prefix_append _ _
  rw [hheap]
  exact hbefore.trans (ClientHandle.rested_sent t.now hopen)

/-- Unless it ends the connection, a tick takes all that has come in. -/
theorem tickClient_empties {todo : List (UInt32 × AString)} (hs : s.Sound) (hnot : (s.heap p).isDestroyed = false)
    (hagrees : (s.heap p).InStep) (hclear : Clear (s.heap p).protocol.receivedData)
    (hsize : ∀ q ∈ todo, (rawPacket q).body.length < 2 ^ 32) (hstart : s.inbound p <+: stream todo)
    (hok : s.tickClient p = .ok s') (hdc : (s'.heap p).hasSentDC = false) : (s'.heap p).incomingData = [] := by
  obtain ⟨t, ht, _, hheap⟩ := tickClient_parts hs hnot hok
  rw [hheap] at hdc ⊢
  rw [(ClientHandle.rested_untouched t.now (t.heap p)).incoming]
  have hdc := ClientHandle.rested_hasSentDC hdc
  by_cases hin : (s.heap p).incomingData = []
  · rw [tickReceived, if_neg (not_not.mpr hin)] at ht
    cases ht
    exact hin
  · obtain ⟨u, hu, hrec, _⟩ := hclear
    have hagree := hagrees.live (live_of_not (hs.connections p) (Bool.eq_false_iff.mp hnot))
    rw [inbound_eq hu hrec] at hstart
    have hfit : (u ++ (s.heap p).incomingData).length ≤ 65536 := by
      by_contra hlong
      rw [tickReceived_overflows hs hrec hin hu (Nat.lt_of_not_le hlong) ht] at hdc
      cases hdc
    cases tickReceived_left hs hnot hagree.range hsize hu hrec hstart hin hfit ht with
    | emptied _ hno => exact hno.elim
    | reading _ _ _ _ _ _ _ h _ => exact h.steady.incoming

end Server

namespace Wires

variable [Platform]

section Steps

variable {s s' t : Wires Fifo} {a b p : Nat} {e : WireEvent}

/-- What a client has sent grew by what is on its way now and was not before. -/
theorem Linked.grown {grown : AString} (hl : Linked p s) (hl' : Linked p s') (hserver : s'.server = s.server)
    (hdelivered : s'.delivered p = s.delivered p) (htoServer : s'.toServer p = s.toServer p ++ grown) :
    (s'.clients p).sent.length = (s.clients p).sent.length + grown.length := by
  have hlen := congrArg List.length htoServer
  have hle := hl.delivered
  have hle' := hl'.delivered
  simp only [toServer, hserver, hdelivered, List.length_append, List.length_drop] at hlen
  omega

/-- In a step the server handles packets of a client, or the client sends. -/
theorem step_handles (h : Established p s) (hl : Linked p s) (hs : Sane s) (he : s.enabled e = true)
    (hgenuine : s.genuine p e) (h' : Established p s') (hl' : Linked p s') (hok : s.step e = .ok s') :
    ∃ grown handled, (∀ q ∈ handled, Written q) ∧ s.toServer p ++ grown = stream handled ++ s'.toServer p ∧
      (s'.clients p).sent.length = (s.clients p).sent.length + grown.length ∧
      (s'.server.heap p).calls = (s.server.heap p).calls ++ handled.map call := by
  have hposts : ∀ grown, s'.server = s.server → s'.delivered p = s.delivered p →
      s'.toServer p = s.toServer p ++ grown → ∃ grown handled, (∀ q ∈ handled, Written q) ∧
        s.toServer p ++ grown = stream handled ++ s'.toServer p ∧
        (s'.clients p).sent.length = (s.clients p).sent.length + grown.length ∧
        (s'.server.heap p).calls = (s.server.heap p).calls ++ handled.map call := by
    intro grown hserver hdelivered htoServer
    refine ⟨grown, [], List.forall_mem_nil _, htoServer.symm, hl.grown hl' hserver hdelivered htoServer, ?_⟩
    rw [hserver]
    exact (List.append_nil _).symm
  have hsame : s'.server = s.server → s'.delivered p = s.delivered p → s'.clients p = s.clients p →
      s'.toServer p = s.toServer p ++ [] := by
    intro hserver hdelivered hclient
    rw [toServer, toServer, hserver, hdelivered, hclient, List.append_nil]
  obtain ⟨event, hserving⟩ | ⟨event, q, rfl, hcaller⟩ | ⟨q, n, c', rfl, hcalled, heq⟩ := step_cases he hok
  · have hclient : s'.clients p = s.clients p := by rw [hserving.clients]
    obtain ⟨⟨rest, hrest⟩, hdelivered⟩ := hserving.bytes p hgenuine
    have hdrop : (s.clients p).sent.drop (s.delivered p) =
        event.bytesFor p ++ (s.clients p).sent.drop (s'.delivered p) := by
      rw [hdelivered, ← List.drop_drop, ← hrest, List.drop_left]
    obtain ⟨hrelays, _⟩ := server_relays hs.sound (hs.inStep p) hserving.enabled
      (hs.sound.allocated p h.serves.member) hserving.step hclient (by rw [hserving.read]) hdrop
      h'.serves.link h'.serves.hasSentDC hl.read hl.clear hl.attached
    obtain ⟨handled, hhandled, htoServer, hcalls⟩ := hrelays.handled
    refine ⟨[], handled, hhandled, ?_, ?_, hcalls⟩
    · rw [htoServer, List.append_nil]
    · rw [hclient]
      rfl
  · obtain ⟨c', hnext, _, hcalled⟩ := call_step hcaller he hok
    have hserver : s'.server = s.server := by
      rw [hnext]
      rfl
    have hdelivered : s'.delivered p = s.delivered p := by rw [hnext]
    rcases eq_or_ne q p with rfl | hne
    · have hclient : s'.clients q = c' := by
        rw [hnext]
        exact if_pos rfl
      obtain ⟨posts, hwritten, hcalled, _⟩ := hcalled _ _ hl.attached
      rw [← hclient] at hcalled
      rcases hl.called hserver (by rw [hnext]; rfl) hdelivered hwritten hcalled with hgone | ⟨_, htoServer, _⟩
      · have hsocket := hgone.isConnected
        rw [h'.isConnected] at hsocket
        cases hsocket
      · exact hposts _ hserver hdelivered htoServer
    · refine hposts [] hserver hdelivered (hsame hserver hdelivered ?_)
      rw [hnext]
      exact if_neg hne.symm
  · have hserver : s'.server = s.server := by
      rw [heq]
      rfl
    have hdelivered : s'.delivered p = s.delivered p := by rw [heq]
    rcases eq_or_ne q p with rfl | hne
    · have hclient : s'.clients q = c' := by
        rw [heq]
        exact if_pos rfl
      rw [← hclient] at hcalled
      rcases hl.reads he (hgenuine rfl) hcalled hserver (by rw [heq]; exact if_pos rfl) hdelivered with
        hgone | ⟨_, _, _, _, _, htoServer, _, _⟩
      · exact absurd h.protocolState hgone.2
      · exact hposts _ hserver hdelivered htoServer
    · refine hposts [] hserver hdelivered (hsame hserver hdelivered ?_)
      rw [heq]
      exact if_neg hne.symm

/-- What a client is told is queued for it, or was given to its link. -/
theorem step_queues {more : List (UInt32 × AString)} (h : Established p s) (hs : Sane s) (he : s.enabled e = true)
    (h' : Established p s') (hok : s.step e = .ok s')
    (htold : (s'.server.heap p).told = (s.server.heap p).told ++ more) :
    (s'.server.heap p).sent ++ (s'.server.heap p).outgoingData =
      (s.server.heap p).sent ++ (s.server.heap p).outgoingData ++ stream more := by
  have hsame : s'.server = s.server → (s'.server.heap p).sent ++ (s'.server.heap p).outgoingData =
      (s.server.heap p).sent ++ (s.server.heap p).outgoingData ++ stream more := by
    intro hserver
    rw [hserver] at htold ⊢
    have hnothing : more = [] := List.self_eq_append_right.mp htold
    rw [hnothing]
    exact (List.append_nil _).symm
  obtain ⟨event, hserving⟩ | ⟨event, q, rfl, hcaller⟩ | ⟨q, n, c', rfl, _, heq⟩ := step_cases he hok
  · obtain ⟨more', hmore⟩ := Server.step_speaks (q := p) hs.sound
      (hs.sound.allocated p h.serves.member) hserving.step
    have hmore' : more' = more := List.append_cancel_left (hmore.told.symm.trans htold)
    rw [← hmore']
    exact hmore.bytes h'.serves.link
  · obtain ⟨c', hnext, _⟩ := call_step hcaller he hok
    exact hsame (by rw [hnext]; rfl)
  · exact hsame (by rw [heq]; rfl)

/-- What a part of a run makes of the texts from `a` to `b`: `a` sends these bytes, the server handles these
packets of it and tells `b` those, and `b` handles the last. -/
structure Moves (a b : Nat) (ida idb : UInt32) (grown : AString) (handled more new : List (UInt32 × AString))
    (s s' : Wires Fifo) : Prop where
  written : ∀ q ∈ handled, Written q
  told : ∀ q ∈ more, Readable q
  readable : ∀ q ∈ new, Readable q
  toServer : s.toServer a ++ grown = stream handled ++ s'.toServer a
  sent : (s'.clients a).sent.length = (s.clients a).sent.length + grown.length
  toClient : s.toClient b ++ stream more = stream new ++ s'.toClient b
  queued : (s'.server.heap b).sent ++ (s'.server.heap b).outgoingData =
    (s.server.heap b).sent ++ (s.server.heap b).outgoingData ++ stream more
  relayed : messages ida (more.map call) = messages idb (handled.map call)
  heard : (s'.clients b).heardFrom ida = (s.clients b).heardFrom ida ++ messages ida (new.map call)

theorem moves_refl (a b : Nat) (ida idb : UInt32) (s : Wires Fifo) : Moves a b ida idb [] [] [] [] s s where
  written := List.forall_mem_nil _
  told := List.forall_mem_nil _
  readable := List.forall_mem_nil _
  toServer := List.append_nil _
  sent := rfl
  toClient := List.append_nil _
  queued := (List.append_nil _).symm
  relayed := rfl
  heard := (List.append_nil _).symm

theorem Moves.trans {ida idb : UInt32} {grown grown' : AString}
    {handled handled' more more' new new' : List (UInt32 × AString)} (h : Moves a b ida idb grown handled more new s t)
    (h' : Moves a b ida idb grown' handled' more' new' t s') :
    Moves a b ida idb (grown ++ grown') (handled ++ handled') (more ++ more') (new ++ new') s s' where
  written q hq := (List.mem_append.mp hq).elim (h.written q) (h'.written q)
  told q hq := (List.mem_append.mp hq).elim (h.told q) (h'.told q)
  readable q hq := (List.mem_append.mp hq).elim (h.readable q) (h'.readable q)
  toServer := by
    rw [← List.append_assoc, h.toServer, List.append_assoc, h'.toServer, stream_append, List.append_assoc]
  sent := by
    rw [h'.sent, h.sent, List.length_append, Nat.add_assoc]
  toClient := by
    rw [stream_append, stream_append, ← List.append_assoc, h.toClient, List.append_assoc, h'.toClient,
      List.append_assoc]
  queued := by rw [h'.queued, h.queued, stream_append, List.append_assoc _ (stream more)]
  relayed := by
    rw [List.map_append, List.map_append, messages_append, messages_append, h.relayed, h'.relayed]
  heard := by rw [h'.heard, h.heard, List.map_append, messages_append, List.append_assoc]

/-- Every step is such a part where both connections stay established. -/
theorem step_moves (ha : Established a s) (hb : Established b s) (hla : Linked a s) (hlb : Linked b s) (hs : Sane s)
    (ha' : Established a s') (hb' : Established b s') (hla' : Linked a s') (he : s.enabled e = true)
    (hgenuine : s.genuine a e ∧ s.genuine b e) (hok : s.step e = .ok s') :
    ∃ grown handled more new, Moves a b (s.server.heap a).uniqueID (s.server.heap b).uniqueID grown handled more new
      s s' := by
  obtain ⟨grown, handled, hwritten, htoServer, hsent, hcalls⟩ :=
    step_handles ha hla hs he hgenuine.1 ha' hla' hok
  obtain ⟨more, new, hmore, hnew, htoClient, htold, hheard⟩ :=
    (step_exchanges hb hlb hs he hgenuine.2 hb' hok).client
  refine ⟨grown, handled, more, new, hwritten, hmore, hnew, htoServer, hsent, htoClient,
    step_queues hb hs he hb' hok htold, ?_, hheard _⟩
  obtain ⟨news, hnews, hears⟩ := step_relays ha hb hs he hok
  obtain ⟨_, htexts⟩ := hears hb'.serves.hasSentDC
  have hhandled : news = handled.map call := List.append_cancel_left (hnews.symm.trans hcalls)
  rw [ClientHandle.relayed, ClientHandle.relayed, htold, List.map_append, messages_append, hhandled] at htexts
  exact List.append_cancel_left htexts

end Steps

section Runs

variable {clients : Nat → PeerConnectionClient Fifo} {s s₁ s₂ s₃ t : Wires Fifo} {a b : Nat} {ida idb : UInt32}

/-- Two established connections with these IDs, in a run in which their bytes come from their clients. -/
structure Paired (clients : Nat → PeerConnectionClient Fifo) (a b : Nat) (ida idb : UInt32) (s : Wires Fifo) :
    Prop where
  offline : ∀ p, (clients p).Offline ∧ (clients p).sent = []
  reach : (wireMachine Fifo).Reach (bothGenuine a b) (start clients) s
  first : Established a s
  second : Established b s
  ida : (s.server.heap a).uniqueID = ida
  idb : (s.server.heap b).uniqueID = idb

theorem Paired.sane (h : Paired clients a b ida idb s) : Sane s := sane_of_reach h.reach

theorem Paired.linked (h : Paired clients a b ida idb s) : Linked a s ∧ Linked b s :=
  ⟨h.first.linked (joined_of_reach (h.offline a).1 (h.offline a).2 (fun _ _ hboth => hboth.1) h.reach) h.sane,
    h.second.linked (joined_of_reach (h.offline b).1 (h.offline b).2 (fun _ _ hboth => hboth.2) h.reach) h.sane⟩

theorem Paired.step {e : WireEvent} (h : Paired clients a b ida idb s) (hallowed : Allowed a b s e)
    (hok : (wireMachine Fifo).step s e = .ok t) :
    Paired clients a b ida idb t ∧ ∃ grown handled more new, Moves a b ida idb grown handled more new s t := by
  have hok : s.step e = .ok t := hok
  obtain ⟨s', hs', ha, hb, hid, _⟩ := allowed_step h.offline h.reach h.first h.second hallowed
  have heq : s' = t := Except.ok.inj (hs'.symm.trans hok)
  rw [heq] at ha hb hid
  have hreach := h.reach.next hallowed.enabled hallowed.genuine hok
  have hnext : Paired clients a b ida idb t := ⟨h.offline, hreach, ha, hb,
    (h.first.uniqueID ha h.sane (sane_of_reach hreach)).trans h.ida, hid.trans h.idb⟩
  obtain ⟨hla, hlb⟩ := h.linked
  have hmoves := step_moves h.first h.second hla hlb h.sane ha hb hnext.linked.1 hallowed.enabled hallowed.genuine hok
  rw [h.ida, h.idb] at hmoves
  exact ⟨hnext, hmoves⟩

theorem Paired.run {events : List WireEvent} (h : Paired clients a b ida idb s)
    (hrun : (wireMachine Fifo).Along (Allowed a b) events s) (hok : (wireMachine Fifo).run events s = .ok t) :
    Paired clients a b ida idb t ∧ ∃ grown handled more new, Moves a b ida idb grown handled more new s t := by
  induction events generalizing s with
  | nil =>
    cases hok
    exact ⟨h, [], [], [], [], moves_refl a b ida idb _⟩
  | cons e events ih =>
    obtain ⟨s₁, hstep, hok⟩ := Machine.run_cons hok
    obtain ⟨hnext, _, _, _, _, hfirst⟩ := h.step hrun.1 hstep
    obtain ⟨hlast, _, _, _, _, hrest⟩ := ih hnext (hrun.2 s₁ hstep) hok
    exact ⟨hlast, _, _, _, _, hfirst.trans hrest⟩

/-- What was on its way to the server is handled with the next tick after it has come. -/
theorem Paired.tick_handles {grown : AString} {handled more new up : List (UInt32 × AString)}
    (h : Paired clients a b ida idb s₁) (h' : Paired clients a b ida idb t)
    (hok : (wireMachine Fifo).step s₁ (.network (.server (.tickClient a))) = .ok t)
    (hmoves : Moves a b ida idb grown handled more new s t) (hup : ∀ q ∈ up, Written q)
    (htoServer : s.toServer a = stream up) (hdelivered : (s.clients a).sent.length ≤ s₁.delivered a) :
    up.map call <+: handled.map call := by
  obtain ⟨hserver, _, _, hcount⟩ := server_step hok
  obtain ⟨todo, hwritten, hstart⟩ := h.linked.1.inbound
  have hempty : (t.server.heap a).incomingData = [] :=
    Server.tickClient_empties h.sane.sound h.first.serves.live (h.sane.inStep a) h.linked.1.clear
      (written_size hwritten) hstart hserver h'.first.serves.hasSentDC
  obtain ⟨u, hu, hrec, hwait⟩ := h'.linked.1.clear
  have hleft : t.toServer a = u ++ (t.clients a).sent.drop (t.delivered a) := by
    rw [toServer, Server.inbound_eq hu hrec, hempty, List.append_nil]
  have hbytes := hmoves.toServer
  rw [htoServer, hleft] at hbytes
  refine calls_front (written_size hup) (written_size hmoves.written) hbytes hwait ?_
  have hsent := hmoves.sent
  rw [List.length_drop, hcount]
  omega

/-- What was queued for `b` before a tick is handled once it has read what the tick has sent. -/
theorem Paired.tick_reads {grown : AString} {handled more new down : List (UInt32 × AString)}
    (h : Paired clients a b ida idb t) (h' : Paired clients a b ida idb s₃)
    (hok : (wireMachine Fifo).step t (.network (.server (.tickClient b))) = .ok s₂)
    (hlink : (s₂.server.heap b).link = true) (hmoves : Moves a b ida idb grown handled more new t s₃)
    (hread : (s₂.server.heap b).sent.length ≤ s₃.read b) {all : List (UInt32 × AString)}
    (hdown : ∀ q ∈ down, Readable q) (hall : ∀ q ∈ all, Readable q)
    (hbytes : stream down ++ stream more = stream all ++ s₃.toClient b) : down.map call <+: all.map call := by
  obtain ⟨hserver, _⟩ := server_step hok
  have hsends := (Server.tickClient_sends h.sane.sound h.second.serves.live hserver hlink).length_le
  obtain ⟨v, hv, hreceived, hlast⟩ := h'.linked.2.attached.received
  have hleft : s₃.toClient b = v ++ ((s₃.server.heap b).sent.drop (s₃.read b) ++
      (s₃.server.heap b).outgoingData) := by
    rw [toClient, hreceived, readAll_fifo, (Fifo.filled_eq hv).2.2]
  rw [hleft] at hbytes
  refine calls_front (readable_size hdown) (readable_size hall) hbytes (hlast h'.second.protocolState) ?_
  have hqueued := congrArg List.length hmoves.queued
  have hle := h'.linked.2.read
  simp only [List.length_append] at hqueued hsends
  rw [List.length_append, List.length_drop]
  omega

/-- What was on its way is given to `b` once it has come to the server and a tick has handled it, and `b` has read
what a later tick has sent. -/
theorem Paired.delivers {before between after : List WireEvent} (h : Paired clients a b ida idb s)
    (hrun : (wireMachine Fifo).Along (Allowed a b) (before ++ .network (.server (.tickClient a)) ::
      (between ++ .network (.server (.tickClient b)) :: after)) s)
    (h₁ : (wireMachine Fifo).run before s = .ok s₁) (hdelivered : (s.clients a).sent.length ≤ s₁.delivered a)
    (h₂ : (wireMachine Fifo).run (.network (.server (.tickClient a)) ::
      (between ++ [.network (.server (.tickClient b))])) s₁ = .ok s₂)
    (h₃ : (wireMachine Fifo).run after s₂ = .ok s₃) (hread : (s₂.server.heap b).sent.length ≤ s₃.read b) :
    heard a b s ++ underway a b s <+: heard a b s₃ := by
  obtain ⟨hbefore, hrest⟩ := Machine.along_split hrun h₁
  obtain ⟨hp₁, _, _, more₁, new₁, hmoves₁⟩ := h.run hbefore h₁
  obtain ⟨t₁, htick, h₂⟩ := Machine.run_cons h₂
  obtain ⟨hpt₁, _, _, more₂, new₂, hmoves₂⟩ := hp₁.step hrest.1 htick
  obtain ⟨t₂, hbetween, h₂⟩ := Machine.run_split h₂
  obtain ⟨s', htick', h₂⟩ := Machine.run_cons h₂
  cases h₂
  obtain ⟨halong, hrest'⟩ := Machine.along_split (hrest.2 t₁ htick) hbetween
  obtain ⟨hpt₂, _, _, more₃, new₃, hmoves₃⟩ := hpt₁.run halong hbetween
  obtain ⟨hp₂, _, _, _, new₄, hmoves₄⟩ := hpt₂.step hrest'.1 htick'
  obtain ⟨hp₃, _, _, _, new₅, hmoves₅⟩ := hp₂.run (hrest'.2 s₂ htick') h₃
  obtain ⟨up, hup, hupward⟩ := h.linked.1.attached.written
  obtain ⟨down, hdown, hdownward⟩ := h.linked.2.attached.readable
  have hfirst := hmoves₁.trans hmoves₂
  have hhandled := hp₁.tick_handles hpt₁ htick hfirst hup hupward hdelivered
  have hqueued := hfirst.trans hmoves₃
  have hlater := hmoves₄.trans hmoves₅
  have hwhole := hqueued.trans hlater
  have hbytes := hwhole.toClient
  rw [hdownward, stream_append, ← List.append_assoc, ← stream_append] at hbytes
  have hreadable : ∀ q ∈ down ++ _, Readable q := fun q hq =>
    (List.mem_append.mp hq).elim (fun hold => (hdown q hold).1) (hqueued.told q)
  have hgiven := hpt₂.tick_reads hp₃ htick' hp₂.second.serves.link hlater hread hreadable hwhole.readable hbytes
  have hunderway : underway a b s = messages ida (down.map call) ++ messages idb (up.map call) := by
    rw [underway, hupward, hdownward, messagesIn_all (readable_size fun q hq => (hdown q hq).1),
      messagesIn_all (written_size hup), h.ida, h.idb]
  have htold : messages idb (up.map call) <+: messages ida (((more₁ ++ more₂) ++ more₃).map call) := by
    rw [hqueued.relayed, List.map_append, messages_append]
    exact (hhandled.filterMap _).trans (List.prefix_append _ _)
  have hboth : messages ida (down.map call) ++ messages ida (((more₁ ++ more₂) ++ more₃).map call) <+:
      messages ida (((((new₁ ++ new₂) ++ new₃) ++ (new₄ ++ new₅))).map call) := by
    rw [← messages_append, ← List.map_append]
    exact hgiven.filterMap _
  rw [heard, heard, hp₃.ida, h.ida, hwhole.heard, hunderway]
  exact (List.prefix_append_right_inj _).mpr (((List.prefix_append_right_inj _).mpr htold).trans hboth)

end Runs

/-- Two clients are logged in and open, stay so, and read what fits their buffers. Once the server has got all that
`a` had sent, its next tick of `a` handles it, the next tick of `b` sends it on, and when `b` has read all that it was
sent by then, it was given every text that was on its way, in order, behind those it had, whatever else happens in
between. -/
theorem texts_delivered {clients : Nat → PeerConnectionClient ByteBuffer}
    (hclients : ∀ p, ((clients p).map ByteBuffer.contents).Offline ∧ (clients p).sent = [])
    {s : Wires ByteBuffer} {a b : Nat}
    (h : (wireMachine ByteBuffer).Reach (bothGenuine a b) (start clients) s) (ha : Established a s)
    (hb : Established b s) {before between after : List WireEvent}
    (hrun : (wireMachine ByteBuffer).Along (Allowed a b) (before ++ .network (.server (.tickClient a)) ::
      (between ++ .network (.server (.tickClient b)) :: after)) s) :
    ∃ s₁ s₂ s₃, (wireMachine ByteBuffer).run before s = .ok s₁ ∧
      (wireMachine ByteBuffer).run (.network (.server (.tickClient a)) ::
        (between ++ [.network (.server (.tickClient b))])) s₁ = .ok s₂ ∧
      (wireMachine ByteBuffer).run after s₂ = .ok s₃ ∧
      ((s.clients a).sent.length ≤ s₁.delivered a → (s₂.server.heap b).sent.length ≤ s₃.read b →
        heard a b s ++ underway a b s <+: heard a b s₃) := by
  have hf := ByteBuffer.contents_hom
  have hstep : ∀ s e, (wireMachine Fifo).step (map ByteBuffer.contents s) e =
      ((wireMachine ByteBuffer).step s e).map (map ByteBuffer.contents) := step_map hf
  have hreach : (wireMachine Fifo).Reach (bothGenuine a b) (start fun p => (clients p).map ByteBuffer.contents)
      (s.map ByteBuffer.contents) := by
    rw [← start_map hf]
    refine h.map (fun s e he => (enabled_map s e).trans he)
      (fun s e hboth => ⟨genuine_map hf s e hboth.1, genuine_map hf s e hboth.2⟩) hstep
  have hpaired : Paired _ a b _ _ (s.map ByteBuffer.contents) :=
    ⟨hclients, hreach, established_map.mpr ha, established_map.mpr hb, rfl, rfl⟩
  have halong := hrun.map (allowed_map hf) hstep
  obtain ⟨t, ht, _⟩ := run_texts hclients hreach hpaired.first hpaired.second halong
  rw [Machine.run_map hstep] at ht
  rcases hok : (wireMachine ByteBuffer).run (before ++ .network (.server (.tickClient a)) ::
      (between ++ .network (.server (.tickClient b)) :: after)) s with halt | s₃
  · rw [hok] at ht
    cases ht
  · obtain ⟨s₁, h₁, hrest⟩ := Machine.run_split hok
    have hlist : .network (.server (.tickClient a)) :: (between ++ .network (.server (.tickClient b)) :: after) =
        (.network (.server (.tickClient a)) :: (between ++ [.network (.server (.tickClient b))])) ++ after := by
      simp
    rw [hlist] at hrest
    obtain ⟨s₂, h₂, h₃⟩ := Machine.run_split hrest
    have hmap : ∀ {events s s'}, (wireMachine ByteBuffer).run events s = .ok s' →
        (wireMachine Fifo).run events (s.map ByteBuffer.contents) = .ok (s'.map ByteBuffer.contents) := by
      intro events s s' hok
      rw [Machine.run_map hstep, hok]
      rfl
    refine ⟨s₁, s₂, s₃, h₁, h₂, h₃, fun hdelivered hread => ?_⟩
    have hgiven := hpaired.delivers halong (hmap h₁) hdelivered (hmap h₂) (hmap h₃) hread
    rw [underway_map hf] at hgiven
    exact hgiven

omit [Platform] in
/-- A text that was on its way comes. -/
theorem texts_delivered_nul :
    letI := zeroPlatform
    ∃ s s₁ s₂ s₃ : Wires ByteBuffer, (wireMachine ByteBuffer).run [.deliver 0 7] s = .ok s₁ ∧
      (wireMachine ByteBuffer).run [.network (.server (.tickClient 0)), .network (.server (.tickClient 1))] s₁ =
        .ok s₂ ∧
      (wireMachine ByteBuffer).run [.network (.read 1 7)] s₂ = .ok s₃ ∧ [[104, 0, 105]] <+: heard 0 1 s₃ := by
  let : Platform := zeroPlatform
  let genuineTest : Wires ByteBuffer → WireEvent → Bool := fun s e =>
    s.enabled e && decide (s.genuine 0 e ∧ s.genuine 1 e)
  let openTest : Wires ByteBuffer → WireEvent → Bool := fun s e => genuineTest s e &&
    (s.step e).toOption.any fun s' => decide (Established 0 s' ∧ Established 1 s')
  let comesTest : Wires ByteBuffer → Bool := fun s =>
    ((wireMachine ByteBuffer).run [.deliver 0 7] s).toOption.any fun s₁ =>
      decide ((s.clients 0).sent.length ≤ s₁.delivered 0) &&
        ((wireMachine ByteBuffer).run [.network (.server (.tickClient 0)), .network (.server (.tickClient 1))]
          s₁).toOption.any fun s₂ =>
            ((wireMachine ByteBuffer).run [.network (.read 1 7)] s₂).toOption.any fun s₃ =>
              decide ((s₂.server.heap 1).sent.length ≤ s₃.read 1)
  have hrun : ((wireMachine ByteBuffer).replay genuineTest
      (signing 0 [97] ++ signing 1 [98] ++ [.network (.read 0 2), .network (.read 1 8),
        .network (.sendToPeer 0 2 [104, 0, 105])])
      (start Network.dialling)).map (fun s => (decide (Established 0 s ∧ Established 1 s),
        ((wireMachine ByteBuffer).replay openTest [.deliver 0 7, .network (.server (.tickClient 0)),
          .network (.server (.tickClient 1)), .network (.read 1 7)] s).isSome, comesTest s,
        heard 0 1 s ++ underway 0 1 s)) = some (true, true, true, [[104, 0, 105]]) := by
    decide +kernel
  obtain ⟨s, hs, hall⟩ := Option.map_eq_some_iff.mp hrun
  obtain ⟨hestablished, hrest⟩ := Prod.mk.inj hall
  obtain ⟨hreplay, hrest⟩ := Prod.mk.inj hrest
  obtain ⟨hcomes, htexts⟩ := Prod.mk.inj hrest
  obtain ⟨ha, hb⟩ := of_decide_eq_true hestablished
  obtain ⟨t, ht⟩ := Option.isSome_iff_exists.mp hreplay
  have hreach : (wireMachine ByteBuffer).Reach (bothGenuine 0 1) (start Network.dialling) s := by
    refine Machine.replay_reach (fun s e he => ?_) .start hs
    obtain ⟨hen, hgenuine⟩ := Bool.and_eq_true_iff.mp he
    have hgenuine : s.genuine 0 e ∧ s.genuine 1 e := of_decide_eq_true hgenuine
    exact ⟨hen, hgenuine⟩
  have halong : (wireMachine ByteBuffer).Along (Allowed 0 1) ([.deliver 0 7] ++
      .network (.server (.tickClient 0)) :: ([] ++ .network (.server (.tickClient 1)) :: [.network (.read 1 7)]))
      s := by
    refine Machine.replay_along (fun s e he => ?_) ht
    obtain ⟨hboth, hopen⟩ := Bool.and_eq_true_iff.mp he
    obtain ⟨hen, hgenuine⟩ := Bool.and_eq_true_iff.mp hboth
    rcases hok : s.step e with halt | s'
    · rw [hok] at hopen
      cases hopen
    · rw [hok] at hopen
      refine ⟨hen, of_decide_eq_true hgenuine, Or.inr fun t ht => ?_, Or.inr ⟨s', hok⟩⟩
      rw [hok] at ht
      cases ht
      exact of_decide_eq_true hopen
  obtain ⟨s₁, s₂, s₃, h₁, h₂, h₃, hgiven⟩ :=
    texts_delivered (fun p => ⟨Network.dialling_offline p, connect_sent _ _ _⟩) hreach ha hb halong
  refine ⟨s, s₁, s₂, s₃, h₁, h₂, h₃, ?_⟩
  have h₂ : (wireMachine ByteBuffer).run [.network (.server (.tickClient 0)), .network (.server (.tickClient 1))]
      s₁ = .ok s₂ := h₂
  simp only [comesTest, h₁, h₂, h₃, Except.toOption, Option.any_some, Bool.and_eq_true,
    decide_eq_true_eq] at hcomes
  rw [htexts] at hgiven
  exact hgiven hcomes.1 hcomes.2

end Wires

end P2PChat

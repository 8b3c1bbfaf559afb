import P2PChat.ServerRuns

namespace P2PChat

open ByteQueue Relation

/-- A `UserInfo`, `Media` or `MediaMsg` packet. -/
def Packet.TellsOfOthers (p : Packet) : Prop :=
  (p.type = 0x01 ∧ ∃ id name state, p.fields = [.varInt32 id, .string name, .varInt32 state]) ∨
    p.type = 0x11 ∨ p.type = 0x12

/-- Packets of others are for those who are logged in, and for those to whom nothing is sent. -/
def Gate.loggedIn : Gate where
  allows hasSentDC _ state _ := hasSentDC || state == 3
  working hasSentDC _ _ := by rw [beq_self_eq_true, Bool.or_true]
  beside _ _ := true

theorem Gate.loggedIn_iff {β : Type} {c : ClientHandle β} {pkt : Packet} :
    Gate.loggedIn.passes c pkt ↔ c.hasSentDC = true ∨ c.protocol.state = 3 := by
  simp only [Gate.passes, Gate.loggedIn, Bool.or_eq_true, beq_iff_eq]

namespace ClientHandle

/-- What was sent of others was sent in the last state. -/
def Confined {β : Type} (c : ClientHandle β) : Prop :=
  ∀ state pkt, .queued state pkt ∈ c.log → pkt.TellsOfOthers → state = 3

theorem Confined.of_log {β γ : Type} {c : ClientHandle β} {c' : ClientHandle γ} (h : c.Confined)
    (hlog : ∀ state pkt, .queued state pkt ∈ c'.log →
      .queued state pkt ∈ c.log ∨ (pkt.TellsOfOthers → state = 3)) : c'.Confined :=
  fun state pkt hmem htells => (hlog state pkt hmem).elim (fun hold => h state pkt hold htells)
    (fun hnew => hnew htells)

theorem Confined.record {β : Type} {c : ClientHandle β} (h : c.Confined) {entry : Entry}
    (hentry : ∀ state pkt, entry ≠ .queued state pkt) : (c.record entry).Confined := by
  refine h.of_log fun state pkt hmem => ?_
  rcases List.mem_append.mp hmem with hold | hnew
  · exact Or.inl hold
  · exact absurd (List.mem_singleton.mp hnew).symm (hentry state pkt)

theorem Confined.queue {β : Type} {c : ClientHandle β} (h : c.Confined) {p : Packet}
    (hp : p.TellsOfOthers → c.hasSentDC = true ∨ c.protocol.state = 3) : (c.queue p).Confined := by
  refine h.of_log fun state pkt hmem => ?_
  rw [queue_log] at hmem
  split at hmem
  next => exact Or.inl hmem
  next hdc =>
    rcases List.mem_append.mp hmem with hold | hnew
    · exact Or.inl hold
    · obtain ⟨rfl, rfl⟩ := Entry.queued.inj (List.mem_singleton.mp hnew)
      exact Or.inr fun htells => (hp htells).resolve_left hdc

theorem Confined.queueAll {β : Type} {c : ClientHandle β} (h : c.Confined) {packets : List Packet}
    (hpass : ∀ p ∈ packets, Gate.loggedIn.passes c p) : (c.queueAll packets).Confined := by
  induction packets generalizing c with
  | nil => exact h
  | cons p packets ih =>
    have hp := hpass p List.mem_cons_self
    refine ih (h.queue fun _ => Gate.loggedIn_iff.mp hp) fun p' hp' => ?_
    rw [Gate.passes_queue]
    exact hpass p' (List.mem_cons_of_mem p hp')

theorem own_packet {type : UInt32} {fields : List Field} (h11 : type ≠ 0x11) (h12 : type ≠ 0x12)
    (h01 : type = 0x01 → fields.length ≠ 3) : ¬(⟨type, fields⟩ : Packet).TellsOfOthers := by
  rintro (⟨htype, id, name, state, hfields⟩ | htype | htype)
  · have hthree : fields.length = 3 := congrArg List.length hfields
    exact h01 htype hthree
  · exact h11 htype
  · exact h12 htype

theorem Confined.disconnect {β : Type} {c : ClientHandle β} (h : c.Confined) (reason : Int32) :
    (c.disconnect reason).Confined := by
  have hlogin : ¬(⟨0x00, [.beInt32 reason]⟩ : Packet).TellsOfOthers :=
    own_packet (by decide) (by decide) (fun h => absurd h (by decide))
  have hwork : ¬(⟨0x40, [.beUInt32 reason.toUInt32]⟩ : Packet).TellsOfOthers :=
    own_packet (by decide) (by decide) (fun h => absurd h (by decide))
  unfold ClientHandle.disconnect
  split
  next => exact h
  next =>
    split
    next => exact h.queue (fun htells => absurd htells hlogin)
    next =>
      split
      next => exact h.queue (fun htells => absurd htells hwork)
      next => exact h

theorem Change.confined {c c' : ClientHandle Fifo} (h : c.Confined) (hc : Change c c') :
    c'.Confined := by
  cases hc with
  | quiet hsame =>
    refine h.of_log fun state pkt hmem => ?_
    rw [hsame.log] at hmem
    exact Or.inl hmem
  | handled packetType bytes _ =>
    have hentry : ∀ state pkt, Entry.handled c.protocol.state packetType bytes ≠ .queued state pkt :=
      fun _ _ heq => nomatch heq
    exact h.record hentry
  | status state _ _ _ =>
    have hown : ¬(⟨0x00, [.beInt32 state.toInt32, .string c.ipString]⟩ : Packet).TellsOfOthers :=
      own_packet (by decide) (by decide) (fun h => absurd h (by decide))
    exact Confined.queue (c := c.setProtocolState state) h fun htells => absurd htells hown
  | pong timestamp _ =>
    have hown : ¬(⟨0x01, [.beInt64 timestamp]⟩ : Packet).TellsOfOthers :=
      own_packet (by decide) (by decide) (fun _ h => nomatch h)
    exact h.queue fun htells => absurd htells hown
  | lost _ _ _ _ => exact h
  | disconnect reason => exact h.disconnect reason
  | flush => exact h
  | working _ => exact h
  | keepAlive id now _ =>
    have hown : ¬(⟨0x00, [.varInt32 id]⟩ : Packet).TellsOfOthers :=
      own_packet (by decide) (by decide) (fun h => absurd h (by decide))
    have hentry : ∀ state pkt, Entry.keepAlive c.protocol.state ≠ .queued state pkt :=
      fun _ _ heq => nomatch heq
    have hrecord := Confined.record (c := { c with pingID := id, pingStartTime := now }) h hentry
    unfold keepAliveSent
    split
    next => exact hrecord
    next => exact hrecord.queue fun htells => absurd htells hown

theorem Confined.admitted {β : Type} {c : ClientHandle β} (h : c.Confined) (name : AString) :
    (((c.setUsername name).loginSucceeded).setState .csAuthenticated).Confined := by
  have hown : ¬(⟨0x01, []⟩ : Packet).TellsOfOthers :=
    own_packet (by decide) (by decide) (fun _ h => nomatch h)
  have hname : (c.setUsername name).Confined := h
  have hentry : ∀ state pkt, Entry.loginSuccess (c.setUsername name).protocol.state ≠
      .queued state pkt := fun _ _ heq => nomatch heq
  exact (hname.record hentry).queue fun htells => absurd htells hown

end ClientHandle

namespace Server

theorem store_confined {s : Server Fifo} (h : ∀ q, (s.heap q).Confined) {p : Nat}
    {c : ClientHandle Fifo} (hc : c.Confined) (q : Nat) : ((s.store p c).heap q).Confined := by
  rw [store_heap]
  split
  next => exact hc
  next => exact h q

/-- A broadcast that passes the gate keeps confidence. -/
theorem tellOver_confined {s : Server Fifo} (h : ∀ q, (s.heap q).Confined) {p : Nat} {l : List Nat}
    (hothers : ∀ q ∈ l, (s.heap q).uniqueID ≠ (s.heap p).uniqueID →
      Gate.loggedIn.passes (s.heap q) (s.heap p).userInfo)
    (hself : ∀ q ∈ l, (s.heap q).uniqueID ≠ (s.heap p).uniqueID →
      Gate.loggedIn.passes (s.heap p) (s.heap q).userInfo)
    (q : Nat) : ((s.tellOver p l).heap q).Confined := by
  obtain ⟨told, htold, hmem⟩ := tellOver_queueAll p l s q
  rw [htold]
  refine (h q).queueAll fun pkt hpkt => ?_
  rcases hmem pkt hpkt with ⟨rfl, r, hr, hid, rfl⟩ | ⟨_, hq, hid, rfl⟩
  · exact hself r hr hid
  · exact hothers q hq hid

variable [Platform]

theorem Effect.confined {who : Nat → Prop} {s s' : Server Fifo} (h : ∀ q, (s.heap q).Confined)
    (he : Effect Gate.loggedIn who s s') : ∀ q, (s'.heap q).Confined := by
  cases he with
  | @small _ p _ _ hsmall =>
    cases hsmall with
    | change hc => exact store_confined h (hc.confined (h p))
    | request _ _ _ _ _ => exact store_confined h (h p)
    | @relayed q pkt _ _ _ hpass => exact store_confined h ((h q).queue fun _ => Gate.loggedIn_iff.mp hpass)
  | @accepted ip _ _ =>
    have hnew : (ClientHandle.create ip (UInt32.ofNat (s.clientCount + 1)) s.now :
        ClientHandle Fifo).onLinkCreated.Confined := fun _ _ hmem => nomatch hmem
    exact store_confined h hnew
  | @destroyed p _ _ _ hgate =>
    have hclosed : ∀ q, ((s.closed p).heap q).Confined := by
      intro q
      rw [closed, modify_heap, modify_heap, modify_heap, if_pos rfl]
      split
      next => exact h p
      next => exact h q
    have hother : ∀ q, (s.heap q).uniqueID ≠ (s.heap p).uniqueID → (s.closed p).heap q = s.heap q := by
      intro q hid
      have hne : q ≠ p := fun heq => hid (by rw [heq])
      rw [closed, modify_heap, if_neg hne, modify_heap, if_neg hne]
    have hids : ∀ q, ((s.closed p).heap q).uniqueID = (s.heap q).uniqueID := by
      intro q
      rw [closed, modify_heap, modify_heap, modify_heap, if_pos rfl]
      split
      next heq => rw [heq]; rfl
      next => rfl
    refine tellOver_confined hclosed (fun q hq hid => ?_) (fun q hq hid => ?_)
    · rw [hids, hids] at hid
      rw [hother q hid]
      exact (hgate q hq hid).1
    · rw [hids, hids] at hid
      rw [hother q hid]
      exact (hgate q hq hid).2
  | removed _ _ => exact h
  | taken _ => exact h
  | @login p user _ _ _ _ _ _ hgate =>
    obtain ⟨t, ht⟩ : ∃ t : Server Fifo, t = { s with inFlight := none } := ⟨_, rfl⟩
    have hheap : t.heap = s.heap := by rw [ht]
    have hself : (t.admitted p user.username).heap p = (s.admitted p user.username).heap p := by
      rw [admitted, admitted, store_heap, store_heap, if_pos rfl, if_pos rfl, hheap]
    have hstate : ((t.admitted p user.username).heap p).protocol.state = 3 := by
      rw [admitted, store_heap, if_pos rfl]
      rfl
    have hid₀ : ((t.admitted p user.username).heap p).uniqueID = (s.heap p).uniqueID := by
      rw [admitted, store_heap, if_pos rfl, ClientHandle.loginSucceeded, ClientHandle.queue_eq, hheap]
      rfl
    have hother : ∀ q, q ≠ p → (t.admitted p user.username).heap q = s.heap q := by
      intro q hne
      rw [admitted, store_heap, if_neg hne, hheap]
    have hadmitted : ∀ q, ((t.admitted p user.username).heap q).Confined := by
      have ht' : ∀ q, (t.heap q).Confined := by
        rw [hheap]
        exact h
      exact store_confined ht' ((ht' p).admitted user.username)
    have htold := tellOver_confined (p := p) (l := s.clients) hadmitted (fun q hq hid => ?_)
      (fun q hq hid => Gate.loggedIn_iff.mpr (Or.inr hstate))
    · rw [← ht]
      have hclients : (t.admitted p user.username).clients = s.clients := by rw [ht]; rfl
      rw [tellAll, hclients]
      exact store_confined htold (htold p)
    · have hne : q ≠ p := fun heq => hid (by rw [heq])
      rw [hid₀, hother q hne] at hid
      rw [hother q hne, hself]
      exact (hgate q hq hid).1
  | answered => exact h
  | clock elapsed => exact h

/-- In a run that tells of others only those who are logged in, or to whom nothing is sent any more,
no such packet is sent before the last state, and what happens elsewhere changes nothing for a
connection that is not logged in. -/
theorem told_when_working {s : Server ByteBuffer}
    (h : (serverMachine ByteBuffer).Reach (fun s e => s.gated Gate.loggedIn e) initial s) (p : Nat) :
    (s.heap p).Confined ∧
      ∀ e s', s.enabled e = true → s.gated Gate.loggedIn e → s.step e = .ok s' →
        p < s.allocated → ¬s.concerns e p → (s.heap p).protocol.state ≠ 3 →
        (s'.heap p).outgoingData = (s.heap p).outgoingData ∧ (s'.heap p).sent = (s.heap p).sent := by
  have hcontents := reach_contents h
  rw [initial_contents] at hcontents
  obtain ⟨hs, hi⟩ := reach_invariant (I := fun s => ∀ q, (s.heap q).Confined) initial_sound
    (fun _ _ _ hmem => nomatch hmem) (fun _ _ _ _ hi he => he.confined hi) hcontents
  refine ⟨hi p, fun e s' hen hgate hstep hp hnot hstate => ?_⟩
  have hstepped := step_contents hs hen hgate
  rw [hstep] at hstepped
  have hnot' : ¬(s.map ByteBuffer.contents).concerns e p := by
    cases e <;> exact hnot
  obtain ⟨_, told, htold, hpass⟩ := effects_others hstepped.2.2 hnot' hp
  have hsame : ((s'.map ByteBuffer.contents).heap p) = (s.map ByteBuffer.contents).heap p := by
    rcases told with _ | ⟨pkt, told⟩
    · exact htold
    · rcases Gate.loggedIn_iff.mp (hpass pkt List.mem_cons_self) with hdc | hthree
      · rw [htold, ClientHandle.queueAll_quiet hdc]
      · exact absurd hthree hstate
  exact ⟨congrArg (fun c : ClientHandle Fifo => c.outgoingData) hsame,
    congrArg (fun c : ClientHandle Fifo => c.sent) hsame⟩

omit [Platform] in
/-- The second client connects when the first is logged in, and is told to it when it logs in. -/
theorem told_to_working :
    letI := zeroPlatform
    ∃ s : Server ByteBuffer,
      .queued 3 ⟨0x01, [.varInt32 2, .string [98], .varInt32 2]⟩ ∈ (s.heap 0).log ∧
      (s.heap 0).Confined := by
  let : Platform := zeroPlatform
  have hrun : ((serverMachine ByteBuffer).replay
      (fun s e => s.enabled e && decide (s.gated Gate.loggedIn e))
      (.connectionAccepted [] :: (greets 0 ++ asksLogin 0 [97] ++ isAnswered ++
        .connectionAccepted [] :: (greets 1 ++ asksLogin 1 [98] ++ isAnswered)))
      initial).map (fun s => decide (.queued 3 ⟨0x01, [.varInt32 2, .string [98], .varInt32 2]⟩ ∈
        (s.heap 0).log)) = some true := by
    decide +kernel
  obtain ⟨s, hs, hmem⟩ := Option.map_eq_some_iff.mp hrun
  exact ⟨s, of_decide_eq_true hmem, (told_when_working (replay_gated hs) 0).1⟩

omit [Platform] in
/-- The second client has done nothing but connect when the first logs in. -/
theorem told_when_connected :
    letI := zeroPlatform
    ∃ s : Server ByteBuffer, (serverMachine ByteBuffer).Reachable initial s ∧
      (s.heap 1).protocol.state = 1 ∧
      .queued 1 ⟨0x01, [.varInt32 1, .string [97], .varInt32 2]⟩ ∈ (s.heap 1).log ∧
      (⟨0x01, [.varInt32 1, .string [97], .varInt32 2]⟩ : Packet).TellsOfOthers := by
  let : Platform := zeroPlatform
  have hrun : ((serverMachine ByteBuffer).replay enabled
      (.connectionAccepted [] :: .connectionAccepted [] ::
        (greets 0 ++ asksLogin 0 [97] ++ isAnswered))
      initial).map (fun s => ((s.heap 1).protocol.state,
        decide (.queued 1 ⟨0x01, [.varInt32 1, .string [97], .varInt32 2]⟩ ∈ (s.heap 1).log))) =
      some (1, true) := by
    decide +kernel
  obtain ⟨s, hs, hboth⟩ := Option.map_eq_some_iff.mp hrun
  obtain ⟨hstate, hmem⟩ := Prod.mk.inj hboth
  exact ⟨s, replay_reachable hs, hstate, of_decide_eq_true hmem, Or.inl ⟨rfl, _, _, _, rfl⟩⟩

end Server

end P2PChat

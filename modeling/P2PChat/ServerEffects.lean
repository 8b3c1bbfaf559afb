import Mathlib.Logic.Relation
import P2PChat.ServerRun
import P2PChat.ServerPackets

namespace P2PChat

open ByteQueue Relation

/-- Which packets that tell of others may be sent to which connections, by `m_HasSentDC`, by whether
there is a link, and by `m_State`; and beside which connections one may be logged in, by its
`m_HasSentDC` and their state. All may be sent to a connection that is in its last state. -/
structure Gate where
  allows : Bool → Bool → UInt32 → Packet → Bool
  working : ∀ hasSentDC link pkt, allows hasSentDC link 3 pkt = true
  beside : Bool → EState → Bool

def Gate.passes {β : Type} (G : Gate) (c : ClientHandle β) (pkt : Packet) : Prop :=
  G.allows c.hasSentDC c.link c.protocol.state pkt = true

instance {β : Type} (G : Gate) (c : ClientHandle β) (pkt : Packet) : Decidable (G.passes c pkt) :=
  inferInstanceAs (Decidable (_ = true))

def Gate.open : Gate := ⟨fun _ _ _ _ => true, fun _ _ _ => rfl, fun _ _ => true⟩

theorem Gate.passes_queue {β : Type} {G : Gate} {c : ClientHandle β} {pkt pkt' : Packet} :
    G.passes (c.queue pkt') pkt ↔ G.passes c pkt := by
  unfold Gate.passes
  rw [ClientHandle.queue_eq]

theorem Gate.passes_queueAll {β : Type} {G : Gate} {c : ClientHandle β} {pkt : Packet}
    {told : List Packet} : G.passes (c.queueAll told) pkt ↔ G.passes c pkt := by
  unfold Gate.passes
  rw [ClientHandle.queueAll_eq]

namespace Server

section Others

variable {β : Type}

/-- The connection is closed, and has not yet told the others. -/
def closed (p : Nat) (s : Server β) : Server β :=
  (s.modify p ClientHandle.unlink).modify p (ClientHandle.setState .csDestroyed)

/-- The connection is logged in, and has not yet told the others. -/
def admitted (p : Nat) (name : AString) (s : Server β) : Server β :=
  s.store p ((((s.heap p).setUsername name).loginSucceeded).setState .csAuthenticated)

end Others

/-- What `ClientHandle.Sound` says of every connection, and queued names and passwords that came in
one packet. Nothing is asked of the IDs. -/
structure Sound (s : Server Fifo) : Prop where
  connections : ∀ p, (s.heap p).Sound
  requests : ∀ user, user ∈ s.queue ∨ s.inFlight = some user →
    user.username.length + user.password.length ≤ 65536
  nodup : s.clients.Nodup
  allocated : ∀ p ∈ s.clients, p < s.allocated

variable [Platform]

/-- What the packets of `p` do, one after another. -/
inductive Small (G : Gate) (p : Nat) : Server Fifo → Server Fifo → Prop
  | change {s : Server Fifo} {c : ClientHandle Fifo} : ClientHandle.Change (s.heap p) c →
      Small G p s (s.store p c)
  | request {s : Server Fifo} {bytes username password : AString} :
      (s.heap p).state.toNat < 4 → (s.heap p).protocol.state = 2 → bytes.length ≤ 65536 →
      .handled 2 0x00 bytes ∈ (s.heap p).log → (parseLoginInfo bytes).1 = some (username, password) →
      Small G p s (s.handleLogin p username password)
  | relayed {s : Server Fifo} {q : Nat} {pkt : Packet} : (s.heap p).protocol.state = 3 →
      (∃ id type, pkt = mediaPacket id type) ∨ (∃ id msg, pkt = mediaMsgPacket id msg) →
      pkt.body.length ≤ 65536 → G.passes (s.heap q) pkt → Small G p s (s.tell q pkt)

/-- What events come to. Each connection that an effect concerns by itself is one of `who`. -/
inductive Effect (G : Gate) (who : Nat → Prop) : Server Fifo → Server Fifo → Prop
  | small {s s' : Server Fifo} {p : Nat} : who p → p < s.allocated → Small G p s s' →
      Effect G who s s'
  | accepted {s : Server Fifo} {ip : AString} : ip.length < 128 → s.clientCount ≠ 2 ^ 31 - 1 →
      Effect G who s (s.accept ip)
  | destroyed {s : Server Fifo} {p : Nat} : who p → p < s.allocated → (s.heap p).state.toNat < 4 →
      (∀ q ∈ s.clients, (s.heap q).uniqueID ≠ (s.heap p).uniqueID →
        G.passes (s.heap q) ((s.closed p).heap p).userInfo ∧
          G.passes ((s.closed p).heap p) (s.heap q).userInfo) →
      Effect G who s ((s.closed p).tellAll p)
  | removed {s : Server Fifo} {p : Nat} : (s.heap p).isDestroyed → p ∈ s.clients →
      Effect G who s { s with clients := s.clients.erase p }
  | taken {s : Server Fifo} : s.inFlight = none → Effect G who s s.authenticatorTake
  | login {s : Server Fifo} {p : Nat} {user : User} : who p → s.inFlight = some user →
      authFromDBPoll user.username user.password = errorCodeAuthOk →
      s.findClient user.clientID = some p → (s.heap p).state = .csAuthenticating →
      s.isPlayerInQueue user.username = false →
      (∀ q ∈ s.clients, (s.heap q).uniqueID ≠ (s.heap p).uniqueID →
        G.passes (s.heap q) ((s.admitted p user.username).heap p).userInfo ∧
          G.beside (s.heap p).hasSentDC (s.heap q).state = true) →
      Effect G who s ((({ s with inFlight := none }.admitted p user.username).tellAll p).modify p
        (ClientHandle.setPingStart (s.now + 3 * 1000000000)))
  | answered {s : Server Fifo} : Effect G who s { s with inFlight := none }
  | clock {s : Server Fifo} (elapsed : Nat) : Effect G who s { s with now := s.now + elapsed }

omit [Platform] in
theorem modify_heap {β : Type} (p q : Nat) (g : ClientHandle β → ClientHandle β) (s : Server β) :
    (s.modify p g).heap q = if q = p then g (s.heap p) else s.heap q := rfl

omit [Platform] in
/-- A login is that of one connection. -/
theorem admitted_other {β : Type} {p q : Nat} (hne : q ≠ p) (name : AString) (s : Server β) :
    (s.admitted p name).heap q = s.heap q := if_neg hne

omit [Platform] in
theorem accept_heap {β : Type} [ByteQueue β] (ip : AString) (q : Nat) (s : Server β) :
    (s.accept ip).heap q = if q = s.allocated then
      (ClientHandle.create ip (UInt32.ofNat (s.clientCount + 1)) s.now).onLinkCreated
      else s.heap q := rfl

omit [Platform] in
theorem closed_heap {β : Type} (p q : Nat) (s : Server β) :
    (s.closed p).heap q = if q = p then ((s.heap p).unlink).setState .csDestroyed else s.heap q := by
  rw [closed, modify_heap, modify_heap, modify_heap, if_pos rfl]
  split
  next => rfl
  next => rfl

theorem Small.sound {G : Gate} {p : Nat} {s s' : Server Fifo} (hs : s.Sound) (h : Small G p s s') :
    s'.Sound := by
  cases h with
  | change hc =>
    refine ⟨fun q => ?_, hs.requests, hs.nodup, hs.allocated⟩
    rw [store_heap]
    split
    next => exact hc.sound (hs.connections p)
    next => exact hs.connections q
  | @request bytes username password _ _ hlen _ hparse =>
    refine ⟨fun q => ?_, fun user huser => ?_, hs.nodup, hs.allocated⟩
    · change ((s.modify p (ClientHandle.setState .csAuthenticating)).heap q).Sound
      rw [modify_heap]
      have hc := hs.connections p
      split
      next => exact ⟨hc.out, hc.len, hc.received, hc.ip, hc.username, nofun⟩
      next => exact hs.connections q
    · have hle := parseLoginInfo_le hparse
      rcases huser with hq | hin
      · rcases List.mem_append.mp hq with hold | hnew
        · exact hs.requests user (Or.inl hold)
        · rw [List.mem_singleton.mp hnew]
          dsimp only at hle ⊢
          omega
      · exact hs.requests user (Or.inr hin)
  | relayed _ _ _ _ =>
    exact ⟨fun r => tell_sound hs.connections _ _ r, hs.requests, hs.nodup, hs.allocated⟩

omit [Platform] in
theorem tellAll_sound {s : Server Fifo} (hs : s.Sound) (p : Nat) : (s.tellAll p).Sound :=
  ⟨fun q => tellOver_sound hs.connections p s.clients q, hs.requests, hs.nodup, hs.allocated⟩

omit [Platform] in
theorem closed_sound {s : Server Fifo} (hs : s.Sound) (p : Nat) : (s.closed p).Sound := by
  refine ⟨fun q => ?_, hs.requests, hs.nodup, hs.allocated⟩
  have hc := hs.connections p
  rw [closed, modify_heap, modify_heap, modify_heap, if_pos rfl]
  split
  next => exact ⟨hc.out, hc.len, hc.received, hc.ip, hc.username, nofun⟩
  next => exact hs.connections q

omit [Platform] in
theorem setUsername_sound {c : ClientHandle Fifo} (hc : c.Sound) {name : AString}
    (h : name.length ≤ 65504) : (c.setUsername name).Sound := ⟨hc.out, hc.len, hc.received, hc.ip, h, hc.settled⟩

omit [Platform] in
theorem admitted_sound {s : Server Fifo} (hs : s.Sound) (p : Nat) {name : AString}
    (h : name.length ≤ 65504) : (s.admitted p name).Sound := by
  refine ⟨fun q => ?_, hs.requests, hs.nodup, hs.allocated⟩
  have hc := setUsername_sound (hs.connections p) h
  have hin := ((hc.record (.loginSuccess ((s.heap p).setUsername name).protocol.state)).queue
    ⟨0x01, []⟩).setProtocolState 3
  rw [admitted, store_heap]
  split
  next => exact ⟨hin.out, hin.len, hin.received, hin.ip, hin.username, nofun⟩
  next => exact hs.connections q

/-- A name that was accepted fits, because its password took 32 bytes of the packet. -/
theorem accepted_length {s : Server Fifo} (hs : s.Sound) {user : User} (hin : s.inFlight = some user)
    (hauth : authFromDBPoll user.username user.password = errorCodeAuthOk) :
    user.username.length ≤ 65504 := by
  have hle := hs.requests user (Or.inr hin)
  have hlen := authFromDBPoll_length hauth
  omega

omit [Platform] in
theorem answered_sound {s : Server Fifo} (hs : s.Sound) : ({ s with inFlight := none } : Server Fifo).Sound :=
  ⟨hs.connections, fun user h => hs.requests user (h.elim Or.inl (fun h => nomatch h)), hs.nodup,
    hs.allocated⟩

theorem Effect.sound {G : Gate} {who : Nat → Prop} {s s' : Server Fifo} (hs : s.Sound)
    (h : Effect G who s s') : s'.Sound := by
  cases h with
  | small _ _ h => exact h.sound hs
  | @accepted ip hip _ =>
    refine ⟨fun q => ?_, hs.requests, ?_, ?_⟩
    · have hc := @ClientHandle.create_sound ip (by omega) (UInt32.ofNat (s.clientCount + 1)) s.now
      rw [accept_heap]
      split
      next => exact ⟨hc.out, hc.len, hc.received, hc.ip, hc.username, hc.settled⟩
      next => exact hs.connections q
    · refine List.nodup_append.mpr ⟨hs.nodup, by simp, ?_⟩
      intro a ha b hb
      have hlt := hs.allocated a ha
      rw [List.mem_singleton.mp hb]
      omega
    · intro q hq
      rcases List.mem_append.mp hq with hold | hnew
      · exact Nat.lt_succ_of_lt (hs.allocated q hold)
      · rw [List.mem_singleton.mp hnew]
        exact Nat.lt_succ_self _
  | destroyed _ _ _ _ => exact tellAll_sound (closed_sound hs _) _
  | removed _ _ =>
    exact ⟨hs.connections, hs.requests, hs.nodup.erase _,
      fun q hq => hs.allocated q (List.mem_of_mem_erase hq)⟩
  | taken _ =>
    refine ⟨hs.connections, fun user huser => ?_, hs.nodup, hs.allocated⟩
    rcases huser with hq | hin
    · exact hs.requests user (Or.inl (List.mem_of_mem_tail hq))
    · exact hs.requests user (Or.inl (List.mem_of_mem_head? hin))
  | @login p user _ hin hauth _ _ _ _ =>
    have hadmitted := tellAll_sound
      (admitted_sound (answered_sound hs) p (accepted_length hs hin hauth)) p
    refine ⟨fun q => ?_, hadmitted.requests, hadmitted.nodup, hadmitted.allocated⟩
    rw [modify_heap]
    have hc := hadmitted.connections p
    split
    next => exact ⟨hc.out, hc.len, hc.received, hc.ip, hc.username, hc.settled⟩
    next => exact hadmitted.connections q
  | answered => exact answered_sound hs
  | clock elapsed => exact ⟨hs.connections, hs.requests, hs.nodup, hs.allocated⟩

/-- What the packets of `p` leave as it was. -/
structure Framed (p : Nat) (s s' : Server Fifo) : Prop where
  clients : s'.clients = s.clients
  allocated : s'.allocated = s.allocated
  clientCount : s'.clientCount = s.clientCount
  inFlight : s'.inFlight = s.inFlight
  now : s'.now = s.now
  uniqueID : ∀ q, (s'.heap q).uniqueID = (s.heap q).uniqueID
  others : ∀ q, q ≠ p → ∃ told, s'.heap q = (s.heap q).queueAll told
  live : (s'.heap p).state.toNat < 4 ↔ (s.heap p).state.toNat < 4
  working : (s'.heap p).protocol.state = 3 ↔ (s.heap p).protocol.state = 3

omit [Platform] in
theorem Framed.refl (p : Nat) (s : Server Fifo) : Framed p s s :=
  ⟨rfl, rfl, rfl, rfl, rfl, fun _ => rfl, fun _ _ => ⟨[], rfl⟩, Iff.rfl, Iff.rfl⟩

omit [Platform] in
theorem Framed.trans {p : Nat} {s s' s'' : Server Fifo} (h : Framed p s s') (h' : Framed p s' s'') :
    Framed p s s'' where
  clients := h'.clients.trans h.clients
  allocated := h'.allocated.trans h.allocated
  clientCount := h'.clientCount.trans h.clientCount
  inFlight := h'.inFlight.trans h.inFlight
  now := h'.now.trans h.now
  uniqueID q := (h'.uniqueID q).trans (h.uniqueID q)
  others q hq := by
    obtain ⟨told, htold⟩ := h.others q hq
    obtain ⟨told', htold'⟩ := h'.others q hq
    refine ⟨told ++ told', ?_⟩
    rw [htold', htold]
    exact (List.foldl_append).symm
  live := h'.live.trans h.live
  working := h'.working.trans h.working

omit [Platform] in
/-- Own changes leave the ID, and neither destroy a connection nor log it in. -/
theorem Change.framed {c c' : ClientHandle Fifo} (h : ClientHandle.Change c c') :
    c'.uniqueID = c.uniqueID ∧ (c'.state.toNat < 4 ↔ c.state.toNat < 4) ∧
      (c'.protocol.state = 3 ↔ c.protocol.state = 3) := by
  cases h with
  | quiet h => rw [h.uniqueID, h.state, h.protocolState]; exact ⟨rfl, Iff.rfl, Iff.rfl⟩
  | handled _ _ _ => exact ⟨rfl, Iff.rfl, Iff.rfl⟩
  | status state _ hone hstate =>
    rw [ClientHandle.queue_eq]
    refine ⟨rfl, Iff.rfl, ?_⟩
    have h3 : (3 : UInt32) ≠ 1 ∧ (3 : UInt32) ≠ 2 := by decide
    constructor
    · intro h
      change state = 3 at h
      rcases hstate with h1 | h2
      · exact absurd (h.symm.trans h1) h3.1
      · exact absurd (h.symm.trans h2) h3.2
    · intro h
      exact absurd (h.symm.trans hone) h3.1
  | pong timestamp _ => rw [ClientHandle.queue_eq]; exact ⟨rfl, Iff.rfl, Iff.rfl⟩
  | lost _ _ _ hthree =>
    have h3 : (255 : UInt32) ≠ 3 := by decide
    exact ⟨rfl, Iff.rfl, ⟨fun h => absurd h h3, fun h => absurd h hthree⟩⟩
  | disconnect reason => rw [ClientHandle.disconnect_eq]; exact ⟨rfl, Iff.rfl, Iff.rfl⟩
  | flush => exact ⟨rfl, Iff.rfl, Iff.rfl⟩
  | working hstate =>
    refine ⟨rfl, ?_, Iff.rfl⟩
    have h2 : EState.csAuthenticated.toNat < 4 := by decide
    have h3 : EState.csWorking.toNat < 4 := by decide
    rw [hstate]
    exact ⟨fun _ => h2, fun _ => h3⟩
  | keepAlive id now _ =>
    unfold ClientHandle.keepAliveSent
    split
    next => exact ⟨rfl, Iff.rfl, Iff.rfl⟩
    next => rw [ClientHandle.queue_eq]; exact ⟨rfl, Iff.rfl, Iff.rfl⟩

theorem Small.framed {G : Gate} {p : Nat} {s s' : Server Fifo} (h : Small G p s s') :
    Framed p s s' := by
  cases h with
  | @change c hc =>
    obtain ⟨hid, hlive, hworking⟩ := Change.framed hc
    have hself : (s.store p c).heap p = c := if_pos rfl
    refine ⟨rfl, rfl, rfl, rfl, rfl, fun q => ?_, fun q hq => ?_, ?_, ?_⟩
    · rw [store_heap]
      split
      next h => rw [h, hid]
      next => rfl
    · exact ⟨[], by rw [store_heap, if_neg hq]; rfl⟩
    · rw [hself]
      exact hlive
    · rw [hself]
      exact hworking
  | @request bytes username password hlive _ _ _ _ =>
    have hheap : ∀ q, (s.handleLogin p username password).heap q =
        if q = p then (s.heap p).setState .csAuthenticating else s.heap q := fun _ => rfl
    refine ⟨rfl, rfl, rfl, rfl, rfl, fun q => ?_, fun q hq => ?_, ?_, ?_⟩
    · rw [hheap]
      split
      next h =>
        rw [h]
        rfl
      next => rfl
    · exact ⟨[], by rw [hheap, if_neg hq]; rfl⟩
    · have h1 : EState.csAuthenticating.toNat < 4 := by decide
      rw [hheap, if_pos rfl]
      exact ⟨fun _ => hlive, fun _ => h1⟩
    · rw [hheap, if_pos rfl]
      exact Iff.rfl
  | @relayed q pkt _ _ _ _ =>
    have hsame : (s.tell q pkt).heap p = (s.heap p).queueAll (if p = q then [pkt] else []) := by
      rcases eq_or_ne p q with rfl | hne
      · rw [tell_self, if_pos rfl]
        rfl
      · rw [tell_other hne, if_neg hne]
        rfl
    refine ⟨rfl, rfl, rfl, rfl, rfl, fun r => (tell_identity q pkt s r).1, fun r _ => ?_, ?_, ?_⟩
    · rcases eq_or_ne r q with rfl | hne
      · exact ⟨[pkt], tell_self _ _ _⟩
      · exact ⟨[], tell_other hne _ _⟩
    · rw [hsame, ClientHandle.queueAll_eq]
    · rw [hsame, ClientHandle.queueAll_eq]

theorem framed_of_small {G : Gate} {p : Nat} {s s' : Server Fifo}
    (h : ReflTransGen (Small G p) s s') : Framed p s s' := by
  induction h with
  | refl => exact Framed.refl p s
  | tail _ hstep ih => exact ih.trans hstep.framed

theorem sound_of_small {G : Gate} {p : Nat} {s s' : Server Fifo} (hs : s.Sound)
    (h : ReflTransGen (Small G p) s s') : s'.Sound := by
  induction h with
  | refl => exact hs
  | tail _ hstep ih => exact hstep.sound ih

theorem Small.others {G : Gate} {p : Nat} {s s' : Server Fifo} (h : Small G p s s') {q : Nat}
    (hq : q ≠ p) : ∃ told, s'.heap q = (s.heap q).queueAll told ∧
      ∀ pkt ∈ told, G.passes (s.heap q) pkt := by
  cases h with
  | change _ => exact ⟨[], by rw [store_heap, if_neg hq]; rfl, nofun⟩
  | request _ _ _ _ _ => exact ⟨[], by rw [handleLogin, modify_heap, if_neg hq]; rfl, nofun⟩
  | @relayed r pkt _ _ _ hpass =>
    rcases eq_or_ne q r with rfl | hne
    · refine ⟨[pkt], tell_self _ _ _, fun pkt' hpkt' => ?_⟩
      rw [List.mem_singleton.mp hpkt']
      exact hpass
    · exact ⟨[], tell_other hne _ _, nofun⟩

/-- A connection that an effect does not concern is at most told something that the gate lets
through. -/
theorem Effect.others {G : Gate} {who : Nat → Prop} {s s' : Server Fifo} (h : Effect G who s s')
    {q : Nat} (hq : ¬who q) (ha : q < s.allocated) :
    ∃ told, s'.heap q = (s.heap q).queueAll told ∧ ∀ pkt ∈ told, G.passes (s.heap q) pkt := by
  cases h with
  | small hp _ h => exact h.others fun heq => hq (heq ▸ hp)
  | accepted _ _ => exact ⟨[], by rw [accept_heap, if_neg (Nat.ne_of_lt ha)]; rfl, nofun⟩
  | @destroyed p hp _ _ hgate =>
    have hne : q ≠ p := fun heq => hq (heq ▸ hp)
    have hsame : ∀ r, r ≠ p → (s.closed p).heap r = s.heap r := by
      intro r hr
      rw [closed, modify_heap, if_neg hr, modify_heap, if_neg hr]
    obtain ⟨told, htold, hmem⟩ := tellOver_queueAll p (s.closed p).clients (s.closed p) q
    refine ⟨told, by rw [tellAll, htold, hsame q hne], fun pkt hpkt => ?_⟩
    rcases hmem pkt hpkt with ⟨rfl, _⟩ | ⟨_, hin, hid, rfl⟩
    · exact absurd rfl hne
    · have hself : ((s.closed p).heap p).uniqueID = (s.heap p).uniqueID := by
        rw [closed, modify_heap, if_pos rfl, modify_heap, if_pos rfl]
        rfl
      rw [hsame q hne, hself] at hid
      exact (hgate q hin hid).1
  | removed _ _ => exact ⟨[], rfl, nofun⟩
  | taken _ => exact ⟨[], rfl, nofun⟩
  | @login p user hp _ _ _ _ _ hgate =>
    have hne : q ≠ p := fun heq => hq (heq ▸ hp)
    obtain ⟨t, ht⟩ : ∃ t : Server Fifo, t = { s with inFlight := none } := ⟨_, rfl⟩
    have hheap : ∀ r, (t.admitted p user.username).heap r =
        (s.admitted p user.username).heap r := by
      intro r
      rw [ht]
      rfl
    have hsame : (t.admitted p user.username).heap q = s.heap q := by
      rw [hheap, admitted, store_heap, if_neg hne]
    obtain ⟨told, htold, hmem⟩ := tellOver_queueAll p (t.admitted p user.username).clients
      (t.admitted p user.username) q
    refine ⟨told, ?_, fun pkt hpkt => ?_⟩
    · rw [modify_heap, if_neg hne, ← ht, tellAll, htold, hsame]
    · rcases hmem pkt hpkt with ⟨rfl, _⟩ | ⟨_, hin, hid, rfl⟩
      · exact absurd rfl hne
      · have hself : ((t.admitted p user.username).heap p).uniqueID = (s.heap p).uniqueID := by
          rw [hheap, admitted, store_heap, if_pos rfl, ClientHandle.loginSucceeded,
            ClientHandle.queue_eq]
          rfl
        rw [hsame, hself] at hid
        rw [hheap]
        have hin' : q ∈ s.clients := by
          rw [ht] at hin
          exact hin
        exact (hgate q hin' hid).1
  | answered => exact ⟨[], rfl, nofun⟩
  | clock elapsed => exact ⟨[], rfl, nofun⟩

end Server

end P2PChat

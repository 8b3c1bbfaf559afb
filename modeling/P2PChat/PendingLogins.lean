import P2PChat.PeerLists
import P2PChat.RelayRouting
import P2PChat.Services

namespace P2PChat

open ByteQueue Relation

namespace ClientHandle

/-- Its login is not yet answered. -/
def Waits {β : Type} (c : ClientHandle β) : Prop := c.state = .csAuthenticating ∧ c.hasSentDC = false

/-- It is logged in, was sent a disconnect or is destroyed. -/
def Answered {β : Type} (c : ClientHandle β) : Prop :=
  c.hasSentDC = true ∨ c.Present ∨ c.state = .csDestroyed

instance {β : Type} (c : ClientHandle β) : Decidable c.Waits :=
  inferInstanceAs (Decidable (c.state = .csAuthenticating ∧ c.hasSentDC = false))

instance {β : Type} (c : ClientHandle β) : Decidable c.Answered :=
  inferInstanceAs (Decidable (c.hasSentDC = true ∨ c.Present ∨ c.state = .csDestroyed))

theorem Answered.not_waits {β : Type} {c : ClientHandle β} (h : c.Answered) : ¬c.Waits := by
  rintro ⟨hstate, hdc⟩
  rcases h with hsent | hpresent | hdead
  · rw [hdc] at hsent
    exact absurd hsent (by decide)
  · rcases hpresent with hin | hin <;> rw [hstate] at hin <;> cases hin
  · rw [hstate] at hdead
    cases hdead

/-- The connection stays the same one; an answer is final, and only who asks begins to wait. -/
structure Onward (asks : Prop) (c c' : ClientHandle Fifo) : Prop where
  uniqueID : c'.uniqueID = c.uniqueID
  answered : c.Answered → c'.Answered
  waits : c.Waits → c'.Waits ∨ c'.Answered
  begins : c'.Waits → c.Waits ∨ asks

variable {asks asks' : Prop} {c c' c'' : ClientHandle Fifo}

theorem Onward.trans (h : Onward asks c c') (h' : Onward asks c' c'') : Onward asks c c'' where
  uniqueID := h'.uniqueID.trans h.uniqueID
  answered hc := h'.answered (h.answered hc)
  waits hc := (h.waits hc).elim h'.waits fun hanswered => Or.inr (h'.answered hanswered)
  begins hc := (h'.begins hc).elim h.begins Or.inr

theorem Onward.mono (h : Onward asks c c') (himp : asks → asks') : Onward asks' c c' :=
  ⟨h.uniqueID, h.answered, h.waits, fun hc => (h.begins hc).imp_right himp⟩

theorem Onward.of_same (huniqueID : c'.uniqueID = c.uniqueID) (hstate : c'.state = c.state)
    (hdc : c'.hasSentDC = c.hasSentDC) : Onward asks c c' := by
  have hwaits : c'.Waits ↔ c.Waits := by rw [Waits, Waits, hstate, hdc]
  have hanswered : c'.Answered ↔ c.Answered := by rw [Answered, Answered, Present, Present, hstate, hdc]
  exact ⟨huniqueID, hanswered.mpr, fun h => Or.inl (hwaits.mpr h), fun h => Or.inl (hwaits.mp h)⟩

theorem Onward.of_answered (huniqueID : c'.uniqueID = c.uniqueID) (h : c'.Answered) : Onward asks c c' :=
  ⟨huniqueID, fun _ => h, fun _ => Or.inr h, fun hwaits => absurd hwaits h.not_waits⟩

theorem disconnect_answered (reason : Int32) (c : ClientHandle Fifo) : (c.disconnect reason).Answered := by
  rw [disconnect_eq]
  exact Or.inl rfl

theorem disconnect_onward (reason : Int32) (c : ClientHandle Fifo) : Onward asks c (c.disconnect reason) :=
  .of_answered (by rw [disconnect_eq]) (disconnect_answered reason c)

theorem queueAll_onward (told : List Packet) (c : ClientHandle Fifo) : Onward asks c (c.queueAll told) := by
  rw [queueAll_eq]
  exact .of_same rfl rfl rfl

theorem queue_onward (p : Packet) (c : ClientHandle Fifo) : Onward asks c (c.queue p) :=
  queueAll_onward [p] c

theorem Change.onward (h : Change c c') : Onward asks c c' := by
  cases h with
  | quiet hsame => exact .of_same hsame.uniqueID hsame.state hsame.hasSentDC
  | handled packetType bytes _ => exact .of_same rfl rfl rfl
  | status state _ _ _ =>
    have hset : Onward asks c (c.setProtocolState state) := .of_same rfl rfl rfl
    exact hset.trans (queue_onward _ _)
  | pong timestamp _ => exact queue_onward _ c
  | lost _ _ _ _ => exact .of_same rfl rfl rfl
  | disconnect reason => exact disconnect_onward reason c
  | flush => exact .of_same rfl rfl rfl
  | working _ => exact .of_answered rfl (Or.inr (Or.inl (Or.inr rfl)))
  | keepAlive pingID now _ =>
    have hnew : Onward asks c { c with pingID := pingID, pingStartTime := now } := .of_same rfl rfl rfl
    refine hnew.trans ?_
    unfold keepAliveSent
    split
    next => exact .of_same rfl rfl rfl
    next =>
      have hrecord : Onward asks { c with pingID := pingID, pingStartTime := now }
          (record (.keepAlive c.protocol.state) { c with pingID := pingID, pingStartTime := now }) :=
        .of_same rfl rfl rfl
      exact hrecord.trans (queue_onward _ _)

end ClientHandle

namespace Server

open ClientHandle (Onward)

section Definitions

variable {β : Type}

/-- The requests that the authenticator has not yet answered, the next first. -/
def pending (s : Server β) : List User := s.inFlight.toList ++ s.queue

/-- What the authenticator does for the connections. -/
def logins : Service (Server β) Event User Nat where
  jobs := pending
  serves e := e == .authenticatorAnswer
  waits s p := p < s.allocated ∧ (s.heap p).Waits
  through s p := p < s.allocated ∧ (s.heap p).Answered
  owns s user p := user.clientID = (s.heap p).uniqueID

end Definitions

/-- The connection at `q` has a request that waits. -/
def Asks (s : Server Fifo) (id : UInt32) : Prop := ∃ user ∈ s.pending, user.clientID = id

variable {s s' s'' : Server Fifo} {p q : Nat}

/-- Requests come behind the others, and with the connections it is as `Onward` says. -/
structure Proceeds (s s' : Server Fifo) : Prop where
  allocated : s.allocated ≤ s'.allocated
  pending : s.pending <+: s'.pending
  each : ∀ q < s.allocated, Onward (s'.Asks (s.heap q).uniqueID) (s.heap q) (s'.heap q)
  fresh : ∀ q, s.allocated ≤ q → q < s'.allocated → (s'.heap q).Waits → s'.Asks (s'.heap q).uniqueID

theorem Asks.mono {id : UInt32} (h : s.Asks id) (hpending : s.pending <+: s'.pending) : s'.Asks id := by
  obtain ⟨user, huser, hid⟩ := h
  exact ⟨user, hpending.subset huser, hid⟩

theorem Proceeds.trans (h : Proceeds s s') (h' : Proceeds s' s'') : Proceeds s s'' where
  allocated := Nat.le_trans h.allocated h'.allocated
  pending := h.pending.trans h'.pending
  each q hq := by
    have hfirst := (h.each q hq).mono fun hasks => hasks.mono h'.pending
    have hsecond := h'.each q (Nat.lt_of_lt_of_le hq h.allocated)
    rw [(h.each q hq).uniqueID] at hsecond
    exact hfirst.trans hsecond
  fresh q hle hlt hwaits := by
    rcases Nat.lt_or_ge q s'.allocated with hbefore | hafter
    · have honward := h'.each q hbefore
      rw [honward.uniqueID]
      rcases honward.begins hwaits with hold | hasks
      · exact (h.fresh q hle hbefore hold).mono h'.pending
      · exact hasks
    · exact h'.fresh q hafter hlt hwaits

theorem Proceeds.of_heap (hallocated : s'.allocated = s.allocated) (hpending : s'.pending = s.pending)
    (heach : ∀ q < s.allocated, Onward (s'.Asks (s.heap q).uniqueID) (s.heap q) (s'.heap q)) :
    Proceeds s s' where
  allocated := Nat.le_of_eq hallocated.symm
  pending := hpending ▸ List.prefix_refl _
  each := heach
  fresh q hle hlt := absurd hlt (by rw [hallocated]; exact Nat.not_lt.mpr hle)

theorem Proceeds.refl (s : Server Fifo) : Proceeds s s := .of_heap rfl rfl fun _ _ => .of_same rfl rfl rfl

theorem store_proceeds {c : ClientHandle Fifo} (h : Onward (s.Asks (s.heap p).uniqueID) (s.heap p) c) :
    Proceeds s (s.store p c) := by
  refine .of_heap rfl rfl fun q _ => ?_
  rw [store_heap]
  split
  next heq =>
    rw [heq]
    exact h
  next => exact .of_same rfl rfl rfl

/-- A request waits for its answer, and is the connection's own. -/
theorem handleLogin_proceeds (hin : (s.heap p).InStep) (hlive : (s.heap p).state.toNat < 4)
    (hstate : (s.heap p).protocol.state = 2) (username password : AString) :
    Proceeds s (s.handleLogin p username password) := by
  have hpending : (s.handleLogin p username password).pending =
      s.pending ++ [⟨(s.heap p).uniqueID, username, password⟩] := (List.append_assoc _ _ _).symm
  have hagrees := hin.live hlive
  have hpresent : ¬(s.heap p).Present := by
    intro h
    have h3 := hagrees.working.mpr h
    rw [hstate] at h3
    exact absurd h3 (by decide)
  have hdead : (s.heap p).state ≠ .csDestroyed := by
    intro h
    rw [h] at hlive
    exact absurd hlive (by decide)
  refine ⟨Nat.le_refl _, ?_, fun q _ => ?_, fun q hle hlt => absurd hlt (Nat.not_lt.mpr hle)⟩
  · rw [hpending]
    exact List.prefix_append _ _
  · change Onward _ (s.heap q) ((s.modify p (ClientHandle.setState .csAuthenticating)).heap q)
    rw [modify_heap]
    split
    next heq =>
      rw [heq]
      refine ⟨rfl, fun h => Or.inl ?_, fun h => Or.inl ⟨rfl, h.2⟩, fun _ => Or.inr ?_⟩
      · rcases h with hsent | hin | hgone
        · exact hsent
        · exact absurd hin hpresent
        · exact absurd hgone hdead
      · refine ⟨⟨(s.heap p).uniqueID, username, password⟩, ?_, rfl⟩
        rw [hpending]
        exact List.mem_append_right _ (List.mem_singleton.mpr rfl)
    next => exact .of_same rfl rfl rfl

/-- A connection that is closed is answered. -/
theorem closed_proceeds (p : Nat) (s : Server Fifo) : Proceeds s ((s.closed p).tellAll p) := by
  refine .of_heap rfl rfl fun q _ => ?_
  obtain ⟨told, htold, _⟩ := tellOver_queueAll p (s.closed p).clients (s.closed p) q
  rw [tellAll, htold]
  refine Onward.trans ?_ (ClientHandle.queueAll_onward told _)
  rw [closed_heap]
  split
  next heq =>
    rw [heq]
    exact .of_answered rfl (Or.inr (Or.inr rfl))
  next => exact .of_same rfl rfl rfl

theorem accept_proceeds (ip : AString) (s : Server Fifo) : Proceeds s (s.accept ip) := by
  refine ⟨Nat.le_succ _, List.prefix_refl _, fun q hq => ?_, fun q hle hlt hwaits => ?_⟩
  · rw [accept_heap, if_neg (Nat.ne_of_lt hq)]
    exact .of_same rfl rfl rfl
  · have heq : q = s.allocated := Nat.le_antisymm (Nat.lt_succ_iff.mp hlt) hle
    rw [accept_heap, if_pos heq] at hwaits
    cases hwaits.1

variable [Platform]

theorem Small.proceeds {G : Gate} (hin : ∀ q, (s.heap q).InStep) (h : Small G p s s') : Proceeds s s' := by
  cases h with
  | change hc => exact store_proceeds hc.onward
  | request hlive hstate _ _ _ => exact handleLogin_proceeds (hin p) hlive hstate _ _
  | @relayed r pkt _ _ _ _ => exact store_proceeds (ClientHandle.queue_onward pkt _)

/-- What a packet of `p` does. -/
theorem smalls_proceed {G : Gate} (hin : ∀ q, (s.heap q).InStep) (hp : p < s.allocated)
    (h : ReflTransGen (Small G p) s s') : Proceeds s s' ∧ ∀ q, (s'.heap q).InStep := by
  induction h with
  | refl => exact ⟨.refl s, hin⟩
  | tail hbefore hlast ih =>
    have hp' := hp
    rw [← (framed_of_small hbefore).allocated] at hp'
    have heffect : Effect G (· = p) _ _ := .small rfl hp' hlast
    exact ⟨ih.1.trans (hlast.proceeds ih.2), heffect.inStep ih.2⟩

/-- So proceeds every event but the answers of the authenticator. -/
theorem step_proceeds {e : Event} (hs : s.Sound) (hin : ∀ q, (s.heap q).InStep) (he : s.enabled e = true)
    (hother : e ≠ .authenticatorAnswer) (hok : s.step e = .ok s') : Proceeds s s' := by
  cases e with
  | connectionAccepted ip =>
    have hok' : s.connectionAccepted ip = .ok s' := hok
    unfold connectionAccepted at hok'
    split at hok'
    next => cases hok'
    next =>
      cases hok'
      exact accept_proceeds ip s
  | receivedData p data =>
    cases hok
    exact store_proceeds (receive_change data _).onward
  | remoteClosed p =>
    have hok' : s.destroy p = .ok s' := hok
    unfold destroy at hok'
    split at hok'
    next =>
      cases hok'
      exact store_proceeds (unlink_change _).onward
    next =>
      have hclosed := closed_sound hs p
      rw [← closed, broadcastUserInfo_ok hclosed.connections hclosed.nodup p] at hok'
      cases hok'
      exact closed_proceeds p s
  | tickClient p =>
    have hmem : p ∈ s.clients := by simpa [enabled] using he
    have hok' : s.tickClient p = .ok s' := hok
    unfold tickClient at hok'
    split at hok'
    next =>
      cases hok'
      exact .of_heap rfl rfl fun _ _ => .of_same rfl rfl rfl
    next hnot =>
      have hhandled := serverTick_handled hs (live_of_not (hs.connections p) hnot) (G := .open)
        fun _ _ => rfl
      rw [hok'] at hhandled
      exact (smalls_proceed hin (hs.allocated p hmem) hhandled.2).1
  | released p =>
    have hand : p < s.allocated ∧ p ∉ s.clients := by simpa [enabled] using he
    obtain ⟨t, hkick, hleads⟩ := kick_ok hs (G := .open) p errorCodeServerShutdown
    have hok' : s.released p = .ok s' := hok
    rw [released, hkick] at hok'
    cases hok'
    exact (smalls_proceed hin hand.1 hleads.small).1
  | authenticatorTake =>
    cases hok
    have hidle : s.inFlight = none := Option.isNone_iff_eq_none.mp (Bool.and_eq_true_iff.mp he).1
    refine .of_heap rfl ?_ fun _ _ => .of_same rfl rfl rfl
    rw [pending, pending, hidle, authenticatorTake]
    rcases s.queue with _ | ⟨user, queue⟩ <;> rfl
  | authenticatorAnswer => exact absurd rfl hother
  | clock elapsed =>
    cases hok
    exact .of_heap rfl rfl fun _ _ => .of_same rfl rfl rfl

omit [Platform] in
theorem kicked_onward (p q : Nat) (reason : Int32) (s : Server Fifo) :
    Onward False (s.heap q) ((s.store p ((s.heap p).disconnect reason)).heap q) ∧
      (q = p → ((s.store p ((s.heap p).disconnect reason)).heap q).Answered) := by
  rw [store_heap]
  split
  next heq =>
    rw [heq]
    exact ⟨ClientHandle.disconnect_onward reason _, fun _ => ClientHandle.disconnect_answered reason _⟩
  next hne => exact ⟨.of_same rfl rfl rfl, fun heq => absurd heq hne⟩

omit [Platform] in
/-- Whoever is logged in is answered; the others are told. -/
theorem admitted_onward (p q : Nat) (name : AString) (start : Int) (s : Server Fifo) :
    Onward False (s.heap q)
        ((((s.admitted p name).tellAll p).modify p (ClientHandle.setPingStart start)).heap q) ∧
      (q = p →
        ((((s.admitted p name).tellAll p).modify p (ClientHandle.setPingStart start)).heap q).Answered) := by
  obtain ⟨hstate, huniqueID, _, _⟩ := tellAll_same p p (s.admitted p name)
  rw [modify_heap]
  split
  next heq =>
    have hadmitted : (s.admitted p name).heap p =
        (((s.heap p).setUsername name).loginSucceeded).setState .csAuthenticated := if_pos rfl
    rw [hadmitted] at hstate huniqueID
    have hpresent : ((((s.admitted p name).tellAll p).heap p).setPingStart start).Answered :=
      Or.inr (Or.inl (Or.inl hstate))
    rw [heq]
    refine ⟨.of_answered ?_ hpresent, fun _ => hpresent⟩
    refine huniqueID.trans ?_
    rw [ClientHandle.loginSucceeded, ClientHandle.queue_eq]
    rfl
  next hne =>
    obtain ⟨told, htold, _⟩ := tellOver_queueAll p (s.admitted p name).clients (s.admitted p name) q
    rw [tellAll, htold, admitted_other hne]
    exact ⟨ClientHandle.queueAll_onward told _, fun heq => absurd heq hne⟩

omit [Platform] in
/-- All connections with the ID are sent a disconnect. -/
theorem kickLoop_onward {id : UInt32} {reason : Int32} {l : List Nat} (hs : s.Sound) :
    ∃ s', kickLoop id reason l s = .ok s' ∧ s'.allocated = s.allocated ∧ s'.inFlight = s.inFlight ∧
      s'.queue = s.queue ∧ ∀ q, Onward False (s.heap q) (s'.heap q) ∧
        (q ∈ l → (s.heap q).uniqueID = id → (s'.heap q).Answered) := by
  induction l generalizing s with
  | nil =>
    exact ⟨s, rfl, rfl, rfl, rfl, fun q => ⟨.of_same rfl rfl rfl, fun hmem => absurd hmem List.not_mem_nil⟩⟩
  | cons p l ih =>
    by_cases hid : (s.heap p).uniqueID = id
    · have hkick : s.act p (ClientHandle.kick reason) = .ok (s.store p ((s.heap p).disconnect reason)) :=
        act_change (ClientHandle.sendDisconnect_ok (hs.connections p) reason)
      have hfirst := fun q => kicked_onward p q reason s
      have hsound : (s.store p ((s.heap p).disconnect reason)).Sound := by
        refine ⟨fun q => ?_, hs.requests, hs.nodup, hs.allocated⟩
        rw [store_heap]
        split
        next => exact (hs.connections p).disconnect reason
        next => exact hs.connections q
      obtain ⟨s', hloop, hallocated, hidle, hqueue, hrest⟩ := ih hsound
      refine ⟨s', ?_, hallocated, hidle, hqueue, fun q => ⟨(hfirst q).1.trans (hrest q).1, fun hmem hq => ?_⟩⟩
      · rw [kickLoop, if_pos hid, hkick]
        exact hloop
      · rcases List.mem_cons.mp hmem with heq | hin
        · exact (hrest q).1.answered ((hfirst q).2 heq)
        · exact (hrest q).2 hin ((hfirst q).1.uniqueID.trans hq)
    · obtain ⟨s', hloop, hallocated, hidle, hqueue, hrest⟩ := ih hs
      refine ⟨s', ?_, hallocated, hidle, hqueue, fun q => ⟨(hrest q).1, fun hmem hq => ?_⟩⟩
      · rw [kickLoop, if_neg hid]
        exact hloop
      · rcases List.mem_cons.mp hmem with heq | hin
        · rw [heq] at hq
          exact absurd hq hid
        · exact (hrest q).2 hin hq

/-- What the runs keep, as far as the answers need it. -/
structure Attended (s : Server Fifo) : Prop where
  sound : s.Sound
  authentic : s.Authentic
  inStep : ∀ q, (s.heap q).InStep
  registered : s.Registered

theorem Attended.member (h : s.Attended) (hq : q < s.allocated) (hwaits : (s.heap q).Waits) : q ∈ s.clients := by
  refine h.registered q hq fun hdead => ?_
  rw [hwaits.1] at hdead
  cases hdead

/-- The answer takes the request away, and whoever waits with its ID is answered. -/
theorem answer_onward {user : User} (h : s.Attended) (hin : s.inFlight = some user) :
    ∃ s', answer user { s with inFlight := none } = .ok s' ∧ s'.allocated = s.allocated ∧ s'.inFlight = none ∧
      s'.queue = s.queue ∧ ∀ q < s.allocated, Onward False (s.heap q) (s'.heap q) ∧
        (user.clientID = (s.heap q).uniqueID → (s.heap q).Waits → (s'.heap q).Answered) := by
  have hs₁ := answered_sound h.sound
  unfold answer
  dsimp only
  split
  next hauth =>
    unfold authenticateUser
    have hfind : ({ s with inFlight := none } : Server Fifo).findClient user.clientID =
        s.findClient user.clientID := rfl
    rw [hfind]
    rcases hfound : s.findClient user.clientID with _ | p
    · refine ⟨{ s with inFlight := none }, rfl, rfl, rfl, rfl, fun q hq =>
        ⟨.of_same rfl rfl rfl, fun hid hwaits => ?_⟩⟩
      exact absurd hid.symm (findClient_none hfound (h.member hq hwaits))
    · obtain ⟨hmem, hid⟩ := findClient_some hfound
      have hp := h.sound.allocated p hmem
      have hself : ∀ q < s.allocated, user.clientID = (s.heap q).uniqueID → q = p :=
        fun q hq hqid => h.authentic.id_inj hq hp (hqid.symm.trans hid.symm)
      dsimp only
      by_cases hstate : (s.heap p).state = .csAuthenticating
      · by_cases hfree : s.isPlayerInQueue user.username = false
        · refine ⟨_, authenticate_login hs₁ (accepted_length h.sound hin hauth) hstate hfree, rfl, rfl, rfl,
            fun q hq => ?_⟩
          have honward := admitted_onward p q user.username (s.now + 3 * 1000000000)
            { s with inFlight := none }
          exact ⟨honward.1, fun hqid _ => honward.2 (hself q hq hqid)⟩
        · have hkick : ({ s with inFlight := none } : Server Fifo).act p (ClientHandle.kick errorCodeAlreadyLogin) =
              .ok (store p ((s.heap p).disconnect errorCodeAlreadyLogin) { s with inFlight := none }) :=
            act_change (ClientHandle.sendDisconnect_ok (hs₁.connections p) errorCodeAlreadyLogin)
          have htaken : ({ s with inFlight := none } : Server Fifo).isPlayerInQueue user.username = true :=
            Bool.not_eq_false _ ▸ hfree
          refine ⟨store p ((s.heap p).disconnect errorCodeAlreadyLogin) { s with inFlight := none }, ?_, rfl,
            rfl, rfl, fun q hq => ?_⟩
          · rw [authenticate, if_neg (not_not.mpr hstate), if_pos htaken]
            exact hkick
          · have honward := kicked_onward p q errorCodeAlreadyLogin { s with inFlight := none }
            exact ⟨honward.1, fun hqid _ => honward.2 (hself q hq hqid)⟩
      · refine ⟨{ s with inFlight := none }, ?_, rfl, rfl, rfl, fun q hq =>
          ⟨.of_same rfl rfl rfl, fun hqid hwaits => ?_⟩⟩
        · rw [authenticate, if_pos hstate]
        · rw [hself q hq hqid] at hwaits
          exact absurd hwaits.1 hstate
  next =>
    obtain ⟨s', hok, hallocated, hidle, hqueue, hall⟩ := @kickLoop_onward _ user.clientID
      (authFromDBPoll user.username user.password) s.clients hs₁
    refine ⟨s', hok, hallocated, hidle, hqueue, fun q hq => ⟨(hall q).1, fun hid hwaits => ?_⟩⟩
    exact (hall q).2 (h.member hq hwaits) hid.symm

theorem Effect.attended {G : Gate} {who : Nat → Prop} (h : s.Attended) (he : Effect G who s s') : s'.Attended where
  sound := he.sound h.sound
  authentic := he.authentic h.sound h.authentic
  inStep := he.inStep h.inStep
  registered := he.registered h.sound h.registered

theorem Attended.step {e : Event} (h : s.Attended) (he : s.enabled e = true) (hok : s.step e = .ok s') :
    s'.Attended := by
  have hstepped := step_stepped h.sound he (gated_open s e)
  rw [hok] at hstepped
  have heffects := hstepped.2.2
  clear hstepped hok
  induction heffects with
  | refl => exact h
  | tail _ hlast ih => exact hlast.attended ih

theorem answered_step (h : s.Attended) (he : s.enabled .authenticatorAnswer = true) :
    ∃ user s', s.inFlight = some user ∧ s.step .authenticatorAnswer = .ok s' ∧ s'.allocated = s.allocated ∧
      s'.inFlight = none ∧ s'.queue = s.queue ∧
      ∀ q < s.allocated, Onward False (s.heap q) (s'.heap q) ∧
        (user.clientID = (s.heap q).uniqueID → (s.heap q).Waits → (s'.heap q).Answered) := by
  obtain ⟨user, hin⟩ : ∃ user, s.inFlight = some user := Option.isSome_iff_exists.mp he
  obtain ⟨s', hok, hrest⟩ := answer_onward h hin
  refine ⟨user, s', hin, ?_, hrest⟩
  rw [step, authenticatorAnswer, hin]
  exact hok

/-- With the answers too it is as `Onward` says, for the connections there are. -/
theorem step_onward {e : Event} (h : s.Attended) (he : s.enabled e = true) (hok : s.step e = .ok s') :
    s.allocated ≤ s'.allocated ∧
      (∀ q < s.allocated, Onward (s'.Asks (s.heap q).uniqueID) (s.heap q) (s'.heap q)) ∧
      ∀ q, s.allocated ≤ q → q < s'.allocated → (s'.heap q).Waits → s'.Asks (s'.heap q).uniqueID := by
  by_cases hanswer : e = .authenticatorAnswer
  · rw [hanswer] at he hok
    obtain ⟨user, t, _, ht, hallocated, _, _, hall⟩ := answered_step h he
    have heq : t = s' := Except.ok.inj (ht.symm.trans hok)
    rw [← heq, hallocated]
    exact ⟨Nat.le_refl _, fun q hq => (hall q hq).1.mono False.elim, fun q hle hlt =>
      absurd hlt (Nat.not_lt.mpr hle)⟩
  · have hproceeds := step_proceeds h.sound h.inStep he hanswer hok
    exact ⟨hproceeds.allocated, hproceeds.each, hproceeds.fresh⟩

theorem logins_fair : logins.Fair (serverMachine Fifo) Attended where
  keep h he hstep := h.step he hstep
  comes h he hstep hserves := by
    have hother : _ ≠ Event.authenticatorAnswer := beq_eq_false_iff_ne.mp hserves
    exact (step_proceeds h.sound h.inStep he hother hstep).pending
  goes {s e s'} h he hstep hserves := by
    have hanswer : e = .authenticatorAnswer := beq_iff_eq.mp hserves
    rw [hanswer] at he hstep
    obtain ⟨user, t, hin, ht, hallocated, hidle, hqueue, hall⟩ := answered_step h he
    have heq : t = s' := Except.ok.inj (ht.symm.trans hstep)
    rw [heq] at hallocated hidle hqueue hall
    refine ⟨user, ?_, fun q hq hwaits => ?_⟩
    · change s.pending = user :: s'.pending
      rw [pending, pending, hin, hidle, hqueue]
      rfl
    · have hlt : q < s'.allocated := by
        rw [hallocated]
        exact hwaits.1
      exact ⟨hlt, (hall q hwaits.1).2 hq hwaits.2⟩
  through h he hstep hthrough := by
    obtain ⟨hallocated, heach, _⟩ := step_onward h he hstep
    exact ⟨Nat.lt_of_lt_of_le hthrough.1 hallocated, (heach _ hthrough.1).answered hthrough.2⟩
  waits h he hstep hwaits := by
    obtain ⟨hallocated, heach, _⟩ := step_onward h he hstep
    have hlt := Nat.lt_of_lt_of_le hwaits.1 hallocated
    refine ⟨((heach _ hwaits.1).waits hwaits.2).imp (fun hw => ⟨hlt, hw⟩) (fun ha => ⟨hlt, ha⟩), fun user hid => ?_⟩
    exact hid.trans (heach _ hwaits.1).uniqueID.symm
  begins {s e s' q} h he hstep hwaits := by
    obtain ⟨_, heach, hfresh⟩ := step_onward h he hstep
    rcases Nat.lt_or_ge q s.allocated with hold | hnew
    · rcases (heach q hold).begins hwaits.2 with hbefore | hasks
      · exact Or.inl ⟨hold, hbefore⟩
      · rw [← (heach q hold).uniqueID] at hasks
        exact Or.inr hasks
    · exact Or.inr (hfresh q hnew hwaits.1 hwaits.2)
  apart hthrough hwaits := hthrough.2.not_waits hwaits.2

/-- Nobody waits for an answer without a request that the authenticator has yet to answer. -/
theorem reachable_asked (h : (serverMachine Fifo).Reachable initial s) :
    s.Attended ∧ (logins : Service (Server Fifo) Event User Nat).Asked s := by
  refine h.invariant (I := fun s => s.Attended ∧ logins.Asked s) ⟨?_, fun q hq => ?_⟩ ?_
  · exact ⟨initial_sound, initial_directory.authentic, initial_directory.inStep, initial_directory.registered⟩
  · exact absurd hq.1 (Nat.not_lt_zero q)
  · intro s e s' _ hs he _ hstep
    exact ⟨hs.1.step he hstep, logins_fair.asked hs.1 he hstep hs.2⟩

omit [Platform] in
/-- What the authenticator's thread does until it has answered all. -/
def rounds {β : Type} (s : Server β) : List Event :=
  (s.inFlight.toList.map fun _ => .authenticatorAnswer) ++
    s.queue.flatMap fun _ => [.authenticatorTake, .authenticatorAnswer]

theorem Attended.takes (h : s.Attended) (hidle : s.inFlight = none) {user : User} {queue : List User}
    (hqueue : s.queue = user :: queue) :
    s.enabled .authenticatorTake = true ∧ s.authenticatorTake.Attended ∧
      s.authenticatorTake.inFlight = some user ∧ s.authenticatorTake.queue = queue := by
  have he : s.enabled .authenticatorTake = true := by
    rw [enabled, hidle, hqueue]
    rfl
  have hstep : s.step .authenticatorTake = .ok s.authenticatorTake := rfl
  refine ⟨he, h.step he hstep, ?_, ?_⟩
  · rw [authenticatorTake, hqueue]
    rfl
  · rw [authenticatorTake, hqueue]
    rfl

/-- Nothing stops the thread on the way. -/
theorem rounds_run (h : s.Attended) :
    ∃ t, (serverMachine Fifo).Along (serverMachine Fifo).enabled s.rounds s ∧
      (serverMachine Fifo).run s.rounds s = .ok t ∧ t.pending = [] := by
  have hidle : ∀ (queue : List User) (s : Server Fifo), s.Attended → s.inFlight = none → s.queue = queue →
      ∃ t, (serverMachine Fifo).Along (serverMachine Fifo).enabled s.rounds s ∧
        (serverMachine Fifo).run s.rounds s = .ok t ∧ t.pending = [] := by
    intro queue
    induction queue with
    | nil =>
      intro s _ hnone hqueue
      have hrounds : s.rounds = [] := by
        rw [rounds, hnone, hqueue]
        rfl
      rw [hrounds]
      refine ⟨s, trivial, rfl, ?_⟩
      rw [pending, hnone, hqueue]
      rfl
    | cons user queue ih =>
      intro s hs hnone hqueue
      obtain ⟨htake, htaken, hin, hrest⟩ := hs.takes hnone hqueue
      have hanswer : s.authenticatorTake.enabled .authenticatorAnswer = true := by
        rw [enabled, hin]
        rfl
      obtain ⟨_, s₂, _, hstep, _, hnone₂, hqueue₂, _⟩ := answered_step htaken hanswer
      obtain ⟨t, halong, hrun, hend⟩ := ih s₂ (htaken.step hanswer hstep) hnone₂ (hqueue₂.trans hrest)
      have hrounds : s.rounds = .authenticatorTake :: .authenticatorAnswer :: s₂.rounds := by
        rw [rounds, rounds, hnone, hnone₂, hqueue, hqueue₂, hrest]
        rfl
      have hstep' : (serverMachine Fifo).step s.authenticatorTake .authenticatorAnswer = .ok s₂ := hstep
      have htake' : (serverMachine Fifo).step s .authenticatorTake = .ok s.authenticatorTake := rfl
      refine ⟨t, ?_, ?_, hend⟩
      · rw [hrounds]
        exact Machine.along_next htake htake' (Machine.along_next hanswer hstep' halong)
      · rw [hrounds, Machine.run_next htake', Machine.run_next hstep']
        exact hrun
  rcases hin : s.inFlight with _ | user
  · exact hidle s.queue s h hin rfl
  · have hanswer : s.enabled .authenticatorAnswer = true := by
      rw [enabled, hin]
      rfl
    obtain ⟨_, s₂, _, hstep, _, hnone₂, hqueue₂, _⟩ := answered_step h hanswer
    obtain ⟨t, halong, hrun, hend⟩ := hidle s.queue s₂ (h.step hanswer hstep) hnone₂ hqueue₂
    have hrounds : s.rounds = .authenticatorAnswer :: s₂.rounds := by
      rw [rounds, rounds, hin, hnone₂, hqueue₂]
      rfl
    have hstep' : (serverMachine Fifo).step s .authenticatorAnswer = .ok s₂ := hstep
    refine ⟨t, ?_, ?_, hend⟩
    · rw [hrounds]
      exact Machine.along_next hanswer hstep' halong
    · rw [hrounds, Machine.run_next hstep']
      exact hrun

omit [Platform] in
theorem enabled_contents (s : Server ByteBuffer) (e : Event) :
    (s.map ByteBuffer.contents).enabled e = s.enabled e := by
  cases e <;> rfl

/-- A run over plain queues is one of the ring buffers too. -/
theorem run_contents {s : Server ByteBuffer} {t : Server Fifo} {events : List Event}
    (halong : (serverMachine Fifo).Along (serverMachine Fifo).enabled events (s.map ByteBuffer.contents))
    (hrun : (serverMachine Fifo).run events (s.map ByteBuffer.contents) = .ok t) :
    ∃ u, (serverMachine ByteBuffer).Along (serverMachine ByteBuffer).enabled events s ∧
      (serverMachine ByteBuffer).run events s = .ok u ∧ u.map ByteBuffer.contents = t := by
  have hstep := fun (s : Server ByteBuffer) e => step_map ByteBuffer.contents_hom s e
  have henabled : ∀ (s : Server ByteBuffer) e, (serverMachine Fifo).enabled (s.map ByteBuffer.contents) e →
      (serverMachine ByteBuffer).enabled s e := fun s e he => (enabled_contents s e).symm.trans he
  have hmap := Machine.run_map (N := serverMachine Fifo) (M := serverMachine ByteBuffer) hstep events s
  rw [hrun] at hmap
  rcases hu : (serverMachine ByteBuffer).run events s with e | u
  · rw [hu] at hmap
    cases hmap
  · rw [hu] at hmap
    exact ⟨u, halong.comap henabled hstep, rfl, (Except.ok.inj hmap).symm⟩

theorem contents_reachable {s : Server ByteBuffer} (hs : (serverMachine ByteBuffer).Reachable initial s) :
    (serverMachine Fifo).Reachable initial (s.map ByteBuffer.contents) := by
  have hmap : (serverMachine Fifo).Reach (fun _ _ => True) (Server.initial.map ByteBuffer.contents)
      (s.map ByteBuffer.contents) :=
    reach_map ByteBuffer.contents_hom (fun _ _ _ => trivial) hs
  rw [initial_contents] at hmap
  exact hmap

/-- In every state that a run can come to, whoever waits for the answer to a login has a request, and is logged
in, kicked or gone once that many answers have been given, whatever else happens; and the authenticator's thread
alone can go on until nobody waits. -/
theorem logins_answered {s : Server ByteBuffer} (hs : (serverMachine ByteBuffer).Reachable initial s) :
    (∀ p < s.allocated, (s.heap p).Waits → ∃ n user, s.pending[n]? = some user ∧
      user.clientID = (s.heap p).uniqueID ∧ ∀ events t,
        (serverMachine ByteBuffer).Along (serverMachine ByteBuffer).enabled events s →
        (serverMachine ByteBuffer).run events s = .ok t → n < events.count .authenticatorAnswer →
        (t.heap p).Answered) ∧
    ∃ t, (serverMachine ByteBuffer).Along (serverMachine ByteBuffer).enabled s.rounds s ∧
      (serverMachine ByteBuffer).run s.rounds s = .ok t ∧ t.pending = [] ∧
      ∀ p < t.allocated, ¬(t.heap p).Waits := by
  obtain ⟨hattended, hasked⟩ := reachable_asked (contents_reachable hs)
  refine ⟨fun p hp hwaits => ?_, ?_⟩
  · have hwaits' : logins.waits (s.map ByteBuffer.contents) p := ⟨hp, hwaits⟩
    obtain ⟨user, huser, hid⟩ := hasked p hwaits'
    obtain ⟨n, hn⟩ := List.mem_iff_getElem?.mp huser
    refine ⟨n, user, hn, hid, fun events t halong hrun hcount => ?_⟩
    have hdue : logins.Due (n + 1) (s.map ByteBuffer.contents) p := by
      have hlt : n < n + 1 := Nat.lt_succ_self n
      have hfirst : ((s.map ByteBuffer.contents).pending.take (n + 1))[n]? = some user := by
        rw [List.getElem?_take_of_lt hlt]
        exact hn
      exact Or.inr ⟨hwaits', user, List.mem_of_getElem? hfirst, hid⟩
    have hstep := fun (s : Server ByteBuffer) e => step_map ByteBuffer.contents_hom s e
    have halong' : (serverMachine Fifo).Along (serverMachine Fifo).enabled events (s.map ByteBuffer.contents) :=
      halong.map (fun s e he => (enabled_contents s e).trans he) hstep
    have hrun' := Machine.run_map (N := serverMachine Fifo) (M := serverMachine ByteBuffer) hstep events s
    rw [hrun] at hrun'
    exact (logins_fair.served hattended hdue halong' hrun' hcount).2
  · obtain ⟨t, halong, hrun, hend⟩ := rounds_run hattended
    have hlast := logins_fair.asked_run hattended hasked halong hrun
    obtain ⟨u, halong', hrun', hmap⟩ := run_contents halong hrun
    rw [← hmap] at hend hlast
    refine ⟨u, halong', hrun', hend, fun p hp hwaits => ?_⟩
    obtain ⟨user, huser, _⟩ := hlast p ⟨hp, hwaits⟩
    change user ∈ (u.map ByteBuffer.contents).pending at huser
    rw [hend] at huser
    exact absurd huser List.not_mem_nil

omit [Platform] in
/-- Two ask for the same name; the request of the first is taken, that of the second is the next. -/
theorem logins_answered_two :
    letI := zeroPlatform
    ∃ s : Server ByteBuffer, (1 < s.allocated ∧ (s.heap 1).Waits ∧ s.pending.length = 2) ∧
      (∀ p < s.allocated, (s.heap p).Waits → ∃ n user, s.pending[n]? = some user ∧
        user.clientID = (s.heap p).uniqueID ∧ ∀ events t,
          (serverMachine ByteBuffer).Along (serverMachine ByteBuffer).enabled events s →
          (serverMachine ByteBuffer).run events s = .ok t → n < events.count .authenticatorAnswer →
          (t.heap p).Answered) ∧
      ∃ t, (serverMachine ByteBuffer).Along (serverMachine ByteBuffer).enabled s.rounds s ∧
        (serverMachine ByteBuffer).run s.rounds s = .ok t ∧ t.pending = [] ∧
        ∀ p < t.allocated, ¬(t.heap p).Waits := by
  let : Platform := zeroPlatform
  have hrun : ((serverMachine ByteBuffer).replay enabled
      (.connectionAccepted [] :: .connectionAccepted [] :: (greets 0 ++ greets 1 ++ asksLogin 0 [97] ++
        asksLogin 1 [97] ++ [.authenticatorTake])) initial).map (fun s =>
      decide (1 < s.allocated ∧ (s.heap 1).Waits ∧ s.pending.length = 2)) = some true := by
    decide +kernel
  obtain ⟨s, hs, hfacts⟩ := Option.map_eq_some_iff.mp hrun
  exact ⟨s, of_decide_eq_true hfacts, logins_answered (replay_reachable hs)⟩

end Server

end P2PChat

import P2PChat.ClientRules

namespace P2PChat

open ByteQueue

namespace PeerConnectionClient

/-- The connection is as it was, in this state, or it has been closed. -/
def Rests {β : Type} (state : State) (c : PeerConnectionClient β) : Prop :=
  (c.isConnected = true ∧ c.state = state) ∨ (c.isConnected = false ∧ c.state = .notConnected)

theorem rests_rule {β : Type} [ByteQueue β] (state : State) :
    HandlerRule (Rests state : PeerConnectionClient β → Prop) where
  same c c' hstate hopen _ _ hc := by
    unfold Rests
    rw [hstate, hopen]
    exact hc
  packet p c hc c' hok := by
    obtain ⟨out, sent, rfl⟩ := packet_changes hok
    exact hc
  signOut c hc := by
    unfold PeerConnectionClient.signOut
    split
    next => exact hc
    next h =>
      rcases hc with ⟨hopen, _⟩ | ⟨_, hstate⟩
      · rw [if_pos hopen]
        exact Or.inr ⟨rfl, rfl⟩
      · exact absurd (Or.inl hstate) h

theorem hearAll_rests {β : Type} [ByteQueue β] [Platform] {state : State} {chunks : List AString}
    {c : PeerConnectionClient β} {heard : List (UInt32 × AString × UInt32)} (hc : c.Rests state) :
    Ends (fun s => s.1.Rests state) (hearAll chunks (c, heard)) := by
  have hrule := @rests_rule β _ state
  refine hearAll_ends (hrule.hearing fun c uid name online hc => ?_) hc
  unfold PeerConnectionClient.userInfo
  split
  next => exact hc
  next => exact hc

end PeerConnectionClient

namespace ClientSession

section Phases

variable {β : Type}

/-- How `state_`, `m_bConnect`, `resolver_` and `control_socket_` go together between two calls. -/
inductive Phase (s : ClientSession β) : Prop
  | idle (state : s.client.state = .notConnected) (isConnected : s.client.isConnected = false)
      (resolver : s.resolver = false) (resolving : s.resolving = false)
      (socket : s.controlSocket = none ∨ s.controlSocket = some .csClosed)
  | resolving (state : s.client.state = .resolving ∨
        s.client.state = .signingOutWaiting ∧ s.controlSocket = some .csClosed)
      (isConnected : s.client.isConnected = false) (resolver : s.resolver = true)
      (resolving : s.resolving = true)
      (socket : s.controlSocket = none ∨ s.controlSocket = some .csClosed)
  | opening (state : s.client.state = .signingIn ∨ s.client.state = .signingOutWaiting)
      (isConnected : s.client.isConnected = false) (resolving : s.resolving = false)
      (socket : s.controlSocket = some .csConnecting ∨ s.controlSocket = some .csConnected)
  | working (state : s.client.state = .signingIn ∨ s.client.state = .signingOutWaiting)
      (isConnected : s.client.isConnected = true) (resolving : s.resolving = false)
      (socket : s.controlSocket = some .csConnected)

/-- The user signs out while the first name is being resolved: there has been no socket yet. -/
def signsOutUnresolved (s : ClientSession β) (e : SessionEvent) : Prop :=
  e = .signOut ∧ s.client.state = .resolving ∧ s.controlSocket = none

instance (s : ClientSession β) (e : SessionEvent) : Decidable (s.signsOutUnresolved e) :=
  inferInstanceAs (Decidable (e = .signOut ∧ s.client.state = .resolving ∧ s.controlSocket = none))

/-- What a step comes to: another phase, the end of the process by a failed `VERIFY`, or a null pointer. -/
inductive Outcome (missing : Prop) : Except Fault (ClientSession β) → Prop
  | ok {s : ClientSession β} (phase : s.Phase) : Outcome missing (.ok s)
  | halt (h : Halt) : Outcome missing (.error (.halt h))
  | missing {fault : Fault} (h : missing) : Outcome missing (.error fault)

end Phases

section Facts

variable {β : Type} {s : ClientSession β}

theorem Phase.notify (h : s.Phase) (callback : Callback) :
    Phase { s with client := s.client.notify callback } := by
  cases h with
  | idle h1 h2 h3 h4 h5 => exact .idle h1 h2 h3 h4 h5
  | resolving h1 h2 h3 h4 h5 => exact .resolving h1 h2 h3 h4 h5
  | opening h1 h2 h3 h4 => exact .opening h1 h2 h3 h4
  | working h1 h2 h3 h4 => exact .working h1 h2 h3 h4

theorem Phase.state (h : s.Phase) :
    s.client.state ≠ .connected ∧ s.client.state ≠ .signingOut := by
  cases h with
  | idle h1 => simp [h1]
  | resolving h1 => rcases h1 with h1 | ⟨h1, _⟩ <;> simp [h1]
  | opening h1 => rcases h1 with h1 | h1 <;> simp [h1]
  | working h1 => rcases h1 with h1 | h1 <;> simp [h1]

theorem Phase.isSendingMessage (h : s.Phase) : s.isSendingMessage = .ok (false, s) := if_neg h.state.1

/-- An open connection, or one that is being opened, is in use. -/
theorem Phase.busy (h : s.Phase) {state : SocketState} (hsocket : s.controlSocket = some state)
    (hopen : state ≠ .csClosed) : s.client.state ≠ .notConnected := by
  intro hidle
  cases h with
  | idle _ _ _ _ h5 => simp [hsocket, hopen] at h5
  | resolving h1 => simp [hidle] at h1
  | opening h1 => simp [hidle] at h1
  | working h1 => simp [hidle] at h1

end Facts

variable {β : Type} [ByteQueue β] {s : ClientSession β} {missing : Prop}

theorem create_phase (isBusy : Nat → Bool) : (create isBusy : ClientSession β).Phase :=
  .idle rfl rfl rfl rfl (Or.inl rfl)

/-- `Close` with a socket. -/
theorem close_eq {state : SocketState} (h : s.controlSocket = some state) :
    s.close = .ok { s with
      client := s.client.close
      controlSocket := some .csClosed
      resolver := false
      resolving := false } := by
  simp only [ClientSession.close, h, Option.isNone_some, Bool.false_eq_true, if_false]

theorem doConnect_outcome (reply : ConnectReply) (hopen : s.client.isConnected = false)
    (hresolving : s.resolving = false) : Outcome missing (s.doConnect reply) := by
  cases reply with
  | socketError => exact .ok (.idle rfl rfl rfl rfl (Or.inr rfl))
  | inProgress => exact .ok (.opening (Or.inl rfl) hopen hresolving (Or.inl rfl))
  | connected => exact .ok (.opening (Or.inl rfl) hopen hresolving (Or.inr rfl))

theorem Phase.connect (h : s.Phase) (server user pass : AString) (unresolved : Bool)
    (reply : ConnectReply) : Outcome missing (s.connect server user pass unresolved reply) := by
  unfold ClientSession.connect
  split
  next => exact .ok (h.notify _)
  next hstate =>
    split
    next => exact .ok (h.notify _)
    next =>
      have hstate : s.client.state = .notConnected := by simpa using hstate
      cases h with
      | idle _ hopen _ hresolving hsocket =>
        dsimp only
        split
        next => exact .ok (.resolving (Or.inl rfl) hopen rfl rfl hsocket)
        next => exact doConnect_outcome reply hopen hresolving
      | resolving h1 => simp [hstate] at h1
      | opening h1 => simp [hstate] at h1
      | working h1 => simp [hstate] at h1

/-- Packets are sent over a socket that is there. -/
theorem Phase.sending (h : s.Phase) (p : Packet) : Outcome missing (s.sending (·.packet p)) := by
  unfold ClientSession.sending
  split
  next hnone =>
    simp only [Bool.and_eq_true] at hnone
    obtain ⟨hopen, hnone⟩ := hnone
    cases h with
    | idle _ h2 => simp [h2] at hopen
    | resolving _ h2 => simp [h2] at hopen
    | opening _ h2 => simp [h2] at hopen
    | working _ _ _ h4 => simp [h4] at hnone
  next =>
    split
    next e _ => exact .halt e
    next c hc =>
      obtain ⟨out, sent, rfl⟩ := PeerConnectionClient.packet_changes hc
      cases h with
      | idle h1 h2 h3 h4 h5 => exact .ok (.idle h1 h2 h3 h4 h5)
      | resolving h1 h2 h3 h4 h5 => exact .ok (.resolving h1 h2 h3 h4 h5)
      | opening h1 h2 h3 h4 => exact .ok (.opening h1 h2 h3 h4)
      | working h1 h2 h3 h4 => exact .ok (.working h1 h2 h3 h4)

/-- `SignOut` over an open connection closes it. -/
theorem signOut_closes (h : s.Phase) (hsocket : s.controlSocket = some .csConnected) :
    ∃ c, s.signOut = .ok ⟨c, some .csClosed, false, false, s.heard⟩ ∧ c.state = .notConnected ∧
      c.isConnected = false := by
  have hstate := not_or.mpr ⟨h.busy hsocket (by simp), h.state.2⟩
  refine ⟨{ { s.client with state := .signingOut }.close.notify .onDisconnected with
    username := [], password := [] }, ?_, rfl, rfl⟩
  unfold ClientSession.signOut
  rw [if_neg hstate]
  simp only [hsocket, ClientSession.close, Option.isNone_some, Bool.false_eq_true, if_false]
  rfl

/-- `SignOut` over a socket that is not connected only marks the client. -/
theorem signOut_waits (h : s.Phase) {state : SocketState} (hsocket : s.controlSocket = some state)
    (hne : state ≠ .csConnected) (hstate : s.client.state ≠ .notConnected) :
    s.signOut = .ok { s with
      client := { s.client with state := .signingOutWaiting, username := [], password := [] } } := by
  unfold ClientSession.signOut
  rw [if_neg (not_or.mpr ⟨hstate, h.state.2⟩), hsocket]
  cases state with
  | csClosed => rfl
  | csConnecting => rfl
  | csConnected => exact absurd rfl hne

/-- There is no socket before the first name is resolved. -/
theorem signOut_faults (hstate : s.client.state = .resolving) (hnone : s.controlSocket = none) :
    s.signOut = .error .nullSocket := by
  unfold ClientSession.signOut
  rw [if_neg (by simp [hstate]), hnone]

theorem Phase.signOut (h : s.Phase) : Outcome (s.signsOutUnresolved .signOut) s.signOut := by
  have hcloses : s.controlSocket = some .csConnected →
      Outcome (s.signsOutUnresolved .signOut) s.signOut := by
    intro hsocket
    obtain ⟨c, hok, hstate, hopen⟩ := signOut_closes h hsocket
    rw [hok]
    exact .ok (.idle hstate hopen rfl rfl (Or.inr rfl))
  cases h with
  | idle h1 h2 h3 h4 h5 =>
    have hsame : s.signOut = .ok s := if_pos (Or.inl h1)
    rw [hsame]
    exact .ok (.idle h1 h2 h3 h4 h5)
  | resolving h1 h2 h3 h4 h5 =>
    have hstate : s.client.state ≠ .notConnected := by
      rcases h1 with h1 | ⟨h1, _⟩ <;> simp [h1]
    rcases h5 with hnone | hclosed
    · have hunresolved : s.client.state = .resolving := by
        rcases h1 with h1 | ⟨_, hclosed⟩
        · exact h1
        · simp [hnone] at hclosed
      rw [signOut_faults hunresolved hnone]
      exact .missing ⟨rfl, hunresolved, hnone⟩
    · rw [signOut_waits (.resolving h1 h2 h3 h4 (Or.inr hclosed)) hclosed (by simp) hstate]
      exact .ok (.resolving (Or.inr ⟨rfl, hclosed⟩) h2 h3 h4 (Or.inr hclosed))
  | opening h1 h2 h3 h4 =>
    have hstate : s.client.state ≠ .notConnected := by rcases h1 with h1 | h1 <;> simp [h1]
    rcases h4 with hconnecting | hconnected
    · rw [signOut_waits (.opening h1 h2 h3 (Or.inl hconnecting)) hconnecting (by simp) hstate]
      exact .ok (.opening (Or.inr rfl) h2 h3 (Or.inl hconnecting))
    · exact hcloses hconnected
  | working h1 h2 h3 h4 => exact hcloses h4

theorem Phase.resolved (h : s.Phase) (hstarted : s.resolving = true) (failed : Bool)
    (reply : ConnectReply) : Outcome missing (s.onResolveResult failed reply) := by
  cases h with
  | idle _ _ _ h4 => simp [hstarted] at h4
  | opening _ _ h3 => simp [hstarted] at h3
  | working _ _ h3 => simp [hstarted] at h3
  | resolving _ hopen hresolver _ hsocket =>
    unfold ClientSession.onResolveResult
    simp only [hresolver, Bool.not_true, Bool.false_eq_true, if_false]
    split
    next => exact .ok (.idle rfl hopen rfl rfl hsocket)
    next => exact doConnect_outcome reply hopen rfl

theorem Phase.opened (h : s.Phase) (he : s.enabled .opened = true) : Outcome missing s.onConnect := by
  unfold ClientSession.enabled at he
  have hnext : (s.client.state = .signingIn ∨ s.client.state = .signingOutWaiting) →
      s.resolving = false → Outcome missing s.onConnect := by
    intro hstate hresolving
    have hworking : Phase { s with
        controlSocket := some .csConnected
        client := { s.client with isConnected := true } } := .working hstate rfl hresolving rfl
    exact hworking.sending _
  cases h with
  | idle _ _ _ _ h5 => rcases h5 with h5 | h5 <;> simp [h5] at he
  | resolving _ _ _ _ h5 => rcases h5 with h5 | h5 <;> simp [h5] at he
  | opening h1 _ h3 => exact hnext h1 h3
  | working h1 _ h3 => exact hnext h1 h3

theorem onClose_outcome : Outcome missing s.onClose := by
  unfold ClientSession.onClose
  rw [close_eq rfl]
  exact .ok (.idle rfl rfl rfl rfl (Or.inr rfl))

variable [Platform]

theorem Phase.readable (h : s.Phase) {chunks : List AString} (he : s.enabled (.readable chunks) = true) :
    Outcome missing (s.onRead chunks) := by
  simp only [ClientSession.enabled, Bool.and_eq_true, beq_iff_eq] at he
  obtain ⟨⟨hsocket, hopen⟩, _⟩ := he
  unfold ClientSession.onRead
  rw [if_neg (by simp [hsocket])]
  cases h with
  | idle _ h2 => simp [h2] at hopen
  | resolving _ h2 => simp [h2] at hopen
  | opening _ h2 => simp [h2] at hopen
  | working h1 _ h3 _ =>
    have hrests := @PeerConnectionClient.hearAll_rests _ _ _ _ chunks _ s.heard (Or.inl ⟨hopen, rfl⟩)
    rcases hread : PeerConnectionClient.hearAll chunks (s.client, s.heard) with e | ⟨c, heard⟩
    · exact .halt e
    · have hc : c.Rests s.client.state := hrests (c, heard) hread
      refine .ok ?_
      unfold ClientSession.settled
      rcases hc with ⟨hopen', hstate⟩ | ⟨hclosed, hstate⟩
      · rw [if_pos hopen']
        exact .working (by rw [hstate]; exact h1) hopen' h3 hsocket
      · rw [if_neg (by simp [hclosed])]
        exact .idle hstate hclosed rfl rfl (Or.inr rfl)

/-- One step: only `SignOut` may find that there is no socket, and only in that state. -/
theorem Phase.step (h : s.Phase) {e : SessionEvent} (he : s.enabled e = true) :
    Outcome (s.signsOutUnresolved e) (s.step e) := by
  cases e with
  | connect server user pass unresolved reply => exact h.connect server user pass unresolved reply
  | requestToPeer peer_id => exact h.sending _
  | sendToPeer peer_id message => exact h.sending _
  | isSendingMessage =>
    rw [ClientSession.step, h.isSendingMessage]
    exact .ok h
  | signOut => exact h.signOut
  | resolved failed reply => exact h.resolved he failed reply
  | opened => exact h.opened he
  | readable chunks => exact h.readable he
  | closed => exact onClose_outcome

theorem reachable_phase {s₀ : ClientSession β} (hs₀ : s₀.Phase) (hr : (sessionMachine β).Reachable s₀ s) :
    s.Phase := by
  refine hr.invariant hs₀ fun s e s' _ hs he _ hstep => ?_
  have hout := hs.step he
  have hstep : s.step e = .ok s' := hstep
  rw [hstep] at hout
  cases hout with
  | ok phase => exact phase

/-- A step that follows a null pointer. -/
def followsNull (s : ClientSession β) (e : SessionEvent) : Prop :=
  s.step e = .error .nullSocket ∨ s.step e = .error .nullResolver

theorem Phase.followsNull_iff (h : s.Phase) {e : SessionEvent} (he : s.enabled e = true) :
    s.followsNull e ↔ s.signsOutUnresolved e := by
  constructor
  · intro hnull
    have hout := h.step he
    rcases hnull with hnull | hnull
    · rw [hnull] at hout
      cases hout with
      | missing h => exact h
    · rw [hnull] at hout
      cases hout with
      | missing h => exact h
  · rintro ⟨rfl, hstate, hnone⟩
    exact Or.inl (signOut_faults hstate hnone)

/-- A run of the client follows no null pointer if and only if the user never signs out while the name of
the first server is being resolved. -/
theorem never_follows_null_iff (isBusy : Nat → Bool) {events : List SessionEvent}
    (h : (sessionMachine ByteBuffer).Along (sessionMachine ByteBuffer).enabled events (create isBusy)) :
    (sessionMachine ByteBuffer).Along (fun s e => ¬s.followsNull e) events (create isBusy) ↔
      (sessionMachine ByteBuffer).Along (fun s e => ¬s.signsOutUnresolved e) events (create isBusy) := by
  refine Machine.along_congr (fun s e hr he => ?_) .start h
  exact not_congr ((reachable_phase (create_phase isBusy) hr).followsNull_iff he)

omit [Platform] in
/-- A name is resolved, the connection opened, and the user signs out. -/
theorem never_follows_null_signOut :
    letI := zeroPlatform
    (sessionMachine ByteBuffer).Along (fun s e => ¬s.followsNull e)
      [.connect [0x61] [0x62] [0x63] true .inProgress, .resolved false .inProgress, .opened, .signOut]
      (create fun _ => false) := by
  let : Platform := zeroPlatform
  have hrun : ((sessionMachine ByteBuffer).replay
      (fun s e => s.enabled e && !decide (s.signsOutUnresolved e))
      [.connect [0x61] [0x62] [0x63] true .inProgress, .resolved false .inProgress, .opened, .signOut]
      (create fun _ => false)).isSome = true := by
    decide +kernel
  obtain ⟨s, hs⟩ := Option.isSome_iff_exists.mp hrun
  refine (never_follows_null_iff _ ?_).mpr ?_
  · exact Machine.replay_along (fun s e he => (Bool.and_eq_true_iff.mp he).1) hs
  · refine Machine.replay_along (fun s e he => ?_) hs
    simpa using (Bool.and_eq_true_iff.mp he).2

omit [Platform] in
/-- The user signs out right after the name of the server was given. -/
theorem follows_null_unresolved :
    letI := zeroPlatform
    ∃ events, (sessionMachine ByteBuffer).Along (sessionMachine ByteBuffer).enabled events
        (create fun _ => false) ∧
      ¬(sessionMachine ByteBuffer).Along (fun s e => ¬s.followsNull e) events (create fun _ => false) := by
  let : Platform := zeroPlatform
  refine ⟨[.connect [0x61] [0x62] [0x63] true .inProgress, .signOut], ?_, ?_⟩
  · exact ⟨rfl, fun s _ => ⟨rfl, fun _ _ => trivial⟩⟩
  · rintro ⟨_, hnext⟩
    have hsecond := hnext _ rfl
    exact hsecond.1 (Or.inl rfl)

end ClientSession

end P2PChat

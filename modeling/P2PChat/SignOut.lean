import P2PChat.NullSockets

namespace P2PChat

open ByteQueue

namespace PeerConnectionClient

section Out

variable {β : Type} [ByteQueue β] {f : β → Fifo} (hf : Hom f)

include hf

/-- A packet that fits is sent as one frame, and leaves the buffer empty. -/
theorem packet_sends {p : Packet} {c : PeerConnectionClient β} (hp : p.body.length ≤ 65536)
    (hout : f c.outPacketBuffer = Fifo.empty 65536) :
    ∃ c', c.packet p = .ok c' ∧ c'.map f = (c.map f).send p := by
  have hmap := packet_map hf p c
  rw [@packet_send (c.map f) p hout hp] at hmap
  rcases hc : c.packet p with e | c'
  · rw [hc] at hmap
    cases hmap
  · rw [hc] at hmap
    exact ⟨c', rfl, (Except.ok.inj hmap).symm⟩

theorem packet_out {p : Packet} {c : PeerConnectionClient β}
    (hout : f c.outPacketBuffer = Fifo.empty 65536) :
    Ends (fun c' => f c'.outPacketBuffer = Fifo.empty 65536) (c.packet p) := by
  intro c' hok
  by_cases hp : p.body.length ≤ 65536
  · obtain ⟨c'', hok', hmap⟩ := packet_sends hf hp hout
    rw [hok] at hok'
    cases hok'
    have hsame : ((c.map f).send p).outPacketBuffer = (c.map f).outPacketBuffer := by
      unfold PeerConnectionClient.send sendData
      split
      next => rfl
      next => rfl
    have hnow : (c'.map f).outPacketBuffer = (c.map f).outPacketBuffer := by rw [hmap, hsame]
    exact hnow.trans hout
  · have hmap := packet_map hf p c
    rw [hok, @packet_verify (c.map f) p hout (by omega)] at hmap
    cases hmap

theorem close_out {c : PeerConnectionClient β} (hout : f c.outPacketBuffer = Fifo.empty 65536) :
    f c.close.outPacketBuffer = Fifo.empty 65536 := by
  have hclear : f (clearAll c.outPacketBuffer) = clearAll (f c.outPacketBuffer) := hf.clearAll _
  change f (clearAll c.outPacketBuffer) = _
  rw [hclear, hout]
  rfl

theorem out_rule : HandlerRule fun c : PeerConnectionClient β => f c.outPacketBuffer = Fifo.empty 65536 where
  same c c' _ _ hsame _ hc := by
    rw [hsame]
    exact hc
  packet p c hc := packet_out hf hc
  signOut c hc := by
    unfold PeerConnectionClient.signOut
    split
    next => exact hc
    next =>
      split
      next => exact close_out hf (c := { c with state := .signingOut }) hc
      next => exact hc

end Out

end PeerConnectionClient

/-- What the resolver and the socket signal. -/
def SessionEvent.isSignal : SessionEvent → Bool
  | .resolved _ _ => true
  | .opened => true
  | .readable _ => true
  | .closed => true
  | _ => false

/-- The packets by which a client logs in. -/
def Packet.isLogin (p : Packet) : Prop :=
  (∃ appName server port state, p = statusRequestPacket appName server port state) ∨
    ∃ username password, p = loginInfoPacket username password

namespace ClientSession

section Definitions

variable {β : Type}

/-- The resolver or the socket has still to signal what was started. -/
def pending (s : ClientSession β) : Bool :=
  s.resolving || s.controlSocket == some .csConnecting ||
    (s.controlSocket == some .csConnected && !s.client.isConnected)

/-- Since the first of these states nothing of a login was sent, nobody was told of one, and when all is
signalled the client has no connection. -/
structure StaysOut (s s' : ClientSession β) : Prop where
  sent : ∃ new, s'.client.sent = s.client.sent ++ new ∧ ∀ p : Packet, p.isLogin → ¬frame p.body <:+: new
  callbacks : ∃ new, s'.client.callbacks = s.client.callbacks ++ new ∧ .onSignedIn ∉ new
  settled : s'.pending = false → s'.client.state = .notConnected ∧ s'.client.isConnected = false

/-- Whatever is signalled, the client stays out. -/
def SignedOut [ByteQueue β] [Platform] (s : ClientSession β) : Prop :=
  ∀ events s', (∀ e ∈ events, SessionEvent.isSignal e = true) →
    (sessionMachine β).Along (sessionMachine β).enabled events s →
      (sessionMachine β).run events s = .ok s' → s.StaysOut s'

/-- `SignOut` finds nothing to end, or an open connection that it can close. -/
def endsAtOnce (s : ClientSession β) : Prop :=
  s.client.state = .notConnected ∨ s.client.state = .signingOut ∨ s.controlSocket = some .csConnected

end Definitions

section Quiet

variable {β : Type} {s : ClientSession β}

theorem staysOut_same (hstate : s.client.state = .notConnected) (hopen : s.client.isConnected = false) :
    s.StaysOut s where
  sent := by
    refine ⟨[], (List.append_nil _).symm, fun p _ hin => ?_⟩
    have hpos := frame_length_pos p.body
    have hnil := List.infix_nil.mp hin
    rw [hnil] at hpos
    simp at hpos
  callbacks := ⟨[], (List.append_nil _).symm, by simp⟩
  settled _ := ⟨hstate, hopen⟩

/-- Nothing is signalled to a client that has no connection and is not making one. -/
theorem quiet {e : SessionEvent} (hsocket : s.controlSocket = none ∨ s.controlSocket = some .csClosed)
    (hresolving : s.resolving = false) (he : e.isSignal = true) : s.enabled e = false := by
  cases e with
  | resolved failed reply => exact hresolving
  | opened => rcases hsocket with h | h <;> simp [enabled, h]
  | readable chunks => rcases hsocket with h | h <;> simp [enabled, h]
  | closed => rcases hsocket with h | h <;> simp [enabled, h]
  | connect server user pass unresolved reply => cases he
  | requestToPeer peer_id => cases he
  | sendToPeer peer_id message => cases he
  | isSendingMessage => cases he
  | signOut => cases he

variable [ByteQueue β] [Platform]

theorem signedOut_quiet (hstate : s.client.state = .notConnected) (hopen : s.client.isConnected = false)
    (hsocket : s.controlSocket = none ∨ s.controlSocket = some .csClosed)
    (hresolving : s.resolving = false) : s.SignedOut := by
  intro events s' hsignals halong hrun
  cases events with
  | nil =>
    cases hrun
    exact staysOut_same hstate hopen
  | cons e events =>
    have hno := quiet hsocket hresolving (hsignals e List.mem_cons_self)
    have hyes : s.enabled e = true := halong.1
    rw [hno] at hyes
    cases hyes

end Quiet

section Login

variable {β : Type} [ByteQueue β] {f : β → Fifo} (hf : Hom f) {s : ClientSession β}

include hf

omit hf [ByteQueue β] in
theorem statusRequest_fits : (statusRequestPacket appP2pchat PeerConnectionClient.SERVER
    PeerConnectionClient.PORT 2).body.length ≤ 65536 :=
  PeerConnectionClient.small_packet_length (by
    simp [Field.bound, appP2pchat, PeerConnectionClient.SERVER])

/-- A connection that is opened is used to log in. -/
theorem onConnect_sends (hout : f s.client.outPacketBuffer = Fifo.empty 65536) :
    ∃ s', s.onConnect = .ok s' ∧ s'.client.sent = s.client.sent ++
      frame (statusRequestPacket appP2pchat PeerConnectionClient.SERVER PeerConnectionClient.PORT 2).body := by
  obtain ⟨c, hok, hmap⟩ := PeerConnectionClient.packet_sends hf
    (p := statusRequestPacket appP2pchat PeerConnectionClient.SERVER PeerConnectionClient.PORT 2)
    (c := { s.client with isConnected := true }) statusRequest_fits hout
  refine ⟨{ s with controlSocket := some .csConnected, client := c }, ?_, ?_⟩
  · unfold onConnect sending
    simp only [Option.isNone_some, Bool.and_false, Bool.false_eq_true, if_false, hok]
  · have hsent : c.sent = ((PeerConnectionClient.map f { s.client with isConnected := true }).send
        (statusRequestPacket appP2pchat PeerConnectionClient.SERVER PeerConnectionClient.PORT 2)).sent := by
      rw [← hmap]
      rfl
    exact hsent

variable [Platform]

omit hf in
/-- What stays out stays out after a signal by which nothing is sent and nobody told. -/
theorem SignedOut.next {s₁ : ClientSession β} {e : SessionEvent} (h : s.SignedOut) (he : e.isSignal = true)
    (hen : s.enabled e = true) (hstep : s.step e = .ok s₁) (hsent : s₁.client.sent = s.client.sent)
    (hcalls : s₁.client.callbacks = s.client.callbacks) : s₁.SignedOut := by
  intro events s' hsignals halong hrun
  have hall : ∀ e' ∈ e :: events, SessionEvent.isSignal e' = true := by
    intro e' hmem
    rcases List.mem_cons.mp hmem with rfl | hmem
    · exact he
    · exact hsignals e' hmem
  have hfirst : (sessionMachine β).step s e = .ok s₁ := hstep
  have hstays := h (e :: events) s' hall ⟨hen, fun s₂ hs₂ => by
    rw [hfirst] at hs₂
    cases hs₂
    exact halong⟩ (by simpa [Machine.run, hfirst] using hrun)
  exact ⟨by rw [hsent]; exact hstays.sent, by rw [hcalls]; exact hstays.callbacks, hstays.settled⟩

theorem opening_not_signedOut (hsocket : s.controlSocket = some .csConnecting)
    (hout : f s.client.outPacketBuffer = Fifo.empty 65536) : ¬s.SignedOut := by
  intro hfinal
  obtain ⟨s', hok, hnew⟩ := onConnect_sends hf hout
  have hfirst : (sessionMachine β).step s .opened = .ok s' := hok
  have hstays := hfinal [.opened] s' (by simp [SessionEvent.isSignal])
    ⟨by simp [sessionMachine, enabled, hsocket], fun _ _ => trivial⟩ (by simp [Machine.run, hfirst])
  obtain ⟨new, hsent, hno⟩ := hstays.sent
  rw [hnew, List.append_cancel_left_eq] at hsent
  refine hno (statusRequestPacket appP2pchat PeerConnectionClient.SERVER PeerConnectionClient.PORT 2)
    (Or.inl ⟨_, _, _, _, rfl⟩) ?_
  simp [← hsent]

theorem resolving_not_signedOut (hresolver : s.resolver = true) (hresolving : s.resolving = true)
    (hout : f s.client.outPacketBuffer = Fifo.empty 65536) : ¬s.SignedOut := by
  intro hfinal
  obtain ⟨s₁, hs₁⟩ : ∃ s₁ : ClientSession β, s₁ = { s with
      resolving := false
      controlSocket := some .csConnecting
      client := { s.client with state := .signingIn } } := ⟨_, rfl⟩
  have hstep : s.step (.resolved false .inProgress) = .ok s₁ := by
    simp [step, onResolveResult, hresolver, doConnect, hs₁]
  have hen : s.enabled (.resolved false .inProgress) = true := hresolving
  have hnext := hfinal.next rfl hen hstep (by rw [hs₁]) (by rw [hs₁])
  refine opening_not_signedOut hf (s := s₁) (by rw [hs₁]) ?_ hnext
  rw [hs₁]
  exact hout

/-- From any phase, signing out is final if and only if it ends the connection at once. -/
theorem Phase.signsOut_iff (h : s.Phase) (hout : f s.client.outPacketBuffer = Fifo.empty 65536)
    {s' : ClientSession β} (hs' : s.signOut = .ok s') : s'.SignedOut ↔ s.endsAtOnce := by
  by_cases hconnected : s.controlSocket = some .csConnected
  · refine iff_of_true ?_ (Or.inr (Or.inr hconnected))
    obtain ⟨c, hok, hstate, hopen⟩ := signOut_closes h hconnected
    rw [hok] at hs'
    cases hs'
    exact signedOut_quiet hstate hopen (Or.inr rfl) rfl
  · have hopening : ∀ {state : SocketState}, s.controlSocket = some state →
        s.client.state ≠ .notConnected → s'.controlSocket = some state ∧ s'.resolver = s.resolver ∧
          s'.resolving = s.resolving ∧ f s'.client.outPacketBuffer = Fifo.empty 65536 ∧ ¬s.endsAtOnce := by
      intro state hsocket hstate
      have hne : state ≠ .csConnected := fun he => hconnected (by rw [hsocket, he])
      rw [signOut_waits h hsocket hne hstate] at hs'
      cases hs'
      refine ⟨hsocket, rfl, rfl, hout, ?_⟩
      rintro (hends | hends | hends)
      · exact hstate hends
      · exact h.state.2 hends
      · exact hconnected hends
    cases h with
    | idle h1 h2 h3 h4 h5 =>
      have hsame : s.signOut = .ok s := if_pos (Or.inl h1)
      rw [hsame] at hs'
      cases hs'
      exact iff_of_true (signedOut_quiet h1 h2 h5 h4) (Or.inl h1)
    | resolving h1 h2 h3 h4 h5 =>
      rcases h5 with hnone | hclosed
      · have hunresolved : s.client.state = .resolving := by
          rcases h1 with h1 | ⟨_, hclosed⟩
          · exact h1
          · simp [hnone] at hclosed
        rw [signOut_faults hunresolved hnone] at hs'
        cases hs'
      · have hstate : s.client.state ≠ .notConnected := by
          rcases h1 with h1 | ⟨h1, _⟩ <;> simp [h1]
        obtain ⟨_, hresolver, hresolving, hout', hno⟩ := hopening hclosed hstate
        exact iff_of_false (resolving_not_signedOut hf (hresolver.trans h3) (hresolving.trans h4) hout') hno
    | opening h1 h2 h3 h4 =>
      have hconnecting := h4.resolve_right hconnected
      have hstate : s.client.state ≠ .notConnected := by rcases h1 with h1 | h1 <;> simp [h1]
      obtain ⟨hsocket, _, _, hout', hno⟩ := hopening hconnecting hstate
      exact iff_of_false (opening_not_signedOut hf hsocket hout') hno
    | working h1 h2 h3 h4 => exact absurd h4 hconnected

end Login

section Runs

variable {β : Type} [ByteQueue β] {f : β → Fifo} (hf : Hom f)

include hf

theorem out_sessionRule :
    SessionRule fun x : PeerConnectionClient β × List (UInt32 × AString × UInt32) =>
      f x.1.outPacketBuffer = Fifo.empty 65536 where
  same c c' heard hsame _ hc := by
    change f c'.outPacketBuffer = _
    rw [hsame]
    exact hc
  packet p c heard hc := PeerConnectionClient.packet_out hf hc
  close c heard hc := PeerConnectionClient.close_out hf hc

variable [Platform]

theorem reachable_out {isBusy : Nat → Bool} {s : ClientSession β}
    (hr : (sessionMachine β).Reachable (create isBusy) s) :
    f s.client.outPacketBuffer = Fifo.empty 65536 := by
  refine hr.invariant (I := fun s => f s.client.outPacketBuffer = Fifo.empty 65536) (hf.new 65536)
    fun s e s' _ hs _ _ hstep => ?_
  have hread : ∀ chunks, e = .readable chunks → Ends (fun x => f x.1.outPacketBuffer = Fifo.empty 65536)
      (PeerConnectionClient.hearAll chunks (s.client, s.heard)) := by
    intro chunks _
    refine PeerConnectionClient.hearAll_ends
      ((PeerConnectionClient.out_rule hf).hearing fun c uid name state hc => ?_) hs
    unfold PeerConnectionClient.userInfo
    split
    next => exact hc
    next => exact hc
  exact (out_sessionRule hf).step hs (fun _ _ _ _ _ _ _ => hs) hread s' hstep

end Runs

section Claim

variable [Platform]

/-- A call of `SignOut` that returns is final if and only if it found nothing to end, or an open connection
that it could close. -/
theorem signedOut_iff (isBusy : Nat → Bool) {s s' : ClientSession ByteBuffer}
    (hr : (sessionMachine ByteBuffer).Reachable (create isBusy) s) (hs' : s.signOut = .ok s') :
    s'.SignedOut ↔ s.endsAtOnce := by
  have hphase := reachable_phase (create_phase isBusy) hr
  have hout := reachable_out ByteBuffer.contents_hom hr
  exact hphase.signsOut_iff ByteBuffer.contents_hom hout hs'

omit [Platform] in
/-- The user signs out of an open connection. -/
theorem signedOut_connected :
    letI := zeroPlatform
    ∃ s s' : ClientSession ByteBuffer, (sessionMachine ByteBuffer).Reachable (create fun _ => false) s ∧
      s.signOut = .ok s' ∧ s.client.isConnected = true ∧ s'.SignedOut := by
  let : Platform := zeroPlatform
  have hrun : ((sessionMachine ByteBuffer).replay (fun s e => s.enabled e)
      [.connect [0x61] [0x62] [0x63] false .inProgress, .opened] (create fun _ => false)).map
        (fun s => (s.client.isConnected, s.controlSocket, s.signOut.toOption.isSome)) =
      some (true, some .csConnected, true) := by
    decide +kernel
  obtain ⟨s, hs, hopen⟩ := Option.map_eq_some_iff.mp hrun
  simp only [Prod.mk.injEq] at hopen
  obtain ⟨hopen, hsocket, hsome⟩ := hopen
  have hreach : (sessionMachine ByteBuffer).Reachable (create fun _ => false) s :=
    Machine.replay_reach (fun _ _ he => ⟨he, trivial⟩) .start hs
  rcases hok : s.signOut with e | s'
  · simp [hok, Except.toOption] at hsome
  · exact ⟨s, s', hreach, hok, hopen, (signedOut_iff _ hreach hok).mpr (Or.inr (Or.inr hsocket))⟩

omit [Platform] in
/-- The user signs out while the connection is being opened; then it is opened. -/
theorem not_signedOut_connecting :
    letI := zeroPlatform
    ∃ s s' : ClientSession ByteBuffer, (sessionMachine ByteBuffer).Reachable (create fun _ => false) s ∧
      s.signOut = .ok s' ∧ ¬s'.SignedOut := by
  let : Platform := zeroPlatform
  have hrun : ((sessionMachine ByteBuffer).replay (fun s e => s.enabled e)
      [.connect [0x61] [0x62] [0x63] false .inProgress] (create fun _ => false)).map
        (fun s => s.controlSocket) = some (some .csConnecting) := by
    decide +kernel
  obtain ⟨s, hs, hsocket⟩ := Option.map_eq_some_iff.mp hrun
  have hreach : (sessionMachine ByteBuffer).Reachable (create fun _ => false) s :=
    Machine.replay_reach (fun _ _ he => ⟨he, trivial⟩) .start hs
  have hphase := reachable_phase (create_phase fun _ => false) hreach
  have hout := reachable_out ByteBuffer.contents_hom hreach
  have hok := signOut_waits hphase hsocket (by simp) (hphase.busy hsocket (by simp))
  exact ⟨s, _, hreach, hok, opening_not_signedOut ByteBuffer.contents_hom hsocket hout⟩

end Claim

end ClientSession

end P2PChat

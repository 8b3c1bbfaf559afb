import P2PChat.CallController

namespace P2PChat

open ByteQueue

/-- What the results come to for a conductor. -/
def WebRtcResults.initialization (r : WebRtcResults) : Initialization :=
  if !r.factory then .noFactory else if r.connection then .created else .noConnection

namespace CallController

section Definitions

variable {β : Type}

/-- There is a factory, and the stream has been added, when there is a connection. -/
structure Settled (y : CallController β) : Prop where
  factory : y.peer_connection_factory = y.conductor.peer_connection.isSome
  streams : y.active_streams = y.conductor.peer_connection.isSome

/-- The event of the conductor, if it is one. -/
def forget : ControllerEvent β → Option (ConductorEvent β)
  | .startLogin username password => some (.startLogin username password)
  | .connectToPeer peer_id => some (.connectToPeer peer_id)
  | .disconnectFromCurrentPeer => some .disconnectFromCurrentPeer
  | .disconnectFromServer => some .disconnectFromServer
  | .close => some .close
  | .opened => some .opened
  | .closed => some .closed
  | .packet bb packetType r => some (.packet bb packetType r.initialization)
  | .addStream => some .addStream
  | .removeStream => some .removeStream
  | .uiThreadCallback => some .uiThreadCallback
  | .onSuccess => none
  | .onFailure => none
  | .iceGatheringComplete message => some (.iceGatheringComplete message)

def plain [ByteQueue β] [Platform] (y : CallController β) (e : ControllerEvent β) : Except Halt (Conductor β) :=
  (forget e).elim (.ok y.conductor) y.conductor.step

/-- With care, a step does what the conductor does; without, it follows a null pointer. -/
inductive Outcome (careful : Bool) (plain : Except Halt (Conductor β)) :
    Except ControllerFault (CallController β) → Prop
  | ok {y : CallController β} (hcareful : careful = true) (settled : y.Settled) (hplain : plain = .ok y.conductor) :
    Outcome careful plain (.ok y)
  | halt {h : Halt} (hcareful : careful = true) (hplain : plain = .error h) : Outcome careful plain (.error (.halt h))
  | nullConnection (careless : careful = false) : Outcome careful plain (.error .nullConnection)
  | nullFactory (careless : careful = false) : Outcome careful plain (.error .nullFactory)

end Definitions

section Facts

variable {β : Type} {y : CallController β} {r : WebRtcResults}

theorem Settled.same (h : y.Settled) {y' : CallController β} (hfactory : y'.peer_connection_factory = y.peer_connection_factory)
    (hstreams : y'.active_streams = y.active_streams)
    (hconnection : y'.conductor.peer_connection = y.conductor.peer_connection) : y'.Settled := by
  refine ⟨?_, ?_⟩
  · rw [hfactory, hconnection]
    exact h.factory
  · rw [hstreams, hconnection]
    exact h.streams

theorem deletePeerConnection_settled (y : CallController β) : y.deletePeerConnection.Settled := ⟨rfl, rfl⟩

/-- The controller with a new connection. -/
def made (y : CallController β) : CallController β :=
  { y with
    conductor := { y.conductor with
      peer_connection := some y.conductor.created
      created := y.conductor.created + 1 }
    peer_connection_factory := true
    active_streams := true }

theorem initialize_noFactory (h : r.factory = false) :
    y.initializePeerConnection r = .ok (false, y.deletePeerConnection) := by
  simp [initializePeerConnection, h, deletePeerConnection]

theorem initialize_noConnection (h : r.factory = true) (hno : r.connection = false) :
    y.initializePeerConnection r = .error .nullFactory := by
  simp only [initializePeerConnection, createPeerConnection, followFactory, h, hno]
  rfl

theorem initialize_made (hs : y.active_streams = false) (h : r.factory = true) (hconnection : r.connection = true) :
    y.initializePeerConnection r = .ok (true, y.made) := by
  simp only [initializePeerConnection, createPeerConnection, followFactory, h, hconnection]
  simp only [addStreams, hs]
  rfl

theorem onPeerResponse_outcome (hs : y.Settled) (peer_id code : UInt32) :
    Outcome (y.conductor.peer_connection.isSome || !r.factory || r.connection || code != 1)
      (y.conductor.onPeerResponse r.initialization peer_id code) (y.onPeerResponse r peer_id code) := by
  unfold onPeerResponse Conductor.onPeerResponse
  by_cases hcode : code = 1
  · rw [if_pos hcode, if_pos hcode]
    by_cases hcall : y.conductor.peer_connection.isSome = true
    · rw [if_pos hcall, if_pos hcall]
      exact .ok (by simp [hcall]) hs rfl
    · rw [if_neg hcall, if_neg hcall]
      have hnone : y.conductor.peer_connection.isSome = false := by simpa using hcall
      rcases hfactory : r.factory with _ | _
      · rw [initialize_noFactory hfactory]
        exact .ok (by simp) y.deletePeerConnection_settled (by simp [WebRtcResults.initialization, hfactory]; rfl)
      · rcases hconnection : r.connection with _ | _
        · rw [initialize_noConnection hfactory hconnection]
          exact .nullFactory (by simp [hnone, hcode])
        · rw [initialize_made (hs.streams.trans hnone) hfactory hconnection]
          exact .ok (by simp) ⟨rfl, rfl⟩ (by simp [WebRtcResults.initialization, hfactory, hconnection]; rfl)
  · rw [if_neg hcode, if_neg hcode]
    have hcareful : (y.conductor.peer_connection.isSome || !r.factory || r.connection || code != 1) = true := by
      simp [hcode]
    split
    next => exact .ok hcareful (hs.same rfl rfl rfl) rfl
    next => exact .ok hcareful hs rfl

/-- In a call a message finds its connection. -/
theorem receive_ok (hs : y.Settled) (hcall : y.conductor.peer_connection.isSome = true) (parsed : ParsedMessage) :
    ∃ y' : CallController β, y.receive parsed = .ok y' ∧ y'.Settled ∧ y'.conductor = y.conductor := by
  have hfollow : y.followConnection = .ok () := if_pos hcall
  cases parsed with
  | unknown => exact ⟨y, rfl, hs, rfl⟩
  | offer =>
    refine ⟨{ y with descriptions := y.descriptions + 1 }, ?_, hs.same rfl rfl rfl, rfl⟩
    simp only [receive, hfollow]
    rfl
  | answer =>
    refine ⟨y, ?_, hs, rfl⟩
    simp only [receive, hfollow]
    rfl
  | candidate =>
    refine ⟨y, ?_, hs, rfl⟩
    simp only [receive, hfollow]
    rfl

variable [ByteQueue β]

theorem signOut_settled (hs : y.Settled) : y.signOut.Settled := by
  unfold signOut
  split
  next => exact deletePeerConnection_settled _
  next => exact hs.same rfl rfl rfl

omit [ByteQueue β] in
theorem onPeerDisconnected_settled (hs : y.Settled) (peer_id : UInt32) :
    Settled { y with conductor := y.conductor.onPeerDisconnected peer_id } := by
  refine hs.same rfl rfl ?_
  show (y.conductor.onPeerDisconnected peer_id).peer_connection = _
  unfold Conductor.onPeerDisconnected
  split
  next => rfl
  next => rfl

theorem signOut_conductor (y : CallController β) : y.signOut.conductor = y.conductor.signOut := by
  unfold signOut Conductor.signOut
  split
  next => rfl
  next => rfl

omit [ByteQueue β] in
/-- A message in a call comes to what it does there. -/
theorem receive_outcome {careful : Bool} {plain : Except Halt (Conductor β)} (hcareful : careful = true) (hs : y.Settled)
    (hcall : y.conductor.peer_connection.isSome = true) (hplain : plain = .ok y.conductor) (parsed : ParsedMessage) :
    Outcome careful plain (y.receive parsed) := by
  obtain ⟨y', hok, hs', hsame⟩ := receive_ok hs hcall parsed
  rw [hok]
  exact .ok hcareful hs' (by rw [hplain, hsame])

theorem onMessageFromPeer_outcome (hs : y.Settled) (peer_id : UInt32) (message : AString) :
    Outcome (y.conductor.peer_connection.isSome || !r.factory || r.connection)
      (y.conductor.onMessageFromPeer r.initialization peer_id message) (y.onMessageFromPeer r peer_id message) := by
  unfold onMessageFromPeer Conductor.onMessageFromPeer
  by_cases hnone : y.conductor.peer_connection.isNone = true
  · rw [if_pos hnone, if_pos hnone]
    have hno : y.conductor.peer_connection.isSome = false := by simpa using hnone
    obtain ⟨y₁, hy₁⟩ : ∃ y₁ : CallController β, y₁ = { y with conductor := { y.conductor with peer_id := peer_id } } :=
      ⟨_, rfl⟩
    have hs₁ : y₁.Settled := by rw [hy₁]; exact hs.same rfl rfl rfl
    have hno₁ : y₁.active_streams = false := by rw [hy₁]; exact hs.streams.trans hno
    rw [← hy₁]
    dsimp only
    rcases hfactory : r.factory with _ | _
    · rw [initialize_noFactory hfactory]
      refine .ok (by simp) (signOut_settled y₁.deletePeerConnection_settled) ?_
      rw [signOut_conductor, hy₁]
      simp [WebRtcResults.initialization, hfactory]
      rfl
    · rcases hconnection : r.connection with _ | _
      · rw [initialize_noConnection hfactory hconnection]
        exact .nullFactory (by simp [hno])
      · rw [initialize_made hno₁ hfactory hconnection]
        refine receive_outcome (y := y₁.made.give peer_id message) (by simp) ⟨rfl, rfl⟩ rfl ?_ r.parsed
        rw [hy₁]
        simp [WebRtcResults.initialization, hfactory, hconnection]
        rfl
  · rw [if_neg hnone, if_neg hnone]
    have hcall : y.conductor.peer_connection.isSome = true := by
      rcases hcall : y.conductor.peer_connection with _ | call
      · rw [hcall] at hnone
        exact absurd rfl hnone
      · rfl
    have hcareful : (y.conductor.peer_connection.isSome || !r.factory || r.connection) = true := by simp [hcall]
    split
    next => exact .ok hcareful hs rfl
    next =>
      exact receive_outcome (y := y.give peer_id message) hcareful (hs.same rfl rfl rfl) hcall rfl r.parsed

theorem observe_quiet (hs : y.Settled) {callback : Callback}
    (h : Conductor.Idle callback ∨ callback = .onDisconnected) :
    ∃ y' : CallController β, y.observe r callback = .ok y' ∧ y'.Settled ∧
      y.conductor.observe r.initialization callback = .ok y'.conductor := by
  rcases h with hidle | rfl
  · refine ⟨y, ?_, hs, Conductor.observe_idle hidle⟩
    cases callback with
    | onDisconnected => exact hidle.elim
    | onPeerDisconnected id => exact hidle.elim
    | onPeerResponse peer_id code => exact hidle.elim
    | onMessageFromPeer peer_id message => exact hidle.elim
    | onSignedIn => rfl
    | onPeerConnected id name => rfl
    | onServerConnectionFailure => rfl
    | postNotification code => rfl
  · exact ⟨y.deletePeerConnection, rfl, y.deletePeerConnection_settled, rfl⟩

theorem observeAll_quiet {careful : Bool} (hcareful : careful = true) (hs : y.Settled) {callbacks : List Callback}
    (h : Conductor.Told none callbacks) :
    Outcome careful (Conductor.observeAll r.initialization callbacks y.conductor) (observeAll r callbacks y) := by
  induction callbacks generalizing y with
  | nil => exact .ok hcareful hs rfl
  | cons callback callbacks ih =>
    obtain ⟨y', hok, hs', hplain⟩ := observe_quiet (r := r) hs (h callback List.mem_cons_self)
    rw [observeAll, Conductor.observeAll, hok, hplain]
    exact ih hs' fun callback' hmem => h callback' (List.mem_cons_of_mem _ hmem)

theorem observeAll_one {careful : Bool} {callback : Callback}
    (h : Outcome careful (y.conductor.observe r.initialization callback) (y.observe r callback)) :
    Outcome careful (Conductor.observeAll r.initialization [callback] y.conductor) (observeAll r [callback] y) := by
  have hone : observeAll r [callback] y = y.observe r callback := by
    rw [observeAll]
    rcases y.observe r callback with fault | y'
    · rfl
    · rfl
  rw [hone, Conductor.observeAll_singleton]
  exact h

/-- A call of the client of which the observer hears nothing about a peer. -/
theorem act_quiet {careful : Bool} (hcareful : careful = true) (hs : y.Settled)
    {f : PeerConnectionClient β → Except Halt (PeerConnectionClient β)}
    (hf : ∀ c : PeerConnectionClient β, c.callbacks = [] → Ends (fun c' => Conductor.Told none c'.callbacks) (f c)) :
    Outcome careful (y.conductor.act noResults.initialization f) (y.act noResults f) := by
  unfold act Conductor.act
  rcases hr : f { y.conductor.client with callbacks := [], isBusy := fun _ => y.conductor.isBusy } with halt | c
  · exact .halt hcareful rfl
  · exact observeAll_quiet (y := { y with conductor := { y.conductor with client := c } }) hcareful
      (hs.same rfl rfl rfl) (hf _ rfl c hr)

variable [Platform]

/-- A packet that makes a connection is handled to its end. -/
theorem handlePacket_ok {x : Conductor β} {c : PeerConnectionClient β} {bb : β} {packetType : UInt32}
    (hstate : c.protocolState = x.client.protocolState)
    (hnews : (∃ peer_id code, x.news bb packetType = some (.response peer_id code)) ∨
      ∃ peer_id text, x.news bb packetType = some (.message peer_id text)) :
    ∃ handled, PeerConnectionClient.handlePacket bb packetType c = .ok handled := by
  obtain ⟨n, hn, hsome⟩ : ∃ n, ((∃ peer_id code, n = .response peer_id code) ∨ ∃ peer_id text, n = .message peer_id text) ∧
      x.news bb packetType = some n := by
    rcases hnews with ⟨peer_id, code, hnews⟩ | ⟨peer_id, text, hnews⟩
    · exact ⟨_, .inl ⟨peer_id, code, rfl⟩, hnews⟩
    · exact ⟨_, .inr ⟨peer_id, text, rfl⟩, hnews⟩
  obtain ⟨hgame, hcases⟩ := Conductor.news_some hsome
  have hwork : c.protocolState = 3 := hstate.trans hgame
  rcases hcases with ⟨_, info, _, rfl⟩ | ⟨rfl, media, hread, rfl⟩ | ⟨rfl, media, hread, rfl⟩
  · rcases hn with ⟨_, _, hn⟩ | ⟨_, _, hn⟩
    · cases hn
    · cases hn
  · split at hn
    next =>
      rcases hn with ⟨_, _, hn⟩ | ⟨_, _, hn⟩
      · cases hn
      · cases hn
    next hcode =>
      rw [PeerConnectionClient.handlePacket_media hwork hread, PeerConnectionClient.mediaArrived, if_neg hcode]
      exact ⟨_, rfl⟩
  · exact ⟨_, PeerConnectionClient.handlePacket_mediaMsg hwork hread⟩

theorem packet_outcome (hs : y.Settled) (bb : β) (packetType : UInt32) :
    Outcome (y.careful (.packet bb packetType r)) (y.conductor.step (.packet bb packetType r.initialization))
      (y.step (.packet bb packetType r)) := by
  obtain ⟨c, hc⟩ : ∃ c : PeerConnectionClient β,
      c = { y.conductor.client with callbacks := [], isBusy := fun _ => y.conductor.isBusy } := ⟨_, rfl⟩
  have hstate : c.protocolState = y.conductor.client.protocolState := by rw [hc]
  have hsilent : c.callbacks = [] := by rw [hc]
  have htold := Conductor.handlePacket_told bb packetType hstate hsilent
  have hok := @handlePacket_ok β _ _ y.conductor c bb packetType hstate
  rw [step, Conductor.step, act, Conductor.act, ← hc]
  dsimp only
  rcases hr : PeerConnectionClient.handlePacket bb packetType c with halt | handled
  · refine .halt ?_ rfl
    unfold careful
    dsimp only
    rcases hnews : y.conductor.news bb packetType with _ | news
    · simp
    · cases news with
      | request peer_id => simp
      | gone peer_id => simp
      | response peer_id code =>
        obtain ⟨handled, hhandled⟩ := hok (.inl ⟨peer_id, code, hnews⟩)
        rw [hr] at hhandled
        cases hhandled
      | message peer_id text =>
        obtain ⟨handled, hhandled⟩ := hok (.inr ⟨peer_id, text, hnews⟩)
        rw [hr] at hhandled
        cases hhandled
  · have htold := htold handled hr
    obtain ⟨y₁, hy₁⟩ : ∃ y₁ : CallController β,
        y₁ = { y with conductor := { y.conductor with client := handled.2.2 } } := ⟨_, rfl⟩
    have hs₁ : y₁.Settled := by rw [hy₁]; exact hs.same rfl rfl rfl
    have hcall : y₁.conductor.peer_connection = y.conductor.peer_connection := by rw [hy₁]
    suffices hall : Outcome (y.careful (.packet bb packetType r))
        (Conductor.observeAll r.initialization handled.2.2.callbacks y₁.conductor)
        (observeAll r handled.2.2.callbacks y₁) by
      rw [hy₁] at hall
      exact hall
    unfold careful
    dsimp only
    rw [← hcall]
    rcases hnews : y.conductor.news bb packetType with _ | news
    · rw [hnews] at htold
      exact observeAll_quiet (by simp) hs₁ htold
    · rw [hnews] at htold
      cases news with
      | request peer_id =>
        rw [show handled.2.2.callbacks = [] from htold]
        exact .ok (by simp) hs₁ rfl
      | gone peer_id =>
        rw [show handled.2.2.callbacks = [.onPeerDisconnected peer_id] from htold]
        exact observeAll_one (.ok (by simp) (onPeerDisconnected_settled hs₁ peer_id) rfl)
      | response peer_id code =>
        rw [show handled.2.2.callbacks = [.onPeerResponse peer_id code] from htold]
        exact observeAll_one (onPeerResponse_outcome hs₁ peer_id code)
      | message peer_id text =>
        rw [show handled.2.2.callbacks = [.onMessageFromPeer peer_id text] from htold]
        have houtcome := onMessageFromPeer_outcome (r := r) hs₁ peer_id text
        simp only [Bool.or_false]
        exact observeAll_one houtcome

omit [ByteQueue β] [Platform] in
/-- Code that follows neither pointer and keeps the connection. -/
theorem lift_outcome {careful : Bool} (hcareful : careful = true) (hs : y.Settled)
    {f : Conductor β → Except Halt (Conductor β)}
    (hf : Ends (fun x => x.peer_connection = y.conductor.peer_connection) (f y.conductor)) :
    Outcome careful (f y.conductor) (y.lift f) := by
  unfold lift
  rcases hr : f y.conductor with halt | x
  · exact .halt hcareful rfl
  · exact .ok hcareful (hs.same rfl rfl (hf x hr)) rfl

omit [Platform] in
theorem sendMessage_keeps (x : Conductor β) (msg : Message) (queue : List CallbackID) :
    Ends (fun x' => x'.peer_connection = x.peer_connection) ({ x with queue := queue }.sendMessageToPeer msg) := by
  intro x' hok
  obtain ⟨x₁, hpending, hafter⟩ := bind_ok_iff.mp hok
  have hsame : x₁.peer_connection = x.peer_connection := by
    unfold Conductor.sendPending at hpending
    split at hpending
    next =>
      cases hpending
      rfl
    next =>
      split at hpending
      next =>
        cases hpending
        rfl
      next =>
        obtain ⟨c, _, hsent⟩ := bind_ok_iff.mp hpending
        cases hsent
        rfl
  split at hafter
  next =>
    cases hafter
    exact hsame
  next =>
    cases hafter
    exact hsame

omit [Platform] in
theorem uiThreadCallback_outcome (hs : y.Settled) :
    Outcome true y.conductor.uiThreadCallback y.uiThreadCallback := by
  unfold uiThreadCallback
  split
  next peer_id call queue hqueue =>
    refine .ok rfl (deletePeerConnection_settled _) ?_
    rw [Conductor.uiThreadCallback, hqueue]
    rfl
  next hother =>
    refine lift_outcome rfl hs ?_
    unfold Conductor.uiThreadCallback
    split
    next => exact Ends.ok rfl
    next peer_id call queue hqueue => exact absurd hqueue (hother peer_id call queue)
    next msg queue hqueue => exact sendMessage_keeps y.conductor msg queue
    next => exact Ends.ok rfl
    next => exact Ends.ok rfl

omit [Platform] in
theorem disconnectFromCurrentPeer_outcome (hs : y.Settled) :
    Outcome true y.conductor.disconnectFromCurrentPeer y.disconnectFromCurrentPeer := by
  unfold disconnectFromCurrentPeer Conductor.disconnectFromCurrentPeer
  split
  next =>
    unfold lift
    dsimp only
    rcases hr : y.conductor.sendToPeer ⟨PeerConnectionClient.kByeMessage, y.conductor.peer_connection⟩ with halt | x
    · exact .halt rfl rfl
    · exact .ok rfl (deletePeerConnection_settled _) rfl
  next => exact .ok rfl hs rfl

/-- Every event with care is one of the conductor; without care it follows a null pointer. -/
theorem step_outcome (hs : y.Settled) (e : ControllerEvent β) : Outcome (y.careful e) (y.plain e) (y.step e) := by
  cases e with
  | startLogin username password =>
    show Outcome true (y.conductor.step (.startLogin username password)) (y.step (.startLogin username password))
    rw [step, Conductor.step]
    split
    next => exact .ok rfl hs rfl
    next =>
      refine act_quiet rfl hs fun c hc => Ends.ok ?_
      unfold PeerConnectionClient.connect
      split
      next => exact Conductor.notify_idle hc trivial
      next =>
        have hnil : ({ c with username := username, password := password, state := .signingIn } :
          PeerConnectionClient β).callbacks = [] := hc
        rw [hnil]
        exact Conductor.Told.nil_of_none
  | connectToPeer peer_id => exact act_quiet rfl hs fun c hc => Conductor.packet_quiet hc
  | disconnectFromCurrentPeer => exact disconnectFromCurrentPeer_outcome hs
  | disconnectFromServer =>
    show Outcome true (y.conductor.step .disconnectFromServer) (y.step .disconnectFromServer)
    rw [step, Conductor.step]
    split
    next => exact .ok rfl (signOut_settled hs) (by rw [signOut_conductor])
    next => exact .ok rfl hs rfl
  | close =>
    refine .ok rfl (deletePeerConnection_settled _) ?_
    show Except.ok y.conductor.signOut.deletePeerConnection = _
    rw [← signOut_conductor]
    rfl
  | opened => exact act_quiet rfl hs fun c hc => Conductor.packet_quiet (c := { c with isConnected := true }) hc
  | closed =>
    exact act_quiet rfl hs fun c hc => Ends.ok (Conductor.notify_idle (c := c.close) hc
      (show Conductor.Idle .onServerConnectionFailure from trivial))
  | packet bb packetType r => exact packet_outcome hs bb packetType
  | addStream => exact lift_outcome (f := fun x => .ok (x.queueUIThreadCallback .newStreamAdded)) rfl hs (Ends.ok rfl)
  | removeStream => exact lift_outcome (f := fun x => .ok (x.queueUIThreadCallback .streamRemoved)) rfl hs (Ends.ok rfl)
  | uiThreadCallback => exact uiThreadCallback_outcome hs
  | onFailure => exact .ok rfl (hs.same rfl rfl rfl) rfl
  | onSuccess =>
    rcases hcall : y.conductor.peer_connection.isSome with _ | _
    · have hnull : y.step .onSuccess = .error .nullConnection := by
        simp [step, onSuccess, followConnection, hcall]
        rfl
      rw [hnull]
      exact .nullConnection hcall
    · have hok : y.step .onSuccess = .ok { y with descriptions := y.descriptions - 1, gathering := true } := by
        simp [step, onSuccess, followConnection, hcall]
        rfl
      rw [hok]
      exact .ok hcall (hs.same rfl rfl rfl) rfl
  | iceGatheringComplete message =>
    rcases hcall : y.conductor.peer_connection.isSome with _ | _
    · have hnull : y.step (.iceGatheringComplete message) = .error .nullConnection := by
        simp [step, onIceGatheringComplete, followConnection, hcall]
        rfl
      rw [hnull]
      exact .nullConnection hcall
    · have hok : y.step (.iceGatheringComplete message) =
          .ok { y with conductor := y.conductor.sendMessage message } := by
        simp [step, onIceGatheringComplete, followConnection, hcall]
        rfl
      rw [hok]
      exact .ok hcall (hs.same rfl rfl rfl) rfl

theorem step_ok (hs : y.Settled) {y' : CallController β} {e : ControllerEvent β} (hok : y.step e = .ok y') :
    y.careful e = true ∧ y'.Settled ∧ y.plain e = .ok y'.conductor := by
  have houtcome := step_outcome hs e
  rw [hok] at houtcome
  cases houtcome with
  | ok hcareful settled hplain => exact ⟨hcareful, settled, hplain⟩

theorem reachable_settled (h : (controllerMachine β).Reachable create y) : y.Settled :=
  h.invariant ⟨rfl, rfl⟩ fun _ _ _ _ hs _ _ hok => (step_ok hs hok).2.1

/-- What may happen to the controller may happen to its conductor, if it does not come too late. -/
theorem forget_enabled {e : ControllerEvent β} {e' : ConductorEvent β} (he : y.enabled e = true)
    (hcareful : y.careful e = true) (hforget : forget e = some e') : y.conductor.enabled e' = true := by
  cases e with
  | onSuccess => cases hforget
  | onFailure => cases hforget
  | iceGatheringComplete message =>
    cases hforget
    exact hcareful
  | startLogin username password =>
    cases hforget
    rfl
  | connectToPeer peer_id =>
    cases hforget
    rfl
  | disconnectFromCurrentPeer =>
    cases hforget
    rfl
  | disconnectFromServer =>
    cases hforget
    rfl
  | close =>
    cases hforget
    rfl
  | closed =>
    cases hforget
    rfl
  | opened =>
    cases hforget
    exact he
  | packet bb packetType r =>
    cases hforget
    exact he
  | addStream =>
    cases hforget
    exact he
  | removeStream =>
    cases hforget
    exact he
  | uiThreadCallback =>
    cases hforget
    exact he

/-- The runs of the controller are runs of the conductor. -/
theorem reachable_conductor (h : (controllerMachine β).Reachable create y) :
    (conductorMachine β).Reachable Conductor.create y.conductor := by
  induction h with
  | start => exact .start
  | @next y y' e hr he _ hok ih =>
    obtain ⟨hcareful, _, hplain⟩ := step_ok (reachable_settled hr) hok
    unfold plain at hplain
    rcases hforget : forget e with _ | e'
    · rw [hforget] at hplain
      rw [← Except.ok.inj hplain]
      exact ih
    · rw [hforget] at hplain
      exact .next ih (forget_enabled he hcareful hforget) trivial hplain

/-- No pointer of a run is followed when it is null. -/
def NoNull (r : Except ControllerFault (CallController β)) : Prop := ∀ fault, r = .error fault → ∃ h, fault = .halt h

theorem run_noNull_iff (hs : y.Settled) (events : List (ControllerEvent β)) :
    NoNull ((controllerMachine β).run events y) ↔
      (controllerMachine β).Along (fun y e => y.careful e = true) events y := by
  induction events generalizing y with
  | nil => exact ⟨fun _ => trivial, fun _ fault hfault => by cases hfault⟩
  | cons e events ih =>
    have houtcome := step_outcome hs e
    unfold Machine.run Machine.Along
    rw [show (controllerMachine β).step y e = y.step e from rfl]
    generalize y.step e = r at houtcome
    cases houtcome with
    | @ok y' hcareful settled hplain =>
      dsimp only
      rw [ih settled]
      constructor
      · intro hrest
        refine ⟨hcareful, fun y'' hok => ?_⟩
        cases hok
        exact hrest
      · rintro ⟨_, hrest⟩
        exact hrest y' rfl
    | halt hcareful hplain =>
      refine iff_of_true (fun fault hfault => ?_) ⟨hcareful, fun _ hok => by cases hok⟩
      cases hfault
      exact ⟨_, rfl⟩
    | nullConnection careless =>
      refine iff_of_false (fun hno => ?_) (fun hall => ?_)
      · obtain ⟨_, hfault⟩ := hno _ rfl
        cases hfault
      · rw [careless] at hall
        exact absurd hall.1 Bool.false_ne_true
    | nullFactory careless =>
      refine iff_of_false (fun hno => ?_) (fun hall => ?_)
      · obtain ⟨_, hfault⟩ := hno _ rfl
        cases hfault
      · rw [careless] at hall
        exact absurd hall.1 Bool.false_ne_true

/-- A run of the call controller follows no null pointer if and only if all of its steps are taken with care. -/
theorem never_null_iff (events : List (ControllerEvent β)) :
    NoNull ((controllerMachine β).run events create) ↔
      (controllerMachine β).Along (fun y e => y.careful e = true) events create :=
  run_noNull_iff ⟨rfl, rfl⟩ events

end Facts

section Runs

variable [Platform]

/-- The user logs in and asks 9 for a call. -/
def asking : List (ControllerEvent ByteBuffer) :=
  [.startLogin [0x61] [0x62], .opened, .packet (Conductor.packetBuffer [0, 0, 0, 2, 0]) 0x00 noResults,
    .packet (Conductor.packetBuffer []) 0x01 noResults, .connectToPeer 9]

/-- 9 agrees. -/
def agreed (r : WebRtcResults) : ControllerEvent ByteBuffer := .packet (Conductor.packetBuffer [9, 1]) 0x11 r

/-- What ended a step. -/
def fault (r : Except ControllerFault (CallController ByteBuffer)) : Option ControllerFault :=
  match r with
  | .error fault => some fault
  | .ok _ => none

omit [Platform] in
/-- Without a connection the stream is made by a factory that has been deleted; a description, or the end of the
gathering, that comes after the user hung up finds no connection. -/
theorem follows_null :
    letI := zeroPlatform
    (∃ y : CallController ByteBuffer, (controllerMachine ByteBuffer).Reachable create y ∧
      y.enabled (agreed ⟨true, false, .unknown⟩) = true ∧
        fault (y.step (agreed ⟨true, false, .unknown⟩)) = some .nullFactory) ∧
    (∃ y : CallController ByteBuffer, (controllerMachine ByteBuffer).Reachable create y ∧
      y.enabled .onSuccess = true ∧ fault (y.step .onSuccess) = some .nullConnection) ∧
    ∃ y : CallController ByteBuffer, (controllerMachine ByteBuffer).Reachable create y ∧
      y.enabled (.iceGatheringComplete [0x7b]) = true ∧
        fault (y.step (.iceGatheringComplete [0x7b])) = some .nullConnection := by
  let : Platform := zeroPlatform
  have hreach : ∀ {events : List (ControllerEvent ByteBuffer)} {e : ControllerEvent ByteBuffer} {halt : ControllerFault},
      ((controllerMachine ByteBuffer).replay (fun y e => y.enabled e) events create).map
        (fun y => (y.enabled e, fault (y.step e))) = some (true, some halt) →
      ∃ y : CallController ByteBuffer, (controllerMachine ByteBuffer).Reachable create y ∧ y.enabled e = true ∧
        fault (y.step e) = some halt := by
    intro events e halt hrun
    obtain ⟨y, hy, hall⟩ := Option.map_eq_some_iff.mp hrun
    obtain ⟨henabled, hfault⟩ := Prod.mk.inj hall
    exact ⟨y, Machine.replay_reach (fun _ _ he => ⟨he, trivial⟩) .start hy, henabled, hfault⟩
  have hfactory : ((controllerMachine ByteBuffer).replay (fun y e => y.enabled e) asking create).map
      (fun y => (y.enabled (agreed ⟨true, false, .unknown⟩), fault (y.step (agreed ⟨true, false, .unknown⟩)))) =
        some (true, some .nullFactory) := by
    decide +kernel
  have hdescription : ((controllerMachine ByteBuffer).replay (fun y e => y.enabled e)
      (asking ++ [agreed ⟨true, true, .unknown⟩, .disconnectFromCurrentPeer]) create).map
        (fun y => (y.enabled .onSuccess, fault (y.step .onSuccess))) = some (true, some .nullConnection) := by
    decide +kernel
  have hgathering : ((controllerMachine ByteBuffer).replay (fun y e => y.enabled e)
      (asking ++ [agreed ⟨true, true, .unknown⟩, .onSuccess, .disconnectFromCurrentPeer]) create).map
        (fun y => (y.enabled (.iceGatheringComplete [0x7b]), fault (y.step (.iceGatheringComplete [0x7b])))) =
          some (true, some .nullConnection) := by
    decide +kernel
  exact ⟨hreach hfactory, hreach hdescription, hreach hgathering⟩

end Runs

end CallController

end P2PChat

import P2PChat.Conductor
import P2PChat.ClientRules

namespace P2PChat

open ByteQueue

namespace PeerConnectionClient

variable {β : Type} [ByteQueue β] [Platform] {c : PeerConnectionClient β} {bb : β}

theorem dispatchPacket_working (h : c.protocolState = 3) (bb : β) (packetType : UInt32) :
    dispatchPacket bb packetType c =
      if packetType = 0x00 then handlePacketKeepAlive bb c
      else if packetType = 0x01 then handlePacketUserInfo bb c
      else if packetType = 0x11 then handlePacketMedia bb c
      else if packetType = 0x12 then handlePacketMediaMsg bb c
      else if packetType = 0x40 then handlePacketErrorCode bb c
      else .ok (false, bb, c) := by
  rw [dispatchPacket, if_neg (by rw [h]; decide), if_neg (by rw [h]; decide), if_pos h]

/-- What the client does with a media packet of the game. -/
theorem handlePacket_media {media : UInt32 × UInt32} (h : c.protocolState = 3)
    (hread : (readMedia bb).1 = some media) :
    handlePacket bb 0x11 c = ((c.record (0x11, (readAll bb).1)).mediaArrived media.1 media.2).map
      fun c' => (true, (readMedia bb).2, c') := by
  have hwork : (c.record (0x11, (readAll bb).1)).protocolState = 3 := h
  have hpair : readMedia bb = (some media, (readMedia bb).2) := by rw [← hread]
  rw [handlePacket, dispatchPacket_working hwork, if_neg (by decide), if_neg (by decide), if_pos rfl,
    handlePacketMedia, handling, hpair]
  rfl

/-- What the client does with a message of the game. -/
theorem handlePacket_mediaMsg {media : UInt32 × AString} (h : c.protocolState = 3)
    (hread : (readMediaMsg bb).1 = some media) :
    handlePacket bb 0x12 c =
      .ok (true, (readMediaMsg bb).2, (c.record (0x12, (readAll bb).1)).mediaMsgArrived media.1 media.2) := by
  have hwork : (c.record (0x12, (readAll bb).1)).protocolState = 3 := h
  have hpair : readMediaMsg bb = (some media, (readMediaMsg bb).2) := by rw [← hread]
  rw [handlePacket, dispatchPacket_working hwork, if_neg (by decide), if_neg (by decide), if_neg (by decide),
    if_pos rfl, handlePacketMediaMsg, handling, hpair]
  rfl

end PeerConnectionClient

namespace Conductor

section Definitions

variable {β : Type} [ByteQueue β] [Platform]

/-- Whom a media packet is from, or a `UserInfo` packet about. -/
def about (bb : β) (packetType : UInt32) : Option UInt32 :=
  if packetType = 0x01 then (PeerConnectionClient.readUserInfo bb).1.map Prod.fst
  else if packetType = 0x11 then (readMedia bb).1.map Prod.fst
  else if packetType = 0x12 then (readMediaMsg bb).1.map Prod.fst
  else none

/-- A packet that is relayed from a peer other than `A`, or about one. -/
def foreign (A : UInt32) (bb : β) (packetType : UInt32) (x : Conductor β) : Bool :=
  x.client.protocolState == 3 && (packetType == 0x01 || packetType == 0x11 || packetType == 0x12) &&
    about bb packetType != some A

/-- Neither `A` nor the user nor the connection to the server ends this call of `A`: other peers send
packets, the connection to `A` tells what it does, and what is queued has its turn. -/
def apart (A : UInt32) (call : Nat) (x : Conductor β) : ConductorEvent β → Bool
  | .packet bb packetType _ => x.foreign A bb packetType
  | .iceGatheringComplete _ => true
  | .addStream => true
  | .removeStream => true
  | .uiThreadCallback => x.queue.head? != some (.peerConnectionClosed A (some call))
  | _ => false

/-- The peer and the connection are those of this call, and what was sent of it since then went to `A`. -/
structure InCall (A : UInt32) (call : Nat) (before : List (UInt32 × Message)) (x : Conductor β) : Prop where
  peer_id : x.peer_id = A
  peer_connection : x.peer_connection = some call
  sent : ∃ new, x.sent = before ++ new ∧ ∀ m ∈ new, m.2.call = some call → m.1 = A

/-- Somebody refuses a call, or a connection is closed because another one was to be. -/
def disturbs (x : Conductor β) : ConductorEvent β → Bool
  | .packet bb packetType _ => packetType == 0x11 && (readMedia bb).1.any fun media => media.2 == noPeer
  | .uiThreadCallback =>
    match x.queue.head? with
    | some (.peerConnectionClosed _ _) => true
    | _ => false
  | _ => false

end Definitions

/-- A call of the observer by which no call ends, about a packet that is not of `A`. -/
def harmless (A : UInt32) : Callback → Prop
  | .onDisconnected => False
  | .onPeerResponse _ code => code ≠ noPeer
  | .onMessageFromPeer peer_id _ => peer_id ≠ A
  | _ => True

/-- A client whose observer is told no more than this. -/
def Quiet {β : Type} (A : UInt32) (c : PeerConnectionClient β) : Prop :=
  ∀ callback ∈ c.callbacks, harmless A callback

section Facts

variable {β : Type} {A : UInt32} {call : Nat} {before : List (UInt32 × Message)} {x : Conductor β}

/-- Only these members matter. -/
theorem InCall.same (h : x.InCall A call before) {x' : Conductor β} (hpeer : x'.peer_id = x.peer_id)
    (hconnection : x'.peer_connection = x.peer_connection) (hsent : x'.sent = x.sent) :
    x'.InCall A call before :=
  ⟨hpeer.trans h.peer_id, hconnection.trans h.peer_connection, by rw [hsent]; exact h.sent⟩

theorem InCall.onPeerDisconnected (h : x.InCall A call before) (id : UInt32) :
    (x.onPeerDisconnected id).InCall A call before := by
  unfold Conductor.onPeerDisconnected
  split
  next => exact h.same rfl rfl rfl
  next => exact h

theorem InCall.onPeerResponse (h : x.InCall A call before) (r : Initialization) (peer_id : UInt32)
    {code : UInt32} (hcode : code ≠ noPeer) : x.onPeerResponse r peer_id code = .ok x := by
  unfold Conductor.onPeerResponse
  rw [if_neg hcode]
  split
  next => rw [if_pos (by simp [h.peer_connection])]
  next => rfl

variable [ByteQueue β]

theorem InCall.onMessageFromPeer (h : x.InCall A call before) (r : Initialization) {peer_id : UInt32}
    (hpeer : peer_id ≠ A) (message : AString) : x.onMessageFromPeer r peer_id message = .ok x := by
  unfold Conductor.onMessageFromPeer
  rw [if_neg (by simp [h.peer_connection]), if_pos (by rw [h.peer_id]; exact hpeer)]

theorem InCall.observe (h : x.InCall A call before) (r : Initialization) {callback : Callback}
    (hharmless : harmless A callback) : Ends (fun x' => x'.InCall A call before) (x.observe r callback) := by
  cases callback with
  | onDisconnected => exact hharmless.elim
  | onPeerDisconnected id => exact Ends.ok (h.onPeerDisconnected id)
  | onPeerResponse peer_id code =>
    rw [Conductor.observe, h.onPeerResponse r peer_id hharmless]
    exact Ends.ok h
  | onMessageFromPeer peer_id message =>
    rw [Conductor.observe, h.onMessageFromPeer r hharmless message]
    exact Ends.ok h
  | onSignedIn => exact Ends.ok h
  | onPeerConnected id name => exact Ends.ok h
  | onServerConnectionFailure => exact Ends.ok h
  | postNotification code => exact Ends.ok h

theorem InCall.observeAll (h : x.InCall A call before) (r : Initialization) {callbacks : List Callback}
    (hharmless : ∀ callback ∈ callbacks, harmless A callback) :
    Ends (fun x' => x'.InCall A call before) (observeAll r callbacks x) := by
  induction callbacks generalizing x with
  | nil => exact Ends.ok h
  | cons callback callbacks ih =>
    refine Ends.bind (h.observe r (hharmless callback List.mem_cons_self)) fun x' h' => ?_
    exact ih h' fun callback' hmem => hharmless callback' (List.mem_cons_of_mem callback hmem)

theorem InCall.sendToPeer (h : x.InCall A call before) (msg : Message) :
    Ends (fun x' => x'.InCall A call before) (x.sendToPeer msg) := by
  unfold Conductor.sendToPeer
  refine Ends.bind (I := fun _ => True) (fun _ _ => trivial) fun c _ => Ends.ok ?_
  obtain ⟨new, hsent, haddressed⟩ := h.sent
  refine ⟨h.peer_id, h.peer_connection, new ++ [(x.peer_id, msg)], ?_, fun m hm => ?_⟩
  · simp [hsent]
  · rcases List.mem_append.mp hm with hm | hm
    · exact haddressed m hm
    · rw [List.mem_singleton.mp hm]
      exact fun _ => h.peer_id

theorem InCall.sendMessageToPeer (h : x.InCall A call before) (msg : Message) :
    Ends (fun x' => x'.InCall A call before) (x.sendMessageToPeer msg) := by
  unfold Conductor.sendMessageToPeer
  have hpending : Ends (fun x' => x'.InCall A call before)
      (sendPending { x with pending_messages := x.pending_messages ++ [msg] }) := by
    unfold sendPending
    split
    next => exact Ends.ok (h.same rfl rfl rfl)
    next first pending _ =>
      split
      next => exact Ends.ok (h.same rfl rfl rfl)
      next =>
        have hrest : InCall A call before { x with pending_messages := pending } := h.same rfl rfl rfl
        exact hrest.sendToPeer first
  refine Ends.bind hpending fun x' h' => ?_
  rw [if_neg (by simp [h'.peer_connection])]
  exact Ends.ok h'

theorem InCall.uiThreadCallback (h : x.InCall A call before)
    (hopen : ∀ peer_id call, x.queue.head? ≠ some (.peerConnectionClosed peer_id call)) :
    Ends (fun x' => x'.InCall A call before) x.uiThreadCallback := by
  unfold Conductor.uiThreadCallback
  split
  next => exact Ends.ok h
  next peer_id call _ hqueue => exact absurd (by rw [hqueue]; rfl) (hopen peer_id call)
  next msg queue _ =>
    have hrest : InCall A call before { x with queue := queue } := h.same rfl rfl rfl
    exact hrest.sendMessageToPeer msg
  next => exact Ends.ok (h.same rfl rfl rfl)
  next => exact Ends.ok (h.same rfl rfl rfl)

variable [Platform]

/-- What the observer is told of a packet that is not of `A` ends no call of `A`, but for a refusal. -/
theorem foreign_harmless {bb : β} {packetType : UInt32} {r : Initialization}
    (hforeign : x.foreign A bb packetType = true)
    (hno : x.disturbs (.packet bb packetType r) = false) {c : PeerConnectionClient β}
    (hstate : c.protocolState = x.client.protocolState) (hc : c.callbacks = []) :
    Ends (Quiet A)
      ((PeerConnectionClient.handlePacket bb packetType c).map fun handled => handled.2.2) := by
  simp only [foreign, Bool.and_eq_true, beq_iff_eq, Bool.or_eq_true, bne_iff_ne] at hforeign
  obtain ⟨⟨hthree, htype⟩, habout⟩ := hforeign
  have hwork : (c.record (packetType, (readAll bb).1)).protocolState = 3 := hstate.trans hthree
  have hone : ∀ (c' : PeerConnectionClient β) callback, c'.callbacks = [] → harmless A callback →
      Quiet A (c'.notify callback) := by
    intro c' callback hnil hharmless callback' hmem
    simp only [PeerConnectionClient.notify, hnil, List.nil_append, List.mem_singleton] at hmem
    rw [hmem]
    exact hharmless
  have hnone : Quiet A (c.record (packetType, (readAll bb).1)) := by
    intro callback hmem
    have hmem : callback ∈ c.callbacks := hmem
    simp [hc] at hmem
  suffices hall : Ends (fun handled => Quiet A handled.2.2)
      (PeerConnectionClient.handlePacket bb packetType c) by
    rcases hr : PeerConnectionClient.handlePacket bb packetType c with e | handled
    · exact Ends.error
    · exact Ends.ok (hall handled hr)
  rw [PeerConnectionClient.handlePacket, PeerConnectionClient.dispatchPacket_working hwork]
  rcases htype with (rfl | rfl) | rfl
  · rw [if_neg (by decide), if_pos rfl]
    refine handling_ends (I := Quiet A) hnone fun info _ => Ends.ok ?_
    unfold PeerConnectionClient.userInfo
    split
    next => exact hone _ (.onPeerDisconnected info.1) hc trivial
    next => exact hone _ (.onPeerConnected info.1 info.2.1) hc trivial
  · rw [if_neg (by decide), if_neg (by decide), if_pos rfl]
    refine handling_ends (I := Quiet A) hnone fun media hread => ?_
    unfold PeerConnectionClient.mediaArrived
    split
    next =>
      intro c' hok
      obtain ⟨out, sent, rfl⟩ := PeerConnectionClient.packet_changes hok
      exact hnone
    next =>
      have hcode : media.2 ≠ noPeer := by
        intro hcode
        simp [disturbs, hread, hcode] at hno
      exact Ends.ok (hone _ (.onPeerResponse media.1 media.2) hc hcode)
  · rw [if_neg (by decide), if_neg (by decide), if_neg (by decide), if_pos rfl]
    refine handling_ends (I := Quiet A) hnone fun media hread => Ends.ok ?_
    have hpeer : media.1 ≠ A := by
      intro hpeer
      simp [about, hread, hpeer] at habout
    unfold PeerConnectionClient.mediaMsgArrived
    split
    next => exact hone _ (.onPeerDisconnected media.1) hc trivial
    next => exact hone _ (.onMessageFromPeer media.1 media.2) hc hpeer

/-- A step apart from the call that does not disturb it. -/
theorem InCall.step (h : x.InCall A call before) {e : ConductorEvent β} (he : x.apart A call e = true)
    (hno : x.disturbs e = false) : Ends (fun x' => x'.InCall A call before) (x.step e) := by
  cases e with
  | packet bb packetType r =>
    refine Ends.bind (foreign_harmless he hno rfl rfl) fun c hc => ?_
    have hnow : InCall A call before { x with client := c } := h.same rfl rfl rfl
    exact hnow.observeAll r hc
  | iceGatheringComplete message => exact Ends.ok (h.same rfl rfl rfl)
  | addStream => exact Ends.ok (h.same rfl rfl rfl)
  | removeStream => exact Ends.ok (h.same rfl rfl rfl)
  | uiThreadCallback =>
    refine h.uiThreadCallback fun peer_id call hhead => ?_
    simp [disturbs, hhead] at hno
  | startLogin username password => cases he
  | connectToPeer peer_id => cases he
  | disconnectFromCurrentPeer => cases he
  | disconnectFromServer => cases he
  | close => cases he
  | opened => cases he
  | closed => cases he

/-- A refusal makes the conductor forget who the peer is. -/
theorem refusal_forgets {bb : β} {r : Initialization} {media : UInt32 × UInt32}
    (hforeign : x.foreign A bb 0x11 = true) (hread : (readMedia bb).1 = some media)
    (hcode : media.2 = noPeer) : ∃ x', x.step (.packet bb 0x11 r) = .ok x' ∧ x'.peer_id = noPeer := by
  simp only [foreign, Bool.and_eq_true, beq_iff_eq] at hforeign
  have hthree := hforeign.1.1
  obtain ⟨c, hc⟩ : ∃ c : PeerConnectionClient β,
      c = { x.client with callbacks := [], isBusy := fun _ => x.isBusy } := ⟨_, rfl⟩
  obtain ⟨c', hc'⟩ : ∃ c' : PeerConnectionClient β, c' = (c.record (0x11, (readAll bb).1)).notify
      (.onPeerResponse media.1 media.2) := ⟨_, rfl⟩
  have hhandled : PeerConnectionClient.handlePacket bb 0x11 c = .ok (true, (readMedia bb).2, c') := by
    have hwork : c.protocolState = 3 := by rw [hc]; exact hthree
    have hne : media.2 ≠ 0 := by rw [hcode]; decide
    rw [PeerConnectionClient.handlePacket_media hwork hread, PeerConnectionClient.mediaArrived, if_neg hne, hc']
    rfl
  have hcalls : c'.callbacks = [.onPeerResponse media.1 noPeer] := by
    rw [hc', hc, hcode]
    rfl
  refine ⟨{ x with client := c', peer_id := noPeer }, ?_, rfl⟩
  have hforgets : Conductor.onPeerResponse r media.1 noPeer { x with client := c' } =
      .ok { x with client := c', peer_id := noPeer } := by
    unfold Conductor.onPeerResponse
    rw [if_neg (by decide), if_pos rfl]
  rw [Conductor.step, act, ← hc, hhandled]
  simp only [Except.map, bind, Except.bind, hcalls, Conductor.observeAll, Conductor.observe, hforgets]

/-- A step apart from the call that disturbs it ends it. -/
theorem disturbs_ends (hA : A ≠ noPeer) {e : ConductorEvent β}
    (he : x.apart A call e = true) (hyes : x.disturbs e = true) :
    ∃ x', x.step e = .ok x' ∧ ¬x'.InCall A call before := by
  cases e with
  | packet bb packetType r =>
    simp only [disturbs, Bool.and_eq_true, beq_iff_eq, Option.any_eq_true] at hyes
    obtain ⟨rfl, media, hread, hcode⟩ := hyes
    obtain ⟨x', hok, hpeer⟩ := refusal_forgets (r := r) he hread hcode
    exact ⟨x', hok, fun hcall => hA (hcall.peer_id.symm.trans hpeer)⟩
  | uiThreadCallback =>
    unfold disturbs at hyes
    dsimp only at hyes
    rcases hqueue : x.queue with _ | ⟨callback, queue⟩
    · simp [hqueue] at hyes
    · rw [hqueue] at hyes
      cases callback with
      | peerConnectionClosed peer_id call' =>
        refine ⟨{ x with queue := queue }.deletePeerConnection, ?_, fun hcall => ?_⟩
        · rw [Conductor.step, Conductor.uiThreadCallback, hqueue]
        · have hnone := hcall.peer_connection
          cases hnone
      | sendMessageToPeer msg => cases hyes
      | newStreamAdded => cases hyes
      | streamRemoved => cases hyes
  | iceGatheringComplete message => cases hyes
  | addStream => cases hyes
  | removeStream => cases hyes
  | startLogin username password => cases he
  | connectToPeer peer_id => cases he
  | disconnectFromCurrentPeer => cases he
  | disconnectFromServer => cases he
  | close => cases he
  | opened => cases he
  | closed => cases he

/-- From any state in a call of `A`, whatever others do, the call and its peer stay after every step if and
only if nobody else refuses a call and no connection is closed because another one was to be. -/
theorem stays_in_call_iff {x : Conductor ByteBuffer} (hA : x.isBusy = true) (hcall : x.peer_connection = some call) {events : List (ConductorEvent ByteBuffer)}
    (h : (conductorMachine ByteBuffer).Along
      (fun x' e => x'.enabled e = true ∧ x'.apart x.peer_id call e = true) events x) :
    (conductorMachine ByteBuffer).Along (fun x' e => ∀ x'', (conductorMachine ByteBuffer).step x' e = .ok x'' →
        x''.InCall x.peer_id call x.sent) events x ↔
      (conductorMachine ByteBuffer).Along (fun x' e => x'.disturbs e = false) events x := by
  have hpeer : x.peer_id ≠ noPeer := by
    simp only [isBusy, Bool.and_eq_true, bne_iff_ne] at hA
    exact hA.1
  refine Machine.along_keeps_iff (fun x' e x'' hx he hno hstep => ?_) (fun x' e _ he hyes => ?_) ?_ h
  · exact hx.step he.2 hno x'' hstep
  · exact disturbs_ends hpeer he.2 (by simpa using hyes)
  · exact ⟨rfl, hcall, [], by simp, by simp⟩

end Facts

section Runs

variable [Platform]

/-- A packet as `HandlePacket` gets it, the NUL behind it. -/
def packetBuffer (bytes : AString) : ByteBuffer := (write (bytes ++ [0]) (new 64)).2

/-- The user logs in. -/
def loggedIn : List (ConductorEvent ByteBuffer) :=
  [.startLogin [0x61] [0x62], .opened, .packet (packetBuffer [0, 0, 0, 2, 0]) 0x00 .noFactory,
    .packet (packetBuffer []) 0x01 .noFactory]

/-- A message of this peer that begins a call. -/
def calledBy (peer_id : UInt8) : ConductorEvent ByteBuffer :=
  .packet (packetBuffer [peer_id, 1, 0x7b]) 0x12 .created

def saysBye (peer_id : UInt8) : ConductorEvent ByteBuffer :=
  .packet (packetBuffer [peer_id, 3, 0x42, 0x59, 0x45]) 0x12 .noFactory

def refuses (peer_id : UInt8) : ConductorEvent ByteBuffer :=
  .packet (packetBuffer [peer_id, 0xff, 0xff, 0xff, 0xff, 0x0f]) 0x11 .noFactory

omit [Platform] in
/-- While 7 calls, 9 asks whether we are busy, says goodbye, and goes offline; then a message to 7 is sent. -/
theorem stays_in_call_message :
    letI := zeroPlatform
    ∃ x : Conductor ByteBuffer, (conductorMachine ByteBuffer).Reachable create x ∧ x.peer_id = 7 ∧
      (conductorMachine ByteBuffer).Along (fun x' e => ∀ x'', (conductorMachine ByteBuffer).step x' e = .ok x'' →
        x''.InCall x.peer_id 0 x.sent)
        [.packet (packetBuffer [9, 0]) 0x11 .noFactory, saysBye 9,
          .packet (packetBuffer [9, 1, 0x78, 4]) 0x01 .noFactory, .iceGatheringComplete [0x7b],
          .uiThreadCallback] x := by
  let : Platform := zeroPlatform
  obtain ⟨events, hevents⟩ : ∃ events : List (ConductorEvent ByteBuffer), events =
      [.packet (packetBuffer [9, 0]) 0x11 .noFactory, saysBye 9,
        .packet (packetBuffer [9, 1, 0x78, 4]) 0x01 .noFactory, .iceGatheringComplete [0x7b],
        .uiThreadCallback] := ⟨_, rfl⟩
  have hrun : ((conductorMachine ByteBuffer).replay (fun x e => x.enabled e) (loggedIn ++ [calledBy 7])
      create).map (fun x => (x.peer_id, x.peer_connection,
        ((conductorMachine ByteBuffer).replay
          (fun x' e => x'.enabled e && x'.apart x.peer_id 0 e && !x'.disturbs e) events x).isSome)) =
      some (7, some 0, true) := by
    rw [hevents]
    decide +kernel
  obtain ⟨x, hx, hall⟩ := Option.map_eq_some_iff.mp hrun
  simp only [Prod.mk.injEq] at hall
  obtain ⟨hpeer, hcall, hsome⟩ := hall
  obtain ⟨x₁, hx₁⟩ := Option.isSome_iff_exists.mp hsome
  refine ⟨x, Machine.replay_reach (fun _ _ he => ⟨he, trivial⟩) .start hx, hpeer, ?_⟩
  rw [← hevents]
  refine (stays_in_call_iff ?_ hcall ?_).mpr ?_
  · rw [isBusy, hpeer, hcall]
    rfl
  · refine Machine.replay_along (fun x' e he => ?_) hx₁
    simp only [Bool.and_eq_true] at he
    exact he.1
  · refine Machine.replay_along (fun x' e he => ?_) hx₁
    simp only [Bool.and_eq_true, Bool.not_eq_true'] at he
    exact he.2

omit [Platform] in
/-- While 7 calls, 9 refuses a call that nobody made to it; or what is left of a call of 9, which said
goodbye twice, closes the connection to 7. -/
theorem disturbed_by_others :
    letI := zeroPlatform
    (∃ x x' : Conductor ByteBuffer, (conductorMachine ByteBuffer).Reachable create x ∧ x.peer_id = 7 ∧
      x.peer_connection = some 0 ∧ x.apart 7 0 (refuses 9) = true ∧ x.step (refuses 9) = .ok x' ∧
        ¬x'.InCall 7 0 x.sent) ∧
    ∃ x x' : Conductor ByteBuffer, (conductorMachine ByteBuffer).Reachable create x ∧ x.peer_id = 7 ∧
      x.peer_connection = some 1 ∧ x.apart 7 1 .uiThreadCallback = true ∧
        x.step .uiThreadCallback = .ok x' ∧ ¬x'.InCall 7 1 x.sent := by
  let : Platform := zeroPlatform
  have hrefused : ((conductorMachine ByteBuffer).replay (fun x e => x.enabled e) (loggedIn ++ [calledBy 7])
      create).map (fun x => (x.peer_id, x.peer_connection, x.apart 7 0 (refuses 9),
        x.disturbs (refuses 9))) = some (7, some 0, true, true) := by
    decide +kernel
  have hclosed : ((conductorMachine ByteBuffer).replay (fun x e => x.enabled e)
      (loggedIn ++ [calledBy 9, saysBye 9, saysBye 9, .uiThreadCallback, calledBy 7]) create).map
        (fun x => (x.peer_id, x.peer_connection, x.apart 7 1 .uiThreadCallback,
          x.disturbs .uiThreadCallback)) = some (7, some 1, true, true) := by
    decide +kernel
  have hends : ∀ {x : Conductor ByteBuffer} {call : Nat} {e : ConductorEvent ByteBuffer},
      x.apart 7 call e = true → x.disturbs e = true →
        ∃ x', x.step e = .ok x' ∧ ¬x'.InCall 7 call x.sent :=
    fun hapart hdisturbs => disturbs_ends (by decide) hapart hdisturbs
  constructor
  · obtain ⟨x, hx, hall⟩ := Option.map_eq_some_iff.mp hrefused
    simp only [Prod.mk.injEq] at hall
    obtain ⟨hpeer, hcall, hapart, hdisturbs⟩ := hall
    obtain ⟨x', hok, hno⟩ := hends hapart hdisturbs
    exact ⟨x, x', Machine.replay_reach (fun _ _ he => ⟨he, trivial⟩) .start hx, hpeer, hcall, hapart, hok, hno⟩
  · obtain ⟨x, hx, hall⟩ := Option.map_eq_some_iff.mp hclosed
    simp only [Prod.mk.injEq] at hall
    obtain ⟨hpeer, hcall, hapart, hdisturbs⟩ := hall
    obtain ⟨x', hok, hno⟩ := hends hapart hdisturbs
    exact ⟨x, x', Machine.replay_reach (fun _ _ he => ⟨he, trivial⟩) .start hx, hpeer, hcall, hapart, hok, hno⟩

end Runs

end Conductor

end P2PChat

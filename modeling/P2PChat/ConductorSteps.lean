import P2PChat.ThirdParty

namespace P2PChat

open ByteQueue

/-- What a packet tells of a peer. -/
inductive News where
  | request (peer_id : UInt32)
  | response (peer_id code : UInt32)
  | message (peer_id : UInt32) (text : AString)
  | gone (peer_id : UInt32)
  deriving DecidableEq, Repr

/-- What a conductor knows of its call. -/
structure CallState where
  peer_id : UInt32
  peer_connection : Option Nat
  queue : List CallbackID
  pending_messages : List Message
  created : Nat
  sent : List (UInt32 × Message)

namespace Conductor

section Definitions

variable {β : Type} [ByteQueue β]

def callState (x : Conductor β) : CallState :=
  ⟨x.peer_id, x.peer_connection, x.queue, x.pending_messages, x.created, x.sent⟩

variable [Platform]

/-- The packets of the game that are from a peer or about one; whoever comes online is of no call. -/
def news (bb : β) (packetType : UInt32) (x : Conductor β) : Option News :=
  if x.client.protocolState ≠ 3 then none
  else if packetType = 0x01 then
    (PeerConnectionClient.readUserInfo bb).1.bind fun info => if 3 < info.2.2 then some (.gone info.1) else none
  else if packetType = 0x11 then
    (readMedia bb).1.map fun media => if media.2 = 0 then .request media.1 else .response media.1 media.2
  else if packetType = 0x12 then
    (readMediaMsg bb).1.map fun media =>
      if media.2 = PeerConnectionClient.kByeMessage then .gone media.1 else .message media.1 media.2
  else none

end Definitions

end Conductor

namespace CallState

def deleted (s : CallState) : CallState := { s with peer_connection := none, peer_id := Conductor.noPeer }

def queued (callback : CallbackID) (s : CallState) : CallState := { s with queue := s.queue ++ [callback] }

/-- All that an event can do to a call. -/
inductive Outcome {β : Type} [ByteQueue β] [Platform] (x : Conductor β) : ConductorEvent β → CallState → Prop
  | same {e : ConductorEvent β} : Outcome x e x.callState
  | queued {e : ConductorEvent β} {callback : CallbackID} (hother : ∀ msg, callback ≠ .sendMessageToPeer msg) :
    Outcome x e (x.callState.queued callback)
  | sendMessage (text : AString) : Outcome x (.iceGatheringComplete text)
      (x.callState.queued (.sendMessageToPeer ⟨text, x.peer_connection⟩))
  | deleted {e : ConductorEvent β} (hturn : e ≠ .uiThreadCallback) : Outcome x e x.callState.deleted
  | hungUp (hcall : x.peer_connection.isSome) : Outcome x .disconnectFromCurrentPeer
      { x.callState.deleted with
        sent := x.sent ++ [(x.peer_id, ⟨PeerConnectionClient.kByeMessage, x.peer_connection⟩)] }
  | created {bb : β} {packetType p : UInt32} (hnone : x.peer_connection = none)
    (hnews : x.news bb packetType = some (.response p 1) ∨ ∃ text, x.news bb packetType = some (.message p text)) :
    Outcome x (.packet bb packetType .created)
      { x.callState with peer_connection := some x.created, created := x.created + 1, peer_id := p }
  | refused {bb : β} {packetType p : UInt32} {r : Initialization}
    (hnews : x.news bb packetType = some (.response p Conductor.noPeer)) :
    Outcome x (.packet bb packetType r) { x.callState with peer_id := Conductor.noPeer }
  | closed {peer_id : UInt32} {call : Option Nat} {queue : List CallbackID}
    (hqueue : x.queue = .peerConnectionClosed peer_id call :: queue) :
    Outcome x .uiThreadCallback { x.callState.deleted with queue := queue }
  | rendered {callback : CallbackID} {queue : List CallbackID} (hqueue : x.queue = callback :: queue)
    (hother : ∀ msg, callback ≠ .sendMessageToPeer msg) :
    Outcome x .uiThreadCallback { x.callState with queue := queue }
  | waited {msg : Message} {queue : List CallbackID} (hqueue : x.queue = .sendMessageToPeer msg :: queue) :
    Outcome x .uiThreadCallback
      { x.callState with
        queue := queue
        pending_messages := x.pending_messages ++ [msg]
        peer_id := if x.peer_connection.isNone then Conductor.noPeer else x.peer_id }
  | sent {msg first : Message} {queue : List CallbackID} {pending : List Message}
    (hqueue : x.queue = .sendMessageToPeer msg :: queue) (hfirst : x.pending_messages ++ [msg] = first :: pending) :
    Outcome x .uiThreadCallback
      { x.callState with
        queue := queue
        pending_messages := pending
        sent := x.sent ++ [(x.peer_id, first)]
        peer_id := if x.peer_connection.isNone then Conductor.noPeer else x.peer_id }

end CallState

theorem Ends.map {ε σ τ : Type} {I : τ → Prop} {f : σ → τ} {r : Except ε σ} (h : Ends (fun s => I (f s)) r) :
    Ends I (r.map f) := by
  cases r with
  | error e => exact Ends.error
  | ok s => exact Ends.ok (h s rfl)

namespace Conductor

variable {β : Type} [ByteQueue β] {x : Conductor β}

/-- A call of the observer that is about no peer of a call. -/
def Idle : Callback → Prop
  | .onDisconnected | .onPeerDisconnected _ | .onPeerResponse _ _ | .onMessageFromPeer _ _ => False
  | _ => True

/-- What the observer is told of a packet with these news. -/
def Told : Option News → List Callback → Prop
  | none, callbacks => ∀ callback ∈ callbacks, Idle callback ∨ callback = .onDisconnected
  | some (.request _), callbacks => callbacks = []
  | some (.response peer_id code), callbacks => callbacks = [.onPeerResponse peer_id code]
  | some (.message peer_id text), callbacks => callbacks = [.onMessageFromPeer peer_id text]
  | some (.gone peer_id), callbacks => callbacks = [.onPeerDisconnected peer_id]

theorem Told.nil_of_none : Told none [] := fun _ hmem => absurd hmem List.not_mem_nil

theorem Told.disconnecting {callbacks : List Callback} {code : Int32}
    (h : ∀ callback ∈ callbacks, callback = .onDisconnected) :
    Told none (callbacks ++ [.onDisconnected] ++ [.postNotification code]) := by
  intro callback hmem
  simp only [List.mem_append, List.mem_singleton] at hmem
  rcases hmem with (hmem | rfl) | rfl
  · exact .inr (h callback hmem)
  · exact .inr rfl
  · exact .inl trivial

theorem handleErrorCode_told {c : PeerConnectionClient β} (hc : c.callbacks = []) (code : Int32) :
    Told none (c.handleErrorCode code).callbacks := by
  have hsignOut : ∀ callback ∈ c.signOut.callbacks, callback = .onDisconnected := by
    intro callback hmem
    unfold PeerConnectionClient.signOut at hmem
    split at hmem
    next => simp [hc] at hmem
    next =>
      split at hmem
      next =>
        have hmem : callback ∈ c.callbacks ++ [.onDisconnected] := hmem
        simpa [hc] using hmem
      next =>
        have hmem : callback ∈ c.callbacks := hmem
        simp [hc] at hmem
  exact Told.disconnecting hsignOut

theorem packet_told {p : Packet} {c : PeerConnectionClient β} (hc : c.callbacks = []) :
    Ends (fun c' : PeerConnectionClient β => c'.callbacks = []) (c.packet p) := by
  intro c' hok
  obtain ⟨out, sent, rfl⟩ := PeerConnectionClient.packet_changes hok
  exact hc

theorem packet_quiet {p : Packet} {c : PeerConnectionClient β} (hc : c.callbacks = []) :
    Ends (fun c' : PeerConnectionClient β => Told none c'.callbacks) (c.packet p) := by
  refine (packet_told hc).mono fun c' hnil => ?_
  rw [hnil]
  exact Told.nil_of_none

omit [ByteQueue β] in
theorem notify_one {c : PeerConnectionClient β} (hc : c.callbacks = []) (callback : Callback) :
    (c.notify callback).callbacks = [callback] := by
  simp [PeerConnectionClient.notify, hc]

omit [ByteQueue β] in
theorem notify_idle {c : PeerConnectionClient β} (hc : c.callbacks = []) {callback : Callback}
    (hidle : Idle callback) : Told none (c.notify callback).callbacks := by
  intro callback' hmem
  rw [notify_one hc, List.mem_singleton] at hmem
  rw [hmem]
  exact .inl hidle

omit [ByteQueue β] in
/-- What a handler tells the observer, if what its action tells is known. -/
theorem handling_told {α : Type} {r : Reader β α} {act : α → PeerConnectionClient β → Except Halt (PeerConnectionClient β)}
    {bb : β} {c : PeerConnectionClient β} {news : Option News} (hnone : (r bb).1 = none → Told news c.callbacks)
    (hact : ∀ a, (r bb).1 = some a → Ends (fun c' => Told news c'.callbacks) (act a c)) :
    Ends (fun handled : Bool × β × PeerConnectionClient β => Told news handled.2.2.callbacks)
      (handling r act bb c) := by
  unfold handling
  rcases hr : r bb with ⟨_ | a, bb'⟩
  · exact Ends.ok (hnone (by rw [hr]))
  · refine Ends.bind (hact a (by rw [hr])) fun c' hc' => ?_
    exact Ends.ok hc'

variable [Platform]

/-- Outside the game nobody is told of a peer. -/
theorem handlePacket_outside {c : PeerConnectionClient β} (bb : β) (packetType : UInt32)
    (hstate : c.protocolState ≠ 3) (hc : c.callbacks = []) :
    Ends (fun handled : Bool × β × PeerConnectionClient β => Told none handled.2.2.callbacks)
      (PeerConnectionClient.handlePacket bb packetType c) := by
  obtain ⟨c₁, hc₁⟩ : ∃ c₁, c₁ = c.record (packetType, (readAll bb).1) := ⟨_, rfl⟩
  have hcalls : c₁.callbacks = [] := by rw [hc₁]; exact hc
  have hquiet : Told none c₁.callbacks := by rw [hcalls]; exact Told.nil_of_none
  have houtside : c₁.protocolState ≠ 3 := by rw [hc₁]; exact hstate
  rw [PeerConnectionClient.handlePacket, ← hc₁]
  unfold PeerConnectionClient.dispatchPacket
  rw [if_neg houtside]
  split
  next =>
    split
    next =>
      refine handling_told (fun _ => hquiet) fun status _ => ?_
      unfold PeerConnectionClient.statusAnswered
      split
      next => exact Ends.ok hquiet
      next => exact packet_quiet hcalls
    next => exact Ends.ok hquiet
  next =>
    split
    next =>
      split
      next => exact handling_told (fun _ => hquiet) fun reason _ => Ends.ok (handleErrorCode_told hcalls reason)
      next =>
        split
        next => exact Ends.ok (notify_idle hcalls trivial)
        next => exact Ends.ok hquiet
    next =>
      split
      next => exact Ends.ok hquiet
      next => exact Ends.ok hquiet

theorem handlePacket_told {c : PeerConnectionClient β} (bb : β) (packetType : UInt32)
    (hstate : c.protocolState = x.client.protocolState) (hc : c.callbacks = []) :
    Ends (fun handled : Bool × β × PeerConnectionClient β => Told (x.news bb packetType) handled.2.2.callbacks)
      (PeerConnectionClient.handlePacket bb packetType c) := by
  by_cases hgame : x.client.protocolState ≠ 3
  · have hnews : x.news bb packetType = none := if_pos hgame
    rw [hnews]
    exact handlePacket_outside bb packetType (by rw [hstate]; exact hgame) hc
  · obtain ⟨c₁, hc₁⟩ : ∃ c₁, c₁ = c.record (packetType, (readAll bb).1) := ⟨_, rfl⟩
    have hcalls : c₁.callbacks = [] := by rw [hc₁]; exact hc
    have hquiet : Told none c₁.callbacks := by rw [hcalls]; exact Told.nil_of_none
    have hwork : c₁.protocolState = 3 := by
      rw [hc₁]
      exact hstate.trans (not_not.mp hgame)
    rw [PeerConnectionClient.handlePacket, ← hc₁, PeerConnectionClient.dispatchPacket_working hwork, news,
      if_neg hgame]
    by_cases hinfo : packetType = 0x01
    · subst hinfo
      rw [if_pos rfl, if_neg (by decide), if_pos rfl]
      refine handling_told (fun hread => by rw [hread]; exact hquiet) fun info hread => Ends.ok ?_
      rw [hread, Option.bind_some]
      unfold PeerConnectionClient.userInfo
      split
      next => exact notify_one (c := { c₁ with peers := _ }) hcalls _
      next => exact notify_idle (c := { c₁ with peers := _ }) hcalls trivial
    rw [if_neg hinfo, if_neg hinfo]
    by_cases hmedia : packetType = 0x11
    · subst hmedia
      rw [if_pos rfl, if_neg (by decide), if_pos rfl]
      refine handling_told (fun hread => by rw [hread]; exact hquiet) fun media hread => ?_
      rw [hread, Option.map_some]
      unfold PeerConnectionClient.mediaArrived
      split
      next => exact packet_told (c := { c₁ with isBusy := _ }) hcalls
      next => exact Ends.ok (notify_one hcalls _)
    rw [if_neg hmedia, if_neg hmedia]
    by_cases hmsg : packetType = 0x12
    · subst hmsg
      rw [if_pos rfl, if_neg (by decide), if_pos rfl]
      refine handling_told (fun hread => by rw [hread]; exact hquiet) fun media hread => Ends.ok ?_
      rw [hread, Option.map_some]
      unfold PeerConnectionClient.mediaMsgArrived
      split
      next => exact notify_one hcalls _
      next => exact notify_one hcalls _
    rw [if_neg hmsg, if_neg hmsg]
    split
    next => exact handling_told (fun _ => hquiet) fun keepAliveID _ => packet_quiet hcalls
    next =>
      split
      next => exact handling_told (fun _ => hquiet) fun reason _ => Ends.ok (handleErrorCode_told hcalls reason)
      next => exact Ends.ok hquiet

/-- News come with a packet of the game that is from a peer or about one. -/
theorem news_some {bb : β} {packetType : UInt32} {n : News} (h : x.news bb packetType = some n) :
    x.client.protocolState = 3 ∧
      ((packetType = 0x01 ∧ ∃ info, (PeerConnectionClient.readUserInfo bb).1 = some info ∧ n = .gone info.1) ∨
        (packetType = 0x11 ∧ ∃ media, (readMedia bb).1 = some media ∧
          n = if media.2 = 0 then .request media.1 else .response media.1 media.2) ∨
        (packetType = 0x12 ∧ ∃ media, (readMediaMsg bb).1 = some media ∧
          n = if media.2 = PeerConnectionClient.kByeMessage then .gone media.1 else .message media.1 media.2)) := by
  unfold news at h
  split at h
  next => cases h
  next hgame =>
    refine ⟨not_not.mp hgame, ?_⟩
    split at h
    next htype =>
      obtain ⟨info, hread, hgone⟩ := Option.bind_eq_some_iff.mp h
      split at hgone
      next =>
        cases hgone
        exact .inl ⟨htype, info, hread, rfl⟩
      next => cases hgone
    next =>
      split at h
      next htype =>
        obtain ⟨media, hread, hn⟩ := Option.map_eq_some_iff.mp h
        exact .inr (.inl ⟨htype, media, hread, hn.symm⟩)
      next =>
        split at h
        next htype =>
          obtain ⟨media, hread, hn⟩ := Option.map_eq_some_iff.mp h
          exact .inr (.inr ⟨htype, media, hread, hn.symm⟩)
        next => cases h

section Observing

variable {r : Initialization} {x' : Conductor β}

omit [Platform] in
theorem observe_idle {callback : Callback} (h : Idle callback) : x.observe r callback = .ok x := by
  cases callback with
  | onDisconnected => exact h.elim
  | onPeerDisconnected id => exact h.elim
  | onPeerResponse peer_id code => exact h.elim
  | onMessageFromPeer peer_id message => exact h.elim
  | onSignedIn => rfl
  | onPeerConnected id name => rfl
  | onServerConnectionFailure => rfl
  | postNotification code => rfl

omit [Platform] in
theorem observeAll_quiet {callbacks : List Callback} (h : Told none callbacks)
    (hok : observeAll r callbacks x = .ok x') :
    x'.callState = x.callState ∨ x'.callState = x.callState.deleted := by
  induction callbacks generalizing x with
  | nil =>
    cases hok
    exact .inl rfl
  | cons callback callbacks ih =>
    have hrest : Told none callbacks := fun callback' hmem => h callback' (List.mem_cons_of_mem _ hmem)
    rcases h callback List.mem_cons_self with hidle | rfl
    · rw [observeAll, observe_idle hidle] at hok
      exact ih hrest hok
    · rcases ih hrest (x := x.deletePeerConnection) hok with hnow | hnow
      · exact .inr hnow
      · exact .inr hnow

omit [Platform] in
theorem observeAll_singleton (callback : Callback) (x : Conductor β) :
    observeAll r [callback] x = x.observe r callback := by
  rw [observeAll]
  rcases x.observe r callback with h | x'
  · rfl
  · rfl

omit [Platform] in
theorem observeAll_one {callback : Callback} (hok : observeAll r [callback] x = .ok x') :
    x.observe r callback = .ok x' := by
  rw [← observeAll_singleton]
  exact hok

omit [ByteQueue β] [Platform] in
theorem onPeerResponse_cases {peer_id code : UInt32} (hok : x.onPeerResponse r peer_id code = .ok x') :
    x' = x ∨ x' = x.deletePeerConnection ∨
      code = 1 ∧ r = .created ∧ x.peer_connection = none ∧
        x' = { x with peer_connection := some x.created, created := x.created + 1, peer_id := peer_id } ∨
      code = noPeer ∧ x' = { x with peer_id := noPeer } := by
  unfold onPeerResponse at hok
  split at hok
  next hcode =>
    split at hok
    next =>
      cases hok
      exact .inl rfl
    next hnone =>
      cases r with
      | created =>
        cases hok
        exact .inr (.inr (.inl ⟨hcode, rfl, by simpa using hnone, rfl⟩))
      | noFactory =>
        cases hok
        exact .inr (.inl rfl)
      | noConnection => cases hok
  next =>
    split at hok
    next hcode =>
      cases hok
      exact .inr (.inr (.inr ⟨hcode, rfl⟩))
    next =>
      cases hok
      exact .inl rfl

omit [Platform] in
theorem signOut_cases (x : Conductor β) :
    x.signOut.callState = x.callState ∨ x.signOut.callState = x.callState.deleted := by
  unfold signOut
  split
  next => exact .inr rfl
  next => exact .inl rfl

omit [Platform] in
theorem onMessageFromPeer_cases {peer_id : UInt32} {text : AString}
    (hok : x.onMessageFromPeer r peer_id text = .ok x') :
    x'.callState = x.callState ∨ x'.callState = x.callState.deleted ∨
      r = .created ∧ x.peer_connection = none ∧ x'.callState =
        { x.callState with peer_connection := some x.created, created := x.created + 1, peer_id := peer_id } := by
  unfold onMessageFromPeer at hok
  split at hok
  next hnone =>
    cases r with
    | created =>
      cases hok
      exact .inr (.inr ⟨rfl, by simpa using hnone, rfl⟩)
    | noFactory =>
      cases hok
      rcases signOut_cases { x with peer_id := peer_id }.deletePeerConnection with hsame | hsame
      · exact .inr (.inl hsame)
      · exact .inr (.inl hsame)
    | noConnection => cases hok
  next =>
    split at hok
    next =>
      cases hok
      exact .inl rfl
    next =>
      cases hok
      exact .inl rfl

/-- What the client tells of a packet, the conductor observes. -/
theorem packet_observed {bb : β} {packetType : UInt32} (hok : x.step (.packet bb packetType r) = .ok x') :
    ∃ c : PeerConnectionClient β, Told (x.news bb packetType) c.callbacks ∧
      observeAll r c.callbacks { x with client := c } = .ok x' := by
  obtain ⟨c, hc, hobserved⟩ := bind_ok_iff.mp hok
  refine ⟨c, ?_, hobserved⟩
  exact Ends.map (I := fun c => Told (x.news bb packetType) c.callbacks)
    (handlePacket_told (c := { x.client with callbacks := [], isBusy := fun _ => x.isBusy }) bb packetType rfl rfl)
    c hc

theorem packet_outcome {bb : β} {packetType : UInt32} (hok : x.step (.packet bb packetType r) = .ok x') :
    CallState.Outcome x (.packet bb packetType r) x'.callState := by
  obtain ⟨c, htold, hobserved⟩ := packet_observed hok
  rcases hnews : x.news bb packetType with _ | news
  · rw [hnews] at htold
    rcases observeAll_quiet htold hobserved with hsame | hsame
    · rw [hsame]
      exact .same
    · rw [hsame]
      exact .deleted (by rintro ⟨⟩)
  rw [hnews] at htold
  cases news with
  | request peer_id =>
    rw [show c.callbacks = [] from htold] at hobserved
    cases hobserved
    exact .same
  | response peer_id code =>
    rw [show c.callbacks = [.onPeerResponse peer_id code] from htold] at hobserved
    rcases onPeerResponse_cases (observeAll_one hobserved) with rfl | rfl | ⟨rfl, rfl, hnone, rfl⟩ | ⟨rfl, rfl⟩
    · exact .same
    · exact .deleted (by rintro ⟨⟩)
    · exact .created hnone (.inl hnews)
    · exact .refused hnews
  | message peer_id text =>
    rw [show c.callbacks = [.onMessageFromPeer peer_id text] from htold] at hobserved
    rcases onMessageFromPeer_cases (observeAll_one hobserved) with hsame | hsame | ⟨rfl, hnone, hsame⟩
    · rw [hsame]
      exact .same
    · rw [hsame]
      exact .deleted (by rintro ⟨⟩)
    · rw [hsame]
      exact .created hnone (.inr ⟨text, hnews⟩)
  | gone peer_id =>
    rw [show c.callbacks = [.onPeerDisconnected peer_id] from htold] at hobserved
    have hone := observeAll_one hobserved
    rw [observe, onPeerDisconnected] at hone
    split at hone
    next =>
      cases hone
      exact .queued fun _ hsend => by cases hsend
    next =>
      cases hone
      exact .same

/-- Turns send messages in the order in which they wait. -/
theorem uiThreadCallback_outcome (hok : x.uiThreadCallback = .ok x') :
    CallState.Outcome x .uiThreadCallback x'.callState := by
  unfold uiThreadCallback at hok
  split at hok
  next =>
    cases hok
    exact .same
  next peer_id call queue hqueue =>
    cases hok
    exact .closed hqueue
  next msg queue hqueue =>
    obtain ⟨x₁, hpending, hafter⟩ := bind_ok_iff.mp hok
    have hpeer : x'.callState = { x₁.callState with
        peer_id := if x₁.peer_connection.isNone then noPeer else x₁.peer_id } := by
      split at hafter
      next hnone =>
        cases hafter
        rw [if_pos hnone]
        rfl
      next hsome =>
        cases hafter
        rw [if_neg hsome]
        rfl
    rw [hpeer]
    unfold sendPending at hpending
    split at hpending
    next hnil => simp at hnil
    next first pending hfirst =>
      split at hpending
      next =>
        cases hpending
        exact .waited hqueue
      next =>
        obtain ⟨c, _, hsent⟩ := bind_ok_iff.mp hpending
        cases hsent
        exact .sent hqueue hfirst
  next queue hqueue =>
    cases hok
    exact .rendered hqueue fun _ hsend => by cases hsend
  next queue hqueue =>
    cases hok
    exact .rendered hqueue fun _ hsend => by cases hsend

/-- A call of the client of which the observer hears nothing. -/
theorem act_quiet {f : PeerConnectionClient β → Except Halt (PeerConnectionClient β)} {e : ConductorEvent β}
    (hturn : e ≠ .uiThreadCallback)
    (hf : ∀ c : PeerConnectionClient β, c.callbacks = [] → Ends (fun c' => Told none c'.callbacks) (f c))
    (hok : x.act r f = .ok x') : CallState.Outcome x e x'.callState := by
  obtain ⟨c, hc, hobserved⟩ := bind_ok_iff.mp hok
  rcases observeAll_quiet (hf { x.client with callbacks := [], isBusy := fun _ => x.isBusy } rfl c hc) hobserved
    with hsame | hsame
  · rw [hsame]
    exact .same
  · rw [hsame]
    exact .deleted hturn

theorem step_outcome {e : ConductorEvent β} (hok : x.step e = .ok x') : CallState.Outcome x e x'.callState := by
  have hsignOut : ∀ {e : ConductorEvent β}, e ≠ .uiThreadCallback → CallState.Outcome x e x.signOut.callState := by
    intro e hturn
    rcases signOut_cases x with hsame | hsame
    · rw [hsame]
      exact .same
    · rw [hsame]
      exact .deleted hturn
  cases e with
  | startLogin username password =>
    rw [step] at hok
    split at hok
    next =>
      cases hok
      exact .same
    next =>
      refine act_quiet (by rintro ⟨⟩) (fun c hc => Ends.ok ?_) hok
      unfold PeerConnectionClient.connect
      split
      next => exact notify_idle hc trivial
      next =>
        have hnil : ({ c with username := username, password := password, state := .signingIn } :
          PeerConnectionClient β).callbacks = [] := hc
        rw [hnil]
        exact Told.nil_of_none
  | connectToPeer peer_id => exact act_quiet (by rintro ⟨⟩) (fun c hc => packet_quiet hc) hok
  | disconnectFromCurrentPeer =>
    rw [step, disconnectFromCurrentPeer] at hok
    split at hok
    next hcall =>
      obtain ⟨x₁, hsent, hdeleted⟩ := bind_ok_iff.mp hok
      obtain ⟨c, _, hx₁⟩ := bind_ok_iff.mp hsent
      cases hx₁
      cases hdeleted
      exact .hungUp hcall
    next =>
      cases hok
      exact .same
  | disconnectFromServer =>
    rw [step] at hok
    split at hok
    next =>
      cases hok
      exact hsignOut (by rintro ⟨⟩)
    next =>
      cases hok
      exact .same
  | close =>
    cases hok
    have hdeleted : x.signOut.deletePeerConnection.callState = x.callState.deleted := by
      rcases signOut_cases x with hsame | hsame
      · exact congrArg CallState.deleted hsame
      · exact congrArg CallState.deleted hsame
    rw [hdeleted]
    exact .deleted (by rintro ⟨⟩)
  | opened => exact act_quiet (by rintro ⟨⟩) (fun c hc => packet_quiet (c := { c with isConnected := true }) hc) hok
  | closed => exact act_quiet (by rintro ⟨⟩) (fun c hc => Ends.ok (notify_idle (c := c.close) hc
      (show Idle .onServerConnectionFailure from trivial))) hok
  | packet bb packetType r => exact packet_outcome hok
  | iceGatheringComplete text =>
    cases hok
    exact .sendMessage text
  | addStream =>
    cases hok
    exact .queued fun _ hsend => by cases hsend
  | removeStream =>
    cases hok
    exact .queued fun _ hsend => by cases hsend
  | uiThreadCallback => exact uiThreadCallback_outcome hok

end Observing

end Conductor

end P2PChat

import P2PChat.CrossingSteps

namespace P2PChat

open ByteQueue ByteBuffer

namespace CrossingCalls

section Definitions

/-- A client without a call, and with nothing that waits for the UI thread. -/
structure Resting (x : Conductor ByteBuffer) : Prop where
  ready : x.client.Ready
  peer_connection : x.peer_connection = none
  queue : x.queue = []
  pending_messages : x.pending_messages = []

/-- The UI thread does not end the call with this. -/
def Lasting : CallbackID → Prop
  | .peerConnectionClosed _ _ => False
  | .sendMessageToPeer msg => msg.text ≠ PeerConnectionClient.kByeMessage
  | _ => True

/-- A client in a call with this peer, which nothing that waits ends. -/
structure Calling (peer_id : UInt32) (x : Conductor ByteBuffer) : Prop where
  ready : x.client.Ready
  peer_connection : x.peer_connection.isSome = true
  peer_id : x.peer_id = peer_id
  queue : ∀ callback ∈ x.queue, Lasting callback
  pending_messages : ∀ msg ∈ x.pending_messages, msg.text ≠ PeerConnectionClient.kByeMessage

/-- A client that has signed out, and has nothing that waits. -/
structure Gone (x : Conductor ByteBuffer) : Prop where
  isConnected : x.client.isConnected = false
  peer_connection : x.peer_connection = none
  queue : x.queue = []

/-- How far the callee is: the requests come before the texts. -/
inductive Answering (id peer_id : UInt32) (x : Conductor ByteBuffer) (inbox : List Packet) : Prop
  | waiting (rests : Resting x) {requests texts : List Packet} (hinbox : inbox = requests ++ texts)
    (hrequests : ∀ p ∈ requests, p = mediaPacket peer_id 0) (htexts : ∀ p ∈ texts, Text peer_id p)
  | talking (calls : Calling peer_id x) (htexts : ∀ p ∈ inbox, Text peer_id p)
  | left (gone : Gone x)

/-- How far a call is. -/
inductive Phase (ids : Bool → UInt32) (caller callee : Bool) (s : CrossingCalls ByteBuffer) : Prop
  | ringing (resting : Resting (s.conductor caller)) (resting' : Resting (s.conductor callee))
    (requests : ∀ p ∈ s.inbox callee, p = mediaPacket (ids caller) 0)
    (answers : ∀ p ∈ s.inbox caller, p = mediaPacket (ids callee) 1)
    (offers : s.offers caller = 0) (offers' : s.offers callee = 0)
  | talking (calls : Calling (ids callee) (s.conductor caller))
    (answers : ∀ p ∈ s.inbox caller, p = mediaPacket (ids callee) 1 ∨ Text (ids callee) p)
    (answering : Answering (ids callee) (ids caller) (s.conductor callee) (s.inbox callee))
    (offers : s.offers caller = 1) (offers' : s.offers callee = 0)

end Definitions

variable [Platform]

section Sides

variable {x x' : Conductor ByteBuffer} {r : Initialization}

omit [Platform] in
theorem Resting.same (h : Resting x) (hready : x'.client.Ready) (hsame : x'.callState = x.callState) : Resting x' :=
  ⟨hready, (congrArg CallState.peer_connection hsame).trans h.peer_connection,
    (congrArg CallState.queue hsame).trans h.queue, (congrArg CallState.pending_messages hsame).trans h.pending_messages⟩

/-- A client that signs out without a connection to close goes on as it is. -/
theorem signOut_rests (h : Resting x) :
    x.signOut.client.sent = x.client.sent ∧ (Resting x.signOut ∨ Gone x.signOut) := by
  have hopen := h.ready.isConnected
  unfold Conductor.signOut PeerConnectionClient.signOut PeerConnectionClient.closes
  by_cases hstate : x.client.state = .notConnected ∨ x.client.state = .signingOut
  · have hno : (x.client.state != .notConnected && x.client.state != .signingOut && x.client.isConnected) = false := by
      rcases hstate with hstate | hstate
      · simp [hstate]
      · simp [hstate]
    rw [hno, if_neg (by decide), if_pos hstate]
    exact ⟨rfl, .inl ⟨h.ready, h.peer_connection, h.queue, h.pending_messages⟩⟩
  · have hyes : (x.client.state != .notConnected && x.client.state != .signingOut && x.client.isConnected) = true := by
      simpa [hopen, not_or] using hstate
    rw [hyes, if_pos rfl, if_neg hstate, if_pos hopen]
    exact ⟨rfl, .inr ⟨rfl, rfl, h.queue⟩⟩

/-- An answer makes a connection, or finds no factory. -/
theorem Resting.answered {id : UInt32} (h : Resting x)
    (hok : x.step (.packet (received (mediaPacket id 1)) 0x11 r) = .ok x') :
    x'.client.sent = x.client.sent ∧
      (Calling id x' ∧ x'.created = x.created + 1 ∨ Resting x' ∧ x'.created = x.created) := by
  obtain ⟨c, hc, hsent, hstep⟩ := answer_step (r := r) id h.ready
  rw [hstep, Conductor.onPeerResponse, if_pos rfl, if_neg (by simp [h.peer_connection])] at hok
  cases r with
  | created =>
    cases hok
    refine ⟨hsent, .inl ⟨⟨hc, rfl, rfl, ?_, ?_⟩, rfl⟩⟩
    · rw [show x.queue = [] from h.queue]
      exact List.forall_mem_nil _
    · rw [show x.pending_messages = [] from h.pending_messages]
      exact List.forall_mem_nil _
  | noFactory =>
    cases hok
    exact ⟨hsent, .inr ⟨⟨hc, rfl, h.queue, h.pending_messages⟩, rfl⟩⟩
  | noConnection => cases hok

/-- In a call an answer changes nothing. -/
theorem Calling.answered {id peer_id : UInt32} (h : Calling peer_id x)
    (hok : x.step (.packet (received (mediaPacket id 1)) 0x11 r) = .ok x') :
    Calling peer_id x' ∧ x'.client.sent = x.client.sent ∧ x'.created = x.created := by
  obtain ⟨c, hc, hsent, hstep⟩ := answer_step (r := r) id h.ready
  have hcall : ({ x with client := c } : Conductor ByteBuffer).peer_connection.isSome = true := h.peer_connection
  rw [hstep, Conductor.onPeerResponse, if_pos rfl, if_pos hcall] at hok
  cases hok
  exact ⟨⟨hc, h.peer_connection, h.peer_id, h.queue, h.pending_messages⟩, hsent, rfl⟩

/-- A text makes a connection, or the client signs out without a factory. -/
theorem Resting.told {id : UInt32} {p : Packet} (hp : Text id p) (h : Resting x)
    (hok : x.step (.packet (received p) p.type r) = .ok x') :
    x'.client.sent = x.client.sent ∧ (Calling id x' ∨ Resting x' ∨ Gone x') := by
  obtain ⟨text, hlen, hbye, rfl⟩ := hp
  obtain ⟨c, hc, hsent, hstep⟩ := text_step (r := r) id hlen hbye h.ready
  have hnone : ({ x with client := c } : Conductor ByteBuffer).peer_connection.isNone = true := by
    simp [h.peer_connection]
  rw [show (mediaMsgPacket id text).type = 0x12 from rfl, hstep, Conductor.onMessageFromPeer, if_pos hnone] at hok
  cases r with
  | created =>
    cases hok
    refine ⟨hsent, .inl ⟨hc, rfl, rfl, ?_, ?_⟩⟩
    · rw [show x.queue = [] from h.queue]
      exact nofun
    · rw [show x.pending_messages = [] from h.pending_messages]
      exact nofun
  | noFactory =>
    cases hok
    have hrests : Resting (({ x with client := c, peer_id := id } : Conductor ByteBuffer).deletePeerConnection) :=
      ⟨hc, rfl, h.queue, h.pending_messages⟩
    obtain ⟨hsame, hafter⟩ := signOut_rests hrests
    exact ⟨hsame.trans hsent, .inr hafter⟩
  | noConnection => cases hok

/-- In a call the texts of the peer are taken. -/
theorem Calling.told {id : UInt32} {p : Packet} (hp : Text id p) (h : Calling id x)
    (hok : x.step (.packet (received p) p.type r) = .ok x') :
    Calling id x' ∧ x'.client.sent = x.client.sent ∧ x'.created = x.created := by
  obtain ⟨text, hlen, hbye, rfl⟩ := hp
  obtain ⟨c, hc, hsent, hstep⟩ := text_step (r := r) id hlen hbye h.ready
  have hcall : ({ x with client := c } : Conductor ByteBuffer).peer_connection.isNone = false := by
    simpa using h.peer_connection
  have hpeer : id = ({ x with client := c } : Conductor ByteBuffer).peer_id := h.peer_id.symm
  rw [show (mediaMsgPacket id text).type = 0x12 from rfl, hstep, Conductor.onMessageFromPeer, hcall,
    if_neg (by decide), if_neg (not_not.mpr hpeer)] at hok
  cases hok
  exact ⟨⟨hc, h.peer_connection, h.peer_id, h.queue, h.pending_messages⟩, hsent, rfl⟩

omit [Platform] in
theorem Calling.rest {id : UInt32} {callback : CallbackID} {queue : List CallbackID} (h : Calling id x)
    (hqueue : x.queue = callback :: queue) : Calling id { x with queue := queue } := by
  refine ⟨h.ready, h.peer_connection, h.peer_id, fun callback' hmem => ?_, h.pending_messages⟩
  exact h.queue callback' (by rw [hqueue]; exact List.mem_cons_of_mem _ hmem)

omit [Platform] in
theorem Calling.queued {id : UInt32} {callback : CallbackID} (h : Calling id x) (hlasting : Lasting callback) :
    Calling id (x.queueUIThreadCallback callback) := by
  refine ⟨h.ready, h.peer_connection, h.peer_id, fun callback' hmem => ?_, h.pending_messages⟩
  rcases List.mem_append.mp hmem with hmem | hmem
  · exact h.queue callback' hmem
  · rw [List.mem_singleton.mp hmem]
    exact hlasting

/-- The first message that waits is sent to the peer, or all of them wait on. -/
theorem Calling.sendPending {ids : Bool → UInt32} {who : Bool} (h : Calling (ids !who) x)
    (hok : x.sendPending = .ok x') :
    Calling (ids !who) x' ∧ (∀ p ∈ emitted ids who x x', Text (ids who) p) ∧ x'.created = x.created := by
  have hsame : ∀ p ∈ emitted ids who x x, Text (ids who) p := by
    rw [emitted_none rfl]
    exact nofun
  unfold Conductor.sendPending at hok
  split at hok
  next =>
    cases hok
    exact ⟨h, hsame, rfl⟩
  next msg pending hpending =>
    split at hok
    next =>
      cases hok
      exact ⟨h, hsame, rfl⟩
    next =>
      obtain ⟨c, hc, hsent⟩ := bind_ok_iff.mp hok
      cases hsent
      have hbye := h.pending_messages msg (by rw [hpending]; exact List.mem_cons_self)
      obtain ⟨hready, hsent, hlen⟩ := h.ready.packet hc
      have hpeer : ({ x with pending_messages := pending } : Conductor ByteBuffer).peer_id = ids !who := h.peer_id
      rw [hpeer] at hsent hlen
      refine ⟨⟨hready, h.peer_connection, h.peer_id, h.queue, fun msg' hmem => ?_⟩, emitted_text hbye hsent hlen, rfl⟩
      exact h.pending_messages msg' (by rw [hpending]; exact List.mem_cons_of_mem _ hmem)

/-- A turn of the UI thread sends at most a text to the peer. -/
theorem Calling.turn {ids : Bool → UInt32} {who : Bool} (h : Calling (ids !who) x)
    (hok : x.step .uiThreadCallback = .ok x') :
    Calling (ids !who) x' ∧ (∀ p ∈ emitted ids who x x', Text (ids who) p) ∧ x'.created = x.created := by
  have hquiet : ∀ {y : Conductor ByteBuffer}, y.client.sent = x.client.sent →
      ∀ p ∈ emitted ids who x y, Text (ids who) p := by
    intro y hsent
    rw [emitted_none hsent]
    exact nofun
  rw [Conductor.step, Conductor.uiThreadCallback] at hok
  split at hok
  next =>
    cases hok
    exact ⟨h, hquiet rfl, rfl⟩
  next id call queue hqueue =>
    have hclosed : Lasting (.peerConnectionClosed id call) := h.queue _ (by rw [hqueue]; exact List.mem_cons_self)
    exact hclosed.elim
  next msg queue hqueue =>
    have hbye : msg.text ≠ PeerConnectionClient.kByeMessage :=
      h.queue (.sendMessageToPeer msg) (by rw [hqueue]; exact List.mem_cons_self)
    have hrest := h.rest hqueue
    have hadded : Calling (ids !who) { x with queue := queue, pending_messages := x.pending_messages ++ [msg] } := by
      refine ⟨hrest.ready, hrest.peer_connection, hrest.peer_id, hrest.queue, fun msg' hmem => ?_⟩
      rcases List.mem_append.mp hmem with hmem | hmem
      · exact h.pending_messages msg' hmem
      · rw [List.mem_singleton.mp hmem]
        exact hbye
    obtain ⟨x₁, hsent, hafter⟩ := bind_ok_iff.mp hok
    obtain ⟨hcalls, htexts, hcreated⟩ := hadded.sendPending hsent
    rw [if_neg (by simpa using Option.isSome_iff_ne_none.mp hcalls.peer_connection)] at hafter
    cases hafter
    exact ⟨hcalls, htexts, hcreated⟩
  next queue hqueue =>
    cases hok
    exact ⟨h.rest hqueue, hquiet rfl, rfl⟩
  next queue hqueue =>
    cases hok
    exact ⟨h.rest hqueue, hquiet rfl, rfl⟩

end Sides

/-- All that one of the two can do. -/
inductive Turn (ids : Bool → UInt32) (s : CrossingCalls ByteBuffer) (who : Bool) :
    CallEvent → Conductor ByteBuffer → Prop
  | connectToPeer {x' : Conductor ByteBuffer} (hok : (s.conductor who).step (.connectToPeer (ids !who)) = .ok x') :
    Turn ids s who .connectToPeer x'
  | deliver {r : Initialization} {p : Packet} {inbox : List Packet} {x' : Conductor ByteBuffer}
    (hinbox : s.inbox who = p :: inbox) (hopen : (s.conductor who).client.isConnected = true)
    (hok : (s.conductor who).step (.packet (received p) p.type r) = .ok x') : Turn ids s who (.deliver r) x'
  | queued {e : CallEvent} {callback : CallbackID} (hcall : (s.conductor who).peer_connection.isSome = true)
    (hlasting : Lasting callback) (hother : e ≠ .connectToPeer ∧ ∀ r, e ≠ .deliver r) :
    Turn ids s who e ((s.conductor who).queueUIThreadCallback callback)
  | uiThreadCallback {x' : Conductor ByteBuffer} (hqueue : (s.conductor who).queue ≠ [])
    (hok : (s.conductor who).step .uiThreadCallback = .ok x') : Turn ids s who .uiThreadCallback x'

section Steps

variable {ids : Bool → UInt32} {s s' : CrossingCalls ByteBuffer} {who other : Bool} {e : CallEvent}

theorem step_turn (henabled : s.enabled ids (who, e) = true) (hok : s.step ids (who, e) = .ok s') :
    ∃ x', Turn ids s who e x' ∧ s' = s.after ids who e x' := by
  obtain ⟨hevent, hmore⟩ := Bool.and_eq_true_iff.mp henabled
  obtain ⟨event, hsome, hcan⟩ := (Option.any_eq_true _ _).mp hevent
  unfold step at hok
  dsimp only at hok hsome hcan hmore
  rw [hsome] at hok
  dsimp only at hok
  obtain ⟨x', hx', rfl⟩ : ∃ x', (s.conductor who).step event = .ok x' ∧ s.after ids who e x' = s' := by
    rcases hx : (s.conductor who).step event with halt | x'
    · rw [hx] at hok
      cases hok
    · rw [hx] at hok
      exact ⟨x', rfl, Except.ok.inj hok⟩
  refine ⟨x', ?_, rfl⟩
  cases e with
  | connectToPeer =>
    cases hsome
    exact .connectToPeer hx'
  | deliver r =>
    obtain ⟨p, hp, rfl⟩ := Option.map_eq_some_iff.mp hsome
    obtain ⟨inbox, hinbox⟩ := List.head?_eq_some_iff.mp hp
    exact .deliver hinbox hcan hx'
  | iceGatheringComplete message =>
    cases hsome
    cases hx'
    exact .queued hcan (show Lasting (.sendMessageToPeer _) from bne_iff_ne.mp hmore) ⟨nofun, nofun⟩
  | addStream =>
    cases hsome
    cases hx'
    exact .queued hcan trivial ⟨nofun, nofun⟩
  | removeStream =>
    cases hsome
    cases hx'
    exact .queued hcan trivial ⟨nofun, nofun⟩
  | uiThreadCallback =>
    cases hsome
    exact .uiThreadCallback (by simpa [Conductor.enabled] using hcan) hx'

variable {x' : Conductor ByteBuffer}

theorem Resting.turn (h : Resting (s.conductor who)) (hturn : Turn ids s who e x') :
    e = .connectToPeer ∨ ∃ r, e = .deliver r := by
  cases hturn with
  | connectToPeer hok => exact .inl rfl
  | deliver hinbox hopen hok => exact .inr ⟨_, rfl⟩
  | queued hcall hlasting hother => simp [h.peer_connection] at hcall
  | uiThreadCallback hqueue hok => exact absurd h.queue hqueue

omit [Platform] in
theorem mem_rest {p : Packet} {inbox : List Packet} (h : p ∈ rest e inbox) : p ∈ inbox := by
  cases e with
  | deliver r => exact List.mem_of_mem_tail h
  | connectToPeer => exact h
  | iceGatheringComplete message => exact h
  | addStream => exact h
  | removeStream => exact h
  | uiThreadCallback => exact h

/-- A client in a call stays in it, and sends nothing but texts. -/
theorem Calling.move (h : Calling (ids !who) (s.conductor who)) (hturn : Turn ids s who e x')
    (he : e ≠ .connectToPeer)
    (hinbox : ∀ p ∈ s.inbox who, p = mediaPacket (ids !who) 1 ∨ Text (ids !who) p) :
    Calling (ids !who) x' ∧ (∀ p ∈ emitted ids who (s.conductor who) x', Text (ids who) p) ∧
      x'.created = (s.conductor who).created := by
  have hquiet : ∀ {y : Conductor ByteBuffer}, y.client.sent = (s.conductor who).client.sent →
      ∀ p ∈ emitted ids who (s.conductor who) y, Text (ids who) p := by
    intro y hsent
    rw [emitted_none hsent]
    exact nofun
  cases hturn with
  | connectToPeer hok => exact absurd rfl he
  | @deliver r p inbox x' hhead hopen hok =>
    rcases hinbox p (by rw [hhead]; exact List.mem_cons_self) with rfl | htext
    · obtain ⟨hcalls, hsent, hcreated⟩ := h.answered hok
      exact ⟨hcalls, hquiet hsent, hcreated⟩
    · obtain ⟨hcalls, hsent, hcreated⟩ := h.told htext hok
      exact ⟨hcalls, hquiet hsent, hcreated⟩
  | queued hcall hlasting hother => exact ⟨h.queued hlasting, hquiet rfl, rfl⟩
  | uiThreadCallback hqueue hok => exact h.turn hok

section After

omit [Platform] in
theorem offered_same {x : Conductor ByteBuffer} {inbox : List Packet} (h : x'.created = x.created) :
    offered inbox e x x' = 0 := by
  unfold offered
  split
  next => simp [h]
  next => rfl

omit [Platform] in
theorem offered_text {x : Conductor ByteBuffer} {id : UInt32} {p : Packet} {inbox later : List Packet}
    (hhead : inbox = p :: later) (hp : Text id p) : offered inbox e x x' = 0 := by
  obtain ⟨text, _, _, rfl⟩ := hp
  unfold offered
  split
  next => simp [hhead, mediaMsgPacket]
  next => rfl

theorem after_mover (ids : Bool → UInt32) (who : Bool) (e : CallEvent) (x' : Conductor ByteBuffer)
    (s : CrossingCalls ByteBuffer) :
    (s.after ids who e x').conductor who = x' ∧
    (s.after ids who e x').inbox who = rest e (s.inbox who) ∧
    (s.after ids who e x').offers who = s.offers who + offered (s.inbox who) e (s.conductor who) x' :=
  ⟨Function.update_self _ _ _, if_pos rfl, Function.update_self _ _ _⟩

theorem after_other (ids : Bool → UInt32) (e : CallEvent) (x' : Conductor ByteBuffer) (s : CrossingCalls ByteBuffer)
    (hother : other ≠ who) : (s.after ids who e x').conductor other = s.conductor other ∧
    (s.after ids who e x').inbox other = s.inbox other ++ emitted ids who (s.conductor who) x' ∧
    (s.after ids who e x').offers other = s.offers other :=
  ⟨Function.update_of_ne hother _ _, if_neg hother, Function.update_of_ne hother _ _⟩

end After

section Phases

variable {caller callee : Bool}

omit [Platform] in
theorem Answering.append {id peer_id : UInt32} {x : Conductor ByteBuffer} {inbox texts : List Packet}
    (h : Answering id peer_id x inbox) (hmore : ∀ p ∈ texts, Text peer_id p) :
    Answering id peer_id x (inbox ++ texts) := by
  cases h with
  | @waiting rests requests texts' hinbox hrequests htexts =>
    refine .waiting rests (by rw [hinbox, List.append_assoc]) hrequests ?_
    exact List.forall_mem_append.mpr ⟨htexts, hmore⟩
  | talking calls htexts => exact .talking calls (List.forall_mem_append.mpr ⟨htexts, hmore⟩)
  | left gone => exact .left gone

theorem Phase.caller_step (h : Phase ids caller callee s) (hcallee : callee = !caller)
    (halone : alone ids s (caller, e)) (hturn : Turn ids s caller e x') :
    Phase ids caller callee (s.after ids caller e x') := by
  subst hcallee
  obtain ⟨hx, hinbox, hoffers⟩ := after_mover ids caller e x' s
  obtain ⟨hy, hinbox', hoffers'⟩ := after_other ids e x' s
    (show (!caller) ≠ caller by simp)
  cases h with
  | ringing hrests hrests' hrequests hanswers ho ho' =>
    have hleft : ∀ p ∈ rest e (s.inbox caller), p = mediaPacket (ids !caller) 1 :=
      fun p hmem => hanswers p (mem_rest hmem)
    rw [← hinbox] at hleft
    rw [← hy] at hrests'
    rw [← hoffers'] at ho'
    rcases hrests.turn hturn with rfl | ⟨r, rfl⟩
    · cases hturn with
      | connectToPeer hok =>
        obtain ⟨hready, hsame, hsent, hlen⟩ := act_packet hrests.ready hok
        refine .ringing (by rw [hx]; exact hrests.same hready hsame) hrests' ?_ hleft (by rw [hoffers, ho]; rfl) ho'
        rw [hinbox', emitted_media hsent hlen]
        exact List.forall_mem_append.mpr ⟨hrequests, List.forall_mem_singleton.mpr rfl⟩
      | queued hcall hlasting hnot => exact absurd rfl hnot.1
    · cases hturn with
      | @deliver _ p inbox _ hhead hopen hok =>
        obtain rfl := hanswers p (by rw [hhead]; exact List.mem_cons_self)
        obtain ⟨hsent, hanswered⟩ := hrests.answered hok
        have hcallee : (s.after ids caller (.deliver r) x').inbox (!caller) = s.inbox !caller := by
          rw [hinbox', emitted_none hsent, List.append_nil]
        rcases hanswered with ⟨hcalls, hcreated⟩ | ⟨hrests₁, hcreated⟩
        · refine .talking (by rw [hx]; exact hcalls) (fun p hmem => .inl (hleft p hmem)) ?_ ?_ ho'
          · exact .waiting hrests' (hcallee.trans (List.append_nil _).symm) hrequests nofun
          · have hmade : offered (s.inbox caller) (.deliver r) (s.conductor caller) x' = 1 := by
              rw [offered, hhead]
              exact if_pos ⟨by omega, rfl⟩
            rw [hoffers, ho, hmade]
        · refine .ringing (by rw [hx]; exact hrests₁) hrests' ?_ hleft ?_ ho'
          · rw [hcallee]
            exact hrequests
          · rw [hoffers, ho, offered_same hcreated]
      | queued hcall hlasting hnot => exact absurd rfl (hnot.2 r)
  | talking hcalls hanswers hanswering ho ho' =>
    by_cases he : e = .connectToPeer
    · have hnone : (s.conductor caller).peer_connection = none := (halone he).1
      exact absurd hcalls.peer_connection (by simp [hnone])
    · obtain ⟨hcalls', htexts, hcreated⟩ := hcalls.move hturn he hanswers
      refine .talking (by rw [hx]; exact hcalls') ?_ ?_ ?_ (by rw [hoffers', ho'])
      · rw [hinbox]
        exact fun p hmem => hanswers p (mem_rest hmem)
      · rw [hy, hinbox']
        exact hanswering.append htexts
      · rw [hoffers, ho, offered_same hcreated]

theorem Phase.callee_step (h : Phase ids caller callee s) (hcaller : caller = !callee)
    (halone : alone ids s (callee, e)) (hturn : Turn ids s callee e x') :
    Phase ids caller callee (s.after ids callee e x') ∨ Phase ids callee caller (s.after ids callee e x') := by
  subst hcaller
  obtain ⟨hx, hinbox, hoffers⟩ := after_mover ids callee e x' s
  obtain ⟨hy, hinbox', hoffers'⟩ := after_other ids e x' s
    (show (!callee) ≠ callee by simp)
  cases h with
  | ringing hrests' hrests hrequests hanswers ho' ho =>
    rw [← hy] at hrests'
    rw [← hoffers'] at ho'
    rcases hrests.turn hturn with rfl | ⟨r, rfl⟩
    · cases hturn with
      | connectToPeer hok =>
        obtain ⟨hready, hsame, hsent, hlen⟩ := act_packet hrests.ready hok
        obtain ⟨_, _, hown, hreplies⟩ := halone rfl
        refine .inr (.ringing (by rw [hx]; exact hrests.same hready hsame) hrests' ?_ ?_ (by rw [hoffers, ho]; rfl) ho')
        · rw [hinbox', emitted_media hsent hlen]
          exact List.forall_mem_append.mpr ⟨hown, List.forall_mem_singleton.mpr rfl⟩
        · rw [hinbox]
          exact hreplies
      | queued hcall hlasting hnot => exact absurd rfl hnot.1
    · cases hturn with
      | @deliver _ p inbox _ hhead hopen hok =>
        obtain rfl := hrequests p (by rw [hhead]; exact List.mem_cons_self)
        obtain ⟨hready, hsame, hsent, hlen⟩ := request_step hrests.ready hrests.peer_connection hok
        refine .inl (.ringing hrests' (by rw [hx]; exact hrests.same hready hsame) ?_ ?_ ho' ?_)
        · rw [hinbox]
          exact fun p hmem => hrequests p (mem_rest hmem)
        · rw [hinbox', emitted_media hsent hlen]
          exact List.forall_mem_append.mpr ⟨hanswers, List.forall_mem_singleton.mpr rfl⟩
        · rw [hoffers, ho, offered_same (congrArg CallState.created hsame)]
      | queued hcall hlasting hnot => exact absurd rfl (hnot.2 r)
  | talking hcalls hanswers hanswering ho' ho =>
    rw [← hy] at hcalls
    rw [← hoffers'] at ho'
    have he : e ≠ .connectToPeer := by
      rintro rfl
      have hnone : (s.conductor (!callee)).peer_connection = none := (halone rfl).2.1
      rw [hy] at hcalls
      exact absurd hcalls.peer_connection (by simp [hnone])
    left
    cases hanswering with
    | @waiting hrests requests texts hsplit hrequests htexts =>
      rcases hrests.turn hturn with rfl | ⟨r, rfl⟩
      · exact absurd rfl he
      cases hturn with
      | @deliver _ p inbox _ hhead hopen hok =>
        have hrest : (s.after ids callee (.deliver r) x').inbox callee = inbox := by rw [hinbox, rest, hhead]; rfl
        rw [hhead] at hsplit
        cases requests with
        | nil =>
          rw [List.nil_append] at hsplit
          rw [← hsplit] at htexts
          obtain ⟨hsent, hnow⟩ := hrests.told (htexts p List.mem_cons_self) hok
          have hlater : ∀ q ∈ inbox, Text (ids !callee) q := fun q hmem => htexts q (List.mem_cons_of_mem _ hmem)
          refine .talking hcalls ?_ ?_ ho' ?_
          · rw [hinbox', emitted_none hsent, List.append_nil]
            exact hanswers
          · rw [hx, hrest]
            rcases hnow with hcalls' | hrests' | hgone
            · exact .talking hcalls' hlater
            · exact .waiting hrests' (List.nil_append _).symm nofun hlater
            · exact .left hgone
          · rw [hoffers, ho, offered_text hhead (htexts p List.mem_cons_self)]
        | cons q requests =>
          obtain ⟨rfl, hlater⟩ := List.cons.inj hsplit
          obtain rfl := hrequests p List.mem_cons_self
          obtain ⟨hready, hsame, hsent, hlen⟩ := request_step hrests.ready hrests.peer_connection hok
          refine .talking hcalls ?_ ?_ ho' ?_
          · rw [hinbox', emitted_media hsent hlen]
            exact List.forall_mem_append.mpr ⟨hanswers, List.forall_mem_singleton.mpr (.inl rfl)⟩
          · rw [hx, hrest]
            refine .waiting (hrests.same hready hsame) hlater ?_ htexts
            exact fun q hmem => hrequests q (List.mem_cons_of_mem _ hmem)
          · rw [hoffers, ho, offered_same (congrArg CallState.created hsame)]
      | queued hcall hlasting hnot => exact absurd rfl (hnot.2 r)
    | talking calls htexts =>
      obtain ⟨hcalls', hsent, hcreated⟩ := calls.move hturn he fun p hmem => .inr (htexts p hmem)
      refine .talking hcalls ?_ ?_ ho' (by rw [hoffers, ho, offered_same hcreated])
      · rw [hinbox']
        exact List.forall_mem_append.mpr ⟨hanswers, fun p hmem => .inr (hsent p hmem)⟩
      · rw [hx, hinbox]
        exact .talking hcalls' fun p hmem => htexts p (mem_rest hmem)
    | left gone =>
      cases hturn with
      | connectToPeer hok => exact absurd rfl he
      | deliver hhead hopen hok =>
        rw [gone.isConnected] at hopen
        cases hopen
      | queued hcall hlasting hnot => simp [gone.peer_connection] at hcall
      | uiThreadCallback hqueue hok => exact absurd gone.queue hqueue

end Phases

end Steps

theorem Idle.resting {x : Conductor ByteBuffer} (h : Idle x) : Resting x :=
  ⟨⟨h.isConnected, h.game, Conductor.reachable_composed h.reachable⟩, h.peer_connection, h.queue, h.pending_messages⟩

omit [Platform] in
theorem Phase.resolved {ids : Bool → UInt32} {caller : Bool} {s : CrossingCalls ByteBuffer}
    (h : Phase ids caller (!caller) s) : Resolved ids s := by
  have hoffers : s.offers caller ≤ 1 ∧ s.offers (!caller) = 0 := by
    cases h with
    | ringing _ _ _ _ ho ho' => exact ⟨by omega, ho'⟩
    | talking _ _ _ ho ho' => exact ⟨by omega, ho'⟩
  have hcaller : (s.conductor caller).peer_connection.isSome = true →
      (s.conductor caller).peer_id = ids !caller := by
    intro hcall
    cases h with
    | ringing hrests => simp [hrests.peer_connection] at hcall
    | talking hcalls => exact hcalls.peer_id
  have hcallee : (s.conductor (!caller)).peer_connection.isSome = true →
      (s.conductor (!caller)).peer_id = ids caller := by
    intro hcall
    cases h with
    | ringing _ hrests => simp [hrests.peer_connection] at hcall
    | talking _ _ hanswering =>
      cases hanswering with
      | waiting hrests => simp [hrests.peer_connection] at hcall
      | talking hcalls => exact hcalls.peer_id
      | left hgone => simp [hgone.peer_connection] at hcall
  cases caller with
  | true =>
    refine ⟨by have := hoffers.2; simp only [Bool.not_true] at this; omega, fun who hcall => ?_⟩
    cases who with
    | true => exact hcaller hcall
    | false => exact hcallee hcall
  | false =>
    refine ⟨by have := hoffers.2; simp only [Bool.not_false] at this; omega, fun who hcall => ?_⟩
    cases who with
    | true => exact hcallee hcall
    | false => exact hcaller hcall

/-- In every run in which nobody calls but alone, calls are resolved. -/
theorem calls_resolve {ids : Bool → UInt32} {s₀ s : CrossingCalls ByteBuffer} (hstart : Start s₀)
    (h : (machine ByteBuffer ids).Reach (fun s e => alone ids s e) s₀ s) : Resolved ids s := by
  suffices hphase : ∃ caller, Phase ids caller (!caller) s by
    obtain ⟨caller, hphase⟩ := hphase
    exact hphase.resolved
  refine h.invariant (I := fun s => ∃ caller, Phase ids caller (!caller) s) ⟨true, ?_⟩ ?_
  · refine .ringing (hstart.idle true).resting (hstart.idle false).resting ?_ ?_ (hstart.offers true) (hstart.offers false)
    · rw [hstart.inbox]
      exact nofun
    · rw [hstart.inbox]
      exact nofun
  · rintro s ⟨who, e⟩ s' _ ⟨caller, hphase⟩ henabled halone hok
    obtain ⟨x', hturn, rfl⟩ := step_turn henabled hok
    by_cases hwho : who = caller
    · subst hwho
      exact ⟨who, hphase.caller_step rfl halone hturn⟩
    · obtain rfl : (!caller) = who := Bool.not_eq.mpr fun h => hwho h.symm
      rcases hphase.callee_step (Bool.not_not caller).symm halone hturn with hnow | hnow
      · exact ⟨caller, hnow⟩
      · exact ⟨!caller, by rw [Bool.not_not]; exact hnow⟩

section Runs

omit [Platform]

instance {β : Type} (ids : Bool → UInt32) (s : CrossingCalls β) (e : Bool × CallEvent) : Decidable (alone ids s e) :=
  inferInstanceAs (Decidable (_ → _))

/-- Two clients in this state, with nothing on its way. -/
def standing (x : Conductor ByteBuffer) : CrossingCalls ByteBuffer := ⟨fun _ => x, fun _ => [], fun _ => 0⟩

def twoIds (who : Bool) : UInt32 := if who then 7 else 9

/-- Two clients that have logged in are idle, and take these events. -/
theorem standing_run [Platform] {α : Type} (test : CrossingCalls ByteBuffer → Bool × CallEvent → Bool)
    (events : List (Bool × CallEvent)) (f : CrossingCalls ByteBuffer → α) (value : α)
    (hrun : ((conductorMachine ByteBuffer).replay (fun x e => x.enabled e) Conductor.loggedIn Conductor.create).bind
      (fun x => ((machine ByteBuffer twoIds).replay test events (standing x)).map fun s =>
        (x.client.isConnected && x.client.protocolState == 3 && x.peer_connection.isNone && x.queue.isEmpty &&
          x.pending_messages.isEmpty, f s)) = some (true, value)) :
    ∃ s₀ s, Start s₀ ∧ (machine ByteBuffer twoIds).replay test events s₀ = some s ∧ f s = value := by
  obtain ⟨x, hx, hafter⟩ := Option.bind_eq_some_iff.mp hrun
  obtain ⟨s, hs, hall⟩ := Option.map_eq_some_iff.mp hafter
  simp only [Prod.mk.injEq, Bool.and_eq_true, beq_iff_eq, Option.isNone_iff_eq_none, List.isEmpty_iff] at hall
  obtain ⟨⟨⟨⟨⟨hopen, hgame⟩, hnone⟩, hqueue⟩, hpending⟩, hvalue⟩ := hall
  have hreach : (conductorMachine ByteBuffer).Reachable Conductor.create x :=
    Machine.replay_reach (fun s e he => ⟨he, trivial⟩) .start hx
  exact ⟨standing x, s, ⟨fun _ => ⟨hreach, hopen, hgame, hnone, hqueue, hpending⟩, fun _ => rfl, fun _ => rfl⟩, hs, hvalue⟩

/-- 7 calls 9, who has a connection with the first text. -/
theorem calls_resolve_two :
    letI := zeroPlatform
    ∃ s : CrossingCalls ByteBuffer, (s.offers true = 1 ∧ (s.conductor false).peer_id = 7) ∧ Resolved twoIds s := by
  let : Platform := zeroPlatform
  obtain ⟨s₀, s, hstart, hs, hvalue⟩ := standing_run (fun s e => s.enabled twoIds e && decide (alone twoIds s e))
    [(true, .connectToPeer), (false, .deliver .noFactory), (true, .deliver .created),
      (true, .iceGatheringComplete [0x7b]), (true, .uiThreadCallback), (false, .deliver .created)]
    (fun s => (s.offers true, (s.conductor false).peer_id)) (1, 7) (by decide +kernel)
  refine ⟨s, Prod.mk.inj hvalue, calls_resolve hstart (Machine.replay_reach (fun s e he => ?_) .start hs)⟩
  obtain ⟨henabled, halone⟩ := Bool.and_eq_true_iff.mp he
  exact ⟨henabled, of_decide_eq_true halone⟩

/-- 7 and 9 call each other, and both make an offer; or 9 calls when 7 has made one, and is refused. -/
theorem crossing_unresolved :
    letI := zeroPlatform
    (∃ s₀ s : CrossingCalls ByteBuffer, Start s₀ ∧ (machine ByteBuffer twoIds).Reachable s₀ s ∧
      s.offers true = 1 ∧ s.offers false = 1) ∧
    ∃ s₀ s : CrossingCalls ByteBuffer, Start s₀ ∧ (machine ByteBuffer twoIds).Reachable s₀ s ∧
      (s.conductor false).peer_connection = some 0 ∧ (s.conductor false).peer_id = Conductor.noPeer := by
  let : Platform := zeroPlatform
  obtain ⟨s₀, s, hstart, hs, hvalue⟩ := standing_run (fun s e => s.enabled twoIds e)
    [(true, .connectToPeer), (false, .connectToPeer), (false, .deliver .noFactory),
      (true, .deliver .noFactory), (true, .deliver .created), (false, .deliver .created)]
    (fun s => (s.offers true, s.offers false)) (1, 1) (by decide +kernel)
  obtain ⟨t₀, t, hstart', ht, hvalue'⟩ := standing_run (fun s e => s.enabled twoIds e)
    [(true, .connectToPeer), (false, .deliver .noFactory), (true, .deliver .created),
      (true, .iceGatheringComplete [0x7b]), (false, .connectToPeer), (true, .uiThreadCallback),
      (true, .deliver .noFactory), (false, .deliver .created), (false, .deliver .noFactory)]
    (fun s => ((s.conductor false).peer_connection, (s.conductor false).peer_id))
    (some 0, Conductor.noPeer) (by decide +kernel)
  exact ⟨⟨s₀, s, hstart, Machine.replay_reach (fun s e he => ⟨he, trivial⟩) .start hs, Prod.mk.inj hvalue⟩,
    t₀, t, hstart', Machine.replay_reach (fun s e he => ⟨he, trivial⟩) .start ht, Prod.mk.inj hvalue'⟩

end Runs

end CrossingCalls

end P2PChat

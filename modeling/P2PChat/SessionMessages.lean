import P2PChat.CallLine

namespace P2PChat

open ByteQueue

/-- What `SendMessage` queued, and what the UI thread gave to `SendToPeer`, both in order. -/
structure Post where
  queued : List Message
  delivered : List (UInt32 × Message)

/-- The messages that a callback takes to the UI thread. -/
def CallbackID.messages : CallbackID → List Message
  | .sendMessageToPeer msg => [msg]
  | _ => []

theorem CallbackID.messages_none {callback : CallbackID} (h : ∀ msg, callback ≠ .sendMessageToPeer msg) :
    callback.messages = [] := by
  cases callback with
  | sendMessageToPeer msg => exact absurd rfl (h msg)
  | peerConnectionClosed peer_id call => rfl
  | newStreamAdded => rfl
  | streamRemoved => rfl

namespace CallState

/-- The messages that wait, in the order in which they will have their turn. -/
def waiting (s : CallState) : List Message := s.pending_messages ++ s.queue.flatMap CallbackID.messages

theorem waiting_queued {s : CallState} {callback : CallbackID}
    (h : ∀ msg, callback ≠ .sendMessageToPeer msg) : (s.queued callback).waiting = s.waiting := by
  simp [waiting, queued, CallbackID.messages_none h]

end CallState

namespace Post

section Definitions

variable {β : Type} [ByteQueue β]

def after (x : Conductor β) (e : ConductorEvent β) (x' : Conductor β) (p : Post) : Post :=
  match e with
  | .iceGatheringComplete text => { p with queued := p.queued ++ [⟨text, x.peer_connection⟩] }
  | .uiThreadCallback => { p with delivered := p.delivered ++ x'.sent.drop x.sent.length }
  | _ => p

/-- Every message went to the peer of the call that it was queued in, none twice, none before an earlier one,
and the rest still waits. -/
structure Addressed (l : Line) (s : CallState) (p : Post) : Prop where
  recipients : ∀ d ∈ p.delivered,
    d.1 ≠ Conductor.noPeer ∧ ∃ call, d.2.call = some call ∧ l.peers[call]? = some d.1
  once : p.delivered.map Prod.snd ++ s.waiting = p.queued

end Definitions

end Post

namespace Conductor

section Definitions

variable {β : Type} [ByteQueue β]

/-- The message that has the next turn. -/
def awaited (x : Conductor β) : Option Message :=
  match x.queue with
  | .sendMessageToPeer msg :: _ => (x.pending_messages ++ [msg]).head?
  | _ => none

/-- When a message has its turn, there is a call with the peer of the call that it was queued in, a peer with
an ID of its own, and nobody has refused a call since this one began. -/
def timely (s : Conductor β × Line × Post) : ConductorEvent β → Bool
  | .uiThreadCallback => s.1.awaited.all fun msg => (s.2.1.partner s.1).any fun p =>
      p != noPeer && !s.2.1.refused && msg.call.bind (fun call => s.2.1.peers[call]?) == some p
  | _ => true

/-- The conductor with a record of its calls and of its messages. -/
def postMachine (β : Type) [ByteQueue β] [Platform] :
    Machine (Conductor β × Line × Post) (ConductorEvent β) Halt :=
  (conductorMachine β).recorded fun x e x' (record : Line × Post) =>
    (record.1.after x e x', record.2.after x e x')

end Definitions

variable {β : Type} [ByteQueue β] [Platform] {x x' : Conductor β} {e : ConductorEvent β}

/-- A turn sends at most the first message that waits, to the peer. -/
theorem turn_sent (hok : x.uiThreadCallback = .ok x') :
    x'.sent = x.sent ∧ x'.callState.waiting = x.callState.waiting ∨
      ∃ msg, x.awaited = some msg ∧ x'.sent = x.sent ++ [(x.peer_id, msg)] ∧
        x.callState.waiting = msg :: x'.callState.waiting := by
  obtain ⟨s', hs'⟩ : ∃ s', s' = x'.callState := ⟨_, rfl⟩
  have houtcome := uiThreadCallback_outcome hok
  have hsent : x'.sent = s'.sent := by rw [hs']; rfl
  rw [hsent]
  rw [← hs'] at houtcome ⊢
  cases houtcome with
  | same => exact .inl ⟨rfl, rfl⟩
  | queued hother => exact .inl ⟨rfl, CallState.waiting_queued hother⟩
  | deleted hturn => exact absurd rfl hturn
  | closed hqueue => exact .inl ⟨rfl, by simp [CallState.waiting, CallState.deleted, callState, hqueue, CallbackID.messages]⟩
  | rendered hqueue hother =>
    exact .inl ⟨rfl, by simp [CallState.waiting, callState, hqueue, CallbackID.messages_none hother]⟩
  | waited hqueue => exact .inl ⟨rfl, by simp [CallState.waiting, callState, hqueue, CallbackID.messages]⟩
  | @sent msg first queue pending hqueue hfirst =>
    refine .inr ⟨first, ?_, rfl, ?_⟩
    · simp [awaited, hqueue, hfirst]
    · simp only [CallState.waiting, callState, hqueue, List.flatMap_cons, CallbackID.messages]
      rw [← List.append_assoc, hfirst]
      rfl

/-- Another event sends none of the messages, and only `SendMessage` queues one. -/
theorem waiting_other (hturn : e ≠ .uiThreadCallback) (hmessage : ∀ text, e ≠ .iceGatheringComplete text)
    (hok : x.step e = .ok x') : x'.callState.waiting = x.callState.waiting := by
  obtain ⟨s', hs'⟩ : ∃ s', s' = x'.callState := ⟨_, rfl⟩
  have houtcome := step_outcome hok
  rw [← hs'] at houtcome ⊢
  cases houtcome with
  | same => rfl
  | queued hother => exact CallState.waiting_queued hother
  | sendMessage text => exact absurd rfl (hmessage text)
  | deleted hturn => rfl
  | hungUp hcall => rfl
  | created hnone hnews => rfl
  | refused hnews => rfl
  | closed hqueue => exact absurd rfl hturn
  | rendered hqueue hother => exact absurd rfl hturn
  | waited hqueue => exact absurd rfl hturn
  | sent hqueue hfirst => exact absurd rfl hturn

end Conductor

namespace Post

variable {β : Type} [ByteQueue β] [Platform] {x x' : Conductor β} {e : ConductorEvent β} {l : Line} {p : Post}

theorem Addressed.step (h : p.Addressed l x.callState) (hline : l.Agrees x.callState)
    (htimely : Conductor.timely (x, l, p) e = true) (hok : x.step e = .ok x') :
    (p.after x e x').Addressed (l.after x e x') x'.callState := by
  have hkept : ∀ d ∈ p.delivered, d.1 ≠ Conductor.noPeer ∧
      ∃ call, d.2.call = some call ∧ (l.after x e x').peers[call]? = some d.1 := by
    intro d hmem
    obtain ⟨hpeer, call, hcall, hto⟩ := h.recipients d hmem
    exact ⟨hpeer, call, hcall, Line.after_peers hto⟩
  by_cases hturn : e = .uiThreadCallback
  · subst hturn
    rcases Conductor.turn_sent hok with ⟨hsent, hwaiting⟩ | ⟨msg, hawaited, hsent, hwaiting⟩
    · have hsame : p.after x .uiThreadCallback x' = p := by simp [after, hsent]
      rw [hsame]
      exact ⟨hkept, by rw [hwaiting]; exact h.once⟩
    · have hnow : p.after x .uiThreadCallback x' = { p with delivered := p.delivered ++ [(x.peer_id, msg)] } := by
        simp [after, hsent]
      rw [hnow]
      refine ⟨fun d hmem => ?_, ?_⟩
      · rcases List.mem_append.mp hmem with hmem | hmem
        · exact hkept d hmem
        · rw [List.mem_singleton.mp hmem]
          simp only [Conductor.timely, hawaited, Option.all_some, Option.any_eq_true, Bool.and_eq_true,
            bne_iff_ne, Bool.not_eq_true', beq_iff_eq] at htimely
          obtain ⟨q, hpartner, ⟨hq, hrefused⟩, hof⟩ := htimely
          obtain ⟨call, hcall, hto⟩ := Option.bind_eq_some_iff.mp hpartner
          obtain ⟨q', hq', hpeer⟩ := hline.busy call hcall
          obtain ⟨earlier, hearlier, hof⟩ := Option.bind_eq_some_iff.mp hof
          have hpeer : x.peer_id = q := by
            rw [hrefused] at hpeer
            exact hpeer.trans (Option.some.inj (hq'.symm.trans hto))
          exact ⟨by rw [hpeer]; exact hq, earlier, hearlier, by rw [hpeer]; exact Line.after_peers hof⟩
      · rw [← h.once, hwaiting]
        simp
  · by_cases hmessage : ∃ text, e = .iceGatheringComplete text
    · obtain ⟨text, rfl⟩ := hmessage
      cases hok
      refine ⟨hkept, ?_⟩
      show p.delivered.map Prod.snd ++ _ = p.queued ++ [⟨text, x.peer_connection⟩]
      rw [← h.once]
      simp [CallState.waiting, Conductor.callState, Conductor.sendMessage, Conductor.queueUIThreadCallback,
        CallbackID.messages]
    · have hsame : p.after x e x' = p := by
        unfold after
        split
        next text => exact absurd ⟨text, rfl⟩ hmessage
        next => exact absurd rfl hturn
        next => rfl
      rw [hsame]
      refine ⟨hkept, ?_⟩
      rw [Conductor.waiting_other hturn (fun text heq => hmessage ⟨text, heq⟩) hok]
      exact h.once

end Post

namespace Conductor

variable {β : Type} [ByteQueue β] [Platform]

/-- In every run in which the turns of all messages are timely, they go to whom they are for, in order. -/
theorem messages_reach_peer {s : Conductor β × Line × Post}
    (h : (postMachine β).Reach (fun s e => timely s e = true) (create, ⟨[], false⟩, ⟨[], []⟩) s) :
    s.2.2.Addressed s.2.1 s.1.callState := by
  suffices hall : s.2.1.Agrees s.1.callState ∧ s.2.2.Addressed s.2.1 s.1.callState from hall.2
  refine h.invariant (I := fun s => s.2.1.Agrees s.1.callState ∧ s.2.2.Addressed s.2.1 s.1.callState) ?_ ?_
  · exact ⟨⟨rfl, fun _ => rfl, nofun⟩, ⟨nofun, rfl⟩⟩
  · intro s e s' _ hs _ htimely hok
    obtain ⟨hstep, hrecord⟩ := Machine.recorded_ok hok
    rw [hrecord]
    exact ⟨hs.1.step hstep, hs.2.step hs.1 htimely hstep⟩

omit [ByteQueue β] [Platform] in
/-- The description of a call of 7 is sent to 7. -/
theorem messages_reach_caller :
    letI := zeroPlatform
    ∃ s : Conductor ByteBuffer × Line × Post, s.2.2.delivered = [(7, ⟨[0x7b], some 0⟩)] ∧
      s.2.2.Addressed s.2.1 s.1.callState := by
  let : Platform := zeroPlatform
  have hrun : ((postMachine ByteBuffer).replay (fun s e => s.1.enabled e && timely s e)
      (loggedIn ++ [calledBy 7, .iceGatheringComplete [0x7b], .uiThreadCallback])
      (create, ⟨[], false⟩, ⟨[], []⟩)).map (fun s => s.2.2.delivered) = some [(7, ⟨[0x7b], some 0⟩)] := by
    decide +kernel
  obtain ⟨s, hs, hdelivered⟩ := Option.map_eq_some_iff.mp hrun
  refine ⟨s, hdelivered, messages_reach_peer (Machine.replay_reach (fun s e he => ?_) .start hs)⟩
  exact Bool.and_eq_true_iff.mp he

omit [ByteQueue β] [Platform] in
/-- The description of a call of 7 that the user ended is sent to nobody, or to 9 who calls next. -/
theorem messages_misdirected :
    letI := zeroPlatform
    (∃ s : Conductor ByteBuffer × Line × Post,
      (postMachine ByteBuffer).Reachable (create, ⟨[], false⟩, ⟨[], []⟩) s ∧ s.2.1.peers = [7] ∧
        s.2.2.delivered = [(noPeer, ⟨[0x7b], some 0⟩)]) ∧
    ∃ s : Conductor ByteBuffer × Line × Post,
      (postMachine ByteBuffer).Reachable (create, ⟨[], false⟩, ⟨[], []⟩) s ∧ s.2.1.peers = [7, 9] ∧
        s.2.2.delivered = [(9, ⟨[0x7b], some 0⟩)] := by
  let : Platform := zeroPlatform
  have hnobody : ((postMachine ByteBuffer).replay (fun s e => s.1.enabled e)
      (loggedIn ++ [calledBy 7, .iceGatheringComplete [0x7b], .disconnectFromCurrentPeer, .uiThreadCallback])
      (create, ⟨[], false⟩, ⟨[], []⟩)).map (fun s => (s.2.1.peers, s.2.2.delivered)) =
        some ([7], [(noPeer, ⟨[0x7b], some 0⟩)]) := by
    decide +kernel
  have hother : ((postMachine ByteBuffer).replay (fun s e => s.1.enabled e)
      (loggedIn ++ [calledBy 7, .iceGatheringComplete [0x7b], .disconnectFromCurrentPeer, calledBy 9,
        .uiThreadCallback]) (create, ⟨[], false⟩, ⟨[], []⟩)).map (fun s => (s.2.1.peers, s.2.2.delivered)) =
        some ([7, 9], [(9, ⟨[0x7b], some 0⟩)]) := by
    decide +kernel
  obtain ⟨s, hs, hsame⟩ := Option.map_eq_some_iff.mp hnobody
  obtain ⟨t, ht, hsame'⟩ := Option.map_eq_some_iff.mp hother
  obtain ⟨hpeers, hdelivered⟩ := Prod.mk.inj hsame
  obtain ⟨hpeers', hdelivered'⟩ := Prod.mk.inj hsame'
  exact ⟨⟨s, Machine.replay_reach (fun s e he => ⟨he, trivial⟩) .start hs, hpeers, hdelivered⟩,
    t, Machine.replay_reach (fun s e he => ⟨he, trivial⟩) .start ht, hpeers', hdelivered'⟩

end Conductor

end P2PChat

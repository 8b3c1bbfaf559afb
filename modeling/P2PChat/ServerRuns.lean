import P2PChat.ServerSteps

namespace P2PChat

open ByteQueue Relation

namespace Server

section Conditions

variable {β γ : Type} [ByteQueue β] [ByteQueue γ] [Platform] {f : β → γ} (hf : Hom f)

include hf

omit [Platform] in
theorem inbound_map (p : Nat) (s : Server β) : (s.map f).inbound p = s.inbound p := by
  have hread : (readAll (f (s.heap p).protocol.receivedData)).1 =
      (readAll (s.heap p).protocol.receivedData).1 := by
    rw [hf.readAll]
  exact congrArg (fun u => u ++ (s.heap p).incomingData) hread

theorem arriving_map (p : Nat) (s : Server β) : (s.map f).arriving p = s.arriving p := by
  unfold arriving
  rw [inbound_map hf]
  rfl

theorem relays_map (p : Nat) (s : Server β) : (s.map f).relays p = s.relays p := by
  unfold relays
  rw [arriving_map hf]
  rfl

theorem gated_map {G : Gate} (s : Server β) (e : Event) (h : s.gated G e) : (s.map f).gated G e := by
  cases e with
  | remoteClosed p =>
    have hunlink : ∀ c : ClientHandle β, (c.map f).unlink = c.unlink.map f := fun _ => rfl
    have hset : ∀ c : ClientHandle β, (c.map f).setState .csDestroyed =
        (c.setState .csDestroyed).map f := fun _ => rfl
    have hclosed : (s.map f).closed p = (s.closed p).map f := by
      rw [closed, closed, modify_map hunlink p, modify_map hset p]
    intro hlive q hq hid
    rw [hclosed]
    exact h hlive q hq hid
  | authenticatorAnswer =>
    intro x hx q hq hid
    have hself : ∀ t : Server β, ((t.admitted x.1 x.2).heap x.1).userInfo =
        ((((t.heap x.1).setUsername x.2).setProtocolState 3).setState .csAuthenticated).userInfo := by
      intro t
      rw [admitted, store_heap, if_pos rfl, ClientHandle.loginSucceeded, ClientHandle.queue_eq]
      rfl
    have hself' : ∀ t : Server γ, ((t.admitted x.1 x.2).heap x.1).userInfo =
        ((((t.heap x.1).setUsername x.2).setProtocolState 3).setState .csAuthenticated).userInfo := by
      intro t
      rw [admitted, store_heap, if_pos rfl, ClientHandle.loginSucceeded, ClientHandle.queue_eq]
      rfl
    obtain ⟨hpass, hbeside⟩ := h x hx q hq hid
    rw [hself] at hpass
    rw [hself']
    exact ⟨hpass, hbeside⟩
  | tickClient p =>
    intro x hx
    rw [relays_map hf] at hx
    exact h x hx
  | connectionAccepted ip => trivial
  | receivedData p data => trivial
  | released p => trivial
  | authenticatorTake => trivial
  | clock elapsed => trivial

theorem ticksOverlong_map (s : Server β) (e : Event) :
    (s.map f).ticksOverlong e = s.ticksOverlong e := by
  cases e with
  | tickClient p => exact congrArg overlong (relays_map hf p s)
  | remoteClosed p => rfl
  | authenticatorAnswer => rfl
  | connectionAccepted ip => rfl
  | receivedData p data => rfl
  | released p => rfl
  | authenticatorTake => rfl
  | clock elapsed => rfl

end Conditions

theorem initial_sound : (initial : Server Fifo).Sound where
  connections _ := ClientHandle.create_sound (Nat.zero_le _) 0 0
  requests _ h := h.elim (fun h => nomatch h) (fun h => nomatch h)
  nodup := List.nodup_nil
  allocated _ h := nomatch h

variable [Platform]

theorem gated_open {β : Type} [ByteQueue β] (s : Server β) (e : Event) : s.gated Gate.open e := by
  cases e with
  | remoteClosed p => exact fun _ _ _ _ => ⟨rfl, rfl⟩
  | authenticatorAnswer => exact fun _ _ _ _ _ => ⟨rfl, rfl⟩
  | tickClient p => exact fun _ _ => rfl
  | connectionAccepted ip => trivial
  | receivedData p data => trivial
  | released p => trivial
  | authenticatorTake => trivial
  | clock elapsed => trivial

/-- What every effect keeps holds in every state reached by gated steps. -/
theorem reach_invariant {G : Gate} {I : Server Fifo → Prop} {s₀ s : Server Fifo} (hs₀ : s₀.Sound)
    (hstart : I s₀)
    (heffect : ∀ who s s', s.Sound → I s → Effect G who s s' → I s')
    (h : (serverMachine Fifo).Reach (fun s e => s.gated G e) s₀ s) : s.Sound ∧ I s := by
  refine h.invariant (I := fun s => s.Sound ∧ I s) ⟨hs₀, hstart⟩ ?_
  rintro s e s' _ ⟨hs, hi⟩ he hgate hstep
  have hstepped := step_stepped hs he hgate
  have hok : s.step e = .ok s' := hstep
  rw [hok] at hstepped
  have hall : ∀ s'', ReflTransGen (Effect G (s.concerns e)) s s'' → s''.Sound ∧ I s'' := by
    intro s'' heffects
    induction heffects with
    | refl => exact ⟨hs, hi⟩
    | tail _ hlast ih => exact ⟨hlast.sound ih.1, heffect _ _ _ ih.1 ih.2 hlast⟩
  exact hall s' hstepped.2.2

/-- A run of the server with its ring buffers is one over plain queues. -/
theorem reach_contents {G : Gate} {s₀ s : Server ByteBuffer}
    (h : (serverMachine ByteBuffer).Reach (fun s e => s.gated G e) s₀ s) :
    (serverMachine Fifo).Reach (fun s e => s.gated G e) (s₀.map ByteBuffer.contents)
      (s.map ByteBuffer.contents) :=
  reach_map ByteBuffer.contents_hom (fun s e he => gated_map ByteBuffer.contents_hom s e he) h

theorem reachable_contents {s₀ s : Server ByteBuffer}
    (h : (serverMachine ByteBuffer).Reachable s₀ s) :
    (serverMachine Fifo).Reach (fun s e => s.gated Gate.open e) (s₀.map ByteBuffer.contents)
      (s.map ByteBuffer.contents) :=
  reach_contents (h.mono fun s e _ => gated_open s e)

theorem initial_contents : (initial : Server ByteBuffer).map ByteBuffer.contents = initial :=
  initial_map ByteBuffer.contents_hom

theorem reachable_sound {s₀ s : Server ByteBuffer} (hs₀ : (s₀.map ByteBuffer.contents).Sound)
    (h : (serverMachine ByteBuffer).Reachable s₀ s) : (s.map ByteBuffer.contents).Sound :=
  (reach_invariant (I := fun _ => True) hs₀ trivial (fun _ _ _ _ _ _ => trivial)
    (reachable_contents h)).1

/-- A step over the ring buffers, seen over plain queues. -/
theorem step_contents {s : Server ByteBuffer} {G : Gate} {e : Event}
    (hs : (s.map ByteBuffer.contents).Sound) (he : s.enabled e = true) (hgate : s.gated G e) :
    Stepped G e (s.map ByteBuffer.contents) ((s.step e).map (Server.map ByteBuffer.contents)) := by
  rw [← step_map ByteBuffer.contents_hom]
  refine step_stepped hs ?_ (gated_map ByteBuffer.contents_hom s e hgate)
  cases e <;> exact he

section Replays

variable {β : Type} [ByteQueue β]

theorem replay_reachable {s s' : Server β} {events : List Event}
    (h : (serverMachine β).replay enabled events s = some s') :
    (serverMachine β).Reachable s s' :=
  Machine.replay_reach (fun _ _ he => ⟨he, trivial⟩) .start h

theorem replay_gated {G : Gate} {s s' : Server β} {events : List Event}
    (h : (serverMachine β).replay (fun s e => s.enabled e && decide (s.gated G e)) events s = some s') :
    (serverMachine β).Reach (fun s e => s.gated G e) s s' := by
  refine Machine.replay_reach (fun s e he => ?_) .start h
  obtain ⟨hen, hgate⟩ := Bool.and_eq_true_iff.mp he
  exact ⟨hen, of_decide_eq_true hgate⟩

/-- The first packet of a client comes in, and is handled. -/
def greets (p : Nat) : List Event :=
  [.receivedData p (frame (statusRequestPacket appP2pchat [] 0 2).body), .tickClient p]

/-- Then the one with its name and its password. -/
def asksLogin (p : Nat) (name : AString) : List Event :=
  [.receivedData p (frame (loginInfoPacket name (md5Password name)).body), .tickClient p]

/-- Then the authenticator works off the request. -/
def isAnswered : List Event := [.authenticatorTake, .authenticatorAnswer]

end Replays

end Server

end P2PChat

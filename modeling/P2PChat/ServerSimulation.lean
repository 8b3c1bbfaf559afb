import P2PChat.ServerRefinement
import P2PChat.BufferRefinement
import P2PChat.EndpointSimulation

namespace P2PChat

open ByteQueue

section Server

variable {β γ : Type} [ByteQueue β] [ByteQueue γ] [Platform] {f : β → γ} (hf : Hom f)

include hf

theorem endpoint_simulates (p : Nat) :
    Endpoint.Simulates f (Server.map f) (Server.endpoint p) (Server.endpoint p) where
  received _ := rfl
  setReceived b s := by
    have hset : ∀ c : ClientHandle β, (c.map f).setReceived (f b) = (c.setReceived b).map f :=
      fun _ => rfl
    exact modify_map hset p s
  handlePacket bb packetType s := handlePacket_map hf p bb packetType s
  packetBufferFull s := act_map (fun c => sendDisconnect_map hf _ c) p s
  packetError _ s := act_map (fun c => sendDisconnect_map hf _ c) p s

theorem tickReceived_map (p : Nat) (s : Server β) :
    (s.map f).tickReceived p = (s.tickReceived p).map (Server.map f) := by
  have hincoming : ∀ c : ClientHandle β, (c.map f).takeIncoming = c.takeIncoming.map f := fun _ => rfl
  unfold Server.tickReceived
  change (if (s.heap p).incomingData ≠ [] then _ else _) = _
  split
  next =>
    rw [modify_map hincoming p s]
    exact addReceivedData_simulates hf (endpoint_simulates hf p) _ _
  next => rfl

theorem tickClient_map (p : Nat) (s : Server β) :
    (s.map f).tickClient p = (s.tickClient p).map (Server.map f) := by
  unfold Server.tickClient
  change (if (s.heap p).isDestroyed = true then _ else _) = _
  split
  next => rfl
  next =>
    refine map_bind (tickReceived_map hf p s) fun s => ?_
    exact act_map (fun c => tickRest_map hf s.now c) p s

omit [Platform] in
theorem connectionAccepted_map (ip : AString) (s : Server β) :
    (s.map f).connectionAccepted ip = (s.connectionAccepted ip).map (Server.map f) := by
  unfold Server.connectionAccepted
  change (if s.clientCount = 2 ^ 31 - 1 then _ else _) = _
  split
  next => rfl
  next =>
    have hnew := store_map f s.allocated
      (ClientHandle.create ip (UInt32.ofNat (s.clientCount + 1)) s.now : ClientHandle β).onLinkCreated s
    have hcreate := create_map hf ip (UInt32.ofNat (s.clientCount + 1)) s.now
    refine congrArg (fun t : Server γ => Except.ok { t with
      allocated := s.allocated + 1
      clients := s.clients ++ [s.allocated]
      clientCount := s.clientCount + 1 }) (Eq.trans ?_ hnew)
    exact congrArg (fun c : ClientHandle γ => (s.map f).store s.allocated c.onLinkCreated) hcreate

theorem authenticatorAnswer_map (s : Server β) :
    (s.map f).authenticatorAnswer = s.authenticatorAnswer.map (Server.map f) := by
  unfold Server.authenticatorAnswer
  rcases hin : s.inFlight with _ | user
  · have hin' : (s.map f).inFlight = none := hin
    rw [hin']
    rfl
  · have hin' : (s.map f).inFlight = some user := hin
    rw [hin']
    dsimp only [Server.answer]
    split
    next => exact authenticateUser_map hf _ _ { s with inFlight := none }
    next => exact kickLoop_map hf _ _ _ { s with inFlight := none }

theorem step_map (s : Server β) (e : Event) :
    (s.map f).step e = (s.step e).map (Server.map f) := by
  cases e with
  | connectionAccepted ip => exact connectionAccepted_map hf ip s
  | receivedData p data =>
    have hreceive : ∀ c : ClientHandle β, (c.map f).receive data = (c.receive data).map f :=
      fun _ => rfl
    exact congrArg Except.ok (modify_map hreceive p s)
  | remoteClosed p => exact destroy_map hf p s
  | tickClient p => exact tickClient_map hf p s
  | released p => exact act_map (fun c => sendDisconnect_map hf _ c) p s
  | authenticatorTake => rfl
  | authenticatorAnswer => exact authenticatorAnswer_map hf s
  | clock elapsed => rfl

/-- A run of the server over one kind of queue is a run over the other. -/
theorem reach_map {allowed : Server β → Event → Prop} {allowed' : Server γ → Event → Prop}
    (hallowed : ∀ s e, allowed s e → allowed' (s.map f) e) {s₀ s : Server β}
    (h : (serverMachine β).Reach allowed s₀ s) :
    (serverMachine γ).Reach allowed' (s₀.map f) (s.map f) := by
  have henabled : ∀ s e, (serverMachine β).enabled s e → (serverMachine γ).enabled (s.map f) e := by
    intro s e he
    cases e <;> exact he
  exact h.map henabled hallowed (fun s e => step_map hf s e)

omit [Platform] in
theorem initial_map : (Server.initial : Server β).map f = Server.initial := by
  simp only [Server.initial, Server.map, create_map hf]

end Server

end P2PChat

import P2PChat.Framing
import P2PChat.PacketReaders

namespace P2PChat

open ByteQueue

variable {β γ σ τ : Type} [ByteQueue β] [ByteQueue γ] [Platform]

/-- Two endpoints do the same through `f` on buffers and `F` on states. -/
structure Endpoint.Simulates (f : β → γ) (F : σ → τ) (E : Endpoint β σ) (E' : Endpoint γ τ) : Prop where
  received : ∀ s, E'.received (F s) = f (E.received s)
  setReceived : ∀ b s, E'.setReceived (f b) (F s) = F (E.setReceived b s)
  handlePacket : ∀ bb packetType s, E'.handlePacket (f bb) packetType (F s) =
    (E.handlePacket bb packetType s).map (fun r => (r.1, f r.2.1, F r.2.2))
  packetBufferFull : ∀ s, E'.packetBufferFull (F s) = (E.packetBufferFull s).map F
  packetError : ∀ packetType s, E'.packetError packetType (F s) = (E.packetError packetType s).map F

variable {f : β → γ} {F : σ → τ} {E : Endpoint β σ} {E' : Endpoint γ τ}

theorem handlePackets_simulates (hf : Hom f) (h : Endpoint.Simulates f F E E') (rounds : Nat) (s : σ) :
    E'.handlePackets rounds (F s) = (E.handlePackets rounds s).map F := by
  induction rounds generalizing s with
  | zero => rfl
  | succ rounds ih =>
    unfold Endpoint.handlePackets
    refine map_bind (F := fun r : Option β × β => (r.1.map f, f r.2)) ?_ fun taken => ?_
    · rw [h.received]
      exact takeFrame_map hf (E.received s)
    · obtain ⟨taken, b⟩ := taken
      have hopen : (taken.map f).bind openFrame =
          (taken.bind openFrame).map (fun r => (r.1, f r.2)) := by
        cases taken with
        | none => rfl
        | some bb => exact openFrame_map hf bb
      simp only [hopen]
      rcases taken.bind openFrame with _ | ⟨packetType, bb⟩
      · exact congrArg Except.ok (h.setReceived b s)
      · simp only [Option.map_some, h.setReceived]
        refine map_bind (h.handlePacket bb packetType (E.setReceived b s)) fun r => ?_
        obtain ⟨understood, bb', s'⟩ := r
        simp only [hf.getReadableSpace]
        split
        next => rfl
        next =>
          split
          next => exact map_bind (h.packetError packetType s') fun s'' => ih s''
          next => exact ih s'

theorem addReceivedData_simulates (hf : Hom f) (h : Endpoint.Simulates f F E E') (data : AString)
    (s : σ) : E'.addReceivedData data (F s) = (E.addReceivedData data s).map F := by
  unfold Endpoint.addReceivedData
  rw [h.received, hf.write]
  rcases write data (E.received s) with ⟨_ | _, b⟩
  · simp only [h.setReceived, h.packetBufferFull]
  · simp only [h.setReceived, hf.getUsedSpace, handlePackets_simulates hf h]

end P2PChat

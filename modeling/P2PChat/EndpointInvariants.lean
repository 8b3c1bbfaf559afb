import P2PChat.PacketReaders
import P2PChat.Framing

namespace P2PChat

open ByteQueue

variable {β σ : Type}

/-- This holds of the state that a step comes to, if it comes to one. -/
def Ends {ε : Type} (I : σ → Prop) (r : Except ε σ) : Prop := ∀ s', r = .ok s' → I s'

theorem Ends.ok {ε : Type} {I : σ → Prop} {s : σ} (h : I s) : Ends I (Except.ok s : Except ε σ) := by
  intro s' hs
  cases hs
  exact h

theorem Ends.error {ε : Type} {I : σ → Prop} {e : ε} : Ends I (Except.error e : Except ε σ) := by
  intro s' hs
  cases hs

theorem Ends.bind {ε τ : Type} {I : σ → Prop} {J : τ → Prop} {r : Except ε σ} {k : σ → Except ε τ}
    (h : Ends I r) (hk : ∀ s, I s → Ends J (k s)) : Ends J (r >>= k) := by
  cases r with
  | error e => exact Ends.error
  | ok s => exact hk s (h s rfl)

theorem Ends.mono {ε : Type} {I J : σ → Prop} {r : Except ε σ} (h : Ends I r) (hsub : ∀ s, I s → J s) :
    Ends J r := fun s' hs => hsub s' (h s' hs)

/-- A handler keeps what its action keeps. -/
theorem handling_ends {α : Type} {r : Reader β α} {act : α → σ → Except Halt σ} {bb : β} {s : σ}
    {I : σ → Prop} (hs : I s) (hact : ∀ a, (r bb).1 = some a → Ends I (act a s)) :
    Ends (fun x : Bool × β × σ => I x.2.2) (handling r act bb s) := by
  unfold handling
  rcases hr : r bb with ⟨_ | a, bb'⟩
  · exact Ends.ok hs
  · refine Ends.bind (hact a (by rw [hr])) fun s' hs' => ?_
    exact Ends.ok hs'

/-- An endpoint keeps this whatever it does. -/
structure Endpoint.Keeps (E : Endpoint β σ) (I : σ → Prop) : Prop where
  setReceived : ∀ b s, I s → I (E.setReceived b s)
  handlePacket : ∀ bb packetType s, I s →
    Ends (fun x : Bool × β × σ => I x.2.2) (E.handlePacket bb packetType s)
  packetBufferFull : ∀ s, I s → Ends I (E.packetBufferFull s)
  packetError : ∀ packetType s, I s → Ends I (E.packetError packetType s)

variable [ByteQueue β] [Platform] {E : Endpoint β σ} {I : σ → Prop}

theorem Endpoint.Keeps.handlePackets (hE : E.Keeps I) {rounds : Nat} {s : σ} (hs : I s) :
    Ends I (E.handlePackets rounds s) := by
  induction rounds generalizing s with
  | zero => exact Ends.error
  | succ rounds ih =>
    unfold Endpoint.handlePackets
    rcases takeFrame (E.received s) with e | ⟨taken, b⟩
    · exact Ends.error
    · simp only [bind, Except.bind]
      rcases taken.bind openFrame with _ | ⟨packetType, bb⟩
      · exact Ends.ok (hE.setReceived b s hs)
      · simp only
        have hhandle := hE.handlePacket bb packetType _ (hE.setReceived b s hs)
        rcases hr : E.handlePacket bb packetType (E.setReceived b s) with e | ⟨understood, bb', s'⟩
        · exact Ends.error
        · have hs' : I s' := hhandle (understood, bb', s') hr
          simp only
          split
          next => exact Ends.ok hs'
          next =>
            split
            next => exact Ends.bind (hE.packetError packetType s' hs') fun s'' hs'' => ih hs''
            next => exact ih hs'

theorem Endpoint.Keeps.addReceivedData (hE : E.Keeps I) {data : AString} {s : σ} (hs : I s) :
    Ends I (E.addReceivedData data s) := by
  unfold Endpoint.addReceivedData
  rcases write data (E.received s) with ⟨_ | _, b⟩
  · exact hE.packetBufferFull _ (hE.setReceived b s hs)
  · exact hE.handlePackets (hE.setReceived b s hs)

end P2PChat

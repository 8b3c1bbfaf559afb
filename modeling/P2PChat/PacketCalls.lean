import P2PChat.EndpointInvariants
import P2PChat.EndpointRules
import P2PChat.EndpointSimulation

namespace P2PChat

open ByteQueue

namespace Endpoint

variable {β σ : Type} [ByteQueue β] [Platform]

/-- The call of `HandlePacket` that the loop of `AddReceivedData` makes next: the type, the buffer and
the state. -/
def nextCall (E : Endpoint β σ) (s : σ) : Option (UInt32 × β × σ) :=
  match takeFrame (E.received s) with
  | .ok (taken, b) => (taken.bind openFrame).map fun r => (r.1, r.2, E.setReceived b s)
  | .error _ => none

/-- `PacketError` is called after this call of `HandlePacket`. -/
def Reports (E : Endpoint β σ) (call : UInt32 × β × σ) : Prop :=
  ∃ bb s, E.handlePacket call.2.1 call.1 call.2.2 = .ok (true, bb, s) ∧ getReadableSpace bb ≠ 1

omit [Platform] in
theorem reports_computed (E : Endpoint β σ) (call : UInt32 × β × σ) :
    (E.handlePacket call.2.1 call.1 call.2.2).toOption.any
      (fun r => r.1 && getReadableSpace r.2.1 != 1) = true ↔ E.Reports call := by
  unfold Reports
  rcases E.handlePacket call.2.1 call.1 call.2.2 with e | ⟨understood, bb, s⟩
  · refine iff_of_false (fun h => by cases h) ?_
    rintro ⟨_, _, hok, _⟩
    cases hok
  · simp only [Except.toOption, Option.any_some, Bool.and_eq_true, bne_iff_ne]
    constructor
    · rintro ⟨rfl, hspace⟩
      exact ⟨bb, s, rfl, hspace⟩
    · rintro ⟨_, _, hok, hspace⟩
      cases hok
      exact ⟨rfl, hspace⟩

instance (E : Endpoint β σ) (call : UInt32 × β × σ) : Decidable (E.Reports call) :=
  decidable_of_iff _ (reports_computed E call)

/-- The call, and what the loop does after it, come to this state. -/
def Completes (E : Endpoint β σ) (call : UInt32 × β × σ) (s' : σ) : Prop :=
  ∃ bb s, E.handlePacket call.2.1 call.1 call.2.2 = .ok (true, bb, s) ∧
    E.checkLength call.1 bb s = .ok s'

/-- The loop makes this call. -/
theorem handlePackets_call {E : Endpoint β σ} {s s₁ : σ} {packetType : UInt32} {bb : β}
    (h : E.nextCall s = some (packetType, bb, s₁)) (rounds : Nat) :
    E.handlePackets (rounds + 1) s = (do
      let (goesOn, s) ← E.handleFrame packetType bb s₁
      if !goesOn then .ok s else E.handlePackets rounds s) := by
  unfold nextCall at h
  split at h
  next taken b htake =>
    obtain ⟨r, hopen, heq⟩ := Option.map_eq_some_iff.mp h
    obtain ⟨bb', htaken, hopen⟩ := Option.bind_eq_some_iff.mp hopen
    cases heq
    rw [htaken] at htake
    exact handlePackets_frame htake hopen rounds
  next => cases h

/-- The calls of `HandlePacket` that the loop makes. -/
inductive Calls (E : Endpoint β σ) : σ → UInt32 × β × σ → Prop
  | first {s : σ} {call : UInt32 × β × σ} : E.nextCall s = some call → E.Calls s call
  | later {s s' s'' : σ} {packetType : UInt32} {bb bb' : β} {s₁ : σ} {call : UInt32 × β × σ} :
      E.nextCall s = some (packetType, bb, s₁) → E.handlePacket bb packetType s₁ = .ok (true, bb', s') →
      E.checkLength packetType bb' s' = .ok s'' → E.Calls s'' call → E.Calls s call

theorem nextCall_set {E : Endpoint β σ} {s : σ} {call : UInt32 × β × σ} (h : E.nextCall s = some call) :
    ∃ b, call.2.2 = E.setReceived b s := by
  unfold nextCall at h
  split at h
  next taken b _ =>
    obtain ⟨r, _, heq⟩ := Option.map_eq_some_iff.mp h
    cases heq
    exact ⟨b, rfl⟩
  next => cases h

theorem handlePackets_none {E : Endpoint β σ} {I : σ → Prop} {s : σ} (hset : ∀ b s, I s → I (E.setReceived b s))
    (h : E.nextCall s = none) (hs : I s) (rounds : Nat) : Ends I (E.handlePackets (rounds + 1) s) := by
  unfold nextCall at h
  unfold handlePackets
  rcases htake : takeFrame (E.received s) with e | ⟨taken, b⟩
  · exact Ends.error
  · rw [htake] at h
    have hopen : taken.bind openFrame = none := Option.map_eq_none_iff.mp h
    simp only [bind, Except.bind, hopen]
    exact Ends.ok (hset b s hs)

/-- What these calls keep, and the errors that they report, the loop keeps. -/
theorem handlePackets_calls {E : Endpoint β σ} {I : σ → Prop} {s : σ}
    (hset : ∀ b s, I s → I (E.setReceived b s))
    (hhandle : ∀ call, E.Calls s call → I call.2.2 →
      Ends (fun x : Bool × β × σ => I x.2.2) (E.handlePacket call.2.1 call.1 call.2.2))
    (herror : ∀ call, E.Calls s call → E.Reports call → ∀ s', I s' → Ends I (E.packetError call.1 s'))
    (hs : I s) (rounds : Nat) : Ends I (E.handlePackets rounds s) := by
  induction rounds generalizing s with
  | zero => exact Ends.error
  | succ rounds ih =>
    rcases hnext : E.nextCall s with _ | ⟨packetType, bb, s₁⟩
    · exact handlePackets_none hset hnext hs rounds
    · obtain ⟨b, hb⟩ := nextCall_set hnext
      have hs₁ : I s₁ := by
        change s₁ = E.setReceived b s at hb
        rw [hb]
        exact hset b s hs
      rw [handlePackets_call hnext, handleFrame]
      rcases hr : E.handlePacket bb packetType s₁ with e | ⟨understood, bb', s'⟩
      · exact Ends.error
      · have hs' : I s' := hhandle (packetType, bb, s₁) (.first hnext) hs₁ (understood, bb', s') hr
        cases understood with
        | false => exact Ends.ok hs'
        | true =>
          have hcheck : Ends I (E.checkLength packetType bb' s') := by
            unfold checkLength
            split
            next hspace => exact herror (packetType, bb, s₁) (.first hnext) ⟨bb', s', hr, by simpa using hspace⟩ s' hs'
            next => exact Ends.ok hs'
          rcases hc : E.checkLength packetType bb' s' with e | s''
          · simp only [bind, Except.bind, hc, Bool.not_true, Bool.false_eq_true, if_false]
            exact Ends.error
          · simp only [bind, Except.bind, hc, Bool.not_true, Bool.false_eq_true, if_false]
            -- the calls after the first one are calls of this loop too
            apply ih
            · intro call hcall
              exact hhandle call (.later hnext hr hc hcall)
            · intro call hcall
              exact herror call (.later hnext hr hc hcall)
            · exact hcheck s'' hc

/-- The calls that are made for a chunk of data. -/
def CallsFor (E : Endpoint β σ) (data : AString) (s : σ) (call : UInt32 × β × σ) : Prop :=
  (write data (E.received s)).1 = true ∧
    E.Calls (E.setReceived (write data (E.received s)).2 s) call

/-- The first of them, if the chunk fits. -/
def firstCall (E : Endpoint β σ) (data : AString) (s : σ) : Option (UInt32 × β × σ) :=
  if (write data (E.received s)).1 then E.nextCall (E.setReceived (write data (E.received s)).2 s)
  else none

theorem firstCall_callsFor {E : Endpoint β σ} {data : AString} {s : σ} {call : UInt32 × β × σ}
    (h : E.firstCall data s = some call) : E.CallsFor data s call := by
  unfold firstCall at h
  split at h
  next hfits => exact ⟨hfits, .first h⟩
  next => cases h

end Endpoint

section Simulation

variable {β γ σ τ : Type} [ByteQueue β] [ByteQueue γ] [Platform] {f : β → γ} {F : σ → τ}
  {E : Endpoint β σ} {E' : Endpoint γ τ}

theorem nextCall_simulates (hf : Hom f) (h : Endpoint.Simulates f F E E') (s : σ) :
    E'.nextCall (F s) = (E.nextCall s).map (fun r => (r.1, f r.2.1, F r.2.2)) := by
  rw [Endpoint.nextCall, Endpoint.nextCall, h.received, takeFrame_map hf]
  rcases takeFrame (E.received s) with e | ⟨_ | bb, b⟩
  · rfl
  · rfl
  · simp only [Except.map, Option.map_some, Option.bind_some, openFrame_map hf, h.setReceived,
      Option.map_map]
    rfl

omit [Platform] in
theorem checkLength_simulates (hf : Hom f) (h : Endpoint.Simulates f F E E') (packetType : UInt32)
    (bb : β) (s : σ) :
    E'.checkLength packetType (f bb) (F s) = (E.checkLength packetType bb s).map F := by
  rw [Endpoint.checkLength, Endpoint.checkLength, hf.getReadableSpace]
  split
  next => exact h.packetError packetType s
  next => rfl

omit [Platform] in
theorem reports_simulates (hf : Hom f) (h : Endpoint.Simulates f F E E') (call : UInt32 × β × σ) :
    E'.Reports (call.1, f call.2.1, F call.2.2) ↔ E.Reports call := by
  unfold Endpoint.Reports
  rw [h.handlePacket]
  rcases E.handlePacket call.2.1 call.1 call.2.2 with e | ⟨understood, bb, s⟩
  · constructor
    · rintro ⟨_, _, hok, _⟩
      cases hok
    · rintro ⟨_, _, hok, _⟩
      cases hok
  · constructor
    · rintro ⟨_, _, hok, hspace⟩
      cases hok
      rw [hf.getReadableSpace] at hspace
      exact ⟨bb, s, rfl, hspace⟩
    · rintro ⟨_, _, hok, hspace⟩
      cases hok
      rw [← hf.getReadableSpace] at hspace
      exact ⟨f bb, F s, rfl, hspace⟩

omit [Platform] in
/-- What a call comes to on the model with queues, it comes to on the code's buffers. -/
theorem completes_simulates (hf : Hom f) (h : Endpoint.Simulates f F E E') (call : UInt32 × β × σ)
    (P : τ → Prop) :
    (∃ t, E'.Completes (call.1, f call.2.1, F call.2.2) t ∧ P t) ↔
      ∃ s, E.Completes call s ∧ P (F s) := by
  unfold Endpoint.Completes
  rw [h.handlePacket]
  rcases E.handlePacket call.2.1 call.1 call.2.2 with e | ⟨understood, bb, s⟩
  · constructor
    · rintro ⟨_, ⟨_, _, hok, _⟩, _⟩
      cases hok
    · rintro ⟨_, ⟨_, _, hok, _⟩, _⟩
      cases hok
  · constructor
    · rintro ⟨t, ⟨_, _, hok, hcheck⟩, hp⟩
      cases hok
      rw [checkLength_simulates hf h] at hcheck
      rcases hs : E.checkLength call.1 bb s with e | s'
      · rw [hs] at hcheck
        cases hcheck
      · rw [hs] at hcheck
        cases hcheck
        exact ⟨s', ⟨bb, s, rfl, hs⟩, hp⟩
    · rintro ⟨s', ⟨_, _, hok, hcheck⟩, hp⟩
      cases hok
      refine ⟨F s', ⟨f bb, F s, rfl, ?_⟩, hp⟩
      rw [checkLength_simulates hf h, hcheck]
      rfl

theorem calls_simulates (hf : Hom f) (h : Endpoint.Simulates f F E E') {s : σ}
    {call : UInt32 × β × σ} (hcalls : E.Calls s call) :
    E'.Calls (F s) (call.1, f call.2.1, F call.2.2) := by
  induction hcalls with
  | first hnext =>
    refine .first ?_
    rw [nextCall_simulates hf h, hnext]
    rfl
  | @later s s' s'' packetType bb bb' s₁ call hnext hhandle hcheck _ ih =>
    have hnext' : E'.nextCall (F s) = some (packetType, f bb, F s₁) := by
      rw [nextCall_simulates hf h, hnext]
      rfl
    have hhandle' : E'.handlePacket (f bb) packetType (F s₁) = .ok (true, f bb', F s') := by
      rw [h.handlePacket, hhandle]
      rfl
    have hcheck' : E'.checkLength packetType (f bb') (F s') = .ok (F s'') := by
      rw [checkLength_simulates hf h, hcheck]
      rfl
    exact .later hnext' hhandle' hcheck' ih

theorem callsFor_simulates (hf : Hom f) (h : Endpoint.Simulates f F E E') {data : AString} {s : σ}
    {call : UInt32 × β × σ} (hcalls : E.CallsFor data s call) :
    E'.CallsFor data (F s) (call.1, f call.2.1, F call.2.2) := by
  have hwrite : write data (E'.received (F s)) =
      ((write data (E.received s)).1, f (write data (E.received s)).2) := by
    rw [h.received, hf.write]
  obtain ⟨hfits, hcalls⟩ := hcalls
  refine ⟨by rw [hwrite]; exact hfits, ?_⟩
  rw [hwrite, h.setReceived]
  exact calls_simulates hf h hcalls

end Simulation

theorem opened_nul [Platform] {payload bytes : AString} {packetType : UInt32}
    (h : opened payload = some (packetType, bytes)) : ∃ body, bytes = body ++ [0] := by
  unfold opened at h
  split at h
  next n _ =>
    cases h
    exact ⟨_, rfl⟩
  next => cases h

section Invariant

variable [Platform] {σ : Type} {E : Endpoint Fifo σ} {capacity : Nat} {P : AString → σ → Prop}

theorem nextCall_some {u : AString} {s : σ} (hcap : capacity + 1 < 2 ^ 32) (hu : u.length ≤ capacity)
    (hrec : E.received s = Fifo.filled capacity u) {packetType : UInt32} {bb : Fifo} {s₁ : σ}
    (h : E.nextCall s = some (packetType, bb, s₁)) :
    ∃ payload rest, nextFrame u = some (payload, rest) ∧
      opened payload = some (packetType, bb.unread) ∧
      s₁ = E.setReceived (Fifo.filled capacity rest) s := by
  rw [Endpoint.nextCall, hrec] at h
  rcases hnext : nextFrame u with _ | ⟨payload, rest⟩
  · rw [takeFrame_none hu hnext] at h
    cases h
  · rw [takeFrame_some hu hcap hnext] at h
    have hopened := openFrame_opened payload
    obtain ⟨r, hr, heq⟩ := Option.map_eq_some_iff.mp h
    have hopen : openFrame (Fifo.filled (payload.length + 1) payload) = some r := hr
    rw [hopen] at hopened
    cases heq
    exact ⟨payload, rest, rfl, hopened.symm, rfl⟩

/-- What is kept from packet to packet holds where each call is made: `P` of the bytes up to the
packet, and of the state. -/
theorem calls_invariant (hcap : capacity + 1 < 2 ^ 32)
    (hreceived : ∀ u s, P u s → u.length ≤ capacity ∧ E.received s = Fifo.filled capacity u)
    (hpacket : ∀ u s payload rest packetType bb bb' s', P u s → nextFrame u = some (payload, rest) →
      opened payload = some (packetType, bb.unread) →
      E.handlePacket bb packetType (E.setReceived (Fifo.filled capacity rest) s) =
        .ok (true, bb', s') → P rest s')
    (herror : ∀ u s packetType s', P u s → E.packetError packetType s = .ok s' → P u s')
    {u : AString} {s : σ} (hs : P u s) {call : UInt32 × Fifo × σ} (hcalls : E.Calls s call) :
    ∃ u' s' payload rest, P u' s' ∧ nextFrame u' = some (payload, rest) ∧
      opened payload = some (call.1, call.2.1.unread) ∧
      call.2.2 = E.setReceived (Fifo.filled capacity rest) s' := by
  induction hcalls generalizing u with
  | @first s call hnext =>
    obtain ⟨hu, hrec⟩ := hreceived u s hs
    obtain ⟨payload, rest, hframe, hopen, hset⟩ := nextCall_some hcap hu hrec hnext
    exact ⟨u, s, payload, rest, hs, hframe, hopen, hset⟩
  | @later s s' s'' packetType bb bb' s₁ call hnext hhandle hcheck _ ih =>
    obtain ⟨hu, hrec⟩ := hreceived u s hs
    obtain ⟨payload, rest, hframe, hopen, hset⟩ := nextCall_some hcap hu hrec hnext
    rw [hset] at hhandle
    have hafter := hpacket u s payload rest packetType bb bb' s' hs hframe hopen hhandle
    refine ih (u := rest) ?_
    unfold Endpoint.checkLength at hcheck
    split at hcheck
    next => exact herror rest s' packetType s'' hafter hcheck
    next =>
      cases hcheck
      exact hafter

end Invariant

end P2PChat

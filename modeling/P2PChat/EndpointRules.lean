import P2PChat.Framing

namespace P2PChat

open ByteQueue

section Packets

variable [Platform]

/-- Type and rest of a frame as `HandlePacket` gets them, the NUL behind the rest. -/
def opened (payload : AString) : Option (UInt32 × AString) :=
  match parseVarInt payload with
  | (some packetType, n) => some (packetType, payload.drop n ++ [0])
  | (none, _) => none

def packetsWithin (known : UInt32 → Bool) : Nat → AString → List (UInt32 × AString)
  | 0, _ => []
  | rounds + 1, u =>
    match nextFrame u with
    | none => []
    | some (payload, rest) =>
      match opened payload with
      | none => []
      | some (packetType, bytes) =>
        (packetType, bytes) :: if known packetType then packetsWithin known rounds rest else []

/-- The packets in these bytes, up to the first of a type that is not known. -/
def packets (known : UInt32 → Bool) (u : AString) : List (UInt32 × AString) :=
  packetsWithin known u.length u

theorem packetsWithin_enough {known : UInt32 → Bool} {rounds rounds' : Nat} {u : AString}
    (h : u.length ≤ rounds) (h' : u.length ≤ rounds') :
    packetsWithin known rounds u = packetsWithin known rounds' u := by
  induction rounds generalizing rounds' u with
  | zero =>
    have hnil : u = [] := List.length_eq_zero_iff.mp (by omega)
    subst hnil
    cases rounds' with
    | zero => rfl
    | succ rounds' => rfl
  | succ rounds ih =>
    rcases hnext : nextFrame u with _ | ⟨payload, rest⟩
    · cases rounds' with
      | zero => simp only [packetsWithin, hnext]
      | succ rounds' => simp only [packetsWithin, hnext]
    · have hlen := nextFrame_length hnext
      obtain ⟨n, rfl⟩ : ∃ n, rounds' = n + 1 := ⟨rounds' - 1, by omega⟩
      have hrest := @ih n rest (by omega) (by omega)
      simp only [packetsWithin, hnext, hrest]

theorem packets_none {known : UInt32 → Bool} {u : AString} (h : nextFrame u = none) :
    packets known u = [] := by
  unfold packets
  rcases u.length with _ | n
  · rfl
  · simp only [packetsWithin, h]

theorem packets_cons {known : UInt32 → Bool} {u payload rest bytes : AString} {packetType : UInt32}
    (h : nextFrame u = some (payload, rest)) (hopen : opened payload = some (packetType, bytes)) :
    packets known u =
      (packetType, bytes) :: if known packetType then packets known rest else [] := by
  have hlen := nextFrame_length h
  obtain ⟨n, hn⟩ : ∃ n, u.length = n + 1 := ⟨u.length - 1, by omega⟩
  have hrest := @packetsWithin_enough _ known n rest.length rest (by omega) (Nat.le_refl _)
  unfold packets
  simp only [hn, packetsWithin, h, hopen, hrest]

theorem packets_unreadable {known : UInt32 → Bool} {u payload rest : AString}
    (h : nextFrame u = some (payload, rest)) (hopen : opened payload = none) :
    packets known u = [] := by
  have hlen := nextFrame_length h
  obtain ⟨n, hn⟩ : ∃ n, u.length = n + 1 := ⟨u.length - 1, by omega⟩
  unfold packets
  simp only [hn, packetsWithin, h, hopen]

theorem openFrame_opened (payload : AString) :
    (openFrame (Fifo.filled (payload.length + 1) payload)).map (fun r => (r.1, r.2.unread)) =
      opened payload := by
  rw [openFrame_filled]
  unfold opened
  rcases parseVarInt payload with ⟨_ | packetType, n⟩
  · rfl
  · rfl

theorem opened_length {payload bytes : AString} {packetType : UInt32}
    (h : opened payload = some (packetType, bytes)) : bytes.length ≤ payload.length + 1 := by
  unfold opened at h
  split at h
  next n _ =>
    obtain ⟨_, hbytes⟩ := Prod.mk.inj (Option.some.inj h)
    rw [← hbytes, List.length_append, List.length_drop, List.length_singleton]
    omega
  next => cases h

end Packets

theorem write_filled {capacity : Nat} {u data : AString} (hu : u.length ≤ capacity)
    (hfit : (u ++ data).length ≤ capacity) :
    write data (Fifo.filled capacity u) = (true, Fifo.filled capacity (u ++ data)) := by
  obtain ⟨hc, hread, hunread⟩ := Fifo.filled_eq hu
  have hroom : data.length ≤ (Fifo.filled capacity u).free := by
    rw [List.length_append] at hfit
    rw [Fifo.free, hc, hread, hunread, List.length_nil]
    omega
  refine ((append_appends data (Fifo.filled capacity u)).1 hroom).trans ?_
  rw [Fifo.filled, Fifo.append_append (by simpa [Fifo.free, Fifo.empty] using hfit)]
  rfl

theorem write_filled_full {capacity : Nat} {u data : AString} (hu : u.length ≤ capacity)
    (hfull : capacity < (u ++ data).length) :
    write data (Fifo.filled capacity u) = (false, Fifo.filled capacity u) := by
  obtain ⟨hc, hread, hunread⟩ := Fifo.filled_eq hu
  have hlong : ¬(Fifo.filled capacity u).read.length + (Fifo.filled capacity u).unread.length +
      data.length ≤ (Fifo.filled capacity u).capacity := by
    rw [List.length_append] at hfull
    rw [hc, hread, hunread, List.length_nil]
    omega
  exact dif_neg hlong

namespace Endpoint

variable {β σ : Type} [ByteQueue β] [Platform]

omit [Platform] in
/-- What the loop does after a packet that was understood. -/
def checkLength (E : Endpoint β σ) (packetType : UInt32) (bb : β) (s : σ) : Except Halt σ :=
  if getReadableSpace bb != 1 then E.packetError packetType s else .ok s

omit [Platform] in
/-- A call of `HandlePacket` with what the loop does after it, and whether it goes on. -/
def handleFrame (E : Endpoint β σ) (packetType : UInt32) (bb : β) (s : σ) : Except Halt (Bool × σ) := do
  let (understood, bb, s) ← E.handlePacket bb packetType s
  if !understood then .ok (false, s)
  else do
    let s ← E.checkLength packetType bb s
    .ok (true, s)

theorem handlePackets_frame {E : Endpoint β σ} {s : σ} {b bb bb' : β} {packetType : UInt32}
    (htake : takeFrame (E.received s) = .ok (some bb', b)) (hopen : openFrame bb' = some (packetType, bb))
    (rounds : Nat) :
    E.handlePackets (rounds + 1) s = (do
      let (goesOn, s) ← E.handleFrame packetType bb (E.setReceived b s)
      if !goesOn then .ok s else E.handlePackets rounds s) := by
  simp only [handlePackets, htake, hopen, bind, Except.bind, Option.bind_some, handleFrame]
  rcases E.handlePacket bb packetType (E.setReceived b s) with e | ⟨understood, bb'', s'⟩
  · rfl
  · cases understood with
    | false => rfl
    | true =>
      simp only [Bool.not_true, Bool.false_eq_true, if_false, checkLength]
      split
      next =>
        rcases E.packetError packetType s' with e | s''
        · rfl
        · rfl
      next => rfl

end Endpoint

variable [Platform] {σ : Type}

/-- A rule for `AddReceivedData`: `P` holds of the bytes that are left and the state whenever the loop
looks for a packet, and every way out of the loop gives `Q`. -/
structure Endpoint.FrameRule (E : Endpoint Fifo σ) (capacity : Nat) (P : AString → σ → Prop)
    (Q : Except Halt σ → Prop) : Prop where
  received : ∀ u s, P u s → u.length ≤ capacity ∧ E.received s = Fifo.filled capacity u
  wait : ∀ u s, P u s → nextFrame u = none → Q (.ok (E.setReceived (Fifo.filled capacity u) s))
  unreadable : ∀ u s payload rest, P u s → nextFrame u = some (payload, rest) →
    opened payload = none → Q (.ok (E.setReceived (Fifo.filled capacity rest) s))
  frame : ∀ u s payload rest packetType bb, P u s → nextFrame u = some (payload, rest) →
    opened payload = some (packetType, bb.unread) →
    (∃ e, E.handleFrame packetType bb (E.setReceived (Fifo.filled capacity rest) s) = .error e ∧
      Q (.error e)) ∨
    (∃ s', E.handleFrame packetType bb (E.setReceived (Fifo.filled capacity rest) s) = .ok (false, s') ∧
      Q (.ok s')) ∨
    (∃ s' rest', E.handleFrame packetType bb (E.setReceived (Fifo.filled capacity rest) s) =
      .ok (true, s') ∧ rest'.length ≤ rest.length ∧ P rest' s')

/-- The same, with a `P` that a call of `PacketError` keeps. -/
structure Endpoint.Rule (E : Endpoint Fifo σ) (capacity : Nat) (P : AString → σ → Prop)
    (Q : Except Halt σ → Prop) : Prop where
  received : ∀ u s, P u s → u.length ≤ capacity ∧ E.received s = Fifo.filled capacity u
  wait : ∀ u s, P u s → nextFrame u = none → Q (.ok (E.setReceived (Fifo.filled capacity u) s))
  unreadable : ∀ u s payload rest, P u s → nextFrame u = some (payload, rest) →
    opened payload = none → Q (.ok (E.setReceived (Fifo.filled capacity rest) s))
  packet : ∀ u s payload rest packetType bb, P u s → nextFrame u = some (payload, rest) →
    opened payload = some (packetType, bb.unread) →
    (∃ e, E.handlePacket bb packetType (E.setReceived (Fifo.filled capacity rest) s) = .error e ∧
      Q (.error e)) ∨
    (∃ bb' s', E.handlePacket bb packetType (E.setReceived (Fifo.filled capacity rest) s) =
      .ok (false, bb', s') ∧ Q (.ok s')) ∨
    (∃ bb' s' rest', E.handlePacket bb packetType (E.setReceived (Fifo.filled capacity rest) s) =
      .ok (true, bb', s') ∧ rest'.length ≤ rest.length ∧ P rest' s')
  packetError : ∀ u s packetType, P u s → ∃ s', E.packetError packetType s = .ok s' ∧ P u s'

variable {E : Endpoint Fifo σ} {capacity : Nat} {P : AString → σ → Prop} {Q : Except Halt σ → Prop}

/-- Each round that goes on has less left to read, so the bound on the rounds is never met. -/
theorem Endpoint.FrameRule.handlePackets (hE : E.FrameRule capacity P Q) (hcap : capacity + 1 < 2 ^ 32)
    {rounds : Nat} {u : AString} {s : σ} (hs : P u s) (hr : u.length < rounds) :
    Q (E.handlePackets rounds s) := by
  induction rounds generalizing u s with
  | zero => omega
  | succ rounds ih =>
    obtain ⟨hu, hrec⟩ := hE.received u s hs
    rcases hnext : nextFrame u with _ | ⟨payload, rest⟩
    · have hq := hE.wait u s hs hnext
      have htake : takeFrame (E.received s) = .ok (none, Fifo.filled capacity u) := by
        rw [hrec]
        exact takeFrame_none hu hnext
      simpa only [Endpoint.handlePackets, htake, bind, Except.bind, Option.bind_none] using hq
    · have hlen := nextFrame_length hnext
      have htake : takeFrame (E.received s) =
          .ok (some (Fifo.filled (payload.length + 1) payload), Fifo.filled capacity rest) := by
        rw [hrec]
        exact takeFrame_some hu hcap hnext
      have hopened := openFrame_opened payload
      rcases hopen : openFrame (Fifo.filled (payload.length + 1) payload) with _ | ⟨packetType, bb⟩
      · rw [hopen] at hopened
        have hq := hE.unreadable u s payload rest hs hnext hopened.symm
        simpa only [Endpoint.handlePackets, htake, bind, Except.bind, Option.bind_some, hopen] using hq
      · rw [hopen] at hopened
        rw [Endpoint.handlePackets_frame htake hopen]
        rcases hE.frame u s payload rest packetType bb hs hnext hopened.symm with
          ⟨e, hframe, hq⟩ | ⟨s', hframe, hq⟩ | ⟨s', rest', hframe, hrest, hp⟩
        · rw [hframe]
          exact hq
        · rw [hframe]
          exact hq
        · rw [hframe]
          exact ih hp (by omega)

theorem Endpoint.Rule.frameRule (hE : E.Rule capacity P Q) : E.FrameRule capacity P Q where
  received := hE.received
  wait := hE.wait
  unreadable := hE.unreadable
  frame u s payload rest packetType bb hs hnext hopen := by
    unfold Endpoint.handleFrame
    rcases hE.packet u s payload rest packetType bb hs hnext hopen with
      ⟨e, hhandle, hq⟩ | ⟨bb', s', hhandle, hq⟩ | ⟨bb', s', rest', hhandle, hrest, hp⟩
    · rw [hhandle]
      exact Or.inl ⟨e, rfl, hq⟩
    · rw [hhandle]
      exact Or.inr (Or.inl ⟨s', rfl, hq⟩)
    · rw [hhandle]
      by_cases hone : getReadableSpace bb' = 1
      · refine Or.inr (Or.inr ⟨s', rest', ?_, hrest, hp⟩)
        simp [bind, Except.bind, Endpoint.checkLength, hone]
      · obtain ⟨s'', herror, hp'⟩ := hE.packetError rest' s' packetType hp
        refine Or.inr (Or.inr ⟨s'', rest', ?_, hrest, hp'⟩)
        simp [bind, Except.bind, Endpoint.checkLength, hone, herror]

/-- Data that fits starts the loop on what was pending and the data. -/
theorem Endpoint.FrameRule.addReceivedData (hE : E.FrameRule capacity P Q)
    (hcap : capacity + 1 < 2 ^ 32) {u data : AString} {s : σ} (hu : u.length ≤ capacity)
    (hrec : E.received s = Fifo.filled capacity u) (hfit : (u ++ data).length ≤ capacity)
    (hs : P (u ++ data) (E.setReceived (Fifo.filled capacity (u ++ data)) s)) :
    Q (E.addReceivedData data s) := by
  obtain ⟨_, hread, hunread⟩ := Fifo.filled_eq hfit
  have hwrite := write_filled hu hfit
  have hused : getUsedSpace (Fifo.filled capacity (u ++ data)) = (u ++ data).length := by
    rw [getUsedSpace_fifo, hread, hunread, List.length_nil, Nat.zero_add]
  have hq := hE.handlePackets hcap hs (Nat.lt_succ_self (u ++ data).length)
  simpa only [Endpoint.addReceivedData, hrec, hwrite, hused] using hq

theorem Endpoint.Rule.addReceivedData (hE : E.Rule capacity P Q) (hcap : capacity + 1 < 2 ^ 32)
    {u data : AString} {s : σ} (hu : u.length ≤ capacity)
    (hrec : E.received s = Fifo.filled capacity u) (hfit : (u ++ data).length ≤ capacity)
    (hs : P (u ++ data) (E.setReceived (Fifo.filled capacity (u ++ data)) s)) :
    Q (E.addReceivedData data s) := hE.frameRule.addReceivedData hcap hu hrec hfit hs

theorem addReceivedData_rejected {β : Type} [ByteQueue β] {E : Endpoint β σ} {data : AString} {s : σ} {b : β}
    (hwrite : write data (E.received s) = (false, b)) :
    E.addReceivedData data s = E.packetBufferFull (E.setReceived b s) := by
  rw [Endpoint.addReceivedData, hwrite]

/-- Data that does not fit is reported, and dropped. -/
theorem addReceivedData_full {E : Endpoint Fifo σ} {capacity : Nat} {u data : AString} {s : σ}
    (hu : u.length ≤ capacity) (hrec : E.received s = Fifo.filled capacity u)
    (hfull : capacity < (u ++ data).length) :
    E.addReceivedData data s = E.packetBufferFull (E.setReceived (Fifo.filled capacity u) s) := by
  apply addReceivedData_rejected
  rw [hrec, write_filled_full hu hfull]

end P2PChat

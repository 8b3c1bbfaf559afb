import P2PChat.PacketFrame

namespace P2PChat

open ByteQueue

/-- The parts of a connection that its `AddReceivedData` uses. -/
structure Endpoint (β σ : Type) where
  received : σ → β
  setReceived : β → σ → σ
  handlePacket : β → UInt32 → σ → Except Halt (Bool × β × σ)
  packetBufferFull : σ → Except Halt σ
  packetError : UInt32 → σ → Except Halt σ

section Definitions

variable {β σ : Type} [ByteQueue β] [Platform]

/-- The first part of a round: one complete frame moves to a buffer of its own, or the reading
is undone. -/
def takeFrame (b : β) : Except Halt (Option β × β) :=
  match readVarInt b with
  | (none, b) => .ok (none, resetRead b)
  | (some packetLen, b) =>
    if !canReadBytes packetLen.toNat b then .ok (none, resetRead b)
    else
      match readToByteBuffer packetLen.toNat (new (packetLen + 1).toNat) b with
      | (true, bb, b) => .ok (some bb, commitRead b)
      | (false, _, _) => .error .verify

/-- The second part: the type is read, and one NUL written so that over-reads show. -/
def openFrame (bb : β) : Option (UInt32 × β) :=
  match readVarInt bb with
  | (none, _) => none
  | (some packetType, bb) => some (packetType, (write [0] bb).2)

namespace Endpoint

/-- The loop of `AddReceivedData`, for at most so many rounds. -/
def handlePackets (E : Endpoint β σ) : Nat → σ → Except Halt σ
  | 0, _ => .error .rounds
  | rounds + 1, s => do
    let (taken, b) ← takeFrame (E.received s)
    match taken.bind openFrame with
    | none => .ok (E.setReceived b s)
    | some (packetType, bb) =>
      let (understood, bb, s) ← E.handlePacket bb packetType (E.setReceived b s)
      if !understood then .ok s
      else if getReadableSpace bb != 1 then do
        let s ← E.packetError packetType s
        E.handlePackets rounds s
      else E.handlePackets rounds s

/-- Every round uses up at least the byte of a length, so the used space bounds their number. -/
def addReceivedData (E : Endpoint β σ) (data : AString) (s : σ) : Except Halt σ :=
  match write data (E.received s) with
  | (false, b) => E.packetBufferFull (E.setReceived b s)
  | (true, b) => E.handlePackets (getUsedSpace b + 1) (E.setReceived b s)

/-- The endpoint with a record of the calls of its `HandlePacket`: the type, and the bytes that
are left to read. -/
def traced (E : Endpoint β σ) : Endpoint β (List (UInt32 × AString) × σ) where
  received s := E.received s.2
  setReceived b s := (s.1, E.setReceived b s.2)
  handlePacket bb packetType s := do
    let (understood, bb', s') ← E.handlePacket bb packetType s.2
    .ok (understood, bb', s.1 ++ [(packetType, (readAll bb).1)], s')
  packetBufferFull s := do
    let s' ← E.packetBufferFull s.2
    .ok (s.1, s')
  packetError packetType s := do
    let s' ← E.packetError packetType s.2
    .ok (s.1, s')

/-- The chunks of a stream, one call of `AddReceivedData` each. -/
def receiveAll (E : Endpoint β σ) : List AString → σ → Except Halt σ
  | [], s => .ok s
  | chunk :: chunks, s => do
    let s ← E.addReceivedData chunk s
    E.receiveAll chunks s

end Endpoint

end Definitions

section Refinement

variable {β γ : Type} [ByteQueue β] [ByteQueue γ] [Platform] {f : β → γ} (hf : Hom f)

include hf

theorem takeFrame_map (b : β) :
    takeFrame (f b) = (takeFrame b).map (fun r => (r.1.map f, f r.2)) := by
  rw [takeFrame, takeFrame, readVarInt_commutes hf b]
  rcases readVarInt b with ⟨_ | packetLen, b'⟩
  · simp only [← hf.resetRead]
    rfl
  · simp only [hf.canReadBytes, ← hf.resetRead, ← hf.new, hf.readToByteBuffer]
    split
    next => rfl
    next =>
      rcases readToByteBuffer packetLen.toNat (new (packetLen + 1).toNat) b' with ⟨_ | _, bb, b''⟩
      · rfl
      · simp only [← hf.commitRead]
        rfl

theorem openFrame_map (bb : β) :
    openFrame (f bb) = (openFrame bb).map (fun r => (r.1, f r.2)) := by
  rw [openFrame, openFrame, readVarInt_commutes hf bb]
  rcases readVarInt bb with ⟨_ | packetType, bb'⟩
  · rfl
  · simp only [hf.write]
    rfl

end Refinement

theorem Fifo.reset_advance {q : Fifo} (h : q.read = []) (n : Nat) : (q.advance n).reset = q := by
  apply Fifo.ext
  · rfl
  · exact h.symm
  · simp [Fifo.advance, Fifo.reset, h]

theorem Fifo.commit_advance {capacity : Nat} {u : AString} (h : u.length ≤ capacity) (n : Nat) :
    ((Fifo.filled capacity u).advance n).commit = Fifo.filled capacity (u.drop n) := by
  obtain ⟨hcap, _, hunread⟩ := Fifo.filled_eq h
  obtain ⟨hcap', hread', hunread'⟩ := @Fifo.filled_eq capacity (u.drop n)
    (by rw [List.length_drop]; omega)
  apply Fifo.ext
  · exact hcap.trans hcap'.symm
  · exact hread'.symm
  · simp only [Fifo.commit, Fifo.advance, hunread, hunread']

section Frames

variable [Platform]

/-- The first complete frame of a stream: its body, and what follows it. -/
def nextFrame (u : AString) : Option (AString × AString) :=
  match parseVarInt u with
  | (some packetLen, n) =>
    if packetLen.toNat ≤ (u.drop n).length then
      some ((u.drop n).take packetLen.toNat, (u.drop n).drop packetLen.toNat)
    else none
  | (none, _) => none

theorem nextFrame_length {u payload rest : AString} (h : nextFrame u = some (payload, rest)) :
    payload.length + rest.length < u.length := by
  unfold nextFrame at h
  split at h
  next packetLen n hp =>
    split at h
    next hle =>
      cases h
      obtain ⟨k, hk⟩ : ∃ k, Leb128.firstLength u = some k := by
        rcases hfl : Leb128.firstLength u with _ | k
        · simp [parseVarInt, Parser.map, parseVarIntWith, hfl] at hp
        · exact ⟨k, rfl⟩
      have hn : n = k := by
        simp only [parseVarInt, Parser.map, parseVarIntWith, hk, Option.map_some, Prod.mk.injEq] at hp
        exact hp.2.symm
      obtain ⟨hpos, hlen⟩ := Leb128.firstLength_le hk
      simp only [List.length_take, List.length_drop] at hle ⊢
      omega
    next => cases h
  next => cases h

theorem nextFrame_frame {payload : AString} (h : payload.length < 2 ^ 32) (rest : AString) :
    nextFrame (frame payload ++ rest) = some (payload, rest) := by
  have hsize : (UInt32.ofNat payload.length).toNat = payload.length := by
    rw [UInt32.toNat_ofNat', Nat.mod_eq_of_lt h]
  rw [nextFrame, frame, List.append_assoc, parseVarInt_varInt]
  simp only [List.drop_left', hsize, List.length_append, Nat.le_add_right, if_true, List.take_left']

/-- A frame that is cut short is not taken. -/
theorem nextFrame_part {payload rest : AString} (h : payload.length < 2 ^ 32)
    (hp : rest <+: frame payload) (hlt : rest.length < (frame payload).length) :
    nextFrame rest = none := by
  obtain ⟨v, hv⟩ : ∃ v, v = UInt32.ofNat payload.length := ⟨_, rfl⟩
  have hsize : v.toNat = payload.length := by
    rw [hv, UInt32.toNat_ofNat', Nat.mod_eq_of_lt h]
  have htake : rest = (varInt v ++ payload).take rest.length := by
    rw [hv]
    exact List.prefix_iff_eq_take.mp hp
  rw [frame, ← hv, List.length_append] at hlt
  by_cases hcut : rest.length < (varInt v).length
  · have hno : Leb128.firstLength rest = none := by
      rw [htake, List.take_append_of_le_length (Nat.le_of_lt hcut)]
      exact Leb128.firstLength_take_encode hcut
    simp only [nextFrame, parseVarInt, Parser.map, parseVarIntWith, hno, Option.map_none]
  · have hrest : rest = varInt v ++ payload.take (rest.length - (varInt v).length) := by
      have hle : (varInt v).length ≤ rest.length := Nat.le_of_not_lt hcut
      rw [List.take_append, List.take_of_length_le hle] at htake
      exact htake
    have hshort : ¬v.toNat ≤ (payload.take (rest.length - (varInt v).length)).length := by
      rw [List.length_take]
      omega
    rw [hrest, nextFrame, parseVarInt_varInt]
    simp only [List.drop_left', if_neg hshort]

theorem nextFrame_nil : nextFrame [] = none := rfl

theorem takeFrame_none {capacity : Nat} {u : AString} (h : u.length ≤ capacity)
    (hu : nextFrame u = none) :
    takeFrame (Fifo.filled capacity u) = .ok (none, Fifo.filled capacity u) := by
  obtain ⟨_, hread, hunread⟩ := Fifo.filled_eq h
  rw [takeFrame, readVarInt_reads, hunread]
  unfold nextFrame at hu
  rcases hp : parseVarInt u with ⟨_ | packetLen, n⟩
  · exact congrArg (fun b => Except.ok (none, b)) (Fifo.reset_advance hread n)
  · simp only [hp, ite_eq_right_iff, reduceCtorEq, imp_false] at hu
    have hno : canReadBytes packetLen.toNat ((Fifo.filled capacity u).advance n) = false := by
      simp only [canReadBytes, getReadableSpace, Fifo.advance, hunread, decide_eq_false_iff_not]
      exact hu
    simp only [hno, Bool.not_false, if_true]
    exact congrArg (fun b => Except.ok (none, b)) (Fifo.reset_advance hread n)

theorem takeFrame_some {capacity : Nat} {u payload rest : AString} (h : u.length ≤ capacity)
    (hcap : capacity + 1 < 2 ^ 32) (hu : nextFrame u = some (payload, rest)) :
    takeFrame (Fifo.filled capacity u) =
      .ok (some (Fifo.filled (payload.length + 1) payload), Fifo.filled capacity rest) := by
  obtain ⟨_, _, hunread⟩ := Fifo.filled_eq h
  have hlt := nextFrame_length hu
  unfold nextFrame at hu
  split at hu
  next packetLen n hp =>
    split at hu
    next hle =>
      cases hu
      have hsize : ((u.drop n).take packetLen.toNat).length = packetLen.toNat := by
        rw [List.length_take]; omega
      have hone : (1 : UInt32).toNat = 1 := rfl
      have hnew : (packetLen + 1).toNat = packetLen.toNat + 1 := by
        rw [UInt32.toNat_add, hone]
        omega
      have hyes : canReadBytes packetLen.toNat ((Fifo.filled capacity u).advance n) = true := by
        simp only [canReadBytes, getReadableSpace, Fifo.advance, hunread, decide_eq_true_eq]
        exact hle
      have hmove : readToByteBuffer packetLen.toNat (new (packetLen.toNat + 1) : Fifo)
          ((Fifo.filled capacity u).advance n) =
          (true, Fifo.filled (packetLen.toNat + 1) ((u.drop n).take packetLen.toNat),
            (Fifo.filled capacity u).advance (n + packetLen.toNat)) := by
        rw [← Fifo.advance_advance]
        have hroom : packetLen.toNat ≤ (Fifo.empty (packetLen.toNat + 1)).free := by
          simp [Fifo.free, Fifo.empty]
        have hleft : packetLen.toNat ≤ ((Fifo.filled capacity u).advance n).unread.length := by
          simpa only [Fifo.advance, hunread] using hle
        change Fifo.transfer _ (Fifo.empty _) _ = _
        rw [Fifo.transfer, if_pos ⟨hroom, hleft⟩]
        change (true, (Fifo.append (((Fifo.filled capacity u).unread.drop n).take packetLen.toNat)
          (Fifo.empty _)).2, _) = _
        rw [hunread]
        rfl
      rw [takeFrame, readVarInt_reads, hunread, hp]
      simp only [hyes, Bool.not_true, Bool.false_eq_true, if_false, hnew, hmove, commitRead_fifo,
        Fifo.commit_advance h, hsize, List.drop_drop]
    next => cases hu
  next => cases hu

theorem openFrame_filled (payload : AString) :
    (openFrame (Fifo.filled (payload.length + 1) payload)).map (fun r => (r.1, r.2.unread)) =
      (parseVarInt payload).1.map (fun t => (t, payload.drop (parseVarInt payload).2 ++ [0])) := by
  obtain ⟨hcap, hread, hunread⟩ := Fifo.filled_eq (Nat.le_succ payload.length)
  rw [openFrame, readVarInt_reads, hunread]
  rcases hp : parseVarInt payload with ⟨_ | packetType, n⟩
  · rfl
  · have hroom : ([0] : AString).length ≤ ((Fifo.filled (payload.length + 1) payload).advance n).free := by
      simp only [Fifo.free, Fifo.advance, hcap, hread, hunread, List.length_append, List.length_take,
        List.length_drop, List.length_nil, List.length_singleton]
      omega
    obtain ⟨_, _, happ⟩ := Fifo.append_snd hroom
    simp only [Option.map_some, Option.some.injEq, Prod.mk.injEq, true_and]
    exact happ.trans (by simp only [Fifo.advance, hunread])

end Frames

end P2PChat

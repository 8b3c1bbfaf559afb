import P2PChat.BufferRefinement
import P2PChat.Framing
import P2PChat.Loop
import P2PChat.PeerConnectionClient
import P2PChat.ServerRun

namespace P2PChat

open ByteQueue

namespace Endpoint

variable {β σ : Type} [ByteQueue β] [Platform]

/-- One round of the loop of `AddReceivedData`, and whether it leaves the loop. -/
def round (E : Endpoint β σ) (s : σ) : Except Halt (Bool × σ) := do
  let (taken, b) ← takeFrame (E.received s)
  match taken.bind openFrame with
  | none => .ok (false, E.setReceived b s)
  | some (packetType, bb) =>
    let (understood, bb, s) ← E.handlePacket bb packetType (E.setReceived b s)
    if !understood then .ok (false, s)
    else if getReadableSpace bb != 1 then do
      let s ← E.packetError packetType s
      .ok (true, s)
    else .ok (true, s)

def loop (E : Endpoint β σ) : Loop σ Halt := ⟨E.round⟩

theorem handlePackets_loop (E : Endpoint β σ) (rounds : Nat) (s : σ) :
    E.handlePackets rounds s = E.loop.run .rounds rounds s := by
  induction rounds generalizing s with
  | zero => rfl
  | succ rounds ih =>
    have hround : E.loop.round s = E.round s := rfl
    rw [handlePackets, Loop.run, hround, round]
    rcases takeFrame (E.received s) with halt | ⟨taken, b⟩
    · rfl
    · simp only [bind, Except.bind]
      rcases taken.bind openFrame with _ | ⟨packetType, bb⟩
      · rfl
      · dsimp only
        rcases E.handlePacket bb packetType (E.setReceived b s) with halt | ⟨understood, bb', s'⟩
        · rfl
        · cases understood with
          | false => rfl
          | true =>
            simp only [Bool.not_true, Bool.false_eq_true, if_false]
            split
            next =>
              rcases E.packetError packetType s' with halt | s''
              · rfl
              · exact ih s''
            next => exact ih s'

end Endpoint

theorem used_advance (q : Fifo) (n : Nat) : getUsedSpace (q.advance n) = getUsedSpace q := by
  rw [getUsedSpace_fifo, getUsedSpace_fifo, Fifo.advance, List.length_append, List.length_take, List.length_drop]
  omega

theorem used_reset (q : Fifo) : getUsedSpace (resetRead q) = getUsedSpace q := by
  change (([] : AString).length + (q.read ++ q.unread).length) = _
  rw [List.length_nil, Nat.zero_add, List.length_append]
  rfl

theorem used_commit (q : Fifo) : getUsedSpace (commitRead q) = q.unread.length := Nat.zero_add _

section Frames

variable [Platform] {q q' : Fifo} {packetLen : UInt32}

theorem parseVarInt_pos {u : AString} {v : UInt32} {n : Nat} (h : parseVarInt u = (some v, n)) : 0 < n := by
  unfold parseVarInt Parser.map parseVarIntWith at h
  rcases hfirst : Leb128.firstLength u with _ | k
  · rw [hfirst] at h
    cases h
  · simp only [hfirst, Option.map_some, Prod.mk.injEq] at h
    have hpos := (Leb128.firstLength_le hfirst).1
    omega

/-- A length that is read takes a byte at least. -/
theorem readVarInt_advances (h : readVarInt q = (some packetLen, q')) :
    ∃ n, 0 < n ∧ n ≤ q.unread.length ∧ q' = q.advance n := by
  rw [readVarInt_reads] at h
  rcases hparse : parseVarInt q.unread with ⟨v, n⟩
  rw [hparse] at h
  obtain ⟨hv, hq'⟩ := Prod.mk.inj h
  have hv : v = some packetLen := hv
  rw [hv] at hparse
  exact ⟨n, parseVarInt_pos hparse, parseVarInt_le hparse, hq'.symm⟩

/-- A frame that is there is shorter than the buffer, so that the size of its own does not wrap, and it fits. -/
theorem readToByteBuffer_frame (hcap : q.capacity + 1 < 2 ^ 32) (h : readVarInt q = (some packetLen, q'))
    (hcan : canReadBytes packetLen.toNat q' = true) : (packetLen + 1).toNat = packetLen.toNat + 1 ∧
      ∃ bb, readToByteBuffer packetLen.toNat (new (packetLen + 1).toNat) q' =
        (true, bb, q'.advance packetLen.toNat) := by
  obtain ⟨n, _, hn, rfl⟩ := readVarInt_advances h
  have hle : packetLen.toNat ≤ (q.unread.drop n).length := of_decide_eq_true hcan
  have hfits := q.fits
  have hone : (1 : UInt32).toNat = 1 := rfl
  rw [List.length_drop] at hle
  have hwrap : (packetLen + 1).toNat = packetLen.toNat + 1 := by
    rw [UInt32.toNat_add, hone]
    omega
  refine ⟨hwrap, ?_⟩
  have hroom : packetLen.toNat ≤ (Fifo.empty (packetLen.toNat + 1)).free := by
    simp [Fifo.free, Fifo.empty]
  have hleft : packetLen.toNat ≤ (q.advance n).unread.length := of_decide_eq_true hcan
  rw [hwrap]
  exact ⟨_, if_pos ⟨hroom, hleft⟩⟩

/-- The reading is undone, or a frame is taken. -/
theorem takeFrame_uses (hcap : q.capacity + 1 < 2 ^ 32) :
    ∃ taken q', takeFrame q = .ok (taken, q') ∧ q'.capacity = q.capacity ∧ getUsedSpace q' ≤ getUsedSpace q ∧
      (taken.isSome = true → getUsedSpace q' < getUsedSpace q) := by
  have hundone : ∀ n, ∃ taken q', (Except.ok (none, resetRead (q.advance n)) : Except Halt (Option Fifo × Fifo)) =
      .ok (taken, q') ∧ q'.capacity = q.capacity ∧ getUsedSpace q' ≤ getUsedSpace q ∧
        (taken.isSome = true → getUsedSpace q' < getUsedSpace q) := by
    intro n
    refine ⟨none, _, rfl, rfl, ?_, fun hsome => absurd hsome Bool.false_ne_true⟩
    rw [used_reset, used_advance]
  rcases hread : readVarInt q with ⟨_ | packetLen, q'⟩
  · have hq' : q' = q.advance (parseVarInt q.unread).2 := by
      rw [readVarInt_reads] at hread
      exact (Prod.mk.inj hread).2.symm
    rw [takeFrame, hread, hq']
    exact hundone _
  · obtain ⟨n, hpos, hn, hq'⟩ := readVarInt_advances hread
    rw [takeFrame, hread]
    dsimp only
    cases hcan : canReadBytes packetLen.toNat q' with
    | false =>
      rw [Bool.not_false, if_pos rfl, hq']
      exact hundone n
    | true =>
      obtain ⟨_, bb, hmove⟩ := readToByteBuffer_frame hcap hread hcan
      rw [Bool.not_true, if_neg Bool.false_ne_true, hmove]
      have hless : getUsedSpace (commitRead (q'.advance packetLen.toNat)) < getUsedSpace q := by
        rw [used_commit, hq', getUsedSpace_fifo]
        change (((q.unread.drop n).drop packetLen.toNat).length) < _
        rw [List.length_drop, List.length_drop]
        omega
      refine ⟨some bb, _, rfl, by rw [hq']; rfl, Nat.le_of_lt hless, fun _ => hless⟩

end Frames

/-- Nothing was added to a buffer, which is of the same size. -/
structure ByteBuffer.NoMore (b b' : ByteBuffer) : Prop where
  bufferSize : b'.1.bufferSize = b.1.bufferSize
  used : b'.1.getUsedSpace ≤ b.1.getUsedSpace

section Rounds

variable [Platform] {σ : Type} {E : Endpoint ByteBuffer σ} {s s' : σ}

namespace Endpoint

/-- Neither `HandlePacket` nor what reports its errors adds to `m_ReceivedData`. -/
structure AddsNothing (E : Endpoint ByteBuffer σ) : Prop where
  received_setReceived : ∀ b s, E.received (E.setReceived b s) = b
  handlePacket : ∀ bb packetType s r, E.handlePacket bb packetType s = .ok r →
    (E.received s).NoMore (E.received r.2.2)
  packetError : ∀ packetType s s', E.packetError packetType s = .ok s' → (E.received s).NoMore (E.received s')

/-- From this state the loop comes to what its last round does: before it, every round moves a frame that is small
enough, and uses up some of `m_ReceivedData`. -/
structure LoopTerminates (E : Endpoint ByteBuffer σ) (r : Except Halt σ) (s : σ) : Prop where
  frames : ∀ n s', E.loop.After s n s' → ∀ packetLen b, readVarInt (E.received s') = (some packetLen, b) →
    canReadBytes packetLen.toNat b = true → (packetLen + 1).toNat = packetLen.toNat + 1 ∧
      (readToByteBuffer packetLen.toNat (new (packetLen + 1).toNat) b).1 = true
  falls : ∀ n s' s'', E.loop.After s n s' → E.loop.round s' = .ok (true, s'') →
    getUsedSpace (E.received s'') < getUsedSpace (E.received s')
  leaves : ∃ n s', n ≤ getUsedSpace (E.received s) ∧ E.loop.After s n s' ∧ E.loop.Leaves s' ∧
    r = (E.loop.round s').map Prod.snd

/-- `AddReceivedData` terminates, if it comes to its loop. -/
def Terminates (E : Endpoint ByteBuffer σ) (data : AString) (s : σ) : Prop :=
  ∀ b, write data (E.received s) = (true, b) →
    E.LoopTerminates (E.addReceivedData data s) (E.setReceived b s)

theorem takeFrame_less {b : ByteBuffer} (hsize : b.1.bufferSize < 2 ^ 32) :
    ∃ taken b', takeFrame b = .ok (taken, b') ∧ b.NoMore b' ∧
      (taken.isSome = true → b'.1.getUsedSpace < b.1.getUsedSpace) := by
  have hf := ByteBuffer.contents_hom
  have hcap : b.contents.capacity + 1 < 2 ^ 32 := by
    have hpos := b.2.readPos_lt
    change b.1.bufferSize - 1 + 1 < 2 ^ 32
    omega
  obtain ⟨taken', q', htake, hcapacity, hle, hless⟩ := takeFrame_uses hcap
  rw [takeFrame_map hf] at htake
  rcases hb : takeFrame b with halt | ⟨taken, b'⟩
  · rw [hb] at htake
    cases htake
  · rw [hb] at htake
    obtain ⟨htaken, hq'⟩ := Prod.mk.inj (Except.ok.inj htake)
    dsimp only at htaken hq'
    rw [← hq', hf.getUsedSpace, hf.getUsedSpace] at hle hless
    rw [← htaken, Option.isSome_map] at hless
    have hcapacity : b'.1.bufferSize - 1 = b.1.bufferSize - 1 := by
      rw [← hq'] at hcapacity
      exact hcapacity
    have hpos := b.2.readPos_lt
    have hpos' := b'.2.readPos_lt
    exact ⟨taken, b', rfl, ⟨by omega, hle⟩, hless⟩

/-- What a round that goes on has done. -/
theorem round_goes (hE : E.AddsNothing) (hsize : (E.received s).1.bufferSize < 2 ^ 32)
    (h : E.loop.round s = .ok (true, s')) :
    (E.received s').1.bufferSize = (E.received s).1.bufferSize ∧
      (E.received s').1.getUsedSpace < (E.received s).1.getUsedSpace := by
  have h : E.round s = .ok (true, s') := h
  obtain ⟨taken, b, htake, hless, hused⟩ := takeFrame_less hsize
  rw [round, htake] at h
  simp only [bind, Except.bind] at h
  rcases hopen : taken.bind openFrame with _ | ⟨packetType, bb⟩
  · rw [hopen] at h
    cases h
  · rw [hopen] at h
    dsimp only at h
    have hsome : taken.isSome = true := by
      obtain ⟨bb₀, htaken, _⟩ := Option.bind_eq_some_iff.mp hopen
      rw [htaken]
      rfl
    rcases hhandle : E.handlePacket bb packetType (E.setReceived b s) with halt | ⟨understood, bb', s₁⟩
    · rw [hhandle] at h
      cases h
    · have hmore := hE.handlePacket _ _ _ _ hhandle
      rw [hE.received_setReceived] at hmore
      have hafter : ∀ s₂, (E.received s₁).NoMore (E.received s₂) →
          (E.received s₂).1.bufferSize = (E.received s).1.bufferSize ∧
            (E.received s₂).1.getUsedSpace < (E.received s).1.getUsedSpace := by
        intro s₂ hlast
        refine ⟨hlast.bufferSize.trans (hmore.bufferSize.trans hless.bufferSize), ?_⟩
        exact Nat.lt_of_le_of_lt (hlast.used.trans hmore.used) (hused hsome)
      rw [hhandle] at h
      cases understood with
      | false => cases h
      | true =>
        simp only [Bool.not_true, Bool.false_eq_true, if_false] at h
        split at h
        next =>
          rcases herror : E.packetError packetType s₁ with halt | s₂
          · rw [herror] at h
            cases h
          · rw [herror] at h
            cases h
            exact hafter _ (hE.packetError _ _ _ herror)
        next =>
          cases h
          exact hafter _ ⟨rfl, Nat.le_refl _⟩

/-- What is promised of the frame that a round takes. -/
theorem frame_moved {b b' : ByteBuffer} {packetLen : UInt32} (hsize : b.1.bufferSize < 2 ^ 32)
    (hread : readVarInt b = (some packetLen, b')) (hcan : canReadBytes packetLen.toNat b' = true) :
    (packetLen + 1).toNat = packetLen.toNat + 1 ∧
      (readToByteBuffer packetLen.toNat (new (packetLen + 1).toNat) b').1 = true := by
  have hf := ByteBuffer.contents_hom
  have hcap : b.contents.capacity + 1 < 2 ^ 32 := by
    have hpos := b.2.readPos_lt
    change b.1.bufferSize - 1 + 1 < 2 ^ 32
    omega
  have hread' : readVarInt b.contents = (some packetLen, b'.contents) := by
    rw [readVarInt_commutes hf b, hread]
  obtain ⟨hwrap, bb, hmove⟩ := readToByteBuffer_frame hcap hread' ((hf.canReadBytes _ _).trans hcan)
  refine ⟨hwrap, ?_⟩
  rw [← hf.new, hf.readToByteBuffer] at hmove
  exact (Prod.mk.inj hmove).1

theorem AddsNothing.loopTerminates (hE : E.AddsNothing) (hsize : (E.received s).1.bufferSize < 2 ^ 32)
    {r : Except Halt σ} (hr : r = E.handlePackets (getUsedSpace (E.received s) + 1) s) :
    E.LoopTerminates r s := by
  have hkeep : ∀ s s', (E.received s).1.bufferSize < 2 ^ 32 → E.loop.round s = .ok (true, s') →
      (E.received s').1.bufferSize < 2 ^ 32 := by
    intro s s' hs hround
    rw [(round_goes hE hs hround).1]
    exact hs
  have hbound : ∀ n s', E.loop.After s n s' → (E.received s').1.bufferSize < 2 ^ 32 := fun n s' hafter =>
    hafter.invariant (I := fun s => (E.received s).1.bufferSize < 2 ^ 32) hkeep hsize
  refine ⟨fun n s' hafter packetLen b => ?_, fun n s' s'' hafter hround => ?_, ?_⟩
  · exact frame_moved (hbound n s' hafter)
  · exact (round_goes hE (hbound n s' hafter) hround).2
  · obtain ⟨n, s', hn, hafter, hleaves⟩ := Loop.leaves_of_measure
      (I := fun s => (E.received s).1.bufferSize < 2 ^ 32) (m := fun s => getUsedSpace (E.received s)) hkeep
      (fun s s' hs hround => (round_goes hE hs hround).2) hsize
    refine ⟨n, s', hn, hafter, hleaves, ?_⟩
    rw [hr, handlePackets_loop]
    exact Loop.run_leaves hafter hleaves (Nat.lt_succ_of_le hn)

theorem AddsNothing.terminates (hE : E.AddsNothing) (hsize : (E.received s).1.bufferSize < 2 ^ 32)
    (data : AString) : E.Terminates data s := by
  intro b hwrite
  have hb : E.received (E.setReceived b s) = b := hE.received_setReceived b s
  have hsame : b.1.bufferSize = (E.received s).1.bufferSize := by
    have hwritten := Ring.write_bufferSize data (E.received s).1
    have heq : b = (write data (E.received s)).2 := by rw [hwrite]
    rw [heq]
    exact hwritten
  refine hE.loopTerminates (by rw [hb, hsame]; exact hsize) ?_
  rw [addReceivedData, hwrite, hb]

end Endpoint

end Rounds

section Endpoints

variable [Platform]

omit [Platform] in
theorem ClientHandle.sendData_received (data : AString) (c : ClientHandle ByteBuffer) :
    (c.sendData data).protocol.receivedData = c.protocol.receivedData := by
  unfold sendData
  split
  next => rfl
  next => rfl

theorem ClientHandle.packet_received {pkt : Packet} {c c' : ClientHandle ByteBuffer} (h : c.packet pkt = .ok c') :
    c'.protocol.receivedData = c.protocol.receivedData := by
  obtain ⟨out, _, hsent⟩ := bind_ok_iff.mp h
  rw [← Except.ok.inj hsent, sendData_received]
  split
  next => rfl
  next => rfl

theorem ClientHandle.sendDisconnect_received {reason : Int32} {c c' : ClientHandle ByteBuffer}
    (h : c.sendDisconnect reason = .ok c') : c'.protocol.receivedData = c.protocol.receivedData := by
  unfold sendDisconnect at h
  split at h
  next =>
    cases h
    rfl
  next =>
    obtain ⟨c₁, hsent, hlast⟩ := bind_ok_iff.mp h
    have hsame : c'.protocol.receivedData = c₁.protocol.receivedData := by
      cases hlast
      rfl
    rw [hsame]
    unfold protocolSendDisconnect at hsent
    split at hsent
    next => exact packet_received hsent
    next =>
      split at hsent
      next => exact packet_received hsent
      next =>
        cases hsent
        rfl

/-- The endpoint with another `HandlePacket`. -/
def Endpoint.handledBy {β σ : Type} (handler : β → UInt32 → σ → Except Halt (Bool × β × σ)) (E : Endpoint β σ) :
    Endpoint β σ := { E with handlePacket := handler }

theorem server_addsNothing {p : Nat}
    {handler : ByteBuffer → UInt32 → Server ByteBuffer → Except Halt (Bool × ByteBuffer × Server ByteBuffer)}
    (h : ∀ bb packetType s r, handler bb packetType s = .ok r →
      (s.heap p).protocol.receivedData.NoMore (r.2.2.heap p).protocol.receivedData) :
    ((Server.endpoint p).handledBy handler).AddsNothing where
  received_setReceived b s := by
    have hself : (s.modify p (ClientHandle.setReceived b)).heap p = (s.heap p).setReceived b := if_pos rfl
    exact congrArg (fun c => c.protocol.receivedData) hself
  handlePacket := h
  packetError packetType s s' herror := by
    obtain ⟨c, hc, hs'⟩ := bind_ok_iff.mp herror
    have hreceived := ClientHandle.sendDisconnect_received hc
    have hstored : (s.store p c).heap p = c := if_pos rfl
    have hself : (s'.heap p).protocol.receivedData = (s.heap p).protocol.receivedData := by
      rw [← Except.ok.inj hs', hstored, hreceived]
    change (s.heap p).protocol.receivedData.NoMore (s'.heap p).protocol.receivedData
    rw [hself]
    exact ⟨rfl, Nat.le_refl _⟩

theorem client_addsNothing {handler : ByteBuffer → UInt32 → PeerConnectionClient ByteBuffer →
      Except Halt (Bool × ByteBuffer × PeerConnectionClient ByteBuffer)}
    (h : ∀ bb packetType c r, handler bb packetType c = .ok r → c.receivedData.NoMore r.2.2.receivedData) :
    ((PeerConnectionClient.endpoint).handledBy handler).AddsNothing where
  received_setReceived _ _ := rfl
  handlePacket := h
  packetError packetType c c' herror := by
    cases herror
    exact ⟨rfl, Nat.le_refl _⟩

/-- For every content of a receive buffer, every chunk, and every `HandlePacket` that does not add to the buffer,
`AddReceivedData` of the server and of the client terminates. Both buffers are of 64 KiB. -/
theorem framing_terminates :
    (∀ (p : Nat) (handler : ByteBuffer → UInt32 → Server ByteBuffer →
        Except Halt (Bool × ByteBuffer × Server ByteBuffer)) (s : Server ByteBuffer) (data : AString),
      (∀ bb packetType s r, handler bb packetType s = .ok r →
        (s.heap p).protocol.receivedData.NoMore (r.2.2.heap p).protocol.receivedData) →
      (s.heap p).protocol.receivedData.1.bufferSize < 2 ^ 32 →
      ((Server.endpoint p).handledBy handler).Terminates data s) ∧
    ∀ (handler : ByteBuffer → UInt32 → PeerConnectionClient ByteBuffer →
        Except Halt (Bool × ByteBuffer × PeerConnectionClient ByteBuffer)) (c : PeerConnectionClient ByteBuffer)
        (data : AString),
      (∀ bb packetType c r, handler bb packetType c = .ok r → c.receivedData.NoMore r.2.2.receivedData) →
      c.receivedData.1.bufferSize < 2 ^ 32 →
      ((PeerConnectionClient.endpoint).handledBy handler).Terminates data c :=
  ⟨fun _ _ _ data hless hsize => (server_addsNothing hless).terminates hsize data,
    fun _ _ data hless hsize => (client_addsNothing hless).terminates hsize data⟩

omit [Platform] in
/-- Handlers that read everything, and two frames with a length that is longer than it need be. -/
theorem framing_terminates_read :
    letI := zeroPlatform
    ((Server.endpoint 0).handledBy fun bb _ s => .ok (true, (readAll bb).2, s)).Terminates
        [0x82, 0x80, 0x00, 0x00, 0x01, 0x01, 0x07] (Server.initial : Server ByteBuffer) ∧
      ((PeerConnectionClient.endpoint).handledBy fun bb _ c => .ok (true, (readAll bb).2, c)).Terminates
        [0x82, 0x80, 0x00, 0x00, 0x01, 0x01, 0x07] (PeerConnectionClient.create fun _ => false) := by
  let : Platform := zeroPlatform
  refine ⟨framing_terminates.1 0 _ _ _ ?_ (by decide), framing_terminates.2 _ _ _ ?_ (by decide)⟩
  · intro bb packetType s r hr
    rw [← Except.ok.inj hr]
    exact ⟨rfl, Nat.le_refl _⟩
  · intro bb packetType c r hr
    rw [← Except.ok.inj hr]
    exact ⟨rfl, Nat.le_refl _⟩

end Endpoints

end P2PChat

import P2PChat.BufferRefinement
import P2PChat.EndpointInvariants
import P2PChat.SendThreads

namespace P2PChat

open ByteQueue

/-- One thread at most is where it needs this lock, and then it is the one that holds it. -/
def Exclusive (needs : Nat → Bool) (lock : Option Nat) : Prop := ∀ t, needs t = true ↔ lock = some t

/-- What a step of a thread may do to a lock: nothing, take it when it is free, or give back its own. -/
inductive LockStep (t : Nat) : Bool → Bool → Option Nat → Option Nat → Prop
  | stay {needs : Bool} {lock : Option Nat} : LockStep t needs needs lock lock
  | take : LockStep t false true none (some t)
  | give {lock : Option Nat} : LockStep t true false lock none

theorem LockStep.taken {t : Nat} {lock lock' : Option Nat} (h : LockStep t false true lock lock') :
    lock' = some t := by
  cases h with
  | take => rfl

theorem LockStep.stayed {t : Nat} {needs : Bool} {lock lock' : Option Nat}
    (h : LockStep t needs needs lock lock') : lock' = lock := by
  cases h with
  | stay => rfl

theorem Exclusive.step {needs needs' : Nat → Bool} {lock lock' : Option Nat} {t : Nat}
    (h : Exclusive needs lock) (hstep : LockStep t (needs t) (needs' t) lock lock')
    (hothers : ∀ t', t' ≠ t → needs' t' = needs t') : Exclusive needs' lock' := by
  intro t'
  have hold := h t'
  have hself := h t
  rcases eq_or_ne t' t with rfl | hne
  · generalize needs t' = before at *
    generalize needs' t' = after at *
    cases hstep with
    | stay => exact hold
    | take => simp
    | give => simp
  · rw [hothers t' hne]
    generalize needs t = before at *
    generalize needs' t = after at *
    cases hstep with
    | stay => exact hold
    | take =>
      rw [hold]
      simp [Ne.symm hne]
    | give =>
      rw [hold, hself.mp rfl]
      simp [Ne.symm hne]

theorem Exclusive.other {needs : Nat → Bool} {lock : Option Nat} (h : Exclusive needs lock) {t t' : Nat}
    (ht : needs t = true) (ht' : needs t' = true) : t = t' := by
  have heq := ((h t).mp ht).symm.trans ((h t').mp ht')
  exact Option.some.inj heq

/-- Complete frames, one after another: each has the size of its type and fields in front of them. -/
def Frames (bytes : AString) : Prop :=
  ∃ packets : List Packet, (∀ p ∈ packets, p.body.length ≤ 65536) ∧
    bytes = packets.flatMap fun p => frame p.body

theorem Frames.nil : Frames [] := ⟨[], by simp, rfl⟩

theorem Frames.one {p : Packet} (h : p.body.length ≤ 65536) : Frames (frame p.body) :=
  ⟨[p], by simpa using h, by simp⟩

theorem Frames.append {bytes bytes' : AString} (h : Frames bytes) (h' : Frames bytes') :
    Frames (bytes ++ bytes') := by
  obtain ⟨packets, hsmall, rfl⟩ := h
  obtain ⟨packets', hsmall', rfl⟩ := h'
  refine ⟨packets ++ packets', fun p hp => ?_, by rw [List.flatMap_append]⟩
  rcases List.mem_append.mp hp with hp | hp
  · exact hsmall p hp
  · exact hsmall' p hp

namespace SendPoint

/-- In the life of a `cPacketizer`. -/
def inPacket : SendPoint → Bool
  | .writeType _ _ => true
  | .writeField _ _ _ => true
  | .writeLen _ _ => true
  | .readLen _ _ => true
  | .commitLen _ _ _ => true
  | .readData _ _ _ => true
  | .sendData _ _ _ => true
  | .lockOutgoing _ _ _ => true
  | .append _ _ _ => true
  | .storeAppended _ _ _ => true
  | .unlockOutgoing _ _ => true
  | .commitData _ _ => true
  | .unlockPacket _ => true
  | _ => false

/-- Between locking and unlocking `m_CSOutgoingData`. -/
def inOutgoing : SendPoint → Bool
  | .append _ _ _ => true
  | .storeAppended _ _ _ => true
  | .unlockOutgoing _ _ => true
  | .swap => true
  | .storeSwapped _ => true
  | .unlockSwap _ => true
  | _ => false

/-- What is in the buffer of packets and in that of their lengths. -/
def Buffers (out len : Fifo) : SendPoint → Prop
  | .writeType _ _ => out = Fifo.empty 65536 ∧ len = Fifo.empty 20
  | .writeField p todo _ => ∃ done, p.fields = done ++ todo ∧
      (varInt p.type ++ done.flatMap Field.bytes).length ≤ 65536 ∧
        out = Fifo.filled 65536 (varInt p.type ++ done.flatMap Field.bytes) ∧ len = Fifo.empty 20
  | .writeLen p _ => p.body.length ≤ 65536 ∧ out = Fifo.filled 65536 p.body ∧ len = Fifo.empty 20
  | .readLen p _ => p.body.length ≤ 65536 ∧ out = Fifo.filled 65536 p.body ∧
      len = Fifo.filled 20 (varInt (UInt32.ofNat p.body.length))
  | .commitLen p lenToSend _ => p.body.length ≤ 65536 ∧ out = Fifo.filled 65536 p.body ∧
      lenToSend = varInt (UInt32.ofNat p.body.length) ∧ len.commit = Fifo.empty 20
  | .readData p lenToSend _ => p.body.length ≤ 65536 ∧ out = Fifo.filled 65536 p.body ∧
      lenToSend = varInt (UInt32.ofNat p.body.length) ∧ len = Fifo.empty 20
  | .sendData p data _ => p.body.length ≤ 65536 ∧ data = frame p.body ∧
      out.commit = Fifo.empty 65536 ∧ len = Fifo.empty 20
  | .lockOutgoing p data _ => p.body.length ≤ 65536 ∧ data = frame p.body ∧
      out.commit = Fifo.empty 65536 ∧ len = Fifo.empty 20
  | .append p data _ => p.body.length ≤ 65536 ∧ data = frame p.body ∧
      out.commit = Fifo.empty 65536 ∧ len = Fifo.empty 20
  | .storeAppended p _ _ => p.body.length ≤ 65536 ∧ out.commit = Fifo.empty 65536 ∧ len = Fifo.empty 20
  | .unlockOutgoing _ _ => out.commit = Fifo.empty 65536 ∧ len = Fifo.empty 20
  | .commitData _ _ => out.commit = Fifo.empty 65536 ∧ len = Fifo.empty 20
  | .unlockPacket _ => out = Fifo.empty 65536 ∧ len = Fifo.empty 20
  | _ => True

theorem buffers_outside {point : SendPoint} (h : point.inPacket = false) (out len : Fifo) :
    point.Buffers out len := by
  cases point <;> simp_all [inPacket, Buffers]

/-- What the thread has read of the queued data, while nobody else can change them. -/
def Queued (outgoing : AString) : SendPoint → Prop
  | .storeAppended p appended _ => appended = outgoing ++ frame p.body
  | .storeSwapped data => data = outgoing
  | _ => True

theorem queued_outside {point : SendPoint} (h : point.inOutgoing = false) (outgoing : AString) :
    point.Queued outgoing := by
  cases point <;> simp_all [inOutgoing, Queued]

/-- What the thread has taken to give it to the link. -/
def taken : SendPoint → AString
  | .unlockSwap data => data
  | .send data => data
  | _ => []

end SendPoint

section Writing

theorem appends_filled {w : Writer Fifo} {bytes u : AString} {capacity : Nat} (hw : Appends w bytes)
    (hfit : (u ++ bytes).length ≤ capacity) :
    w (Fifo.filled capacity u) = (true, Fifo.filled capacity (u ++ bytes)) := by
  have hlen := @List.length_append _ u bytes
  obtain ⟨hc, hread, hunread⟩ := @Fifo.filled_eq capacity u (by omega)
  have hroom : bytes.length ≤ (Fifo.filled capacity u).free := by
    rw [Fifo.free, hc, hread, hunread, List.length_nil]
    omega
  refine ((hw _).1 hroom).trans ?_
  rw [Fifo.filled, Fifo.filled, ← Fifo.append_append (by simpa [Fifo.free, Fifo.empty] using hfit)]

theorem appends_full {w : Writer Fifo} {bytes u : AString} {capacity : Nat} (hw : Appends w bytes)
    (hu : u.length ≤ capacity) (hfull : capacity < (u ++ bytes).length) :
    (w (Fifo.filled capacity u)).1 = false := by
  obtain ⟨hc, hread, hunread⟩ := Fifo.filled_eq hu
  refine (hw _).2 ?_
  rw [List.length_append] at hfull
  rw [Fifo.free, hc, hread, hunread, List.length_nil]
  omega

theorem filled_nil (capacity : Nat) : Fifo.filled capacity [] = Fifo.empty capacity := by
  apply Fifo.ext
  · rfl
  · rfl
  · rfl

/-- Everything is read, and then committed. -/
theorem readAll_filled {capacity : Nat} {u : AString} (h : u.length ≤ capacity) :
    (readAll (Fifo.filled capacity u)).1 = u ∧
      (readAll (Fifo.filled capacity u)).2.commit = Fifo.empty capacity := by
  obtain ⟨hc, _, hunread⟩ := Fifo.filled_eq h
  have hcommit := Fifo.advance_commit (Fifo.filled capacity u)
  rw [hc] at hcommit
  exact ⟨hunread, hcommit⟩

end Writing

namespace SendThreads

variable {β : Type} (f : β → Fifo)

/-- The locks exclude each other's threads, a packet is composed in empty buffers, and all that is queued,
taken or given to the link are whole frames. -/
structure Tidy (s : SendThreads β) : Prop where
  packet : Exclusive (fun t => (s.point t).inPacket) s.csPacket
  outgoing : Exclusive (fun t => (s.point t).inOutgoing) s.csOutgoingData
  free : s.csPacket = none →
    f s.handle.protocol.outPacketBuffer = Fifo.empty 65536 ∧
      f s.handle.protocol.outPacketLenBuffer = Fifo.empty 20
  buffers : ∀ t, (s.point t).Buffers (f s.handle.protocol.outPacketBuffer)
    (f s.handle.protocol.outPacketLenBuffer)
  queued : ∀ t, (s.point t).Queued s.handle.outgoingData
  taken : ∀ t, Frames (s.point t).taken
  waiting : Frames s.handle.outgoingData
  sent : Frames s.handle.sent

variable {f} {s : SendThreads β} {t : Nat} {point : SendPoint} {handle : ClientHandle β}

theorem Tidy.buffersAt (h : s.Tidy f) (ht : s.point t = point) :
    point.Buffers (f s.handle.protocol.outPacketBuffer) (f s.handle.protocol.outPacketLenBuffer) := by
  rw [← ht]
  exact h.buffers t

theorem Tidy.queuedAt (h : s.Tidy f) (ht : s.point t = point) : point.Queued s.handle.outgoingData := by
  rw [← ht]
  exact h.queued t

theorem Tidy.takenAt (h : s.Tidy f) (ht : s.point t = point) : Frames point.taken := by
  rw [← ht]
  exact h.taken t

/-- A step of one thread: it changes the buffers only in the life of its packet, and the queued data only
while it holds the lock of these. -/
theorem Tidy.move (h : s.Tidy f) {csPacket csOutgoingData : Option Nat}
    (hpacket : LockStep t (s.point t).inPacket point.inPacket s.csPacket csPacket)
    (houtgoing : LockStep t (s.point t).inOutgoing point.inOutgoing s.csOutgoingData csOutgoingData)
    (hsame : (s.point t).inPacket = false →
      handle.protocol.outPacketBuffer = s.handle.protocol.outPacketBuffer ∧
        handle.protocol.outPacketLenBuffer = s.handle.protocol.outPacketLenBuffer)
    (hkept : (s.point t).inOutgoing = false → handle.outgoingData = s.handle.outgoingData)
    (hgiven : (s.point t).inPacket = true → point.inPacket = false →
      f handle.protocol.outPacketBuffer = Fifo.empty 65536 ∧
        f handle.protocol.outPacketLenBuffer = Fifo.empty 20)
    (hbuffers : point.Buffers (f handle.protocol.outPacketBuffer) (f handle.protocol.outPacketLenBuffer))
    (hqueued : point.Queued handle.outgoingData) (htaken : Frames point.taken)
    (hwaiting : Frames handle.outgoingData) (hsent : Frames handle.sent) :
    Tidy f (⟨handle, csPacket, csOutgoingData, Function.update s.point t point⟩ : SendThreads β) := by
  have hself : Function.update s.point t point t = point := Function.update_self _ _ _
  have hothers : ∀ t', t' ≠ t → Function.update s.point t point t' = s.point t' :=
    fun t' hne => Function.update_of_ne hne _ _
  constructor
  · refine h.packet.step (t := t) (by simpa only [hself] using hpacket) fun t' hne => ?_
    simp only [hothers t' hne]
  · refine h.outgoing.step (t := t) (by simpa only [hself] using houtgoing) fun t' hne => ?_
    simp only [hothers t' hne]
  · intro hfree
    have hfree : csPacket = none := hfree
    rcases hbefore : (s.point t).inPacket with _ | _
    · rw [hbefore] at hpacket
      obtain ⟨hout, hlen⟩ := hsame hbefore
      cases hafter : point.inPacket with
      | false =>
        rw [hafter] at hpacket
        rw [hpacket.stayed] at hfree
        change f handle.protocol.outPacketBuffer = _ ∧ f handle.protocol.outPacketLenBuffer = _
        rw [hout, hlen]
        exact h.free hfree
      | true =>
        rw [hafter] at hpacket
        rw [hpacket.taken] at hfree
        cases hfree
    · cases hafter : point.inPacket with
      | false => exact hgiven hbefore hafter
      | true =>
        rw [hbefore, hafter] at hpacket
        rw [hpacket.stayed, (h.packet t).mp hbefore] at hfree
        cases hfree
  · intro t'
    rcases eq_or_ne t' t with rfl | hne
    · simpa only [hself] using hbuffers
    · simp only [hothers t' hne]
      rcases hin : (s.point t').inPacket with _ | _
      · exact SendPoint.buffers_outside hin _ _
      · have hout : (s.point t).inPacket = false := by
          by_contra hno
          exact hne (h.packet.other hin (by simpa using hno))
        rw [(hsame hout).1, (hsame hout).2]
        exact h.buffers t'
  · intro t'
    rcases eq_or_ne t' t with rfl | hne
    · simpa only [hself] using hqueued
    · simp only [hothers t' hne]
      rcases hin : (s.point t').inOutgoing with _ | _
      · exact SendPoint.queued_outside hin _
      · have hout : (s.point t).inOutgoing = false := by
          by_contra hno
          exact hne (h.outgoing.other hin (by simpa using hno))
        rw [hkept hout]
        exact h.queued t'
  · intro t'
    rcases eq_or_ne t' t with rfl | hne
    · simpa only [hself] using htaken
    · simpa only [hothers t' hne] using h.taken t'
  · exact hwaiting
  · exact hsent

/-- A step in the life of a packet that neither locks nor unlocks. -/
theorem Tidy.compose (h : s.Tidy f) (hin : (s.point t).inPacket = true) (hin' : point.inPacket = true)
    (hlock : point.inOutgoing = (s.point t).inOutgoing) (hdata : handle.outgoingData = s.handle.outgoingData)
    (hsent : handle.sent = s.handle.sent)
    (hbuffers : point.Buffers (f handle.protocol.outPacketBuffer) (f handle.protocol.outPacketLenBuffer))
    (hqueued : point.Queued handle.outgoingData) (htaken : point.taken = []) :
    Tidy f ({ s with handle := handle }.moveTo t point) := by
  refine h.move (t := t) ?_ ?_ (fun hno => ?_) (fun _ => hdata) (fun _ hno => ?_) hbuffers hqueued ?_ ?_ ?_
  · rw [hin, hin']
    exact .stay
  · rw [hlock]
    exact .stay
  · rw [hin] at hno
    cases hno
  · rw [hin'] at hno
    cases hno
  · rw [htaken]
    exact Frames.nil
  · rw [hdata]
    exact h.waiting
  · rw [hsent]
    exact h.sent

/-- A step outside the life of a packet that changes neither the buffers nor the queued data. -/
theorem Tidy.around (h : s.Tidy f) (hout : (s.point t).inPacket = false) (hout' : point.inPacket = false)
    {csOutgoingData : Option Nat}
    (houtgoing : LockStep t (s.point t).inOutgoing point.inOutgoing s.csOutgoingData csOutgoingData)
    (hprotocol : handle.protocol = s.handle.protocol) (hdata : handle.outgoingData = s.handle.outgoingData)
    (hqueued : point.Queued handle.outgoingData) (htaken : Frames point.taken) (hsent : Frames handle.sent) :
    Tidy f ({ s with handle := handle, csOutgoingData := csOutgoingData }.moveTo t point) := by
  refine h.move (t := t) ?_ houtgoing (fun _ => ?_) (fun _ => hdata) (fun hno _ => ?_)
    (SendPoint.buffers_outside hout' _ _) hqueued htaken ?_ hsent
  · rw [hout, hout']
    exact .stay
  · rw [hprotocol]
    exact ⟨rfl, rfl⟩
  · rw [hout] at hno
    cases hno
  · rw [hdata]
    exact h.waiting

/-- A thread that has no packet in hand and holds no lock goes on to such a point. -/
theorem Tidy.goesOn (h : s.Tidy f) (hout : (s.point t).inPacket = false)
    (hlock : (s.point t).inOutgoing = false) (hout' : point.inPacket = false)
    (hlock' : point.inOutgoing = false) (hprotocol : handle.protocol = s.handle.protocol)
    (hdata : handle.outgoingData = s.handle.outgoingData) (htaken : Frames point.taken)
    (hsent : Frames handle.sent) : Tidy f ({ s with handle := handle }.moveTo t point) := by
  refine h.around (t := t) hout hout' ?_ hprotocol hdata (SendPoint.queued_outside hlock' _) htaken hsent
  rw [hlock, hlock']
  exact .stay

section Steps

variable [ByteQueue β]

theorem Tidy.lockPacket (h : s.Tidy f) {p : Packet} {dc : Bool} (ht : s.point t = .lockPacket p dc)
    (hlock : s.csPacket = none) : Ends (fun s' => s'.Tidy f) (s.go t) := by
  unfold SendThreads.go
  rw [ht]
  refine Ends.ok (h.move (t := t) ?_ ?_ (fun _ => ⟨rfl, rfl⟩) (fun _ => rfl) (fun hno => ?_) (h.free hlock)
    trivial .nil h.waiting h.sent)
  · rw [ht, hlock]
    exact .take
  · rw [ht]
    exact .stay
  · rw [ht] at hno
    cases hno

theorem Tidy.sendData (h : s.Tidy f) {p : Packet} {data : AString} {dc : Bool}
    (ht : s.point t = .sendData p data dc) : Ends (fun s' => s'.Tidy f) (s.go t) := by
  obtain ⟨hsmall, hdata, hout, hlen⟩ := h.buffersAt ht
  unfold SendThreads.go
  rw [ht]
  dsimp only
  split
  next =>
    exact Ends.ok (h.compose (by rw [ht]; rfl) rfl (by rw [ht]; rfl) rfl rfl ⟨hout, hlen⟩ trivial rfl)
  next =>
    exact Ends.ok (h.compose (by rw [ht]; rfl) rfl (by rw [ht]; rfl) rfl rfl ⟨hsmall, hdata, hout, hlen⟩
      trivial rfl)

theorem Tidy.append (h : s.Tidy f) {p : Packet} {data : AString} {dc : Bool}
    (ht : s.point t = .append p data dc) : Ends (fun s' => s'.Tidy f) (s.go t) := by
  obtain ⟨hsmall, hdata, hout, hlen⟩ := h.buffersAt ht
  unfold SendThreads.go
  rw [ht]
  refine Ends.ok (h.compose (by rw [ht]; rfl) rfl (by rw [ht]; rfl) rfl rfl ⟨hsmall, hout, hlen⟩ ?_ rfl)
  change _ = _
  rw [hdata]

theorem Tidy.storeAppended (h : s.Tidy f) {p : Packet} {appended : AString} {dc : Bool}
    (ht : s.point t = .storeAppended p appended dc) : Ends (fun s' => s'.Tidy f) (s.go t) := by
  obtain ⟨hsmall, hout, hlen⟩ := h.buffersAt ht
  have hqueued : appended = s.handle.outgoingData ++ frame p.body := h.queuedAt ht
  have hframes : Frames appended := by
    rw [hqueued]
    exact h.waiting.append (.one hsmall)
  unfold SendThreads.go
  rw [ht]
  refine Ends.ok (h.move (t := t) ?_ ?_ (fun hno => ?_) (fun hno => ?_) (fun _ hno => ?_) ⟨hout, hlen⟩ trivial
    .nil hframes h.sent)
  · rw [ht]
    exact .stay
  · rw [ht]
    exact .stay
  · rw [ht] at hno
    cases hno
  · rw [ht] at hno
    cases hno
  · cases hno

theorem Tidy.lockOutgoing (h : s.Tidy f) {p : Packet} {data : AString} {dc : Bool}
    (ht : s.point t = .lockOutgoing p data dc) (hlock : s.csOutgoingData = none) :
    Ends (fun s' => s'.Tidy f) (s.go t) := by
  obtain ⟨hsmall, hdata, hout, hlen⟩ := h.buffersAt ht
  unfold SendThreads.go
  rw [ht]
  refine Ends.ok (h.move (t := t) ?_ ?_ (fun _ => ⟨rfl, rfl⟩) (fun _ => rfl) (fun _ hno => ?_)
    ⟨hsmall, hdata, hout, hlen⟩ trivial .nil h.waiting h.sent)
  · rw [ht]
    exact .stay
  · rw [ht, hlock]
    exact .take
  · cases hno

theorem Tidy.unlockOutgoing (h : s.Tidy f) {p : Packet} {dc : Bool}
    (ht : s.point t = .unlockOutgoing p dc) : Ends (fun s' => s'.Tidy f) (s.go t) := by
  obtain ⟨hout, hlen⟩ := h.buffersAt ht
  unfold SendThreads.go
  rw [ht]
  refine Ends.ok (h.move (t := t) ?_ ?_ (fun _ => ⟨rfl, rfl⟩) (fun _ => rfl) (fun _ hno => ?_)
    ⟨hout, hlen⟩ trivial .nil h.waiting h.sent)
  · rw [ht]
    exact .stay
  · rw [ht]
    exact .give
  · cases hno

theorem Tidy.unlockPacket (h : s.Tidy f) {dc : Bool} (ht : s.point t = .unlockPacket dc) :
    Ends (fun s' => s'.Tidy f) (s.go t) := by
  have hempty := h.buffersAt ht
  unfold SendThreads.go
  rw [ht]
  cases dc with
  | false =>
    refine Ends.ok (h.move (t := t) ?_ ?_ (fun _ => ⟨rfl, rfl⟩) (fun _ => rfl) (fun _ _ => hempty) trivial
      trivial .nil h.waiting h.sent)
    · rw [ht]
      exact .give
    · rw [ht]
      exact .stay
  | true =>
    refine Ends.ok (h.move (t := t) ?_ ?_ (fun _ => ⟨rfl, rfl⟩) (fun _ => rfl) (fun _ _ => hempty) trivial
      trivial .nil h.waiting h.sent)
    · rw [ht]
      exact .give
    · rw [ht]
      exact .stay

theorem Tidy.sendDisconnect (h : s.Tidy f) {reason : Int32} (ht : s.point t = .sendDisconnect reason) :
    Ends (fun s' => s'.Tidy f) (s.go t) := by
  unfold SendThreads.go
  rw [ht]
  dsimp only
  split
  next => exact Ends.ok (h.goesOn (by rw [ht]; rfl) (by rw [ht]; rfl) rfl rfl rfl rfl .nil h.sent)
  next => exact Ends.ok (h.goesOn (by rw [ht]; rfl) (by rw [ht]; rfl) rfl rfl rfl rfl .nil h.sent)

theorem Tidy.protocolSendDisconnect (h : s.Tidy f) {reason : Int32}
    (ht : s.point t = .protocolSendDisconnect reason) : Ends (fun s' => s'.Tidy f) (s.go t) := by
  unfold SendThreads.go
  rw [ht]
  dsimp only
  split
  next => exact Ends.ok (h.goesOn (by rw [ht]; rfl) (by rw [ht]; rfl) rfl rfl rfl rfl .nil h.sent)
  next =>
    split
    next => exact Ends.ok (h.goesOn (by rw [ht]; rfl) (by rw [ht]; rfl) rfl rfl rfl rfl .nil h.sent)
    next => exact Ends.ok (h.goesOn (by rw [ht]; rfl) (by rw [ht]; rfl) rfl rfl rfl rfl .nil h.sent)

theorem Tidy.lockSwap (h : s.Tidy f) (ht : s.point t = .lockSwap) (hlock : s.csOutgoingData = none) :
    Ends (fun s' => s'.Tidy f) (s.go t) := by
  unfold SendThreads.go
  rw [ht]
  refine Ends.ok (h.around (t := t) (by rw [ht]; rfl) rfl ?_ rfl rfl trivial .nil h.sent)
  rw [ht, hlock]
  exact .take

theorem Tidy.swap (h : s.Tidy f) (ht : s.point t = .swap) : Ends (fun s' => s'.Tidy f) (s.go t) := by
  unfold SendThreads.go
  rw [ht]
  refine Ends.ok (h.around (t := t) (by rw [ht]; rfl) rfl ?_ rfl rfl rfl .nil h.sent)
  rw [ht]
  exact .stay

theorem Tidy.storeSwapped (h : s.Tidy f) {data : AString} (ht : s.point t = .storeSwapped data) :
    Ends (fun s' => s'.Tidy f) (s.go t) := by
  have hdata : data = s.handle.outgoingData := h.queuedAt ht
  have hframes : Frames data := by
    rw [hdata]
    exact h.waiting
  unfold SendThreads.go
  rw [ht]
  refine Ends.ok (h.move (t := t) ?_ ?_ (fun _ => ⟨rfl, rfl⟩) (fun hno => ?_) (fun hno => ?_) trivial trivial
    hframes .nil h.sent)
  · rw [ht]
    exact .stay
  · rw [ht]
    exact .stay
  · rw [ht] at hno
    cases hno
  · rw [ht] at hno
    cases hno

theorem Tidy.unlockSwap (h : s.Tidy f) {data : AString} (ht : s.point t = .unlockSwap data) :
    Ends (fun s' => s'.Tidy f) (s.go t) := by
  have hframes : Frames data := h.takenAt ht
  unfold SendThreads.go
  rw [ht]
  refine Ends.ok (h.around (t := t) (by rw [ht]; rfl) rfl ?_ rfl rfl trivial hframes h.sent)
  rw [ht]
  exact .give

theorem Tidy.send (h : s.Tidy f) {data : AString} (ht : s.point t = .send data) :
    Ends (fun s' => s'.Tidy f) (s.go t) := by
  have hframes : Frames data := h.takenAt ht
  unfold SendThreads.go
  rw [ht]
  refine Ends.ok (h.goesOn (by rw [ht]; rfl) (by rw [ht]; rfl) rfl rfl rfl rfl .nil ?_)
  dsimp only
  split
  next => exact h.sent.append hframes
  next => exact h.sent

end Steps

section Composing

variable [ByteQueue β] (hf : Hom f)

include hf

theorem Tidy.writeType (h : s.Tidy f) {p : Packet} {dc : Bool} (ht : s.point t = .writeType p dc) :
    Ends (fun s' => s'.Tidy f) (s.go t) := by
  obtain ⟨hout, hlen⟩ := h.buffersAt ht
  have hsize := varInt_length_le p.type
  have hwrite : f (writeVarInt32 p.type s.handle.protocol.outPacketBuffer).2 =
      Fifo.filled 65536 (varInt p.type) := by
    have hcommutes := writeVarInt32_commutes hf p.type s.handle.protocol.outPacketBuffer
    rw [hout, ← filled_nil, appends_filled (writeVarInt32_appends p.type) (by simp; omega)] at hcommutes
    exact (Prod.mk.inj hcommutes).2.symm
  unfold SendThreads.go
  rw [ht]
  refine Ends.ok (h.compose (by rw [ht]; rfl) rfl (by rw [ht]; rfl) rfl rfl ?_ trivial rfl)
  exact ⟨[], rfl, by simp; omega, by simpa [ClientHandle.setOut] using hwrite, hlen⟩

theorem Tidy.writeField (h : s.Tidy f) {p : Packet} {todo : List Field} {dc : Bool}
    (ht : s.point t = .writeField p todo dc) : Ends (fun s' => s'.Tidy f) (s.go t) := by
  obtain ⟨done, hfields, hsmall, hout, hlen⟩ := h.buffersAt ht
  unfold SendThreads.go
  rw [ht]
  cases todo with
  | nil =>
    have hbody : varInt p.type ++ done.flatMap Field.bytes = p.body := by
      rw [List.append_nil] at hfields
      rw [Packet.body, Packet.fieldBytes, hfields]
    rw [hbody] at hsmall hout
    exact Ends.ok (h.compose (by rw [ht]; rfl) rfl (by rw [ht]; rfl) rfl rfl ⟨hsmall, hout, hlen⟩
      trivial rfl)
  | cons field todo =>
    have hcommutes := fieldWrite_commutes hf field s.handle.protocol.outPacketBuffer
    rw [hout] at hcommutes
    dsimp only
    rcases hwrite : field.write s.handle.protocol.outPacketBuffer with ⟨_ | _, out⟩
    · exact Ends.error
    · rw [hwrite] at hcommutes
      by_cases hfit : (varInt p.type ++ done.flatMap Field.bytes ++ field.bytes).length ≤ 65536
      · rw [appends_filled (field_appends field) hfit] at hcommutes
        have hout' : f out = Fifo.filled 65536 (varInt p.type ++ done.flatMap Field.bytes ++ field.bytes) :=
          (Prod.mk.inj hcommutes).2.symm
        refine Ends.ok (h.compose (by rw [ht]; rfl) rfl (by rw [ht]; rfl) rfl rfl ?_ trivial rfl)
        refine ⟨done ++ [field], by simp [hfields], ?_, ?_, hlen⟩
        · simpa [List.append_assoc] using hfit
        · simpa [List.append_assoc, ClientHandle.setOut] using hout'
      · have hno := appends_full (field_appends field) hsmall (Nat.lt_of_not_le hfit)
        rw [hcommutes] at hno
        cases hno

theorem Tidy.writeLen (h : s.Tidy f) {p : Packet} {dc : Bool} (ht : s.point t = .writeLen p dc) :
    Ends (fun s' => s'.Tidy f) (s.go t) := by
  obtain ⟨hsmall, hout, hlen⟩ := h.buffersAt ht
  obtain ⟨_, hread, hunread⟩ := Fifo.filled_eq hsmall
  have hused : getUsedSpace s.handle.protocol.outPacketBuffer = p.body.length := by
    rw [← hf.getUsedSpace, hout, getUsedSpace_fifo, hread, hunread, List.length_nil, Nat.zero_add]
  have hsize := varInt_length_le (UInt32.ofNat p.body.length)
  have hwrite : f (writeVarInt32 (UInt32.ofNat p.body.length) s.handle.protocol.outPacketLenBuffer).2 =
      Fifo.filled 20 (varInt (UInt32.ofNat p.body.length)) := by
    have hcommutes := writeVarInt32_commutes hf (UInt32.ofNat p.body.length)
      s.handle.protocol.outPacketLenBuffer
    rw [hlen, ← filled_nil, appends_filled (writeVarInt32_appends _) (by simp; omega)] at hcommutes
    exact (Prod.mk.inj hcommutes).2.symm
  unfold SendThreads.go
  rw [ht, hused]
  exact Ends.ok (h.compose (by rw [ht]; rfl) rfl (by rw [ht]; rfl) rfl rfl ⟨hsmall, hout, hwrite⟩ trivial rfl)

theorem Tidy.readLen (h : s.Tidy f) {p : Packet} {dc : Bool} (ht : s.point t = .readLen p dc) :
    Ends (fun s' => s'.Tidy f) (s.go t) := by
  obtain ⟨hsmall, hout, hlen⟩ := h.buffersAt ht
  have hsize := varInt_length_le (UInt32.ofNat p.body.length)
  have hcommutes := hf.readAll s.handle.protocol.outPacketLenBuffer
  obtain ⟨hdata, hcommit⟩ := @readAll_filled 20 (varInt (UInt32.ofNat p.body.length)) (by omega)
  rw [hlen] at hcommutes
  rw [hcommutes] at hdata hcommit
  unfold SendThreads.go
  rw [ht]
  exact Ends.ok (h.compose (by rw [ht]; rfl) rfl (by rw [ht]; rfl) rfl rfl
    ⟨hsmall, hout, hdata, hcommit⟩ trivial rfl)

theorem Tidy.commitLen (h : s.Tidy f) {p : Packet} {lenToSend : AString} {dc : Bool}
    (ht : s.point t = .commitLen p lenToSend dc) : Ends (fun s' => s'.Tidy f) (s.go t) := by
  obtain ⟨hsmall, hout, hlen, hcommit⟩ := h.buffersAt ht
  have hcommutes := hf.commitRead s.handle.protocol.outPacketLenBuffer
  rw [commitRead_fifo, hcommit] at hcommutes
  unfold SendThreads.go
  rw [ht]
  exact Ends.ok (h.compose (by rw [ht]; rfl) rfl (by rw [ht]; rfl) rfl rfl
    ⟨hsmall, hout, hlen, hcommutes⟩ trivial rfl)

theorem Tidy.readData (h : s.Tidy f) {p : Packet} {lenToSend : AString} {dc : Bool}
    (ht : s.point t = .readData p lenToSend dc) : Ends (fun s' => s'.Tidy f) (s.go t) := by
  obtain ⟨hsmall, hout, hlenToSend, hlen⟩ := h.buffersAt ht
  have hcommutes := hf.readAll s.handle.protocol.outPacketBuffer
  obtain ⟨hdata, hcommit⟩ := readAll_filled hsmall
  rw [hout] at hcommutes
  rw [hcommutes] at hdata hcommit
  unfold SendThreads.go
  rw [ht]
  refine Ends.ok (h.compose (by rw [ht]; rfl) rfl (by rw [ht]; rfl) rfl rfl ?_ trivial rfl)
  refine ⟨hsmall, ?_, hcommit, hlen⟩
  rw [hlenToSend]
  exact congrArg _ hdata

theorem Tidy.commitData (h : s.Tidy f) {p : Packet} {dc : Bool} (ht : s.point t = .commitData p dc) :
    Ends (fun s' => s'.Tidy f) (s.go t) := by
  obtain ⟨hout, hlen⟩ := h.buffersAt ht
  have hcommutes := hf.commitRead s.handle.protocol.outPacketBuffer
  rw [commitRead_fifo, hout] at hcommutes
  unfold SendThreads.go
  rw [ht]
  exact Ends.ok (h.compose (by rw [ht]; rfl) rfl (by rw [ht]; rfl) rfl rfl ⟨hcommutes, hlen⟩ trivial rfl)

/-- A thread that is not waiting for a lock goes on. -/
theorem Tidy.go (h : s.Tidy f) (hen : s.enabled (.go t) = true) : Ends (fun s' => s'.Tidy f) (s.go t) := by
  have hen : SendThreads.enabled s (.go t) = true := hen
  unfold SendThreads.enabled at hen
  cases ht : s.point t with
  | idle => simp [ht] at hen
  | lockPacket p dc => exact h.lockPacket ht (by simpa [ht] using hen)
  | writeType p dc => exact h.writeType hf ht
  | writeField p todo dc => exact h.writeField hf ht
  | writeLen p dc => exact h.writeLen hf ht
  | readLen p dc => exact h.readLen hf ht
  | commitLen p lenToSend dc => exact h.commitLen hf ht
  | readData p lenToSend dc => exact h.readData hf ht
  | sendData p data dc => exact h.sendData ht
  | lockOutgoing p data dc => exact h.lockOutgoing ht (by simpa [ht] using hen)
  | append p data dc => exact h.append ht
  | storeAppended p appended dc => exact h.storeAppended ht
  | unlockOutgoing p dc => exact h.unlockOutgoing ht
  | commitData p dc => exact h.commitData hf ht
  | unlockPacket dc => exact h.unlockPacket ht
  | sendDisconnect reason => exact h.sendDisconnect ht
  | protocolSendDisconnect reason => exact h.protocolSendDisconnect ht
  | storeDC =>
    unfold SendThreads.go
    rw [ht]
    exact Ends.ok (h.goesOn (by rw [ht]; rfl) (by rw [ht]; rfl) rfl rfl rfl rfl .nil h.sent)
  | lockSwap => exact h.lockSwap ht (by simpa [ht] using hen)
  | swap => exact h.swap ht
  | storeSwapped data => exact h.storeSwapped ht
  | unlockSwap data => exact h.unlockSwap ht
  | send data => exact h.send ht

/-- One step keeps it. -/
theorem Tidy.step (h : s.Tidy f) {a : SendAct} (ha : s.enabled a = true) :
    Ends (fun s' => s'.Tidy f) (s.step a) := by
  have hbegins : ∀ t point, s.point t = .idle → SendPoint.inPacket point = false →
      SendPoint.inOutgoing point = false → point.taken = [] → (s.moveTo t point).Tidy f := by
    intro t point ht hout hlock htaken
    refine h.goesOn (by rw [ht]; rfl) (by rw [ht]; rfl) hout hlock rfl rfl ?_ h.sent
    rw [htaken]
    exact .nil
  cases a with
  | packet t p => exact Ends.ok (hbegins t _ (by simpa [SendThreads.enabled] using ha) rfl rfl rfl)
  | sendDisconnect t reason =>
    exact Ends.ok (hbegins t _ (by simpa [SendThreads.enabled] using ha) rfl rfl rfl)
  | serverTick t => exact Ends.ok (hbegins t _ (by simpa [SendThreads.enabled] using ha) rfl rfl rfl)
  | go t => exact h.go hf ha
  | storeState state =>
    exact Ends.ok ⟨h.packet, h.outgoing, h.free, h.buffers, h.queued, h.taken, h.waiting, h.sent⟩
  | linked => exact Ends.ok ⟨h.packet, h.outgoing, h.free, h.buffers, h.queued, h.taken, h.waiting, h.sent⟩
  | unlinked => exact Ends.ok ⟨h.packet, h.outgoing, h.free, h.buffers, h.queued, h.taken, h.waiting, h.sent⟩

theorem create_tidy (ip : AString) (id : UInt32) (now : Int) : (create ip id now : SendThreads β).Tidy f where
  packet t := by simp [create, SendPoint.inPacket]
  outgoing t := by simp [create, SendPoint.inOutgoing]
  free _ := ⟨hf.new 65536, hf.new 20⟩
  buffers _ := trivial
  queued _ := trivial
  taken _ := .nil
  waiting := .nil
  sent := .nil

theorem reachable_tidy {ip : AString} {id : UInt32} {now : Int}
    (hr : (sendMachine β).Reachable (create ip id now) s) : s.Tidy f :=
  hr.invariant (create_tidy hf ip id now) fun _ _ _ _ hs ha _ hstep => hs.step hf ha _ hstep

end Composing

/-- In every order in which threads send packets and disconnects and swap what is queued, the link has been
given complete frames and nothing else, and both buffers are empty when nobody holds `m_CSPacket`. -/
theorem whole_frames [Platform] {ip : AString} {id : UInt32} {now : Int} {s : SendThreads ByteBuffer}
    (hr : (sendMachine ByteBuffer).Reachable (create ip id now) s) :
    Frames s.handle.sent ∧ (s.csPacket = none →
      getUsedSpace s.handle.protocol.outPacketBuffer = 0 ∧
        getUsedSpace s.handle.protocol.outPacketLenBuffer = 0) := by
  have htidy := reachable_tidy ByteBuffer.contents_hom hr
  refine ⟨htidy.sent, fun hfree => ?_⟩
  obtain ⟨hout, hlen⟩ := htidy.free hfree
  rw [← ByteBuffer.contents_hom.getUsedSpace, ← ByteBuffer.contents_hom.getUsedSpace, hout, hlen]
  exact ⟨rfl, rfl⟩

/-- Two threads send and a third ticks: the first packet is with the link, the second half composed. -/
theorem whole_frames_two :
    letI := zeroPlatform
    ∃ s : SendThreads ByteBuffer, (sendMachine ByteBuffer).Reachable (create [] 1 0) s ∧
      s.csPacket = some 1 ∧ s.handle.sent = [4, 0x11, 7, 0xac, 0x02] ∧ Frames s.handle.sent := by
  let : Platform := zeroPlatform
  have hrun : ((sendMachine ByteBuffer).replay (fun s a => s.enabled a)
      ([.linked, .packet 0 (mediaPacket 7 300), .packet 1 (mediaPacket 8 0)] ++ List.replicate 16 (.go 0) ++
        List.replicate 3 (.go 1) ++ [.serverTick 2] ++ List.replicate 5 (.go 2)) (create [] 1 0)).map
      (fun s => (s.csPacket, s.handle.sent)) = some (some 1, [4, 0x11, 7, 0xac, 0x02]) := by
    decide +kernel
  obtain ⟨s, hs, hsent⟩ := Option.map_eq_some_iff.mp hrun
  have hreach : (sendMachine ByteBuffer).Reachable (create [] 1 0) s :=
    Machine.replay_reach (fun _ _ ha => ⟨ha, trivial⟩) .start hs
  exact ⟨s, hreach, (Prod.mk.inj hsent).1, (Prod.mk.inj hsent).2, (whole_frames hreach).1⟩

end SendThreads

end P2PChat

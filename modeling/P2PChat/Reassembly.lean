import P2PChat.Framing
import P2PChat.BufferRefinement

namespace P2PChat

open ByteQueue

/-- Packets composed and sent one after another: all that was passed to `SendData`, and the
buffers after it. -/
def sendPackets {β : Type} [ByteQueue β] : List Packet → β → β → Except Halt (AString × β × β)
  | [], out, len => .ok ([], out, len)
  | p :: packets, out, len => do
    let out ← packetize p out
    let (data, out, len) := takePacket out len
    let (rest, out, len) ← sendPackets packets out len
    .ok (data ++ rest, out, len)

theorem sendPackets_fifo {packets : List Packet} {capacity : Nat}
    (h : ∀ p ∈ packets, p.body.length ≤ capacity) :
    sendPackets packets (Fifo.empty capacity) (Fifo.empty 20) =
      .ok (packets.flatMap (fun p => frame p.body), Fifo.empty capacity, Fifo.empty 20) := by
  induction packets with
  | nil => rfl
  | cons p packets ih =>
    have hp := h p List.mem_cons_self
    have hrest := ih (fun q hq => h q (List.mem_cons_of_mem _ hq))
    rw [sendPackets, packetize_ok hp]
    simp only [bind, Except.bind, takePacket_filled hp, hrest, List.flatMap_cons]

theorem sendPackets_map {β γ : Type} [ByteQueue β] [ByteQueue γ] {f : β → γ} (hf : Hom f)
    (packets : List Packet) (out len : β) :
    sendPackets packets (f out) (f len) =
      (sendPackets packets out len).map (fun r => (r.1, f r.2.1, f r.2.2)) := by
  induction packets generalizing out len with
  | nil => rfl
  | cons p packets ih =>
    rw [sendPackets, sendPackets, packetize_map hf]
    rcases packetize p out with e | out'
    · rfl
    · simp only [bind, Except.bind, Except.map, takePacket_map hf, ih]
      rcases sendPackets packets (takePacket out' len).2.1 (takePacket out' len).2.2 with e | r
      · rfl
      · rfl

/-- A packet of this type with this body, as a `cPacketizer` composes it. -/
def rawPacket (p : UInt32 × AString) : Packet := ⟨p.1, [.buf p.2]⟩

/-- What `HandlePacket` gets for it: the type, and the body before one NUL. -/
def call (p : UInt32 × AString) : UInt32 × AString := (p.1, p.2 ++ [0])

theorem rawPacket_body (p : UInt32 × AString) : (rawPacket p).body = varInt p.1 ++ p.2 := by
  simp [rawPacket, Packet.body, Packet.fieldBytes, Field.bytes]

/-- The bytes of the packets, one frame after the other. -/
def stream (packets : List (UInt32 × AString)) : AString :=
  packets.flatMap (fun p => frame (rawPacket p).body)

/-- What is left of a stream when all complete frames are taken: less than the next frame. -/
def Pending (rest : AString) : List (UInt32 × AString) → Prop
  | [] => rest = []
  | p :: _ => rest <+: frame (rawPacket p).body ∧ rest.length < (frame (rawPacket p).body).length

theorem stream_append (ps qs : List (UInt32 × AString)) :
    stream (ps ++ qs) = stream ps ++ stream qs := List.flatMap_append

theorem stream_cons (p : UInt32 × AString) (ps : List (UInt32 × AString)) :
    stream (p :: ps) = frame (rawPacket p).body ++ stream ps := rfl

theorem stream_replicate_length (q : UInt32 × AString) (n : Nat) :
    (stream (List.replicate n q)).length = n * (frame (rawPacket q).body).length := by
  induction n with
  | zero => exact (Nat.zero_mul _).symm
  | succ n ih => rw [List.replicate_succ, stream_cons, List.length_append, ih, Nat.succ_mul, Nat.add_comm]

theorem length_le_stream (ps : List (UInt32 × AString)) : ps.length ≤ (stream ps).length := by
  induction ps with
  | nil => simp
  | cons p ps ih =>
    have hpos := frame_length_pos (rawPacket p).body
    rw [stream_cons, List.length_append, List.length_cons]
    omega

/-- Any first part of a stream is some complete frames and less than one more. -/
theorem split_stream {bytes : AString} {packets : List (UInt32 × AString)}
    (h : bytes <+: stream packets) :
    ∃ done todo rest, packets = done ++ todo ∧ bytes = stream done ++ rest ∧ Pending rest todo := by
  induction packets generalizing bytes with
  | nil => exact ⟨[], [], bytes, rfl, rfl, List.prefix_nil.mp h⟩
  | cons p packets ih =>
    rw [stream_cons] at h
    by_cases hlt : bytes.length < (frame (rawPacket p).body).length
    · exact ⟨[], p :: packets, bytes, rfl, rfl,
        List.prefix_of_prefix_length_le h (List.prefix_append _ _) (Nat.le_of_lt hlt), hlt⟩
    · obtain ⟨bytes', hb⟩ := List.prefix_of_prefix_length_le (List.prefix_append _ (stream packets)) h
        (Nat.le_of_not_lt hlt)
      have hpre : bytes' <+: stream packets := by
        rw [← hb] at h
        exact (List.prefix_append_right_inj _).mp h
      obtain ⟨done, todo, rest, hpackets, hbytes, hpending⟩ := ih hpre
      refine ⟨p :: done, todo, rest, by rw [hpackets]; rfl, ?_, hpending⟩
      rw [← hb, hbytes, stream_cons, List.append_assoc]

/-- The frames fit buffers of this capacity. -/
def FramesFit (capacity : Nat) (packets : List (UInt32 × AString)) : Prop :=
  ∀ p ∈ packets, (frame (rawPacket p).body).length ≤ capacity

theorem body_length_lt {p : UInt32 × AString} {capacity : Nat} (hcap : capacity < 2 ^ 32)
    (h : (frame (rawPacket p).body).length ≤ capacity) : (rawPacket p).body.length < 2 ^ 32 := by
  rw [frame, List.length_append] at h
  omega

section Frames

variable [Platform]

theorem Pending.nextFrame {rest : AString} {todo : List (UInt32 × AString)} {capacity : Nat}
    (hcap : capacity < 2 ^ 32) (hfit : FramesFit capacity todo) (h : Pending rest todo) :
    nextFrame rest = none := by
  cases todo with
  | nil =>
    have hnil : rest = [] := h
    rw [hnil]
    exact nextFrame_nil
  | cons p todo =>
    exact nextFrame_part (body_length_lt hcap (hfit p List.mem_cons_self)) h.1 h.2

variable {β σ : Type} [ByteQueue β] {f : β → Fifo} (hf : Hom f)

include hf

theorem takeFrame_waits {b : β} {capacity : Nat} {u : AString} (hu : u.length ≤ capacity)
    (hb : f b = Fifo.filled capacity u) (hnext : nextFrame u = none) :
    ∃ b', takeFrame b = .ok (none, b') ∧ f b' = Fifo.filled capacity u := by
  have hmap := takeFrame_map hf b
  rw [hb, takeFrame_none hu hnext] at hmap
  rcases hb' : takeFrame b with e | ⟨taken, b'⟩
  · rw [hb'] at hmap
    cases hmap
  · rw [hb'] at hmap
    simp only [Except.map, Except.ok.injEq, Prod.mk.injEq] at hmap
    obtain ⟨htaken, hrest⟩ := hmap
    cases taken with
    | none => exact ⟨b', rfl, hrest.symm⟩
    | some bb => cases htaken

theorem takeFrame_takes {b : β} {capacity : Nat} {u payload rest : AString} (hu : u.length ≤ capacity)
    (hcap : capacity + 1 < 2 ^ 32) (hb : f b = Fifo.filled capacity u)
    (hnext : nextFrame u = some (payload, rest)) :
    ∃ bb b', takeFrame b = .ok (some bb, b') ∧ f bb = Fifo.filled (payload.length + 1) payload ∧
      f b' = Fifo.filled capacity rest := by
  have hmap := takeFrame_map hf b
  rw [hb, takeFrame_some hu hcap hnext] at hmap
  rcases hb' : takeFrame b with e | ⟨taken, b'⟩
  · rw [hb'] at hmap
    cases hmap
  · rw [hb'] at hmap
    simp only [Except.map, Except.ok.injEq, Prod.mk.injEq] at hmap
    obtain ⟨htaken, hrest⟩ := hmap
    cases taken with
    | none => cases htaken
    | some bb => exact ⟨bb, b', rfl, (Option.some.inj htaken).symm, hrest.symm⟩

/-- The buffer of a packet is opened at its body, before one NUL. -/
theorem openFrame_opens {bb : β} {p : UInt32 × AString}
    (hbb : f bb = Fifo.filled ((rawPacket p).body.length + 1) (rawPacket p).body) :
    ∃ bb', openFrame bb = some (p.1, bb') ∧ (f bb').unread = (call p).2 ∧
      (readAll bb').1 = (call p).2 := by
  have hmap := openFrame_map hf bb
  have hfifo := openFrame_filled (rawPacket p).body
  have hparse : parseVarInt (rawPacket p).body = (some p.1, (varInt p.1).length) := by
    rw [rawPacket_body]
    exact parseVarInt_varInt p.1 p.2
  have hdrop : (rawPacket p).body.drop (varInt p.1).length = p.2 := by
    rw [rawPacket_body]
    exact List.drop_left' rfl
  rw [hparse, Option.map_some, hdrop, ← hbb, hmap] at hfifo
  rcases hopen : openFrame bb with _ | ⟨packetType, bb'⟩
  · rw [hopen] at hfifo
    cases hfifo
  · rw [hopen] at hfifo
    simp only [Option.map_some, Option.some.injEq, Prod.mk.injEq] at hfifo
    obtain ⟨htype, hunread⟩ := hfifo
    have hall : (readAll bb').1 = (f bb').unread := by
      have h := congrArg Prod.fst (hf.readAll bb')
      exact h.symm
    exact ⟨bb', by rw [htype], hunread, by rw [hall, hunread]; rfl⟩

end Frames

/-- The handler answers `true` and, like what reports its errors, leaves `m_ReceivedData` alone. -/
structure Endpoint.Transparent {β σ : Type} (E : Endpoint β σ) : Prop where
  received_setReceived : ∀ b s, E.received (E.setReceived b s) = b
  handlePacket : ∀ bb packetType s, ∃ bb' s', E.handlePacket bb packetType s = .ok (true, bb', s') ∧
    E.received s' = E.received s
  packetError : ∀ packetType s, ∃ s', E.packetError packetType s = .ok s' ∧
    E.received s' = E.received s

section Reassembly

variable [Platform] {β σ : Type} [ByteQueue β] {f : β → Fifo} {E : Endpoint β σ}

/-- One round takes one frame. -/
theorem handlePackets_round (hf : Hom f) (hE : E.Transparent) {capacity : Nat}
    (hcap : capacity + 1 < 2 ^ 32) {p : UInt32 × AString} {rest : AString}
    (hfit : (frame (rawPacket p).body ++ rest).length ≤ capacity) {s : σ}
    (hs : f (E.received s) = Fifo.filled capacity (frame (rawPacket p).body ++ rest))
    (log : List (UInt32 × AString)) :
    ∃ s', f (E.received s') = Fifo.filled capacity rest ∧
      ∀ rounds, E.traced.handlePackets (rounds + 1) (log, s) =
        E.traced.handlePackets rounds (log ++ [call p], s') := by
  have hsize : (rawPacket p).body.length < 2 ^ 32 := by
    rw [frame, List.length_append, List.length_append] at hfit
    omega
  obtain ⟨bb, b, htake, hbb, hb⟩ := takeFrame_takes hf hfit hcap hs (nextFrame_frame hsize rest)
  obtain ⟨bb', hopen, _, hall⟩ := openFrame_opens hf hbb
  obtain ⟨bb'', s₁, hhandle, hrec⟩ := hE.handlePacket bb' p.1 (E.setReceived b s)
  rw [hE.received_setReceived] at hrec
  obtain ⟨s₂, herror, hrec₂⟩ := hE.packetError p.1 s₁
  by_cases hone : getReadableSpace bb'' = 1
  · refine ⟨s₁, by rw [hrec, hb], fun rounds => ?_⟩
    simp [Endpoint.handlePackets, Endpoint.traced, bind, Except.bind, htake, hopen, hhandle, hall,
      hone, call]
  · refine ⟨s₂, by rw [hrec₂, hrec, hb], fun rounds => ?_⟩
    simp [Endpoint.handlePackets, Endpoint.traced, bind, Except.bind, htake, hopen, hhandle, hall,
      hone, call, herror]

theorem handlePackets_all (hf : Hom f) (hE : E.Transparent) {capacity : Nat}
    (hcap : capacity + 1 < 2 ^ 32) {packets : List (UInt32 × AString)} {rest : AString}
    (hrest : nextFrame rest = none) (hfit : (stream packets ++ rest).length ≤ capacity) {s : σ}
    (hs : f (E.received s) = Fifo.filled capacity (stream packets ++ rest))
    (log : List (UInt32 × AString)) {rounds : Nat} (hr : packets.length < rounds) :
    ∃ s', E.traced.handlePackets rounds (log, s) = .ok (log ++ packets.map call, s') ∧
      f (E.received s') = Fifo.filled capacity rest := by
  induction packets generalizing s log rounds with
  | nil =>
    obtain ⟨rounds, rfl⟩ : ∃ r, rounds = r + 1 := ⟨rounds - 1, by simp at hr; omega⟩
    obtain ⟨b, htake, hb⟩ := takeFrame_waits hf hfit hs hrest
    refine ⟨E.setReceived b s, ?_, by rw [hE.received_setReceived, hb]; rfl⟩
    simp [Endpoint.handlePackets, Endpoint.traced, bind, Except.bind, htake]
  | cons p packets ih =>
    obtain ⟨rounds, rfl⟩ : ∃ r, rounds = r + 1 := ⟨rounds - 1, by omega⟩
    rw [stream_cons, List.append_assoc] at hs hfit
    obtain ⟨s₁, hs₁, hround⟩ := handlePackets_round hf hE hcap hfit hs log
    have hfit₁ : (stream packets ++ rest).length ≤ capacity := by
      rw [List.length_append] at hfit
      omega
    have hr₁ : packets.length < rounds := by
      rw [List.length_cons] at hr
      omega
    obtain ⟨s₂, hloop, hs₂⟩ := ih hfit₁ hs₁ (log ++ [call p]) hr₁
    refine ⟨s₂, ?_, hs₂⟩
    rw [hround, hloop, List.map_cons, List.append_assoc]
    rfl

/-- A chunk that fits is handled up to the last complete frame. -/
theorem addReceivedData_fits (hf : Hom f) (hE : E.Transparent) {capacity : Nat}
    (hcap : capacity + 1 < 2 ^ 32) {packets : List (UInt32 × AString)} {rest chunk rest' : AString}
    (hrest : nextFrame rest' = none) (hroom : (rest ++ chunk).length ≤ capacity)
    (hsplit : rest ++ chunk = stream packets ++ rest') {s : σ}
    (hs : f (E.received s) = Fifo.filled capacity rest) (log : List (UInt32 × AString)) :
    ∃ s', E.traced.addReceivedData chunk (log, s) = .ok (log ++ packets.map call, s') ∧
      f (E.received s') = Fifo.filled capacity rest' := by
  have hle : rest.length ≤ capacity := by
    rw [List.length_append] at hroom
    omega
  obtain ⟨hc, hread, hunread⟩ := Fifo.filled_eq hle
  have hfree : chunk.length ≤ (Fifo.filled capacity rest).free := by
    unfold Fifo.free
    rw [hc, hread, hunread]
    rw [List.length_append] at hroom
    simp only [List.length_nil]
    omega
  have hwrite := hf.write chunk (E.received s)
  have happend : write chunk (Fifo.filled capacity rest) =
      (true, Fifo.filled capacity (rest ++ chunk)) := by
    refine ((append_appends chunk (Fifo.filled capacity rest)).1 hfree).trans ?_
    rw [Fifo.filled, Fifo.append_append (by simpa [Fifo.free, Fifo.empty] using hroom)]
    rfl
  rw [hs, happend] at hwrite
  rcases hw : write chunk (E.received s) with ⟨ok, b⟩
  rw [hw] at hwrite
  obtain ⟨hok, hb⟩ := Prod.mk.inj hwrite
  have hused : getUsedSpace b = (stream packets ++ rest').length := by
    obtain ⟨_, hread', hunread'⟩ := Fifo.filled_eq hroom
    rw [← hf.getUsedSpace, ← hb, getUsedSpace_fifo, hread', hunread', hsplit, List.length_nil,
      Nat.zero_add]
  have hlen := length_le_stream packets
  have hr : packets.length < getUsedSpace b + 1 := by
    rw [hused, List.length_append]
    omega
  rw [hsplit] at hroom hb
  obtain ⟨s', hloop, hs'⟩ := handlePackets_all hf hE hcap hrest hroom (s := E.setReceived b s)
    (by rw [hE.received_setReceived, ← hb]) log hr
  refine ⟨s', ?_, hs'⟩
  rw [← hloop]
  simp only at hok
  simp only [Endpoint.addReceivedData, Endpoint.traced, hw, ← hok]

end Reassembly

end P2PChat

import P2PChat.Reassembly

namespace P2PChat

open ByteQueue

section Erasure

variable [Platform] {β σ : Type} [ByteQueue β] (E : Endpoint β σ)

theorem traced_handlePackets (rounds : Nat) (log : List (UInt32 × AString)) (s : σ) :
    (E.traced.handlePackets rounds (log, s)).map Prod.snd = E.handlePackets rounds s := by
  induction rounds generalizing log s with
  | zero => rfl
  | succ rounds ih =>
    simp only [Endpoint.handlePackets, Endpoint.traced, bind, Except.bind]
    rcases takeFrame (E.received s) with e | ⟨taken, b⟩
    · rfl
    · simp only
      rcases taken.bind openFrame with _ | ⟨packetType, bb⟩
      · rfl
      · simp only
        rcases E.handlePacket bb packetType (E.setReceived b s) with e | ⟨_ | _, bb', s'⟩
        · rfl
        · rfl
        · simp only [Bool.not_true, Bool.false_eq_true, if_false]
          split
          next =>
            rcases E.packetError packetType s' with e | s''
            · rfl
            · exact ih _ s''
          next => exact ih _ s'

/-- The record changes nothing. -/
theorem traced_addReceivedData (data : AString) (log : List (UInt32 × AString)) (s : σ) :
    (E.traced.addReceivedData data (log, s)).map Prod.snd = E.addReceivedData data s := by
  simp only [Endpoint.addReceivedData, Endpoint.traced]
  rcases write data (E.received s) with ⟨_ | _, b⟩
  · simp only [bind, Except.bind]
    rcases E.packetBufferFull (E.setReceived b s) with e | s'
    · rfl
    · rfl
  · exact traced_handlePackets E _ log (E.setReceived b s)

/-- Each chunk fits the free space of `m_ReceivedData` when it arrives. -/
def Endpoint.roomFor : List AString → σ → Bool
  | [], _ => true
  | chunk :: chunks, s => decide (chunk.length ≤ getFreeSpace (E.received s)) &&
      match E.addReceivedData chunk s with
      | .ok s => Endpoint.roomFor chunks s
      | .error _ => true

end Erasure

/-- From a buffer that holds part of a frame, all chunks that follow are reassembled. -/
theorem receiveAll_prefix [Platform] {β σ : Type} [ByteQueue β] {f : β → Fifo} (hf : Hom f)
    {E : Endpoint β σ} (hE : E.Transparent) {capacity : Nat} (hcap : capacity + 1 < 2 ^ 32)
    {chunks : List AString} {packets : List (UInt32 × AString)} (hfit : FramesFit capacity packets)
    {rest : AString} (hpending : Pending rest packets) (hlen : rest.length ≤ capacity)
    (hstream : rest ++ chunks.flatten <+: stream packets) {s : σ}
    (hs : f (E.received s) = Fifo.filled capacity rest) (hroom : E.roomFor chunks s = true)
    (log : List (UInt32 × AString)) :
    ∃ done todo rest' s', packets = done ++ todo ∧
      rest ++ chunks.flatten = stream done ++ rest' ∧ Pending rest' todo ∧
      E.traced.receiveAll chunks (log, s) = .ok (log ++ done.map call, s') ∧
      f (E.received s') = Fifo.filled capacity rest' := by
  induction chunks generalizing packets rest s log with
  | nil => exact ⟨[], packets, rest, s, rfl, by simp [stream], hpending, by simp [Endpoint.receiveAll], hs⟩
  | cons chunk chunks ih =>
    rw [List.flatten_cons, ← List.append_assoc] at hstream
    obtain ⟨hchunk, hroom'⟩ := Bool.and_eq_true_iff.mp hroom
    have hchunk := of_decide_eq_true hchunk
    obtain ⟨hc, hread, hunread⟩ := Fifo.filled_eq hlen
    have hfull : (rest ++ chunk).length ≤ capacity := by
      rw [← hf.getFreeSpace, hs] at hchunk
      change chunk.length ≤ (Fifo.filled capacity rest).free at hchunk
      rw [Fifo.free, hc, hread, hunread, List.length_nil] at hchunk
      rw [List.length_append]
      omega
    obtain ⟨done, todo, rest₁, hpackets, hsplit, hpending₁⟩ :=
      split_stream ((List.prefix_append _ _).trans hstream)
    have hfit₁ : FramesFit capacity todo := fun p hp =>
      hfit p (by rw [hpackets]; exact List.mem_append_right done hp)
    obtain ⟨s₁, hstep, hs₁⟩ := addReceivedData_fits hf hE hcap (hpending₁.nextFrame (by omega) hfit₁)
      hfull hsplit hs log
    have herase := traced_addReceivedData E chunk log s
    rw [hstep] at herase
    rw [← herase] at hroom'
    have hlen₁ : rest₁.length ≤ capacity := by
      rw [hsplit, List.length_append] at hfull
      omega
    have hstream₁ : rest₁ ++ chunks.flatten <+: stream todo := by
      rw [hsplit, hpackets, stream_append, List.append_assoc] at hstream
      exact (List.prefix_append_right_inj _).mp hstream
    obtain ⟨done', todo', rest₂, s₂, htodo, hsplit₂, hpending₂, hrun, hs₂⟩ :=
      ih hfit₁ hpending₁ hlen₁ hstream₁ hs₁ hroom' (log ++ done.map call)
    refine ⟨done ++ done', todo', rest₂, s₂, ?_, ?_, hpending₂, ?_, hs₂⟩
    · rw [hpackets, htodo, List.append_assoc]
    · rw [List.flatten_cons, ← List.append_assoc, hsplit, List.append_assoc, hsplit₂, stream_append,
        List.append_assoc]
    · simp only [Endpoint.receiveAll, bind, Except.bind, hstep, hrun, List.map_append,
        List.append_assoc]

theorem roomFor_take [Platform] {β σ : Type} [ByteQueue β] {E : Endpoint β σ} {chunks : List AString}
    {s : σ} (h : E.roomFor chunks s = true) (k : Nat) : E.roomFor (chunks.take k) s = true := by
  induction chunks generalizing s k with
  | nil => simpa using h
  | cons chunk chunks ih =>
    cases k with
    | zero => rfl
    | succ k =>
      obtain ⟨hchunk, hrest⟩ := Bool.and_eq_true_iff.mp h
      refine Bool.and_eq_true_iff.mpr ⟨hchunk, ?_⟩
      rcases hstep : E.addReceivedData chunk s with e | s'
      · rfl
      · rw [hstep] at hrest
        exact ih hrest k

/-- Framing and reassembly compose to the identity, whatever the cuts: after every chunk exactly
the packets that are complete by then have been handled, and what is left is the rest of the next. -/
theorem frames_reassemble [Platform] {σ : Type} {E : Endpoint ByteBuffer σ} (hE : E.Transparent)
    {packets : List (UInt32 × AString)} (hfit : FramesFit 65536 packets) :
    ∃ sent out len, sendPackets (packets.map rawPacket) (new 65536) (new 20 : ByteBuffer) =
      .ok (sent, out, len) ∧
    ∀ chunks : List AString, chunks.flatten = sent → ∀ s : σ,
      (E.received s).contents = Fifo.empty 65536 → E.roomFor chunks s = true →
      ∀ k, ∃ done todo rest s', packets = done ++ todo ∧
        (chunks.take k).flatten = stream done ++ rest ∧ Pending rest todo ∧
        E.traced.receiveAll (chunks.take k) ([], s) = .ok (done.map call, s') ∧
        (E.received s').contents = Fifo.filled 65536 rest := by
  have hf := ByteBuffer.contents_hom
  have hsend := sendPackets_map hf (packets.map rawPacket) (new 65536) (new 20 : ByteBuffer)
  rw [hf.new, hf.new] at hsend
  change sendPackets _ (Fifo.empty 65536) (Fifo.empty 20) = _ at hsend
  rw [sendPackets_fifo (by
    intro q hq
    obtain ⟨p, hp, rfl⟩ := List.mem_map.mp hq
    have h := hfit p hp
    rw [frame, List.length_append] at h
    omega)] at hsend
  rcases hsent : sendPackets (packets.map rawPacket) (new 65536) (new 20 : ByteBuffer) with
    e | ⟨sent, out, len⟩
  · rw [hsent] at hsend
    cases hsend
  · rw [hsent] at hsend
    have hbytes := congrArg Prod.fst (Except.ok.inj hsend)
    refine ⟨sent, out, len, rfl, ?_⟩
    intro chunks hcut s hs hroom k
    have hsent' : chunks.flatten = stream packets := by
      rw [hcut, ← show _ = sent from hbytes, List.flatMap_map]
      rfl
    have hpre : ([] : AString) ++ (chunks.take k).flatten <+: stream packets := by
      rw [List.nil_append, ← hsent']
      conv => rhs; rw [← List.take_append_drop k chunks, List.flatten_append]
      exact List.prefix_append _ _
    have hempty : Pending [] packets := by
      cases packets with
      | nil => rfl
      | cons p packets => exact ⟨List.nil_prefix, frame_length_pos _⟩
    have hs' : (E.received s).contents = Fifo.filled 65536 [] := hs
    obtain ⟨done, todo, rest, s', hpackets, hsplit, hpending, hrun, hrest⟩ :=
      receiveAll_prefix hf hE (by omega) hfit hempty (Nat.zero_le _) hpre hs' (roomFor_take hroom k) []
    exact ⟨done, todo, rest, s', hpackets, hsplit, hpending, hrun, hrest⟩

/-- An endpoint that accepts every packet and does nothing with it. -/
def Endpoint.discarding {β : Type} : Endpoint β β where
  received b := b
  setReceived b _ := b
  handlePacket bb _ s := .ok (true, bb, s)
  packetBufferFull s := .ok s
  packetError _ s := .ok s

theorem discarding_transparent {β : Type} : (Endpoint.discarding : Endpoint β β).Transparent where
  received_setReceived _ _ := rfl
  handlePacket bb _ s := ⟨bb, s, rfl, rfl⟩
  packetError _ s := ⟨s, rfl, rfl⟩

/-- Two packets in three chunks, cut in a length and in a body. -/
theorem frames_reassemble_cut :
    letI := zeroPlatform
    ∃ done todo rest, ∃ s' : ByteBuffer, [(0, []), (17, [3, 7])] = done ++ todo ∧
      [1, 0, 3, 17] = stream done ++ rest ∧ Pending rest todo ∧
      Endpoint.discarding.traced.receiveAll [[1], [0, 3, 17]] ([], new 65536) =
        .ok (done.map call, s') ∧
      s'.contents = Fifo.filled 65536 rest := by
  let : Platform := zeroPlatform
  have hfit : FramesFit 65536 [(0, []), (17, [3, 7])] := by
    intro p hp
    rcases List.mem_cons.mp hp with rfl | hp
    · decide +kernel
    · rcases List.mem_singleton.mp hp with rfl
      decide +kernel
  obtain ⟨sent, out, len, hsend, hall⟩ :=
    frames_reassemble (discarding_transparent (β := ByteBuffer)) hfit
  have hsent : (sendPackets ([(0, []), (17, [3, 7])].map rawPacket) (new 65536)
      (new 20 : ByteBuffer)).map (fun r => r.1) = .ok [1, 0, 3, 17, 3, 7] := by
    decide +kernel
  rw [hsend] at hsent
  have hcut : [[1], [0, 3, 17], [3, 7]].flatten = sent := (Except.ok.inj hsent).symm
  exact hall _ hcut (new 65536) (ByteBuffer.contents_hom.new 65536) (by decide +kernel) 2

end P2PChat

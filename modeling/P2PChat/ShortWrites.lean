import P2PChat.ClientPackets
import P2PChat.EndpointInvariants
import P2PChat.PartialWrites

namespace P2PChat

open ByteQueue

/-- A packet, and how many of the bytes of its length and of its body `Send` accepts; an error accepts
none. -/
structure Posted where
  packet : Packet
  lenAccepted : Nat
  dataAccepted : Nat
  deriving DecidableEq, Repr

/-- The calls of `Send` for a packet. -/
def Posted.offers (x : Posted) : List (Offer UInt8) :=
  [⟨varInt (UInt32.ofNat x.packet.body.length), x.lenAccepted⟩, ⟨x.packet.body, x.dataAccepted⟩]

/-- A client whose socket may accept a part of what it is given: `sent` is what it accepted, `offers` what
it was given. No code reads the latter, and none looks at what `Send` answers. -/
structure SocketClient (β : Type) where
  client : PeerConnectionClient β
  offers : List (Offer UInt8)

namespace SocketClient

variable {β : Type}

def sendData (accepted : Nat) (data : AString) (s : SocketClient β) : SocketClient β :=
  if s.client.isConnected then
    { s with
      client := { s.client with sent := s.client.sent ++ data.take accepted }
      offers := s.offers ++ [⟨data, accepted⟩] }
  else s

variable [ByteQueue β]

/-- The life of a `cPacketizer`. -/
def packet (x : Posted) (s : SocketClient β) : Except Halt (SocketClient β) := do
  let out ← packetize x.packet s.client.outPacketBuffer
  let (lenToSend, dataToSend, out) := takePacketClient out
  let s := { s with client := { s.client with outPacketBuffer := out } }
  .ok ((s.sendData x.lenAccepted lenToSend).sendData x.dataAccepted dataToSend)

/-- One packet after another. -/
def packets : List Posted → SocketClient β → Except Halt (SocketClient β)
  | [], s => .ok s
  | x :: posted, s => do
    let s ← s.packet x
    packets posted s

/-- What the socket accepted since it was given nothing is the first part of these bytes, each in its
place. -/
def SentInOrder (bytes before : AString) (s : SocketClient β) : Prop :=
  ∃ n, s.client.sent = before ++ bytes.take n ∧ Offers.places 0 s.offers = List.range n

end SocketClient

/-- After the first call of `Send` that does not accept everything none accepts anything. -/
def stopsForGood (posted : List Posted) : Bool := Offers.stops (posted.flatMap Posted.offers)

namespace SocketClient

section Sending

variable {β : Type} [ByteQueue β] {f : β → Fifo} (hf : Hom f) {s : SocketClient β}

/-- Between two packets of an open connection. -/
structure Ready (f : β → Fifo) (s : SocketClient β) : Prop where
  isConnected : s.client.isConnected = true
  out : f s.client.outPacketBuffer = Fifo.empty 65536

include hf

/-- A packet that fits is composed in the empty buffer, and taken out of it again. -/
theorem takes {x : Posted} (hs : s.Ready f) {out : β}
    (hok : packetize x.packet s.client.outPacketBuffer = .ok out) :
    ∃ out', takePacketClient out = (varInt (UInt32.ofNat x.packet.body.length), x.packet.body, out') ∧
      f out' = Fifo.empty 65536 := by
  have hmap := packetize_map hf x.packet s.client.outPacketBuffer
  rw [hs.out, hok] at hmap
  have hbody : x.packet.body.length ≤ 65536 := by
    by_contra hlong
    rw [packetize_verify (by omega) (by omega)] at hmap
    cases hmap
  rw [packetize_ok hbody] at hmap
  have hout : f out = Fifo.filled 65536 x.packet.body := (Except.ok.inj hmap).symm
  have htake := takePacketClient_map hf out
  rw [hout, takePacketClient_filled hbody] at htake
  simp only [Prod.mk.injEq] at htake
  obtain ⟨hlen, hdata, hempty⟩ := htake
  refine ⟨(takePacketClient out).2.2, ?_, hempty.symm⟩
  rw [hlen, hdata]

/-- One packet: two calls of `Send`, each accepted in part. -/
theorem Ready.packet (hs : s.Ready f) {x : Posted} {s' : SocketClient β} (h : s.packet x = .ok s') :
    s'.Ready f ∧ s'.client.sent = s.client.sent ++ Offers.accepted x.offers ∧
      s'.offers = s.offers ++ x.offers := by
  unfold SocketClient.packet at h
  rcases hout : packetize x.packet s.client.outPacketBuffer with e | out
  · rw [hout] at h
    cases h
  · obtain ⟨out', htake, hempty⟩ := takes hf hs hout
    rw [hout] at h
    simp only [bind, Except.bind, htake, SocketClient.sendData, hs.isConnected, if_true,
      Except.ok.injEq] at h
    subst h
    refine ⟨⟨rfl, hempty⟩, ?_, ?_⟩
    · simp [Offers.accepted, Posted.offers, Offer.accepted]
    · simp [Posted.offers]

/-- A socket that accepts everything makes it the `packet` of the client. -/
theorem Ready.packet_whole (hs : s.Ready f) {x : Posted} (hlen : 5 ≤ x.lenAccepted)
    (hdata : x.packet.body.length ≤ x.dataAccepted) :
    (s.packet x).map SocketClient.client = s.client.packet x.packet := by
  unfold SocketClient.packet PeerConnectionClient.packet
  rcases hout : packetize x.packet s.client.outPacketBuffer with e | out
  · rfl
  · obtain ⟨out', htake, _⟩ := takes hf hs hout
    have hle := varInt_length_le (UInt32.ofNat x.packet.body.length)
    have hfirst : (varInt (UInt32.ofNat x.packet.body.length)).take x.lenAccepted =
        varInt (UInt32.ofNat x.packet.body.length) := List.take_of_length_le (by omega)
    have hsecond : x.packet.body.take x.dataAccepted = x.packet.body := List.take_of_length_le hdata
    simp only [bind, Except.bind, htake, SocketClient.sendData, PeerConnectionClient.sendData,
      hs.isConnected, if_true, Except.map, hfirst, hsecond]

/-- A run of packets. -/
theorem Ready.packets (hs : s.Ready f) {posted : List Posted} {s' : SocketClient β}
    (h : packets posted s = .ok s') :
    s'.client.sent = s.client.sent ++ Offers.accepted (posted.flatMap Posted.offers) ∧
      s'.offers = s.offers ++ posted.flatMap Posted.offers := by
  induction posted generalizing s with
  | nil =>
    cases h
    simp [Offers.accepted]
  | cons x posted ih =>
    unfold SocketClient.packets at h
    rcases hx : s.packet x with e | s₁
    · rw [hx] at h
      cases h
    · rw [hx] at h
      obtain ⟨hready, hsent, hoffers⟩ := hs.packet hf hx
      obtain ⟨hsent', hoffers'⟩ := ih hready h
      rw [hsent', hsent, hoffers', hoffers]
      simp [Offers.accepted, List.append_assoc]

end Sending

theorem offers_nonempty (posted : List Posted) : ∀ o ∈ posted.flatMap Posted.offers, o.data ≠ [] := by
  intro o hmem
  obtain ⟨x, _, hmem⟩ := List.mem_flatMap.mp hmem
  simp only [Posted.offers, List.mem_cons, List.not_mem_nil, or_false] at hmem
  have hlen := varInt_length_pos (UInt32.ofNat x.packet.body.length)
  have htype := varInt_length_pos x.packet.type
  rcases hmem with rfl | rfl
  · exact List.length_pos_iff.mp hlen
  · refine List.length_pos_iff.mp ?_
    rw [Packet.body, List.length_append]
    omega

theorem offered_frames (posted : List Posted) :
    Offers.offered (posted.flatMap Posted.offers) = posted.flatMap fun x => frame x.packet.body := by
  induction posted with
  | nil => rfl
  | cons x posted ih =>
    have hrest : Offers.offered (x.offers ++ posted.flatMap Posted.offers) =
        Offers.offered x.offers ++ Offers.offered (posted.flatMap Posted.offers) := List.flatMap_append
    rw [List.flatMap_cons, List.flatMap_cons, hrest, ih]
    simp [Offers.offered, Posted.offers, frame]

/-- The socket of an open connection accepts the first part of the frames of all packets, each byte in its
place, if and only if it accepts nothing after the first call of `Send` of which it accepts only a part. -/
theorem sentInOrder_iff [Platform] {c : PeerConnectionClient ByteBuffer} (hopen : c.isConnected = true)
    (hout : ByteBuffer.contents c.outPacketBuffer = Fifo.empty 65536) {posted : List Posted}
    {s : SocketClient ByteBuffer} (h : packets posted ⟨c, []⟩ = .ok s) :
    s.SentInOrder (posted.flatMap fun x => frame x.packet.body) c.sent ↔ stopsForGood posted = true := by
  have hready : Ready ByteBuffer.contents (⟨c, []⟩ : SocketClient ByteBuffer) := ⟨hopen, hout⟩
  obtain ⟨hsent, hoffers⟩ := hready.packets ByteBuffer.contents_hom h
  have hoffers : s.offers = posted.flatMap Posted.offers := hoffers
  have hsent : s.client.sent = c.sent ++ Offers.accepted (posted.flatMap Posted.offers) := hsent
  unfold stopsForGood
  rw [← Offers.inOrder_iff (offers_nonempty posted), SentInOrder, Offers.InOrder, hsent, hoffers,
    offered_frames]
  simp only [List.append_cancel_left_eq]

/-- A client whose connection was just opened. -/
def openClient [Platform] : PeerConnectionClient ByteBuffer :=
  { PeerConnectionClient.create (fun _ => false) with isConnected := true }

theorem openClient_out [Platform] :
    ByteBuffer.contents openClient.outPacketBuffer = Fifo.empty 65536 :=
  ByteBuffer.contents_hom.new 65536

/-- A ping as a whole, the first two bytes of a message, and nothing of the next ping. -/
theorem sentInOrder_part :
    letI := zeroPlatform
    ∃ s : SocketClient ByteBuffer,
      packets [⟨⟨0x00, [.varInt32 7]⟩, 1, 2⟩, ⟨mediaMsgPacket 7 [0x68, 0x69], 1, 2⟩,
        ⟨⟨0x00, [.varInt32 8]⟩, 0, 0⟩] ⟨openClient, []⟩ = .ok s ∧
      s.client.sent = [2, 0x00, 7, 5, 0x12, 7] ∧
      s.SentInOrder [2, 0x00, 7, 5, 0x12, 7, 2, 0x68, 0x69, 2, 0x00, 8] [] := by
  let : Platform := zeroPlatform
  have hrun : (packets [⟨⟨0x00, [.varInt32 7]⟩, 1, 2⟩, ⟨mediaMsgPacket 7 [0x68, 0x69], 1, 2⟩,
        ⟨⟨0x00, [.varInt32 8]⟩, 0, 0⟩] ⟨openClient, []⟩).toOption.map (fun s => s.client.sent) =
      some [2, 0x00, 7, 5, 0x12, 7] := by
    decide +kernel
  obtain ⟨s, hs, hsent⟩ := Option.map_eq_some_iff.mp hrun
  have hok := toOption_eq_some.mp hs
  have hframes : [⟨⟨0x00, [.varInt32 7]⟩, 1, 2⟩, ⟨mediaMsgPacket 7 [0x68, 0x69], 1, 2⟩,
        ⟨⟨0x00, [.varInt32 8]⟩, 0, 0⟩].flatMap (fun x : Posted => frame x.packet.body) =
      [2, 0x00, 7, 5, 0x12, 7, 2, 0x68, 0x69, 2, 0x00, 8] := by
    decide +kernel
  have horder := (sentInOrder_iff rfl openClient_out hok).mpr (by decide +kernel)
  rw [hframes] at horder
  exact ⟨s, hok, hsent, horder⟩

/-- The socket has no room for the body of a packet, and room again for the next packet: the length of the
first stands before a frame that it has nothing to do with. -/
theorem not_sentInOrder_wouldBlock :
    letI := zeroPlatform
    ∃ (posted : List Posted) (s : SocketClient ByteBuffer), packets posted ⟨openClient, []⟩ = .ok s ∧
      s.client.sent = [5, 2, 0x00, 8] ∧
      ¬s.SentInOrder (posted.flatMap fun x => frame x.packet.body) openClient.sent := by
  let : Platform := zeroPlatform
  have hrun : (packets [⟨mediaMsgPacket 7 [0x68, 0x69], 1, 0⟩, ⟨⟨0x00, [.varInt32 8]⟩, 1, 2⟩]
      ⟨openClient, []⟩).toOption.map (fun s => s.client.sent) = some [5, 2, 0x00, 8] := by
    decide +kernel
  obtain ⟨s, hs, hsent⟩ := Option.map_eq_some_iff.mp hrun
  refine ⟨_, s, toOption_eq_some.mp hs, hsent, ?_⟩
  rintro ⟨n, hbytes, -⟩
  rw [hsent] at hbytes
  have hprefix : [5, 2, 0x00, 8] <+: openClient.sent ++
      [⟨mediaMsgPacket 7 [0x68, 0x69], 1, 0⟩, ⟨⟨0x00, [.varInt32 8]⟩, 1, 2⟩].flatMap
        fun x : Posted => frame x.packet.body := by
    rw [hbytes]
    exact (List.prefix_append_right_inj _).mpr (List.take_prefix n _)
  exact absurd hprefix (by decide +kernel)

end SocketClient

end P2PChat

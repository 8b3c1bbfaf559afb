import P2PChat.StreamIdentity

namespace P2PChat

open ByteQueue

/-- A length from 128 * 128 on, that fits 64 KiB, takes three bytes. -/
theorem varInt_three {n : Nat} (hlo : 16384 ≤ n) (hhi : n < 2097152) :
    (varInt (UInt32.ofNat n)).length = 3 := by
  have hsize : (UInt32.ofNat n).toNat = n := by
    rw [UInt32.toNat_ofNat', Nat.mod_eq_of_lt (by omega)]
  have hle : (Leb128.encode n).length ≤ 3 := Leb128.encode_length_le (by omega) (by omega)
  have hge : (Leb128.encode 16384).length ≤ (Leb128.encode n).length :=
    Leb128.encode_length_mono hlo
  have hlog : Nat.log 128 16384 = 2 := Nat.log_pow (b := 128) (by omega) 2
  rw [Leb128.encode_length 16384, hlog] at hge
  rw [varInt, hsize]
  omega

/-- The prefix of a 64 KiB packet takes up to three bytes of the receiver's 64 KiB. -/
theorem frame_fits_iff {body : AString} (h : body.length ≤ 65536) :
    (frame body).length ≤ 65536 ↔ body.length ≤ 65533 := by
  have hsize : (UInt32.ofNat body.length).toNat = body.length := by
    rw [UInt32.toNat_ofNat', Nat.mod_eq_of_lt (by omega)]
  rw [frame, List.length_append]
  by_cases hbig : 16384 ≤ body.length
  · have hthree := varInt_three hbig (by omega)
    omega
  · have hle : (varInt (UInt32.ofNat body.length)).length ≤ 2 := by
      rw [varInt, hsize]
      exact Leb128.encode_length_le (by omega) (by omega)
    omega

/-- Exactly the packets whose body fits can be composed. -/
theorem packetize_iff {p : Packet} {out₀ : ByteBuffer} (hout : out₀.contents = Fifo.empty 65536)
    [Platform] : (∃ out, packetize p out₀ = .ok out) ↔ p.body.length ≤ 65536 := by
  have hmap := packetize_map ByteBuffer.contents_hom p out₀
  rw [hout] at hmap
  constructor
  · rintro ⟨out, hok⟩
    rw [hok] at hmap
    by_contra hlong
    rw [packetize_verify (by omega) (Nat.lt_of_not_le hlong)] at hmap
    cases hmap
  · intro hbody
    rw [packetize_ok hbody] at hmap
    rcases hok : packetize p out₀ with e | out
    · rw [hok] at hmap
      cases hmap
    · exact ⟨out, rfl⟩

theorem packetize_sent [Platform] {p : Packet} {out₀ len out : ByteBuffer}
    (hout : out₀.contents = Fifo.empty 65536) (hlen : len.contents = Fifo.empty 20)
    (hok : packetize p out₀ = .ok out) :
    (takePacket out len).1 = frame p.body ∧
      (takePacketClient out).1 ++ (takePacketClient out).2.1 = frame p.body := by
  have hf := ByteBuffer.contents_hom
  have hbody := (packetize_iff (p := p) hout).mp ⟨out, hok⟩
  have hmap := packetize_map hf p out₀
  rw [hout, packetize_ok hbody, hok] at hmap
  have hfilled : out.contents = Fifo.filled 65536 p.body := (Except.ok.inj hmap).symm
  have hserver := takePacket_map hf out len
  have hclient := takePacketClient_map hf out
  rw [hfilled, hlen, takePacket_filled hbody] at hserver
  rw [hfilled, takePacketClient_filled hbody] at hclient
  have h1 := congrArg Prod.fst hserver
  have h2 := congrArg Prod.fst hclient
  have h3 := congrArg (fun r => r.2.1) hclient
  refine ⟨h1.symm, ?_⟩
  rw [← show _ = (takePacketClient out).1 from h2, ← show _ = (takePacketClient out).2.1 from h3]
  rfl

theorem write_full [Platform] {bytes : AString} {b : ByteBuffer}
    (hb : b.contents = Fifo.empty 65536) :
    (write bytes b).1 = decide (bytes.length ≤ 65536) := by
  have hwrite := ByteBuffer.contents_hom.write bytes b
  have hfst := congrArg Prod.fst hwrite
  have happ : (write bytes (Fifo.empty 65536)).1 = decide (bytes.length ≤ (Fifo.empty 65536).free) :=
    Fifo.append_fst
  rw [hb] at hfst
  rw [← show _ = (write bytes b).1 from hfst, happ]
  rfl

/-- A composed packet passes an empty `m_ReceivedData`, and reaches `HandlePacket`, exactly if type
and fields leave the three bytes for its length. -/
theorem composed_frame_received_iff [Platform] {σ : Type} {E : Endpoint ByteBuffer σ}
    (hE : E.Transparent) {p : Packet} {out₀ len out : ByteBuffer}
    (hout : out₀.contents = Fifo.empty 65536) (hlen : len.contents = Fifo.empty 20)
    (hok : packetize p out₀ = .ok out) {s : σ} (hs : (E.received s).contents = Fifo.empty 65536) :
    (takePacketClient out).1 ++ (takePacketClient out).2.1 = (takePacket out len).1 ∧
    (((write (takePacket out len).1 (E.received s)).1 = true ∧
        ∃ s', E.traced.addReceivedData (takePacket out len).1 ([], s) =
          .ok ([(p.type, p.fieldBytes ++ [0])], s')) ↔
      p.body.length ≤ 65533) := by
  obtain ⟨hserver, hclient⟩ := packetize_sent hout hlen hok
  have hbody := (packetize_iff (p := p) hout).mp ⟨out, hok⟩
  have hraw : (rawPacket (p.type, p.fieldBytes)).body = p.body := rawPacket_body _
  rw [hserver, hclient, write_full hs, decide_eq_true_iff]
  refine ⟨rfl, ?_⟩
  constructor
  · rintro ⟨hfits, _⟩
    exact (frame_fits_iff hbody).mp hfits
  · intro hle
    have hfits := (frame_fits_iff hbody).mpr hle
    have hstream : stream [(p.type, p.fieldBytes)] = frame p.body := by
      rw [stream_cons, hraw]
      exact List.append_nil _
    have hs' : (E.received s).contents = Fifo.filled 65536 [] := hs
    have hsplit : ([] : AString) ++ frame p.body = stream [(p.type, p.fieldBytes)] ++ [] := by
      rw [hstream, List.nil_append, List.append_nil]
    have hroom : (([] : AString) ++ frame p.body).length ≤ 65536 := hfits
    obtain ⟨s', hrun, _⟩ := addReceivedData_fits ByteBuffer.contents_hom hE (by omega) nextFrame_nil
      hroom hsplit hs' []
    exact ⟨hfits, s', hrun⟩

theorem mediaMsg_body_length (id : UInt32) (msg : AString) :
    (mediaMsgPacket id msg).body.length =
      1 + (varInt id).length + (varInt (UInt32.ofNat msg.length)).length + msg.length := by
  have htype : (varInt 0x12).length = 1 := by decide +kernel
  simp only [mediaMsgPacket, Packet.body, Packet.fieldBytes, List.flatMap_cons, List.flatMap_nil,
    Field.bytes, List.length_append, List.length_nil, htype]
  omega

/-- 65531 bytes to peer 1 can be composed, and do not pass. -/
theorem long_mediaMsg_not_received :
    letI := zeroPlatform
    ∃ out : ByteBuffer,
      packetize (mediaMsgPacket 1 (List.replicate 65531 97)) (new 65536) = .ok out ∧
      (write ((takePacketClient out).1 ++ (takePacketClient out).2.1) (new 65536 : ByteBuffer)).1 =
        false := by
  let : Platform := zeroPlatform
  have hone : (varInt 1).length = 1 := by decide +kernel
  have hbody : (mediaMsgPacket 1 (List.replicate 65531 97)).body.length = 65536 := by
    rw [mediaMsg_body_length, List.length_replicate, varInt_three (by omega) (by omega), hone]
  have hempty := ByteBuffer.contents_hom.new 65536
  obtain ⟨out, hok⟩ := (packetize_iff (p := mediaMsgPacket 1 (List.replicate 65531 97)) hempty).mpr
    (by omega)
  refine ⟨out, hok, ?_⟩
  rw [(packetize_sent hempty (ByteBuffer.contents_hom.new 20) hok).2, write_full hempty,
    decide_eq_false_iff_not, frame_fits_iff (by omega)]
  omega

theorem short_mediaMsg_received :
    letI := zeroPlatform
    ∃ out : ByteBuffer, packetize (mediaMsgPacket 1 [97]) (new 65536) = .ok out ∧
      (write (takePacket out (new 20)).1 (new 65536 : ByteBuffer)).1 = true := by
  let : Platform := zeroPlatform
  have hempty := ByteBuffer.contents_hom.new 65536
  have hbody : (mediaMsgPacket 1 [97]).body.length = 4 := by decide +kernel
  obtain ⟨out, hok⟩ := (packetize_iff (p := mediaMsgPacket 1 [97]) hempty).mpr (by omega)
  have hiff := (composed_frame_received_iff (discarding_transparent (β := ByteBuffer)) hempty
    (ByteBuffer.contents_hom.new 20) hok (s := new 65536) hempty).2
  exact ⟨out, hok, (hiff.mpr (by omega)).1⟩

end P2PChat

import P2PChat.PacketCalls
import P2PChat.ServerTick

namespace P2PChat

open ByteQueue Relation

namespace Server

variable [Platform]

/-- Where a packet of `p` is handled, the packets of `p` before it have been, and its bytes, of which
the last is the NUL, come out of the receive buffer. -/
theorem callsFor_small {s : Server Fifo} (hs : s.Sound) {p : Nat} (hlive : (s.heap p).state.toNat < 4)
    {data : AString} {call : UInt32 × Fifo × Server Fifo}
    (hcall : (endpoint p).CallsFor data s call) :
    ReflTransGen (Small Gate.open p) s call.2.2 ∧ call.2.1.unread.length ≤ 65536 ∧
      ∃ body, call.2.1.unread = body ++ [0] := by
  obtain ⟨hfits, hcalls⟩ := hcall
  obtain ⟨u, hu, hrec⟩ := (hs.connections p).received
  have hrec' : (endpoint p).received s = Fifo.filled 65536 u := hrec
  have hfit : (u ++ data).length ≤ 65536 := by
    by_contra hfull
    rw [hrec', write_filled_full hu (Nat.lt_of_not_le hfull)] at hfits
    cases hfits
  rw [hrec', write_filled hu hfit] at hcalls
  have hset : ∀ (v : AString) (t : Server Fifo),
      (((endpoint p).setReceived (Fifo.filled 65536 v) t).heap p).protocol.receivedData =
        Fifo.filled 65536 v := by
    intro v t
    change ((t.modify p (ClientHandle.setReceived _)).heap p).protocol.receivedData = _
    rw [modify_heap, if_pos rfl]
    rfl
  -- between two packets: small effects so far, and the rest of the data in the buffer
  have hinv := @calls_invariant _ _ (endpoint p) 65536
    (fun v t => ReflTransGen (Small Gate.open p) s t ∧ v.length ≤ 65536 ∧
      (t.heap p).protocol.receivedData = Fifo.filled 65536 v) (by omega)
    (fun _ _ h => h.2) ?_ ?_ _ _
    ⟨.single (setReceived_small hfit _), hfit, hset _ _⟩ _ hcalls
  · obtain ⟨v, t, payload, rest, ⟨hsmall, hv, _⟩, hnext, hopen, hstate⟩ := hinv
    have hlen := nextFrame_length hnext
    have hbytes := opened_length hopen
    refine ⟨?_, by omega, opened_nul hopen⟩
    rw [hstate]
    exact hsmall.tail (setReceived_small (by omega) t)
  · rintro v t payload rest packetType bb bb' t' ⟨hsmall, hv, _⟩ hnext hopen hok
    have hlen := nextFrame_length hnext
    have hrest : rest.length ≤ 65536 := by omega
    have hsmall' := hsmall.tail (setReceived_small hrest t)
    have hsound := sound_of_small hs hsmall'
    have hlive' := (framed_of_small hsmall').live.mpr hlive
    have hbytes := opened_length hopen
    have hok : handlePacket p bb packetType
        (t.modify p (ClientHandle.setReceived (Fifo.filled 65536 rest))) = .ok (true, bb', t') := hok
    have hshort : ∀ x, (t.modify p (ClientHandle.setReceived (Fifo.filled 65536 rest))).relay p
        packetType bb.unread = some x → x.2.body.length ≤ 65536 := by
      intro x hx
      by_contra hlong
      rw [handlePacket_verify hsound hlive' hx (Nat.lt_of_not_le hlong)] at hok
      cases hok
    have hbb : bb.unread.length ≤ 65536 := by omega
    obtain ⟨_, t'', hok', hleads⟩ := handlePacket_returns hsound hlive' (G := Gate.open) hbb
      fun x hx => ⟨hshort x hx, rfl⟩
    have heq : t'' = t' := congrArg (fun r => r.2.2) (Except.ok.inj (hok'.symm.trans hok))
    subst heq
    exact ⟨hsmall'.trans hleads.small, hrest, hleads.received.trans (hset rest t)⟩
  · rintro v t packetType t' ⟨hsmall, hv, hreceived⟩ herror
    obtain ⟨t'', hok, hleads⟩ := kick_ok (sound_of_small hs hsmall) (G := Gate.open) p
      errorCodePacketError
    have heq : t'' = t' := Except.ok.inj (hok.symm.trans herror)
    subst heq
    exact ⟨hsmall.trans hleads.small, hv, hleads.received.trans hreceived⟩

end Server

end P2PChat

import P2PChat.PacketHandling

namespace P2PChat

open ByteQueue Relation

namespace Server

variable [Platform]

/-- The relays that these bytes of `p` come to. -/
def relaysFrom (p : Nat) (u : AString) (s : Server Fifo) : List (Nat × Packet) :=
  (packets (knows (s.heap p).protocol.state) u).filterMap fun packet => s.relay p packet.1 packet.2

theorem relaysFrom_idle {s : Server Fifo} {p : Nat} (h : (s.heap p).protocol.state ≠ 3) (u : AString) :
    s.relaysFrom p u = [] := by
  refine List.filterMap_eq_nil_iff.mpr fun packet _ => ?_
  rw [relay, if_neg h]

theorem relaysFrom_cons {s : Server Fifo} {p : Nat} {u payload rest bytes : AString}
    {packetType : UInt32} (hnext : nextFrame u = some (payload, rest))
    (hopen : opened payload = some (packetType, bytes)) :
    s.relaysFrom p u = (s.relay p packetType bytes).toList ++
      if knows (s.heap p).protocol.state packetType then s.relaysFrom p rest else [] := by
  unfold relaysFrom
  rw [packets_cons hnext hopen]
  rcases hx : s.relay p packetType bytes with _ | x
  · simp only [List.filterMap_cons, hx, Option.toList_none, List.nil_append]
    split <;> rfl
  · simp only [List.filterMap_cons, hx, Option.toList_some, List.singleton_append]
    split <;> rfl

omit [Platform] in
theorem overlong_append (l l' : List (Nat × Packet)) :
    overlong (l ++ l') = (overlong l || overlong l') := List.any_append

/-- Where the loop of `AddReceivedData` stands, with these bytes to go. -/
structure Handling (G : Gate) (p : Nat) (s₀ : Server Fifo) (long : Bool) (u : AString)
    (s : Server Fifo) : Prop where
  small : ReflTransGen (Small G p) s₀ s
  room : u.length ≤ 65536
  received : (s.heap p).protocol.receivedData = Fifo.filled 65536 u
  pass : ∀ x ∈ s₀.relaysFrom p u, G.passes (s₀.heap x.1) x.2
  long : overlong (s₀.relaysFrom p u) = long

/-- What the loop comes to. -/
def Handled (G : Gate) (p : Nat) (s₀ : Server Fifo) (long : Bool)
    (r : Except Halt (Server Fifo)) : Prop :=
  match r with
  | .ok s => long = false ∧ ReflTransGen (Small G p) s₀ s
  | .error e => long = true ∧ e = .verify

theorem setReceived_small {G : Gate} {p : Nat} {u : AString} (h : u.length ≤ 65536)
    (s : Server Fifo) :
    Small G p s (s.modify p (ClientHandle.setReceived (Fifo.filled 65536 u))) :=
  .change (.quiet ⟨rfl, rfl, rfl, rfl, rfl, Or.inr ⟨u, h, rfl⟩, rfl, rfl, rfl, rfl, id, rfl, rfl⟩)

/-- The loop relays what `relaysFrom` says, until there is one packet that is too long. -/
theorem endpoint_rule {G : Gate} {p : Nat} {s₀ : Server Fifo} (hs₀ : s₀.Sound)
    (hlive : (s₀.heap p).state.toNat < 4) (long : Bool) :
    (endpoint p).Rule 65536 (Handling G p s₀ long) (Handled G p s₀ long) where
  received u s h := ⟨h.room, h.received⟩
  wait u s h hnext := by
    have hnil : s₀.relaysFrom p u = [] := by
      rw [relaysFrom, packets_none hnext]
      rfl
    have hlong := h.long
    rw [hnil] at hlong
    exact ⟨hlong.symm, h.small.tail (setReceived_small h.room s)⟩
  unreadable u s payload rest h hnext hopen := by
    have hlen := nextFrame_length hnext
    have hroom := h.room
    have hnil : s₀.relaysFrom p u = [] := by
      rw [relaysFrom, packets_unreadable hnext hopen]
      rfl
    have hlong := h.long
    rw [hnil] at hlong
    exact ⟨hlong.symm, h.small.tail (setReceived_small (by omega) s)⟩
  packetError u s packetType h := by
    have hs := sound_of_small hs₀ h.small
    obtain ⟨s', hok, hleads⟩ := kick_ok hs (G := G) p errorCodePacketError
    exact ⟨s', hok, h.small.trans hleads.small, h.room, hleads.received.trans h.received, h.pass,
      h.long⟩
  packet u s payload rest packetType bb h hnext hopen := by
    have hlen := nextFrame_length hnext
    have hroom := h.room
    have hrest : rest.length ≤ 65536 := by omega
    have hsmall := h.small.tail (setReceived_small hrest s)
    generalize hs₁ : s.modify p (ClientHandle.setReceived (Fifo.filled 65536 rest)) = s₁ at hsmall
    have hset : (endpoint p).setReceived (Fifo.filled 65536 rest) s = s₁ := hs₁
    have hreceived : (s₁.heap p).protocol.receivedData = Fifo.filled 65536 rest := by
      rw [← hs₁, modify_heap, if_pos rfl]
      rfl
    have hs := sound_of_small hs₀ hsmall
    have hframed := framed_of_small hsmall
    have hlive' := hframed.live.mpr hlive
    have hbytes := opened_length hopen
    have hbb : bb.unread.length ≤ 65536 := by omega
    have hrelay := relay_congr hframed packetType bb.unread
    have hpass := h.pass
    have hlong := h.long
    rw [relaysFrom_cons hnext hopen] at hpass hlong
    rw [overlong_append] at hlong
    -- in the last state the answer is that of `relaysFrom`, in the others there is nothing to relay
    have hknows : (if knows (s₀.heap p).protocol.state packetType then s₀.relaysFrom p rest else []) =
        if knows (s₁.heap p).protocol.state packetType then s₀.relaysFrom p rest else [] := by
      by_cases h3 : (s₀.heap p).protocol.state = 3
      · rw [h3, hframed.working.mpr h3]
      · rw [relaysFrom_idle h3, ite_self, ite_self]
    rw [hknows] at hpass hlong
    rw [hset]
    by_cases hhead : overlong (s₀.relay p packetType bb.unread).toList = true
    · obtain ⟨x, hx, hx'⟩ := List.any_eq_true.mp hhead
      have hverify := handlePacket_verify hs hlive' (hrelay.trans (Option.mem_toList.mp hx))
        (of_decide_eq_true hx')
      rw [hhead, Bool.true_or] at hlong
      exact Or.inl ⟨_, hverify, hlong.symm, rfl⟩
    · rw [Bool.not_eq_true] at hhead
      rw [hhead, Bool.false_or] at hlong
      obtain ⟨bb', s', hok, hleads⟩ := handlePacket_returns hs hlive' hbb (G := G)
        (fun x hx => by
          have hx₀ := hrelay.symm.trans hx
          have hmem := List.mem_append_left (if knows (s₁.heap p).protocol.state packetType then
            s₀.relaysFrom p rest else []) (Option.mem_toList.mpr hx₀)
          refine ⟨?_, relay_passes hframed hx₀ (hpass x hmem)⟩
          have hshort := List.any_eq_false.mp hhead x (Option.mem_toList.mpr hx₀)
          simpa using hshort)
      by_cases hknown : knows (s₁.heap p).protocol.state packetType = true
      · rw [hknown] at hok
        rw [if_pos hknown] at hpass hlong
        exact Or.inr (Or.inr ⟨bb', s', rest, hok, Nat.le_refl _, hsmall.trans hleads.small, hrest,
          hleads.received.trans hreceived, fun x hx => hpass x (List.mem_append_right _ hx), hlong⟩)
      · rw [Bool.not_eq_true] at hknown
        rw [hknown] at hok
        rw [if_neg (by rw [hknown]; decide)] at hlong
        exact Or.inr (Or.inl ⟨bb', s', hok, hlong.symm, hsmall.trans hleads.small⟩)

omit [Platform] in
theorem inbound_eq {s : Server Fifo} {p : Nat} {u : AString} (hu : u.length ≤ 65536)
    (h : (s.heap p).protocol.receivedData = Fifo.filled 65536 u) :
    s.inbound p = u ++ (s.heap p).incomingData := by
  obtain ⟨_, _, hunread⟩ := Fifo.filled_eq hu
  rw [inbound, h, readAll_fifo, hunread]

/-- The first part of a tick relays what `relays` says. -/
theorem tickReceived_handled {G : Gate} {p : Nat} {s : Server Fifo} (hs : s.Sound)
    (hlive : (s.heap p).state.toNat < 4)
    (hpass : ∀ x ∈ s.relays p, G.passes (s.heap x.1) x.2) :
    Handled G p s (overlong (s.relays p)) (s.tickReceived p) := by
  have hnot : (s.heap p).isDestroyed = false := by
    rw [ClientHandle.isDestroyed, beq_eq_false_iff_ne]
    intro h
    rw [h] at hlive
    exact absurd hlive (by decide)
  obtain ⟨u, hu, hrec⟩ := (hs.connections p).received
  have hinbound := inbound_eq hu hrec
  unfold tickReceived
  split
  next hin =>
    have htake : Small G p s (s.modify p ClientHandle.takeIncoming) :=
      .change (.quiet ⟨rfl, rfl, rfl, rfl, rfl, Or.inl rfl, rfl, rfl, rfl, rfl, id, rfl, rfl⟩)
    have hs' := htake.sound hs
    have hrec' : (endpoint p).received (s.modify p ClientHandle.takeIncoming) =
        Fifo.filled 65536 u := by
      change ((s.modify p ClientHandle.takeIncoming).heap p).protocol.receivedData = _
      rw [modify_heap, if_pos rfl]
      exact hrec
    by_cases hfit : (u ++ (s.heap p).incomingData).length ≤ 65536
    · have hrelays : s.relays p = s.relaysFrom p (u ++ (s.heap p).incomingData) := by
        rw [relays, arriving, if_pos ⟨hnot, hin, by rw [hinbound]; exact hfit⟩, hinbound, relaysFrom]
      rw [hrelays] at hpass ⊢
      have hset := setReceived_small (G := G) (p := p) hfit (s.modify p ClientHandle.takeIncoming)
      refine Endpoint.Rule.addReceivedData (endpoint_rule hs hlive _) (by omega) hu hrec' hfit ?_
      refine ⟨.tail (.single htake) hset, hfit, ?_, hpass, rfl⟩
      change ((((s.modify p ClientHandle.takeIncoming).modify p
        (ClientHandle.setReceived _)).heap p).protocol.receivedData) = _
      rw [modify_heap, if_pos rfl]
      rfl
    · have hrelays : s.relays p = [] := by
        rw [relays, arriving, if_neg (fun h => hfit (by rw [← hinbound]; exact h.2.2))]
        rfl
      have hset := setReceived_small (G := G) (p := p) hu (s.modify p ClientHandle.takeIncoming)
      obtain ⟨s', hok, hleads⟩ := kick_ok (hset.sound hs') (G := G) p errorCodeServerBusy
      rw [hrelays, addReceivedData, addReceivedData_full hu hrec' (by omega)]
      change Handled G p s false (act p (ClientHandle.sendDisconnect errorCodeServerBusy) _)
      rw [show (endpoint p).setReceived (Fifo.filled 65536 u) (s.modify p ClientHandle.takeIncoming) =
        (s.modify p ClientHandle.takeIncoming).modify p
          (ClientHandle.setReceived (Fifo.filled 65536 u)) from rfl, hok]
      exact ⟨rfl, (ReflTransGen.tail (.single htake) hset).trans hleads.small⟩
  next hin =>
    have hrelays : s.relays p = [] := by
      rw [relays, arriving, if_neg (fun h => hin h.2.1)]
      rfl
    rw [hrelays]
    exact ⟨rfl, .refl⟩

theorem small_of_change {G : Gate} {p : Nat} {s : Server Fifo} {c : ClientHandle Fifo}
    (h : ReflTransGen ClientHandle.Change (s.heap p) c) :
    ReflTransGen (Small G p) s (s.store p c) := by
  induction h with
  | refl =>
    have hsame : s.store p (s.heap p) = s := by
      refine heap_ext (fun q => ?_) rfl
      rw [store_heap]
      split
      next h => rw [h]
      next => rfl
    rw [hsame]
  | @tail c c' _ hstep ih =>
    have hself : (s.store p c).heap p = c := if_pos rfl
    have htwice : (s.store p c).store p c' = s.store p c' := by
      refine heap_ext (fun q => ?_) rfl
      rw [store_heap, store_heap, store_heap]
      split <;> rfl
    rw [← htwice]
    exact ih.tail (.change (by rw [hself]; exact hstep))

/-- So does a tick, and the second part never fails. -/
theorem serverTick_handled {G : Gate} {p : Nat} {s : Server Fifo} (hs : s.Sound)
    (hlive : (s.heap p).state.toNat < 4)
    (hpass : ∀ x ∈ s.relays p, G.passes (s.heap x.1) x.2) :
    Handled G p s (overlong (s.relays p)) (s.serverTick p) := by
  have hfirst := tickReceived_handled hs hlive hpass
  unfold serverTick
  rcases htick : s.tickReceived p with e | s'
  · rw [htick] at hfirst
    exact hfirst
  · rw [htick] at hfirst
    obtain ⟨hlong, hsmall⟩ := hfirst
    have hs' := sound_of_small hs hsmall
    obtain ⟨c, hrest, hchange⟩ := ClientHandle.tickRest_ok (hs'.connections p) s'.now
    have hact : s'.act p (ClientHandle.tickRest s'.now) = .ok (s'.store p c) := act_change hrest
    change Handled G p s _ (s'.act p (ClientHandle.tickRest s'.now))
    rw [hact]
    exact ⟨hlong, hsmall.trans (small_of_change hchange)⟩

end Server

end P2PChat

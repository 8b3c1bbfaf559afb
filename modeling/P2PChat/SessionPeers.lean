import P2PChat.ClientRules

namespace P2PChat

open ByteQueue

theorem Peers.fold_append (heard heard' : List (UInt32 × AString × UInt32)) (peers : Peers) :
    Peers.fold (heard ++ heard') peers = Peers.fold heard' (Peers.fold heard peers) := List.foldl_append

namespace PeerConnectionClient

variable {β : Type} [ByteQueue β]

omit [ByteQueue β] in
theorem userInfo_peers (uid : UInt32) (name : AString) (state : UInt32) (c : PeerConnectionClient β) :
    (c.userInfo uid name state).peers = c.peers.userInfo uid name state := by
  unfold PeerConnectionClient.userInfo
  split
  next => rfl
  next => rfl

theorem peers_rule (peers : Peers) : HandlerRule fun c : PeerConnectionClient β => c.peers = peers where
  same c c' _ _ _ hsame hc := hsame.trans hc
  packet p c hc c' hok := by
    obtain ⟨out, sent, rfl⟩ := packet_changes hok
    exact hc
  signOut c hc := by
    unfold PeerConnectionClient.signOut
    split
    next => exact hc
    next =>
      split
      next => exact hc
      next => exact hc

variable [Platform]

/-- A packet changes the list as the `UserInfo` in it says, if there is one. -/
theorem handlePacket_peers (bb : β) (packetType : UInt32) (c : PeerConnectionClient β) :
    Ends (fun x : Bool × β × PeerConnectionClient β =>
      x.2.2.peers = Peers.fold (c.hears bb packetType) c.peers) (handlePacket bb packetType c) := by
  rcases hheard : c.hears bb packetType with _ | ⟨info, heard⟩
  · refine (peers_rule c.peers).handlePacket rfl bb packetType fun info hmem => ?_
    simp [hheard] at hmem
  · unfold hears at hheard
    split at hheard
    next h =>
      obtain ⟨hwork, rfl⟩ := h
      rcases hread : readUserInfo bb with ⟨_ | info', bb'⟩
      · simp [hread] at hheard
      · simp only [hread, Option.toList_some, List.cons.injEq] at hheard
        obtain ⟨rfl, rfl⟩ := hheard
        intro x hx
        have hwork' : (c.record (0x01, (readAll bb).1)).protocolState = 3 := hwork
        simp only [handlePacket, dispatchPacket, hwork', handlePacketUserInfo, handling, hread] at hx
        cases hx
        exact userInfo_peers _ _ _ _
    next => cases hheard

/-- Reading keeps the list what the packets say. -/
theorem peers_hearing : hearing.Keeps fun s : PeerConnectionClient β × List (UInt32 × AString × UInt32) =>
    s.1.peers = Peers.fold s.2 (fun _ => none) where
  setReceived b s hs := hs
  handlePacket bb packetType s hs := by
    have hpeers := handlePacket_peers bb packetType s.1
    rw [hearing_handlePacket]
    rcases hr : handlePacket bb packetType s.1 with e | r
    · exact Ends.error
    · refine Ends.ok ?_
      change r.2.2.peers = Peers.fold (s.2 ++ s.1.hears bb packetType) _
      rw [Peers.fold_append, ← hs]
      exact hpeers r hr
  packetBufferFull s hs := Ends.ok hs
  packetError packetType s hs := Ends.ok hs

end PeerConnectionClient

namespace ClientSession

section Definitions

variable {β : Type}

/-- The list is what the packets since the last `Connect` that was accepted make of an empty one. -/
def Announced (s : ClientSession β) : Prop := s.client.peers = Peers.fold s.heard fun _ => none

/-- A `Connect` that is accepted finds the list empty. -/
def connectsAfresh (s : ClientSession β) (e : SessionEvent) : Prop :=
  ∀ server user pass unresolved reply, e = .connect server user pass unresolved reply →
    s.accepts server user pass = true → s.client.peers = fun _ => none

end Definitions

variable {β : Type} [ByteQueue β] {s : ClientSession β}

theorem peers_sessionRule :
    SessionRule fun x : PeerConnectionClient β × List (UInt32 × AString × UInt32) =>
      x.1.peers = Peers.fold x.2 (fun _ => none) where
  same c c' heard _ hsame hc := hsame.trans hc
  packet p c heard hc c' hok := by
    obtain ⟨out, sent, rfl⟩ := PeerConnectionClient.packet_changes hok
    exact hc
  close c heard hc := hc

/-- `Connect` leaves the list as it is. -/
theorem connect_accepted {server user pass : AString} (h : s.accepts server user pass = true)
    (unresolved : Bool) (reply : ConnectReply) :
    ∃ s', s.connect server user pass unresolved reply = .ok s' ∧ s'.heard = [] ∧
      s'.client.peers = s.client.peers := by
  simp only [accepts, Bool.and_eq_true, beq_iff_eq, Bool.not_eq_true', List.isEmpty_eq_false_iff] at h
  obtain ⟨⟨⟨hstate, hserver⟩, huser⟩, hpass⟩ := h
  unfold ClientSession.connect
  rw [if_neg (by simp [hstate]), if_neg (by simp [hserver, huser, hpass])]
  cases unresolved with
  | true => exact ⟨_, rfl, rfl, rfl⟩
  | false =>
    cases reply with
    | socketError => exact ⟨_, rfl, rfl, rfl⟩
    | inProgress => exact ⟨_, rfl, rfl, rfl⟩
    | connected => exact ⟨_, rfl, rfl, rfl⟩

variable [Platform]

theorem Announced.step (hs : s.Announced) {e : SessionEvent} (he : s.connectsAfresh e)
    {s' : ClientSession β} (h : s.step e = .ok s') : s'.Announced := by
  refine peers_sessionRule.step hs (fun server user pass unresolved reply heq haccepts => ?_) ?_ s' h
  · exact he server user pass unresolved reply heq haccepts
  · exact fun chunks _ => PeerConnectionClient.hearAll_ends PeerConnectionClient.peers_hearing hs

theorem Announced.ends {e : SessionEvent} (he : ¬s.connectsAfresh e) :
    ∃ s', s.step e = .ok s' ∧ ¬s'.Announced := by
  unfold connectsAfresh at he
  push Not at he
  obtain ⟨server, user, pass, unresolved, reply, rfl, haccepts, hpeers⟩ := he
  obtain ⟨s', hok, hheard, hsame⟩ := connect_accepted haccepts unresolved reply
  refine ⟨s', hok, fun hnow => hpeers ?_⟩
  unfold Announced at hnow
  rw [hheard] at hnow
  exact hsame.symm.trans hnow

/-- In a run of the client the list is always what was announced since the last `Connect` if and only if
every `Connect` that is accepted finds it empty. -/
theorem announced_iff (isBusy : Nat → Bool) {events : List SessionEvent}
    (h : (sessionMachine ByteBuffer).Along (sessionMachine ByteBuffer).enabled events (create isBusy)) :
    (sessionMachine ByteBuffer).Along
        (fun s e => ∀ s', (sessionMachine ByteBuffer).step s e = .ok s' → s'.Announced) events
        (create isBusy) ↔
      (sessionMachine ByteBuffer).Along (fun s e => s.connectsAfresh e) events (create isBusy) := by
  refine Machine.along_keeps_iff (fun s e s' hs _ he hstep => ?_) (fun s e _ _ he => ?_) rfl h
  · exact Announced.step hs he hstep
  · exact Announced.ends he

/-- The answer to the greeting, a login success, and a `UserInfo`. -/
def announcing : List AString := [[6, 0, 0, 0, 0, 2, 0, 1, 1, 5, 1, 7, 1, 0x78, 3]]

omit [Platform] in
/-- One connection, over which a peer is announced. -/
theorem announced_once :
    letI := zeroPlatform
    (sessionMachine ByteBuffer).Along
      (fun s e => ∀ s', (sessionMachine ByteBuffer).step s e = .ok s' → s'.Announced)
      [.connect [0x61] [0x62] [0x63] false .inProgress, .opened, .readable announcing, .signOut]
      (create fun _ => false) := by
  let : Platform := zeroPlatform
  have hrun : ((sessionMachine ByteBuffer).replay (fun s e => s.enabled e)
      [.connect [0x61] [0x62] [0x63] false .inProgress, .opened, .readable announcing, .signOut]
      (create fun _ => false)).isSome = true := by
    decide +kernel
  obtain ⟨s, hs⟩ := Option.isSome_iff_exists.mp hrun
  refine (announced_iff _ (Machine.replay_along (fun _ _ he => he) hs)).mpr ?_
  refine ⟨fun _ _ _ _ _ _ _ => rfl, fun _ _ => ⟨?_, fun _ _ => ⟨?_, fun _ _ => ⟨?_, fun _ _ => trivial⟩⟩⟩⟩
  · intro server user pass unresolved reply h
    cases h
  · intro server user pass unresolved reply h
    cases h
  · intro server user pass unresolved reply h
    cases h

omit [Platform] in
/-- The peer is still there when the next connection is being opened. -/
theorem not_announced_again :
    letI := zeroPlatform
    ∃ s : ClientSession ByteBuffer, (sessionMachine ByteBuffer).Reachable (create fun _ => false) s ∧
      ¬s.Announced := by
  let : Platform := zeroPlatform
  have hrun : ((sessionMachine ByteBuffer).replay (fun s e => s.enabled e)
      [.connect [0x61] [0x62] [0x63] false .inProgress, .opened, .readable announcing, .signOut,
        .connect [0x61] [0x62] [0x63] false .inProgress] (create fun _ => false)).map
        (fun s => (s.client.peers 7, s.heard)) = some (some [0x78], []) := by
    decide +kernel
  obtain ⟨s, hs, hpeers⟩ := Option.map_eq_some_iff.mp hrun
  obtain ⟨hpeers, hheard⟩ := Prod.mk.inj hpeers
  refine ⟨s, Machine.replay_reach (fun _ _ he => ⟨he, trivial⟩) .start hs, fun hnow => ?_⟩
  unfold Announced at hnow
  rw [hheard] at hnow
  rw [hnow] at hpeers
  cases hpeers

end ClientSession

end P2PChat

import P2PChat.ClientPackets
import P2PChat.Reassembly
import P2PChat.ServerRuns

namespace P2PChat

open ByteQueue Relation

namespace PeerConnectionClient

variable [Platform]

/-- What `m_State` of a client that stays connected becomes by this packet, up to the last state. -/
def meets (state : UInt32) (p : UInt32 × AString) : UInt32 :=
  if state = 1 ∧ p.1 = 0x00 then
    (parseStatus (call p).2).1.elim 1 fun status =>
      if 3 < status.1 ∨ status.1 < 1 then 1 else status.1.toUInt32
  else if state = 2 ∧ p.1 = 0x01 then 3
  else state

theorem meets_last (p : UInt32 × AString) : meets 3 p = 3 := by
  rw [meets, if_neg (fun h => absurd h.1 (by decide)), if_neg (fun h => absurd h.1 (by decide))]

theorem meets_other {state : UInt32} {p : UInt32 × AString} (h0 : p.1 ≠ 0x00)
    (h1 : p.1 = 0x01 → state ≠ 2) : meets state p = state := by
  rw [meets, if_neg (fun h => h0 h.2), if_neg (fun h => h1 h.2 h.1)]

/-- A packet that the client refuses leaves it where it is. -/
theorem meets_unknown {state : UInt32} {p : UInt32 × AString} (hknown : knows state p.1 = false)
    (hstate : state = 1 ∨ state = 2) : meets state p = state := by
  rcases hstate with rfl | rfl
  · have h0 : p.1 ≠ 0x00 := by simpa [knows] using hknown
    exact meets_other h0 fun _ => by decide
  · have hboth : p.1 ≠ 0x00 ∧ p.1 ≠ 0x01 := by simpa [knows] using hknown
    exact meets_other hboth.1 fun h1 => absurd h1 hboth.2

theorem foldl_meets_last (packets : List (UInt32 × AString)) : packets.foldl meets 3 = 3 := by
  induction packets with
  | nil => rfl
  | cons p packets ih =>
    rw [List.foldl_cons, meets_last]
    exact ih

/-- Packets that leave a client short of the last state do so all along. -/
theorem early_start {done todo : List (UInt32 × AString)} (h : (done ++ todo).foldl meets 1 ≠ 3) :
    done.foldl meets 1 ≠ 3 := by
  intro hlast
  rw [List.foldl_append, hlast, foldl_meets_last] at h
  exact h rfl

omit [Platform] in
theorem statusState {v : Int32} (h : ¬(3 < v ∨ v < 1)) :
    v.toUInt32 = 1 ∨ v.toUInt32 = 2 ∨ v.toUInt32 = 3 := by
  have h1 : (1 : Int32) ≤ v := Int32.not_lt.mp fun hlt => h (Or.inr hlt)
  have h3 : v ≤ (3 : Int32) := Int32.not_lt.mp fun hlt => h (Or.inl hlt)
  rw [Int32.le_iff_toInt_le] at h1 h3
  have e1 : (1 : Int32).toInt = 1 := rfl
  have e3 : (3 : Int32).toInt = 3 := rfl
  rw [e1] at h1
  rw [e3] at h3
  have hv : v.toInt = 1 ∨ v.toInt = 2 ∨ v.toInt = 3 := by omega
  rcases hv with hv | hv | hv
  · have hone : v = 1 := Int32.toInt_inj.mp hv
    rw [hone]
    exact Or.inl rfl
  · have htwo : v = 2 := Int32.toInt_inj.mp hv
    rw [htwo]
    exact Or.inr (Or.inl rfl)
  · have hthree : v = 3 := Int32.toInt_inj.mp hv
    rw [hthree]
    exact Or.inr (Or.inr rfl)

theorem meets_range {state : UInt32} (h : state = 1 ∨ state = 2 ∨ state = 3) (p : UInt32 × AString) :
    meets state p = 1 ∨ meets state p = 2 ∨ meets state p = 3 := by
  unfold meets
  split
  next =>
    rcases (parseStatus (call p).2).1 with _ | status
    · exact Or.inl rfl
    · simp only [Option.elim_some]
      split
      next => exact Or.inl rfl
      next hrange => exact statusState hrange
  next =>
    split
    next => exact Or.inr (Or.inr rfl)
    next => exact h

theorem foldl_meets_range {state : UInt32} (h : state = 1 ∨ state = 2 ∨ state = 3)
    (packets : List (UInt32 × AString)) : packets.foldl meets state = 1 ∨
      packets.foldl meets state = 2 ∨ packets.foldl meets state = 3 := by
  induction packets generalizing state with
  | nil => exact h
  | cons p packets ih => exact ih (meets_range h p)

theorem early_range {packets : List (UInt32 × AString)} (h : packets.foldl meets 1 ≠ 3) :
    packets.foldl meets 1 = 1 ∨ packets.foldl meets 1 = 2 := by
  rcases foldl_meets_range (Or.inl rfl) packets with h1 | h2 | h3
  · exact Or.inl h1
  · exact Or.inr h2
  · exact absurd h3 h

/-- The client goes to the state that the answer of the server names. -/
theorem meets_status {v : Int32} {ip : AString} (hv : v = 1 ∨ v = 2) (hip : ip.length < 2 ^ 32) :
    meets 1 (0x00, (⟨0x00, [.beInt32 v, .string ip]⟩ : Packet).fieldBytes) = v.toUInt32 := by
  have hbytes : (call (0x00, (⟨0x00, [.beInt32 v, .string ip]⟩ : Packet).fieldBytes)).2 =
      bigEndianBytes 4 v.toUInt32.toNat ++ (varInt (UInt32.ofNat ip.length) ++ ip ++ [0]) := by
    simp [call, Packet.fieldBytes, Field.bytes]
  have hfour := @parseBE_bigEndianBytes 4 _ v.toUInt32.toNat_lt
    (varInt (UInt32.ofNat ip.length) ++ ip ++ [0])
  have hnumber : parseBEInt32 (bigEndianBytes 4 v.toUInt32.toNat ++
      (varInt (UInt32.ofNat ip.length) ++ ip ++ [0])) = (some v, 4) := by
    rw [parseBEInt32, Parser.map, hfour, Option.map_some, UInt32.ofNat_toNat, Int32.toInt32_toUInt32]
  have hparse : (parseStatus (call (0x00, (⟨0x00, [.beInt32 v, .string ip]⟩ : Packet).fieldBytes)).2).1 =
      some (v, ip) := by
    rw [hbytes, parseStatus, Parser.andThen, hnumber]
    dsimp only
    rw [List.drop_left' (bigEndianBytes_length 4 _), Parser.andThen, parseString_string hip]
    rfl
  rw [meets, if_pos ⟨rfl, rfl⟩, hparse, Option.elim_some]
  rcases hv with rfl | rfl
  · rfl
  · rfl

end PeerConnectionClient

/-- A connection that waits for its login is not told of others, unless nothing reaches it any more. -/
def Gate.undisturbed : Gate where
  allows hasSentDC link state pkt := hasSentDC || !link || pkt.type != 0x01 || state != 2
  working hasSentDC link pkt := by simp
  beside _ _ := true

theorem Gate.undisturbed_iff {β : Type} {c : ClientHandle β} {pkt : Packet} :
    Gate.undisturbed.passes c pkt ↔
      ((c.hasSentDC = true ∨ c.link = false) ∨ pkt.type ≠ 0x01) ∨ c.protocol.state ≠ 2 := by
  simp only [Gate.passes, Gate.undisturbed, Bool.or_eq_true, Bool.not_eq_true', bne_iff_ne]

namespace ClientHandle

open PeerConnectionClient

/-- The connection is in the last state, and `SendLoginSuccess` was called for it. -/
def LoggedIn {β : Type} (c : ClientHandle β) : Prop :=
  c.protocol.state = 3 ∧ ∃ state, .loginSuccess state ∈ c.log

theorem LoggedIn.of_log {c c' : ClientHandle Fifo} (h : c.LoggedIn)
    (hstate : c'.protocol.state = c.protocol.state) (hlog : ∀ entry ∈ c.log, entry ∈ c'.log) :
    c'.LoggedIn := by
  obtain ⟨hthree, state, hmem⟩ := h
  exact ⟨hstate.trans hthree, state, hlog _ hmem⟩

theorem LoggedIn.record {c : ClientHandle Fifo} (h : c.LoggedIn) (entry : Entry) :
    (c.record entry).LoggedIn := h.of_log rfl fun _ hmem => List.mem_append_left _ hmem

theorem LoggedIn.queue {c : ClientHandle Fifo} (h : c.LoggedIn) (p : Packet) : (c.queue p).LoggedIn := by
  refine h.of_log (by rw [queue_protocol]) fun entry hmem => ?_
  rw [queue_log]
  split
  next => exact hmem
  next => exact List.mem_append_left _ hmem

theorem LoggedIn.disconnect {c : ClientHandle Fifo} (h : c.LoggedIn) (reason : Int32) :
    (c.disconnect reason).LoggedIn := by
  unfold ClientHandle.disconnect
  split
  next => exact h
  next =>
    split
    next => exact (h.queue _).of_log rfl fun _ hmem => hmem
    next =>
      split
      next => exact (h.queue _).of_log rfl fun _ hmem => hmem
      next => exact h

theorem Change.loggedIn {c c' : ClientHandle Fifo} (h : c.LoggedIn) (hc : Change c c') : c'.LoggedIn := by
  have hthree := h.1
  cases hc with
  | quiet hsame =>
    refine h.of_log hsame.protocolState fun entry hmem => ?_
    rw [hsame.log]
    exact hmem
  | handled packetType bytes _ => exact h.record _
  | status state _ hone _ => exact absurd (hthree.symm.trans hone) (by decide)
  | pong timestamp _ => exact h.queue _
  | lost _ _ _ hnot => exact absurd hthree hnot
  | disconnect reason => exact h.disconnect reason
  | flush => exact h
  | working _ => exact h
  | keepAlive id now _ =>
    have hping : ({ c with pingID := id, pingStartTime := now } : ClientHandle Fifo).LoggedIn := h
    unfold keepAliveSent
    split
    next => exact hping.record _
    next => exact (hping.record _).queue _

theorem LoggedIn.admitted {β : Type} (c : ClientHandle β) (name : AString) :
    (((c.setUsername name).loginSucceeded).setState .csAuthenticated).LoggedIn := by
  refine ⟨rfl, c.protocol.state, ?_⟩
  change Entry.loginSuccess c.protocol.state ∈
    (((c.setUsername name).record (.loginSuccess c.protocol.state)).queue ⟨0x01, []⟩).log
  have hmem : Entry.loginSuccess c.protocol.state ∈ c.log ++ [.loginSuccess c.protocol.state] := by simp
  rw [queue_log]
  split
  next => exact hmem
  next => exact List.mem_append_left _ hmem

variable [Platform]

/-- These packets have been sent, and do not take the client to the last state. As long as more can
follow, they take it to this state. -/
structure Told (told : List (UInt32 × AString)) (state : UInt32) (c : ClientHandle Fifo) : Prop where
  sent : c.sent <+: stream told
  sizes : ∀ p ∈ told, (rawPacket p).body.length < 2 ^ 32
  early : told.foldl meets 1 ≠ 3
  linked : c.link = true → c.sent ++ c.outgoingData = stream told
  current : c.hasSentDC = false → c.link = true → told.foldl meets 1 = state

variable {told : List (UInt32 × AString)} {state : UInt32} {c c' : ClientHandle Fifo}

theorem Told.of_same (h : Told told state c) (hsent : c'.sent = c.sent)
    (hout : c'.outgoingData = c.outgoingData) (hdc : c'.hasSentDC = false → c.hasSentDC = false)
    (hlink : c'.link = true → c.link = true) : Told told state c' where
  sent := by rw [hsent]; exact h.sent
  sizes := h.sizes
  early := h.early
  linked hl := by rw [hsent, hout]; exact h.linked (hlink hl)
  current hno hl := h.current (hdc hno) (hlink hl)

theorem Told.current_ne (h : Told told state c) (hdc : c.hasSentDC = false) (hlink : c.link = true) :
    state = 1 ∨ state = 2 := by
  rw [← h.current hdc hlink]
  exact early_range h.early

/-- A packet is sent behind the others, if it can still reach the client. -/
theorem Told.queue (h : Told told state c) {p : Packet} {next : UInt32} (hbody : p.body.length ≤ 65536)
    (hmeets : c.hasSentDC = false → c.link = true → meets state (p.type, p.fieldBytes) = next ∧ next ≠ 3) :
    ∃ more, Told (told ++ more) next (c.queue p) := by
  have hsent : (c.queue p).sent = c.sent := by rw [queue_eq]
  have hlinks : (c.queue p).link = c.link := by rw [queue_eq]
  have hout := queue_outgoing p c
  have hdc' := queue_hasSentDC p c
  rcases hopen : c.hasSentDC || !c.link with _ | _
  · simp only [Bool.or_eq_false_iff, Bool.not_eq_false'] at hopen
    obtain ⟨hdc, hlink⟩ := hopen
    obtain ⟨hnext, hthree⟩ := hmeets hdc hlink
    have hraw : (rawPacket (p.type, p.fieldBytes)).body = p.body := rawPacket_body _
    have hmore : stream (told ++ [(p.type, p.fieldBytes)]) = c.sent ++ (c.outgoingData ++ frame p.body) := by
      rw [stream_append, ← List.append_assoc, h.linked hlink, stream_cons, hraw]
      simp [stream]
    have hfold : (told ++ [(p.type, p.fieldBytes)]).foldl meets 1 = next := by
      rw [List.foldl_append, h.current hdc hlink]
      exact hnext
    rw [hdc, if_neg (by decide)] at hout
    refine ⟨[(p.type, p.fieldBytes)], ?_, fun q hq => ?_, ?_, fun _ => ?_, fun _ _ => hfold⟩
    · rw [hsent, hmore]
      exact List.prefix_append _ _
    · rcases List.mem_append.mp hq with hold | hnew
      · exact h.sizes q hold
      · rw [List.mem_singleton.mp hnew, hraw]
        omega
    · rw [hfold]
      exact hthree
    · rw [hsent, hout, hmore]
  · refine ⟨[], ?_⟩
    rw [List.append_nil]
    rw [Bool.or_eq_true, Bool.not_eq_true'] at hopen
    refine ⟨by rw [hsent]; exact h.sent, h.sizes, h.early, fun hlink => ?_, fun hdc hlink => ?_⟩
    · rw [hlinks] at hlink
      rcases hopen with hdc | hnone
      · rw [hdc, if_pos rfl] at hout
        rw [hsent, hout]
        exact h.linked hlink
      · rw [hlink] at hnone
        cases hnone
    · rw [hdc'] at hdc
      rw [hlinks] at hlink
      rcases hopen with hsentDC | hnone
      · rw [hdc] at hsentDC
        cases hsentDC
      · rw [hlink] at hnone
        cases hnone

/-- More was sent behind what had been, and no client is signed in by it. -/
def Grown (told : List (UInt32 × AString)) (c c' : ClientHandle Fifo) : Prop :=
  c.sent <+: c'.sent ∧ ∃ more, Told (told ++ more) c'.protocol.state c'

theorem Told.grown (h : Told told c'.protocol.state c') (hsent : c'.sent = c.sent) : Grown told c c' := by
  refine ⟨by simp [hsent], [], ?_⟩
  rw [List.append_nil]
  exact h

theorem Told.grown_queue (h : Told told c.protocol.state c) {p : Packet} (hbody : p.body.length ≤ 65536)
    (hmeets : c.hasSentDC = false → c.link = true →
      meets c.protocol.state (p.type, p.fieldBytes) = c.protocol.state) : Grown told c (c.queue p) := by
  refine ⟨by simp [queue_sent], ?_⟩
  rw [queue_protocol]
  refine h.queue hbody fun hdc hlink => ⟨hmeets hdc hlink, fun hthree => ?_⟩
  rw [hthree] at h
  rcases h.current_ne hdc hlink with h1 | h2
  · exact absurd h1 (by decide)
  · exact absurd h2 (by decide)

/-- A kick reaches a client that waits for its login as a disconnect, and none that has just connected. -/
theorem Told.disconnect (h : Told told c.protocol.state c) (reason : Int32) :
    Grown told c (c.disconnect reason) := by
  have hle := body_length_le ⟨0x00, [.beInt32 reason]⟩
  simp only [List.map_cons, List.map_nil, List.sum_cons, List.sum_nil, Field.bound] at hle
  have hafter : ∀ {c₁ : ClientHandle Fifo}, Grown told c c₁ → Grown told c { c₁ with hasSentDC := true } := by
    rintro c₁ ⟨hsent, more, hmore⟩
    refine ⟨hsent, more, hmore.of_same rfl rfl (fun hdc => ?_) id⟩
    have hdc : true = false := hdc
    cases hdc
  have hsame : Grown told c c := h.grown rfl
  unfold ClientHandle.disconnect
  split
  next => exact hsame
  next hnot =>
    split
    next htwo =>
      refine hafter (h.grown_queue (by omega) fun _ _ => ?_)
      rw [htwo]
      rfl
    next =>
      split
      next hthree =>
        have hno : c.link = false := by
          by_contra hlink
          rw [Bool.not_eq_false] at hlink
          rcases h.current_ne (Bool.eq_false_iff.mpr hnot) hlink with h1 | h2
          · exact absurd (h1.symm.trans hthree) (by decide)
          · exact absurd (h2.symm.trans hthree) (by decide)
        have hle' := body_length_le ⟨0x40, [.beUInt32 reason.toUInt32]⟩
        simp only [List.map_cons, List.map_nil, List.sum_cons, List.sum_nil, Field.bound] at hle'
        refine hafter (h.grown_queue (by omega) fun _ hlink => ?_)
        rw [hno] at hlink
        cases hlink
      next => exact hafter hsame

theorem Change.grown (hsound : c.Sound) (h : Told told c.protocol.state c) (hc : Change c c') :
    Grown told c c' := by
  cases hc with
  | quiet hsame =>
    refine Told.grown ?_ hsame.sent
    rw [hsame.protocolState]
    exact h.of_same hsame.sent hsame.outgoingData (fun hdc => by rw [← hsame.hasSentDC]; exact hdc)
      hsame.link
  | handled packetType bytes _ =>
    have hsame : Told told c.protocol.state (c.record (.handled c.protocol.state packetType bytes)) :=
      h.of_same rfl rfl id id
    exact hsame.grown rfl
  | status state _ hone hstate =>
    have hip := hsound.ip
    have hle := body_length_le ⟨0x00, [.beInt32 state.toInt32, .string c.ipString]⟩
    simp only [List.map_cons, List.map_nil, List.sum_cons, List.sum_nil, Field.bound] at hle
    have hsame : Told told 1 (c.setProtocolState state) := by
      rw [hone] at h
      exact h.of_same rfl rfl id id
    refine ⟨by rw [queue_sent]; exact List.prefix_rfl, ?_⟩
    rw [queue_protocol]
    refine hsame.queue (by omega) fun _ _ => ?_
    have hv : state.toInt32 = 1 ∨ state.toInt32 = 2 := by
      rcases hstate with rfl | rfl
      · exact Or.inl rfl
      · exact Or.inr rfl
    have hthree : state ≠ 3 := by
      rcases hstate with rfl | rfl <;> decide
    exact ⟨(meets_status hv (by omega)).trans (UInt32.toUInt32_toInt32 state), hthree⟩
  | pong timestamp hone =>
    have hle := body_length_le ⟨0x01, [.beInt64 timestamp]⟩
    simp only [List.map_cons, List.map_nil, List.sum_cons, List.sum_nil, Field.bound] at hle
    refine h.grown_queue (by omega) fun _ _ => meets_other ?_ fun _ => ?_
    · change (0x01 : UInt32) ≠ 0x00
      decide
    · rw [hone]
      decide
  | lost _ h1 h2 _ =>
    refine ⟨List.prefix_rfl, [], ?_⟩
    rw [List.append_nil]
    refine ⟨h.sent, h.sizes, h.early, h.linked, fun hdc hlink => ?_⟩
    rcases h.current_ne hdc hlink with hone | htwo
    · exact absurd hone h1
    · exact absurd htwo h2
  | disconnect reason => exact h.disconnect reason
  | flush =>
    have hlinked := h.linked
    have hsent : c.flush.sent = if c.link then c.sent ++ c.outgoingData else c.sent := rfl
    have hpart : c.flush.sent <+: stream told := by
      rw [hsent]
      split
      next hlink =>
        simp [hlinked hlink]
      next => exact h.sent
    refine ⟨?_, [], ?_⟩
    · rw [hsent]
      split
      next => exact List.prefix_append _ _
      next => exact List.prefix_rfl
    · rw [List.append_nil]
      refine ⟨hpart, h.sizes, h.early, fun hlink => ?_, h.current⟩
      have hlink : c.link = true := hlink
      rw [hsent, if_pos hlink, hlinked hlink]
      exact List.append_nil _
  | working _ =>
    have hsame : Told told c.protocol.state (c.setState .csWorking) := h.of_same rfl rfl id id
    exact hsame.grown rfl
  | keepAlive id now _ =>
    have hrecord : Told told c.protocol.state
        (({ c with pingID := id, pingStartTime := now } : ClientHandle Fifo).record
          (.keepAlive c.protocol.state)) := h.of_same rfl rfl (fun hdc => hdc) fun hlink => hlink
    unfold keepAliveSent
    split
    next => exact hrecord.grown rfl
    next hnot =>
      have hthree : c.protocol.state = 3 := not_not.mp hnot
      have hle := body_length_le ⟨0x00, [.varInt32 id]⟩
      simp only [List.map_cons, List.map_nil, List.sum_cons, List.sum_nil, Field.bound] at hle
      have hlast : meets 3 (0x00, (⟨0x00, [.varInt32 id]⟩ : Packet).fieldBytes) = 3 := meets_last _
      rw [← hthree] at hlast
      have hbody : (⟨0x00, [.varInt32 id]⟩ : Packet).body.length ≤ 65536 := by omega
      exact Told.grown_queue (c := ({ c with pingID := id, pingStartTime := now } :
        ClientHandle Fifo).record (.keepAlive c.protocol.state)) hrecord hbody fun _ _ => hlast

/-- What the server does to a connection: once logged in it stays so, and before that what is sent
signs no client in. -/
structure Advances (c c' : ClientHandle Fifo) : Prop where
  loggedIn : c.LoggedIn → c'.LoggedIn
  told : ∀ told, Told told c.protocol.state c → c'.LoggedIn ∨ Grown told c c'

theorem Advances.refl (c : ClientHandle Fifo) : Advances c c := ⟨id, fun _ h => Or.inr (h.grown rfl)⟩

theorem Advances.trans {c'' : ClientHandle Fifo} (h : Advances c c') (h' : Advances c' c'') :
    Advances c c'' := by
  refine ⟨fun hin => h'.loggedIn (h.loggedIn hin), fun told htold => ?_⟩
  rcases h.told told htold with hin | ⟨hsent, more, hmore⟩
  · exact Or.inl (h'.loggedIn hin)
  · rcases h'.told _ hmore with hin | ⟨hsent', more', hmore'⟩
    · exact Or.inl hin
    · rw [List.append_assoc] at hmore'
      exact Or.inr ⟨hsent.trans hsent', _, hmore'⟩

theorem Change.advances (hsound : c.Sound) (hc : Change c c') : Advances c c' :=
  ⟨hc.loggedIn, fun _ h => Or.inr (hc.grown hsound h)⟩

/-- The members that the client can see, or that say how far the connection has come, are the same,
but that the link may be gone. -/
theorem Advances.of_same (hsent : c'.sent = c.sent) (hout : c'.outgoingData = c.outgoingData)
    (hdc : c'.hasSentDC = c.hasSentDC) (hlink : c'.link = true → c.link = true)
    (hstate : c'.protocol.state = c.protocol.state) (hlog : c'.log = c.log) : Advances c c' := by
  refine ⟨fun hin => hin.of_log hstate fun entry hmem => by rw [hlog]; exact hmem, fun told h => ?_⟩
  refine Or.inr (Told.grown ?_ hsent)
  rw [hstate]
  exact h.of_same hsent hout (fun hno => by rw [← hdc]; exact hno) hlink

/-- A packet of others, that is no news for a client that waits for its login. -/
theorem Advances.queue {p : Packet} (hbody : p.body.length ≤ 65536) (htype : p.type ≠ 0x00)
    (hpass : Gate.undisturbed.passes c p) : Advances c (c.queue p) := by
  refine ⟨fun hin => hin.queue p, fun told h => Or.inr ?_⟩
  refine h.grown_queue hbody fun hdc hlink => meets_other htype fun hinfo htwo => ?_
  rcases Gate.undisturbed_iff.mp hpass with ((hsent | hnone) | hother) | hstate
  · rw [hdc] at hsent
    cases hsent
  · rw [hlink] at hnone
    cases hnone
  · exact hother hinfo
  · exact hstate htwo

theorem Advances.queueAll {packets : List Packet} (hbody : ∀ p ∈ packets, p.body.length ≤ 65536)
    (htype : ∀ p ∈ packets, p.type ≠ 0x00) (hpass : ∀ p ∈ packets, Gate.undisturbed.passes c p) :
    Advances c (c.queueAll packets) := by
  induction packets generalizing c with
  | nil => exact Advances.refl c
  | cons p packets ih =>
    have hp := List.mem_cons_self (a := p) (l := packets)
    have hrest : ∀ q ∈ packets, q ∈ p :: packets := fun q hq => List.mem_cons_of_mem p hq
    refine (Advances.queue (hbody p hp) (htype p hp) (hpass p hp)).trans ?_
    refine ih (fun q hq => hbody q (hrest q hq)) (fun q hq => htype q (hrest q hq)) fun q hq => ?_
    rw [Gate.passes_queue]
    exact hpass q (hrest q hq)

end ClientHandle

namespace Server

open ClientHandle

variable [Platform]

theorem store_advances {s : Server Fifo} {p : Nat} {c : ClientHandle Fifo} (h : Advances (s.heap p) c)
    (q : Nat) : Advances (s.heap q) ((s.store p c).heap q) := by
  rw [store_heap]
  split
  next hq =>
    rw [hq]
    exact h
  next => exact Advances.refl _

omit [Platform] in
theorem relayed_type {pkt : Packet}
    (h : (∃ id type, pkt = mediaPacket id type) ∨ (∃ id msg, pkt = mediaMsgPacket id msg)) :
    pkt.type = 0x11 ∨ pkt.type = 0x12 := by
  rcases h with ⟨id, type, rfl⟩ | ⟨id, msg, rfl⟩
  · exact Or.inl rfl
  · exact Or.inr rfl

/-- A broadcast that passes the gate. -/
theorem tellOver_advances {s : Server Fifo} (hs : s.Sound) {p : Nat} {l : List Nat}
    (hothers : ∀ q ∈ l, (s.heap q).uniqueID ≠ (s.heap p).uniqueID →
      Gate.undisturbed.passes (s.heap q) (s.heap p).userInfo)
    (hself : ∀ q ∈ l, (s.heap q).uniqueID ≠ (s.heap p).uniqueID →
      Gate.undisturbed.passes (s.heap p) (s.heap q).userInfo)
    (q : Nat) : Advances (s.heap q) ((s.tellOver p l).heap q) := by
  obtain ⟨told, htold, hmem⟩ := tellOver_queueAll p l s q
  rw [htold]
  have hinfo : ∀ pkt ∈ told, ∃ r, pkt = (s.heap r).userInfo := by
    intro pkt hpkt
    rcases hmem pkt hpkt with ⟨_, r, _, _, hr⟩ | ⟨_, _, _, hr⟩
    · exact ⟨r, hr⟩
    · exact ⟨p, hr⟩
  refine Advances.queueAll (fun pkt hpkt => ?_) (fun pkt hpkt => ?_) fun pkt hpkt => ?_
  · obtain ⟨r, rfl⟩ := hinfo pkt hpkt
    exact userInfo_length (hs.connections r)
  · obtain ⟨r, rfl⟩ := hinfo pkt hpkt
    change (0x01 : UInt32) ≠ 0x00
    decide
  · rcases hmem pkt hpkt with ⟨rfl, r, hr, hid, rfl⟩ | ⟨_, hq, hid, rfl⟩
    · exact hself r hr hid
    · exact hothers q hq hid

theorem Effect.advances {who : Nat → Prop} {s s' : Server Fifo} (hs : s.Sound)
    (he : Effect Gate.undisturbed who s s') {q : Nat} (hq : q < s.allocated) :
    Advances (s.heap q) (s'.heap q) := by
  cases he with
  | @small _ p _ _ hsmall =>
    cases hsmall with
    | change hc => exact store_advances (hc.advances (hs.connections p)) q
    | request _ _ _ _ _ =>
      have hsame : Advances (s.heap p) ((s.heap p).setState .csAuthenticating) :=
        Advances.of_same rfl rfl rfl id rfl rfl
      exact store_advances hsame q
    | @relayed r pkt _ hshape hbody hpass =>
      have htype : pkt.type ≠ 0x00 := by
        rcases relayed_type hshape with h | h
        · rw [h]
          decide
        · rw [h]
          decide
      exact store_advances (Advances.queue hbody htype hpass) q
  | @accepted ip _ _ =>
    rw [accept_heap, if_neg (Nat.ne_of_lt hq)]
    exact Advances.refl _
  | @destroyed p _ _ _ hgate =>
    have hclosed := closed_sound hs p
    have hother : ∀ r, (s.heap r).uniqueID ≠ (s.heap p).uniqueID → (s.closed p).heap r = s.heap r := by
      intro r hid
      rw [closed_heap, if_neg fun heq => hid (by rw [heq])]
    have hids : ∀ r, ((s.closed p).heap r).uniqueID = (s.heap r).uniqueID := by
      intro r
      rw [closed_heap]
      split
      next heq =>
        rw [heq]
        rfl
      next => rfl
    have hfirst : Advances (s.heap q) ((s.closed p).heap q) := by
      rw [closed_heap]
      split
      next heq =>
        rw [heq]
        exact Advances.of_same rfl rfl rfl nofun rfl rfl
      next => exact Advances.refl _
    refine hfirst.trans (tellOver_advances hclosed (fun r hr hid => ?_) (fun r hr hid => ?_) q)
    · rw [hids, hids] at hid
      rw [hother r hid]
      exact (hgate r hr hid).1
    · rw [hids, hids] at hid
      rw [hother r hid]
      exact (hgate r hr hid).2
  | removed _ _ => exact Advances.refl _
  | taken _ => exact Advances.refl _
  | @login p user _ hin hauth _ _ _ hgate =>
    obtain ⟨t, ht⟩ : ∃ t : Server Fifo, t = { s with inFlight := none } := ⟨_, rfl⟩
    have hheap : t.heap = s.heap := by rw [ht]
    have hsound : (t.admitted p user.username).Sound := by
      rw [ht]
      exact admitted_sound (answered_sound hs) p (accepted_length hs hin hauth)
    have hself : (t.admitted p user.username).heap p =
        (((s.heap p).setUsername user.username).loginSucceeded).setState .csAuthenticated := by
      rw [admitted, store_heap, if_pos rfl, hheap]
    have hself' : (s.admitted p user.username).heap p =
        (((s.heap p).setUsername user.username).loginSucceeded).setState .csAuthenticated := by
      rw [admitted, store_heap, if_pos rfl]
    have hother : ∀ r, r ≠ p → (t.admitted p user.username).heap r = s.heap r := by
      intro r hne
      rw [admitted, store_heap, if_neg hne, hheap]
    have hid₀ : ((t.admitted p user.username).heap p).uniqueID = (s.heap p).uniqueID := by
      rw [hself, ClientHandle.loginSucceeded, ClientHandle.queue_eq]
      rfl
    have hloggedIn := LoggedIn.admitted (s.heap p) user.username
    have hfirst : Advances (s.heap q) ((t.admitted p user.username).heap q) := by
      by_cases hqp : q = p
      · rw [hqp, hself]
        exact ⟨fun _ => hloggedIn, fun _ _ => Or.inl hloggedIn⟩
      · rw [hother q hqp]
        exact Advances.refl _
    have htold := tellOver_advances hsound (p := p) (l := s.clients) (fun r hr hid => ?_)
      (fun r hr hid => Gate.undisturbed_iff.mpr (Or.inr ?_)) q
    · rw [← ht]
      refine hfirst.trans (htold.trans ?_)
      have hclients : (t.admitted p user.username).clients = s.clients := by
        rw [ht]
        rfl
      rw [modify_heap, tellAll, hclients]
      split
      next heq =>
        rw [heq]
        exact Advances.of_same rfl rfl rfl id rfl rfl
      next => exact Advances.refl _
    · have hne : r ≠ p := fun heq => hid (by rw [heq])
      rw [hid₀, hother r hne] at hid
      have hpass := (hgate r hr hid).1
      rw [hself'] at hpass
      rw [hother r hne, hself]
      exact hpass
    · rw [hself]
      change (3 : UInt32) ≠ 2
      decide
  | answered => exact Advances.refl _
  | clock elapsed => exact Advances.refl _

end Server

end P2PChat

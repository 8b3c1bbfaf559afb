import P2PChat.ClientPackets
import P2PChat.PassiveSteps
import P2PChat.Reassembly

namespace P2PChat

open ByteQueue Relation

/-- The packet that an entry of the log tells of, by its type and its other bytes. -/
def Entry.packet? : Entry → Option (UInt32 × AString)
  | .queued _ p => some (p.type, p.fieldBytes)
  | _ => none

/-- A packet that fits its buffers, of a type that a client in the last state has. -/
structure Readable (p : UInt32 × AString) : Prop where
  known : PeerConnectionClient.knows 3 p.1 = true
  fits : (rawPacket p).body.length ≤ 65536

namespace ClientHandle

/-- The packets that have reached `m_OutgoingData`. -/
def told {β : Type} (c : ClientHandle β) : List (UInt32 × AString) := c.log.filterMap Entry.packet?

/-- Behind what the client was told it is told these packets, as whole frames while there is a link; a
disconnect is the last of all. -/
structure Utters (more : List (UInt32 × AString)) (c c' : ClientHandle Fifo) : Prop where
  told : c'.told = c.told ++ more
  readable : ∀ p ∈ more, Readable p
  sent : c.sent <+: c'.sent
  link : c'.link = true → c.link = true
  bytes : c'.link = true → c'.sent ++ c'.outgoingData = c.sent ++ c.outgoingData ++ stream more
  hasSentDC : c'.hasSentDC = false → c.hasSentDC = false
  parting : c'.hasSentDC = false → ∀ p ∈ more, p.1 ≠ 0x40

def Speaks (c c' : ClientHandle Fifo) : Prop := ∃ more, Utters more c c'

section Packets

variable {c c' c'' : ClientHandle Fifo} {more more' : List (UInt32 × AString)}

theorem Utters.of_same (htold : c'.told = c.told) (hsent : c'.sent = c.sent)
    (hout : c'.outgoingData = c.outgoingData) (hlink : c'.link = true → c.link = true)
    (hdc : c'.hasSentDC = false → c.hasSentDC = false) : Utters [] c c' where
  told := by rw [htold, List.append_nil]
  readable := nofun
  sent := by simp [hsent]
  link := hlink
  bytes _ := by rw [hsent, hout]; exact (List.append_nil _).symm
  hasSentDC := hdc
  parting _ := nofun

theorem Utters.refl (c : ClientHandle Fifo) : Utters [] c c := Utters.of_same rfl rfl rfl id id

theorem Utters.trans (h : Utters more c c') (h' : Utters more' c' c'') :
    Utters (more ++ more') c c'' where
  told := by rw [h'.told, h.told, List.append_assoc]
  readable p hp := (List.mem_append.mp hp).elim (h.readable p) (h'.readable p)
  sent := h.sent.trans h'.sent
  link hlink := h.link (h'.link hlink)
  bytes hlink := by
    rw [h'.bytes hlink, h.bytes (h'.link hlink), stream_append, List.append_assoc _ (stream more)]
  hasSentDC hdc := h.hasSentDC (h'.hasSentDC hdc)
  parting hdc p hp :=
    (List.mem_append.mp hp).elim (h.parting (h'.hasSentDC hdc) p) (h'.parting hdc p)

theorem queue_told (p : Packet) (c : ClientHandle Fifo) :
    (c.queue p).told = c.told ++ if c.hasSentDC then [] else [(p.type, p.fieldBytes)] := by
  rw [told, queue_log]
  split
  next => exact (List.append_nil _).symm
  next => exact List.filterMap_append

/-- A packet is told as one frame, or after a disconnect not at all. -/
theorem queue_bytes (p : Packet) (c : ClientHandle Fifo) :
    (c.queue p).sent ++ (c.queue p).outgoingData = c.sent ++ c.outgoingData ++
      stream (if c.hasSentDC then [] else [(p.type, p.fieldBytes)]) := by
  rw [queue_sent, queue_outgoing]
  split
  next => exact (List.append_nil _).symm
  next =>
    have hraw : (rawPacket (p.type, p.fieldBytes)).body = p.body := rawPacket_body _
    simp [stream, hraw]

theorem queue_utters {p : Packet} (hbody : p.body.length ≤ 65536)
    (hknown : PeerConnectionClient.knows 3 p.type = true) (htype : p.type ≠ 0x40)
    (c : ClientHandle Fifo) :
    Utters (if c.hasSentDC then [] else [(p.type, p.fieldBytes)]) c (c.queue p) where
  told := queue_told p c
  readable q hq := by
    have hraw : (rawPacket (p.type, p.fieldBytes)).body = p.body := rawPacket_body _
    split at hq
    next => cases hq
    next =>
      cases List.mem_singleton.mp hq
      exact ⟨hknown, by rw [hraw]; exact hbody⟩
  sent := by simp [queue_sent]
  link hlink := by
    rw [queue_eq] at hlink
    exact hlink
  bytes _ := queue_bytes p c
  hasSentDC hdc := by
    rw [queue_hasSentDC] at hdc
    exact hdc
  parting _ q hq := by
    split at hq
    next => cases hq
    next =>
      cases List.mem_singleton.mp hq
      exact htype

theorem speaks_refl (c : ClientHandle Fifo) : Speaks c c := ⟨[], Utters.refl c⟩

theorem Speaks.trans (h : Speaks c c') (h' : Speaks c' c'') : Speaks c c'' := by
  obtain ⟨more, hmore⟩ := h
  obtain ⟨more', hmore'⟩ := h'
  exact ⟨more ++ more', hmore.trans hmore'⟩

theorem queue_speaks {p : Packet} (hbody : p.body.length ≤ 65536)
    (hknown : PeerConnectionClient.knows 3 p.type = true) (htype : p.type ≠ 0x40)
    (c : ClientHandle Fifo) : Speaks c (c.queue p) := ⟨_, queue_utters hbody hknown htype c⟩

/-- After a disconnect nothing more is told. -/
theorem queue_parts {p : Packet} (hbody : p.body.length ≤ 65536)
    (hknown : PeerConnectionClient.knows 3 p.type = true) (hdc : c.hasSentDC = false) :
    Speaks c { c.queue p with hasSentDC := true } := by
  have htold := queue_told p c
  have hbytes := queue_bytes p c
  have hraw : (rawPacket (p.type, p.fieldBytes)).body = p.body := rawPacket_body _
  rw [hdc] at htold hbytes
  refine ⟨[(p.type, p.fieldBytes)], htold, fun q hq => ?_, ?_, fun hlink => ?_, fun _ => hbytes, nofun, nofun⟩
  · cases List.mem_singleton.mp hq
    exact ⟨hknown, by rw [hraw]; exact hbody⟩
  · simp [queue_sent]
  · rw [queue_eq] at hlink
    exact hlink

theorem disconnect_speaks (reason : Int32) (c : ClientHandle Fifo) : Speaks c (c.disconnect reason) := by
  have hle := body_length_le ⟨0x00, [.beInt32 reason]⟩
  have hle' := body_length_le ⟨0x40, [.beUInt32 reason.toUInt32]⟩
  simp only [List.map_cons, List.map_nil, List.sum_cons, List.sum_nil, Field.bound] at hle hle'
  unfold disconnect
  split
  next => exact speaks_refl c
  next hdc =>
    rw [Bool.not_eq_true] at hdc
    split
    next => exact queue_parts (by omega) rfl hdc
    next =>
      split
      next => exact queue_parts (by omega) rfl hdc
      next => exact ⟨[], Utters.of_same rfl rfl rfl id fun hsent => by cases hsent⟩

theorem record_speaks {entry : Entry} (h : entry.packet? = none) (c : ClientHandle Fifo) :
    Speaks c (c.record entry) := by
  refine ⟨[], Utters.of_same ?_ rfl rfl id id⟩
  change (c.log ++ [entry]).filterMap Entry.packet? = _
  rw [List.filterMap_append, List.filterMap_cons_none h, List.filterMap_nil, List.append_nil]
  rfl

theorem keepAliveSent_speaks (id : UInt32) (c : ClientHandle Fifo) : Speaks c (c.keepAliveSent id) := by
  have hle := body_length_le ⟨0x00, [.varInt32 id]⟩
  simp only [List.map_cons, List.map_nil, List.sum_cons, List.sum_nil, Field.bound] at hle
  have hrecord : Speaks c (c.record (.keepAlive c.protocol.state)) := record_speaks rfl c
  unfold keepAliveSent
  split
  next => exact hrecord
  next => exact hrecord.trans (queue_speaks (by omega) rfl (by simp) _)

theorem flush_speaks (c : ClientHandle Fifo) : Speaks c c.flush := by
  have hsent : c.flush.sent = if c.link then c.sent ++ c.outgoingData else c.sent := rfl
  refine ⟨[], (List.append_nil _).symm, nofun, ?_, id, fun hlink => ?_, id, fun _ => nofun⟩
  · rw [hsent]
    split
    next => exact List.prefix_append _ _
    next => exact List.prefix_rfl
  · have hlink : c.link = true := hlink
    rw [hsent, if_pos hlink]
    rfl

theorem loginSucceeded_speaks (c : ClientHandle Fifo) : Speaks c c.loginSucceeded := by
  have hle := body_length_le ⟨0x01, []⟩
  simp only [List.map_nil, List.sum_nil] at hle
  have hrecord : Speaks c (c.record (.loginSuccess c.protocol.state)) := record_speaks rfl c
  have hqueue := hrecord.trans (queue_speaks (p := ⟨0x01, []⟩) (by omega) (by decide) (by decide) _)
  exact hqueue.trans ⟨[], Utters.of_same rfl rfl rfl id id⟩

theorem speaks_passive : Passive Speaks where
  refl := speaks_refl
  trans := Speaks.trans
  userInfo _ _ habout := queue_speaks (userInfo_length habout) rfl (by simp [ClientHandle.userInfo]) _
  disconnect := disconnect_speaks
  loginSucceeded := loginSucceeded_speaks
  same _ _ _ _ _ hlink := ⟨[], Utters.of_same rfl rfl rfl hlink id⟩

theorem Change.speaks (hc : c.Sound) (h : Change c c') : Speaks c c' := by
  cases h with
  | quiet h =>
    have htold : c'.told = c.told := congrArg (List.filterMap Entry.packet?) h.log
    exact ⟨[], Utters.of_same htold h.sent h.outgoingData h.link fun hdc => by rw [← h.hasSentDC]; exact hdc⟩
  | handled packetType bytes _ => exact record_speaks rfl c
  | status state _ _ _ =>
    have hip := hc.ip
    have hle := body_length_le ⟨0x00, [.beInt32 state.toInt32, .string c.ipString]⟩
    simp only [List.map_cons, List.map_nil, List.sum_cons, List.sum_nil, Field.bound] at hle
    have hset : Speaks c (c.setProtocolState state) := ⟨[], Utters.of_same rfl rfl rfl id id⟩
    exact hset.trans (queue_speaks (by omega) rfl (by simp) _)
  | pong timestamp _ =>
    have hle := body_length_le ⟨0x01, [.beInt64 timestamp]⟩
    simp only [List.map_cons, List.map_nil, List.sum_cons, List.sum_nil, Field.bound] at hle
    exact queue_speaks (by omega) rfl (by simp) c
  | lost _ _ _ _ => exact ⟨[], Utters.of_same rfl rfl rfl id id⟩
  | disconnect reason => exact disconnect_speaks reason c
  | flush => exact flush_speaks c
  | working _ => exact ⟨[], Utters.of_same rfl rfl rfl id id⟩
  | keepAlive id now _ =>
    have hset : Speaks c { c with pingID := id, pingStartTime := now } :=
      ⟨[], Utters.of_same rfl rfl rfl (fun hlink => hlink) fun hdc => hdc⟩
    exact hset.trans (keepAliveSent_speaks id _)

end Packets

end ClientHandle

namespace Server

open ClientHandle (Speaks)

variable [Platform] {s s' : Server Fifo} {p q : Nat}

theorem Small.speaks {G : Gate} (hs : s.Sound) (h : Small G p s s') : Speaks (s.heap q) (s'.heap q) := by
  cases h with
  | change hc =>
    rw [store_heap]
    split
    next heq =>
      rw [heq]
      exact hc.speaks (hs.connections p)
    next => exact ClientHandle.speaks_refl _
  | request _ _ _ _ _ =>
    exact modify_passive ClientHandle.speaks_passive p fun c =>
      ClientHandle.speaks_passive.same c _ _ _ _ id
  | @relayed r pkt _ hshape hbody _ =>
    have hknown : PeerConnectionClient.knows 3 pkt.type = true ∧ pkt.type ≠ 0x40 := by
      rcases hshape with ⟨id, type, rfl⟩ | ⟨id, msg, rfl⟩
      · exact ⟨rfl, by simp [mediaPacket]⟩
      · exact ⟨rfl, by simp [mediaMsgPacket]⟩
    exact modify_passive ClientHandle.speaks_passive r
      (ClientHandle.queue_speaks hbody hknown.1 hknown.2)

theorem speaks_of_small {G : Gate} (hs : s.Sound) (h : ReflTransGen (Small G p) s s') :
    Speaks (s.heap q) (s'.heap q) := by
  induction h with
  | refl => exact ClientHandle.speaks_refl _
  | tail hbefore hlast ih => exact ih.trans (hlast.speaks (sound_of_small hs hbefore))

/-- Whatever happens, a client is told whole packets that it can read. -/
theorem step_speaks (hs : s.Sound) {e : Event} (hq : q < s.allocated) (h : s.step e = .ok s') :
    Speaks (s.heap q) (s'.heap q) := by
  cases e with
  | receivedData p data =>
    cases h
    exact modify_passive ClientHandle.speaks_passive p fun _ =>
      ⟨[], ClientHandle.Utters.of_same rfl rfl rfl id id⟩
  | tickClient p =>
    have h : s.tickClient p = .ok s' := h
    unfold tickClient at h
    split at h
    next =>
      cases h
      exact ClientHandle.speaks_refl _
    next hnot =>
      have hhandled := serverTick_handled hs (live_of_not (hs.connections p) hnot) (G := Gate.open)
        fun _ _ => rfl
      rw [h] at hhandled
      exact speaks_of_small hs hhandled.2
  | connectionAccepted ip => exact step_passive ClientHandle.speaks_passive hs hq (by simp) (by simp) h
  | remoteClosed p => exact step_passive ClientHandle.speaks_passive hs hq (by simp) (by simp) h
  | released p => exact step_passive ClientHandle.speaks_passive hs hq (by simp) (by simp) h
  | authenticatorTake => exact step_passive ClientHandle.speaks_passive hs hq (by simp) (by simp) h
  | authenticatorAnswer => exact step_passive ClientHandle.speaks_passive hs hq (by simp) (by simp) h
  | clock elapsed => exact step_passive ClientHandle.speaks_passive hs hq (by simp) (by simp) h

end Server

end P2PChat

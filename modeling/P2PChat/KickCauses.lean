import P2PChat.EndpointInvariants
import P2PChat.RelayRouting
import P2PChat.ServerRun

namespace P2PChat

open ByteQueue

/-- The packet tells a client that it is disconnected for this reason. -/
def Packet.tells (reason : Int32) (p : Packet) : Bool :=
  p == ⟨0x00, [.beInt32 reason]⟩ || p == ⟨0x40, [.beUInt32 reason.toUInt32]⟩

def Entry.tells (reason : Int32) : Entry → Bool
  | .queued _ p => p.tells reason
  | _ => false

theorem tells_notice {reason reason' : Int32} (h : reason ≠ reason') :
    (⟨0x00, [.beInt32 reason']⟩ : Packet).tells reason = false ∧
      (⟨0x40, [.beUInt32 reason'.toUInt32]⟩ : Packet).tells reason = false := by
  have hbits : reason'.toUInt32 ≠ reason.toUInt32 := by
    intro heq
    have hback := congrArg UInt32.toInt32 heq
    rw [Int32.toInt32_toUInt32, Int32.toInt32_toUInt32] at hback
    exact h hback.symm
  have hne : reason' ≠ reason := fun heq => h heq.symm
  simp [Packet.tells, hbits, hne]

namespace ClientHandle

variable {β : Type} [ByteQueue β] {reason : Int32} {c c' c'' : ClientHandle β}

/-- Nothing that is new tells the client that it is disconnected for this reason; the count of ticks stays, and a
disconnect is not taken back. -/
structure Spares (reason : Int32) (c c' : ClientHandle β) : Prop where
  log : ∃ more, c'.log = c.log ++ more ∧ ∀ entry ∈ more, entry.tells reason ≠ true
  ticks : c'.ticksSinceLastPacket = c.ticksSinceLastPacket
  hasSentDC : c.hasSentDC = true → c'.hasSentDC = true
  uniqueID : c'.uniqueID = c.uniqueID

omit [ByteQueue β] in
theorem Spares.trans (h : Spares reason c c') (h' : Spares reason c' c'') : Spares reason c c'' where
  log := by
    obtain ⟨more, hlog, hmore⟩ := h.log
    obtain ⟨more', hlog', hmore'⟩ := h'.log
    refine ⟨more ++ more', ?_, fun entry hmem => ?_⟩
    · rw [hlog', hlog, List.append_assoc]
    · exact (List.mem_append.mp hmem).elim (hmore entry) (hmore' entry)
  ticks := h'.ticks.trans h.ticks
  hasSentDC hsent := h'.hasSentDC (h.hasSentDC hsent)
  uniqueID := h'.uniqueID.trans h.uniqueID

omit [ByteQueue β] in
theorem Spares.of_same (hlog : c'.log = c.log) (hticks : c'.ticksSinceLastPacket = c.ticksSinceLastPacket)
    (hsent : c'.hasSentDC = c.hasSentDC) (huniqueID : c'.uniqueID = c.uniqueID) : Spares reason c c' where
  log := ⟨[], hlog.trans (List.append_nil _).symm, fun _ hmem => absurd hmem List.not_mem_nil⟩
  ticks := hticks
  hasSentDC h := hsent.trans h
  uniqueID := huniqueID

omit [ByteQueue β] in
theorem Spares.refl (reason : Int32) (c : ClientHandle β) : Spares reason c c := .of_same rfl rfl rfl rfl

omit [ByteQueue β] in
theorem record_spares {entry : Entry} (h : entry.tells reason = false) (c : ClientHandle β) :
    Spares reason c (c.record entry) where
  log := by
    refine ⟨[entry], rfl, fun entry' hmem => ?_⟩
    rw [List.mem_singleton.mp hmem, h]
    exact Bool.false_ne_true
  ticks := rfl
  hasSentDC := id
  uniqueID := rfl

omit [ByteQueue β] in
/-- What tells of the reason, and is not new. -/
theorem Spares.mem_log (h : Spares reason c c') {entry : Entry} (hmem : entry ∈ c'.log)
    (htells : entry.tells reason = true) : entry ∈ c.log := by
  obtain ⟨more, hlog, hmore⟩ := h.log
  rw [hlog] at hmem
  exact (List.mem_append.mp hmem).resolve_right fun hnew => hmore entry hnew htells

theorem packet_spares {p : Packet} (h : p.tells reason = false) (c : ClientHandle β) :
    Ends (Spares reason c) (c.packet p) := by
  intro c' hok
  obtain ⟨out, _, hrest⟩ := bind_ok_iff.mp hok
  cases hrest
  have hentry : (Entry.queued c.protocol.state p).tells reason = false := h
  have hrecord := record_spares hentry c
  by_cases hsent : c.hasSentDC = true
  · refine .of_same ?_ ?_ ?_ ?_ <;> simp [sendData, hsent]
  · refine hrecord.trans (.of_same ?_ ?_ ?_ ?_) <;> simp [sendData, record, hsent]

/-- A disconnect tells of its own reason only, and in other states of the protocol of none. -/
theorem sendDisconnect_spares {reason' : Int32} (c : ClientHandle β)
    (h : c.protocol.state = 2 ∨ c.protocol.state = 3 → reason ≠ reason') :
    Ends (Spares reason c) (c.sendDisconnect reason') := by
  unfold sendDisconnect
  split
  next => exact Ends.ok (.refl reason c)
  next =>
    have hsend : Ends (Spares reason c) (c.protocolSendDisconnect reason') := by
      unfold protocolSendDisconnect
      split
      next h2 => exact packet_spares (tells_notice (h (.inl h2))).1 c
      next =>
        split
        next h3 => exact packet_spares (tells_notice (h (.inr h3))).2 c
        next => exact Ends.ok (.refl reason c)
    exact Ends.bind hsend fun c' hc' => Ends.ok ⟨hc'.log, hc'.ticks, fun _ => rfl, hc'.uniqueID⟩

theorem sendLoginSuccess_spares (c : ClientHandle β) : Ends (Spares reason c) c.sendLoginSuccess := by
  have hrecord : Spares reason c (c.record (.loginSuccess c.protocol.state)) := record_spares rfl c
  have hplain : (⟨0x01, []⟩ : Packet).tells reason = false := by simp [Packet.tells]
  refine Ends.bind (packet_spares hplain _) fun c' hc' => Ends.ok ?_
  exact (hrecord.trans hc').trans (.of_same rfl rfl rfl rfl)

theorem sendKeepAlive_spares (pingID : UInt32) (c : ClientHandle β) :
    Ends (Spares reason c) (c.sendKeepAlive pingID) := by
  have hrecord : Spares reason c (c.record (.keepAlive c.protocol.state)) := record_spares rfl c
  have hplain : (⟨0x00, [.varInt32 pingID]⟩ : Packet).tells reason = false := by simp [Packet.tells]
  unfold sendKeepAlive
  split
  next => exact Ends.ok hrecord
  next => exact (packet_spares hplain _).mono fun c' hc' => hrecord.trans hc'

theorem broadcastUserInfo_spares (about c : ClientHandle β) :
    Ends (Spares reason c) (broadcastUserInfo about c) :=
  packet_spares (by simp [Packet.tells, userInfo]) c

theorem forwardMedia_spares (from_id type : UInt32) (c : ClientHandle β) :
    Ends (Spares reason c) (forwardMedia from_id type c) :=
  packet_spares (by simp [Packet.tells, mediaPacket]) c

theorem forwardMediaMsg_spares (from_id : UInt32) (msg : AString) (c : ClientHandle β) :
    Ends (Spares reason c) (forwardMediaMsg from_id msg c) :=
  packet_spares (by simp [Packet.tells, mediaMsgPacket]) c

omit [ByteQueue β] in
theorem startWorking_spares (c : ClientHandle β) : Spares reason c c.startWorking := by
  unfold startWorking
  split
  next => exact .of_same rfl rfl rfl rfl
  next => exact .refl reason c

theorem tickPing_spares (now : Int) (c : ClientHandle β) : Ends (Spares reason c) (c.tickPing now) := by
  unfold tickPing
  split
  next =>
    have hnew : Spares reason c { c with pingID := c.pingID + 1, pingStartTime := now } :=
      .of_same rfl rfl rfl rfl
    exact (sendKeepAlive_spares _ _).mono fun c' hc' => hnew.trans hc'
  next => exact Ends.ok (.refl reason c)

end ClientHandle

namespace Server

open ClientHandle (Spares)

variable {β : Type} [ByteQueue β] {reason : Int32} {s s' s'' : Server β} {p q : Nat}

/-- The connection at `p` is not told of this reason. -/
def SparesAt (reason : Int32) (p : Nat) (s s' : Server β) : Prop := Spares reason (s.heap p) (s'.heap p)

omit [ByteQueue β] in
theorem SparesAt.refl (reason : Int32) (p : Nat) (s : Server β) : SparesAt reason p s s := Spares.refl reason _

omit [ByteQueue β] in
theorem SparesAt.trans (h : SparesAt reason p s s') (h' : SparesAt reason p s' s'') : SparesAt reason p s s'' :=
  Spares.trans h h'

omit [ByteQueue β] in
/-- One call after another. -/
theorem ends_then {x : Except Halt (Server β)} {k : Server β → Except Halt (Server β)}
    (h : Ends (SparesAt reason p s) x) (hk : ∀ s', Ends (SparesAt reason p s') (k s')) :
    Ends (SparesAt reason p s) (x >>= k) :=
  Ends.bind h fun s' hs' => (hk s').mono fun _ hs'' => SparesAt.trans hs' hs''

omit [ByteQueue β] in
theorem act_spares {f : ClientHandle β → Except Halt (ClientHandle β)}
    (h : p = q → Ends (Spares reason (s.heap q)) (f (s.heap q))) :
    Ends (SparesAt reason p s) (s.act q f) := by
  intro s' hok
  obtain ⟨c, hc, hstore⟩ := bind_ok_iff.mp hok
  cases hstore
  by_cases heq : p = q
  · have hself : (s.store q c).heap p = c := if_pos heq
    rw [SparesAt, hself, heq]
    exact h heq c hc
  · have hother : (s.store q c).heap p = s.heap p := if_neg heq
    rw [SparesAt, hother]
    exact Spares.refl reason _

omit [ByteQueue β] in
theorem modify_spares {g : ClientHandle β → ClientHandle β} (h : ∀ c, Spares reason c (g c)) :
    SparesAt reason p s (s.modify q g) := by
  by_cases heq : p = q
  · have hself : (s.modify q g).heap p = g (s.heap q) := if_pos heq
    rw [SparesAt, hself, heq]
    exact h _
  · have hother : (s.modify q g).heap p = s.heap p := if_neg heq
    rw [SparesAt, hother]
    exact Spares.refl reason _

theorem broadcastLoop_spares (a : Nat) (l : List Nat) (s : Server β) :
    Ends (SparesAt reason p s) (broadcastLoop a l s) := by
  induction l generalizing s with
  | nil => exact Ends.ok (.refl reason p s)
  | cons b l ih =>
    unfold broadcastLoop
    split
    next =>
      have hround : Ends (SparesAt reason p s) (broadcastTo a b s) := by
        refine ends_then (act_spares fun _ => ClientHandle.broadcastUserInfo_spares _ _) fun s' => ?_
        split
        next => exact act_spares fun _ => ClientHandle.broadcastUserInfo_spares _ _
        next => exact Ends.ok (.refl reason p s')
      exact ends_then hround ih
    next => exact ih s

theorem destroy_spares (q : Nat) (s : Server β) : Ends (SparesAt reason p s) (s.destroy q) := by
  have hunlink : SparesAt reason p s (s.modify q ClientHandle.unlink) :=
    modify_spares fun _ => .of_same rfl rfl rfl rfl
  unfold destroy
  split
  next => exact Ends.ok hunlink
  next =>
    have hclosed := hunlink.trans (modify_spares (q := q) (g := ClientHandle.setState .csDestroyed)
      fun _ => .of_same rfl rfl rfl rfl)
    exact (broadcastLoop_spares q _ _).mono fun _ hs' => hclosed.trans hs'

theorem kickLoop_spares {clientID : UInt32} {reason' : Int32}
    (h : (s.heap p).uniqueID = clientID → reason ≠ reason') (l : List Nat) :
    Ends (SparesAt reason p s) (kickLoop clientID reason' l s) := by
  induction l generalizing s with
  | nil => exact Ends.ok (.refl reason p s)
  | cons b l ih =>
    unfold kickLoop
    split
    next hb =>
      have hkick : Ends (SparesAt reason p s) (s.act b (ClientHandle.kick reason')) :=
        act_spares fun heq => ClientHandle.sendDisconnect_spares _ fun _ => h (by rw [heq]; exact hb)
      refine Ends.bind hkick fun s' hs' => ?_
      exact (ih (by rw [hs'.uniqueID]; exact h)).mono fun _ hs'' => SparesAt.trans hs' hs''
    next => exact ih h

theorem authenticate_spares (name : AString) (s : Server β)
    (h : p = q → (s.heap q).state = .csAuthenticating → s.isPlayerInQueue name = true →
      reason ≠ errorCodeAlreadyLogin) :
    Ends (SparesAt reason p s) (s.authenticate q name) := by
  unfold authenticate
  split
  next => exact Ends.ok (.refl reason p s)
  next hstate =>
    split
    next htaken =>
      exact act_spares fun heq => ClientHandle.sendDisconnect_spares _ fun _ =>
        h heq (not_not.mp hstate) htaken
    next =>
      have hname : SparesAt reason p s (s.modify q (ClientHandle.setUsername name)) :=
        modify_spares fun _ => .of_same rfl rfl rfl rfl
      have hlogin : Ends (SparesAt reason p s)
          ((s.modify q (ClientHandle.setUsername name)).act q ClientHandle.sendLoginSuccess) :=
        (act_spares fun _ => ClientHandle.sendLoginSuccess_spares _).mono fun _ hs' => hname.trans hs'
      refine ends_then hlogin fun s' => ?_
      have hset : SparesAt reason p s' (s'.modify q (ClientHandle.setState .csAuthenticated)) :=
        modify_spares fun _ => .of_same rfl rfl rfl rfl
      refine ends_then ((broadcastLoop_spares q _ _).mono fun _ h' => hset.trans h') fun s'' => Ends.ok ?_
      exact modify_spares fun _ => .of_same rfl rfl rfl rfl

theorem statusRequested_spares (request : AString × AString × Int32 × Int32) (s : Server β)
    (hstate : (s.heap q).protocol.state = 1) :
    Ends (SparesAt reason p s) (statusRequested q request s) := by
  unfold statusRequested
  split
  next =>
    refine act_spares fun _ => ClientHandle.sendDisconnect_spares _ fun h => ?_
    rw [hstate] at h
    exact absurd h (by decide)
  next =>
    have hset : SparesAt reason p s (s.modify q (ClientHandle.setProtocolState request.2.2.2.toUInt32)) :=
      modify_spares fun _ => .of_same rfl rfl rfl rfl
    refine (act_spares fun _ => ?_).mono fun _ hs' => hset.trans hs'
    exact ClientHandle.packet_spares (by simp [Packet.tells]) _

variable [Platform]

/-- A packet of this type is told to be unknown at `p`. -/
def Unknown (p : Nat) (packetType : UInt32) (s : Server β) : Prop :=
  ((s.heap p).protocol.state = 2 ∨ (s.heap p).protocol.state = 3) ∧
    knows (s.heap p).protocol.state packetType = false

omit [Platform] in
theorem unknownPacket_spares (bb : β) (packetType : UInt32) (s : Server β)
    (hknows : knows (s.heap q).protocol.state packetType = false)
    (h : p = q → s.Unknown q packetType → reason ≠ errorCodePacketUnknown) :
    Ends (fun x : Bool × β × Server β => SparesAt reason p s x.2.2) (unknownPacket q packetType bb s) := by
  have hact : Ends (SparesAt reason p s) (s.act q (ClientHandle.packetUnknown packetType)) :=
    act_spares fun heq => ClientHandle.sendDisconnect_spares _ fun hstate => h heq ⟨hstate, hknows⟩
  exact Ends.bind hact fun s' hs' => Ends.ok hs'

/-- The handlers tell a client that its packet is unknown, and no more. -/
theorem dispatchPacket_spares (bb : β) (packetType : UInt32) (s : Server β)
    (h : p = q → s.Unknown q packetType → reason ≠ errorCodePacketUnknown) :
    Ends (fun x : Bool × β × Server β => SparesAt reason p s x.2.2) (dispatchPacket q bb packetType s) := by
  have hrefl := SparesAt.refl reason p s
  unfold dispatchPacket
  split
  next hstate =>
    split
    next => exact handling_ends hrefl fun request _ => statusRequested_spares request s hstate
    next h0 =>
      split
      next =>
        refine handling_ends hrefl fun timestamp _ => act_spares fun _ => ?_
        exact ClientHandle.packet_spares (by simp [Packet.tells]) _
      next h1 =>
        apply unknownPacket_spares bb packetType s _ h
        rw [hstate]
        simp [knows, h0, h1]
  next =>
    split
    next hstate =>
      split
      next =>
        refine handling_ends hrefl fun login _ => Ends.ok ?_
        exact modify_spares (s := s) (q := q) (g := ClientHandle.setState .csAuthenticating)
          fun _ => .of_same rfl rfl rfl rfl
      next h0 =>
        apply unknownPacket_spares bb packetType s _ h
        rw [hstate]
        simp [knows, h0]
    next =>
      split
      next hstate =>
        split
        next =>
          refine handling_ends hrefl fun pingID _ => Ends.ok (modify_spares fun c => ?_)
          unfold ClientHandle.handleKeepAlive
          split
          next => exact .of_same rfl rfl rfl rfl
          next => exact Spares.refl reason c
        next h0 =>
          split
          next =>
            refine handling_ends hrefl fun media _ => ?_
            unfold forwardMedia
            split
            next => exact act_spares fun _ => ClientHandle.forwardMedia_spares _ _ _
            next => exact Ends.ok hrefl
          next h11 =>
            split
            next =>
              refine handling_ends hrefl fun media _ => ?_
              unfold forwardMediaMsg
              split
              next => exact act_spares fun _ => ClientHandle.forwardMediaMsg_spares _ _ _
              next => exact Ends.ok hrefl
            next h12 =>
              apply unknownPacket_spares bb packetType s _ h
              rw [hstate]
              simp [knows, h0, h11, h12]
      next =>
        split
        next => exact Ends.ok hrefl
        next => exact Ends.ok (modify_spares fun _ => .of_same rfl rfl rfl rfl)

theorem handlePacket_spares (bb : β) (packetType : UInt32) (s : Server β)
    (h : p = q → s.Unknown q packetType → reason ≠ errorCodePacketUnknown) :
    Ends (fun x : Bool × β × Server β => SparesAt reason p s x.2.2) (handlePacket q bb packetType s) := by
  have hrecord : SparesAt reason p s (s.modify q fun c =>
      c.record (.handled c.protocol.state packetType (readAll bb).1)) :=
    modify_spares fun c => ClientHandle.record_spares rfl c
  have hself : (s.modify q fun c => c.record (.handled c.protocol.state packetType (readAll bb).1)).heap q =
      (s.heap q).record (.handled (s.heap q).protocol.state packetType (readAll bb).1) := if_pos rfl
  refine (dispatchPacket_spares bb packetType _ fun heq hunknown => h heq ?_).mono fun x hx => hrecord.trans hx
  unfold Unknown at hunknown
  rw [hself] at hunknown
  exact hunknown

/-- The data that has come in, in a tick of `q`. -/
theorem tickReceived_spares (s : Server β) (hlive : (s.heap q).isDestroyed = false)
    (hunknown : ∀ call, p = q → s.TickCalls q call → call.2.2.Unknown q call.1 → reason ≠ errorCodePacketUnknown)
    (herror : ∀ call, p = q → s.TickCalls q call → (endpoint q).Reports call → reason ≠ errorCodePacketError)
    (hfull : p = q → (write (s.heap q).incomingData (s.heap q).protocol.receivedData).1 = false →
      reason ≠ errorCodeServerBusy) :
    Ends (SparesAt reason p s) (s.tickReceived q) := by
  unfold tickReceived
  split
  next hin =>
    have htake : SparesAt reason p s (s.modify q ClientHandle.takeIncoming) :=
      modify_spares fun _ => .of_same rfl rfl rfl rfl
    have hreceived : (endpoint q).received (s.modify q ClientHandle.takeIncoming) =
        (s.heap q).protocol.receivedData := by
      change ((s.modify q ClientHandle.takeIncoming).heap q).protocol.receivedData = _
      have hself : (s.modify q ClientHandle.takeIncoming).heap q = (s.heap q).takeIncoming := if_pos rfl
      rw [hself]
      rfl
    have hset : ∀ b t, SparesAt reason p s t → SparesAt reason p s ((endpoint q).setReceived b t) :=
      fun b t ht => ht.trans (modify_spares fun _ => .of_same rfl rfl rfl rfl)
    unfold addReceivedData Endpoint.addReceivedData
    rw [hreceived]
    rcases hwrite : write (s.heap q).incomingData (s.heap q).protocol.receivedData with ⟨_ | _, b⟩
    · refine Ends.mono (act_spares fun heq => ?_) fun _ hs' => (hset b _ htake).trans hs'
      exact ClientHandle.sendDisconnect_spares _ fun _ => hfull heq (by rw [hwrite])
    · dsimp only
      have hcalls : ∀ call, (endpoint q).Calls ((endpoint q).setReceived b
          (s.modify q ClientHandle.takeIncoming)) call → s.TickCalls q call := by
        intro call hcall
        refine ⟨hlive, hin, ?_, ?_⟩
        · rw [hreceived, hwrite]
        · rw [hreceived, hwrite]
          exact hcall
      apply Endpoint.handlePackets_calls hset
      · intro call hcall hs'
        refine (handlePacket_spares call.2.1 call.1 call.2.2 fun heq => ?_).mono fun _ hx => hs'.trans hx
        exact hunknown call heq (hcalls call hcall)
      · intro call hcall hreports s' hs'
        refine (act_spares fun heq => ?_).mono fun _ hs'' => hs'.trans hs''
        exact ClientHandle.sendDisconnect_spares _ fun _ => herror call heq (hcalls call hcall) hreports
      · exact hset b _ htake
  next => exact Ends.ok (.refl reason p s)

end Server

namespace ClientHandle

variable {β : Type} [ByteQueue β] {reason : Int32} {c c' c'' : ClientHandle β}

theorem sendDisconnect_sent (reason : Int32) (c : ClientHandle β) :
    Ends (fun c' => c'.hasSentDC = true) (c.sendDisconnect reason) := by
  unfold sendDisconnect
  split
  next h => exact Ends.ok h
  next => exact Ends.bind (I := fun _ => True) (fun _ _ => trivial) fun c' _ => Ends.ok rfl

/-- What the second part of a tick does with the count of ticks, and with the notices. -/
structure Rests (reason : Int32) (c c' : ClientHandle β) : Prop where
  ticks : c'.ticksSinceLastPacket = c.ticksSinceLastPacket + 1
  hasSentDC : c.hasSentDC = true ∨ 600 < c.ticksSinceLastPacket + 1 → c'.hasSentDC = true
  log : ∃ more, c'.log = c.log ++ more ∧ ∀ entry ∈ more, entry.tells reason = true →
    reason = errorCodeClientTimeout ∧ 600 < c.ticksSinceLastPacket + 1

omit [ByteQueue β] in
/-- Before it, nothing tells of the reason. -/
theorem Spares.rests (h : Spares reason c c') (h' : Rests reason c' c'') : Rests reason c c'' where
  ticks := by rw [h'.ticks, h.ticks]
  hasSentDC hsent := by
    rw [← h.ticks] at hsent
    exact h'.hasSentDC (hsent.imp_left h.hasSentDC)
  log := by
    obtain ⟨more, hlog, hmore⟩ := h.log
    obtain ⟨more', hlog', hmore'⟩ := h'.log
    refine ⟨more ++ more', ?_, fun entry hmem htells => ?_⟩
    · rw [hlog', hlog, List.append_assoc]
    · have hnew := (List.mem_append.mp hmem).resolve_left fun hold => hmore entry hold htells
      rw [← h.ticks]
      exact hmore' entry hnew htells

omit [ByteQueue β] in
theorem Rests.mem_log (h : Rests reason c c') {entry : Entry} (hmem : entry ∈ c'.log)
    (htells : entry.tells reason = true) :
    entry ∈ c.log ∨ reason = errorCodeClientTimeout ∧ 600 < c.ticksSinceLastPacket + 1 := by
  obtain ⟨more, hlog, hmore⟩ := h.log
  rw [hlog] at hmem
  exact (List.mem_append.mp hmem).imp_right fun hnew => hmore entry hnew htells

theorem tickTimeout_rests (c : ClientHandle β) : Ends (Rests reason c) c.tickTimeout := by
  unfold tickTimeout
  split
  next hlate =>
    have hlate' : 600 < c.ticksSinceLastPacket + 1 := hlate
    intro c' hok
    have hsent : c'.hasSentDC = true := sendDisconnect_sent _ _ c' hok
    -- what is sent is a notice of the time-out, and of nothing else
    have hspares : reason ≠ errorCodeClientTimeout → Spares reason c.countTick c' := by
      intro hreason
      exact sendDisconnect_spares _ (fun _ => hreason) c' hok
    have hother : Spares 0 c.countTick c' := sendDisconnect_spares _ (fun _ => by decide) c' hok
    refine ⟨hother.ticks, fun _ => hsent, ?_⟩
    by_cases hreason : reason = errorCodeClientTimeout
    · obtain ⟨more, hlog, _⟩ := hother.log
      exact ⟨more, hlog, fun _ _ _ => ⟨hreason, hlate'⟩⟩
    · obtain ⟨more, hlog, hmore⟩ := (hspares hreason).log
      exact ⟨more, hlog, fun entry hmem htells => absurd htells (hmore entry hmem)⟩
  next hearly =>
    have hearly' : ¬600 < c.ticksSinceLastPacket + 1 := hearly
    refine Ends.ok ⟨rfl, fun h => h.resolve_right hearly', [], (List.append_nil _).symm, ?_⟩
    exact fun entry hmem => absurd hmem List.not_mem_nil

theorem tickRest_rests (now : Int) (c : ClientHandle β) : Ends (Rests reason c) (c.tickRest now) := by
  have hflush : Spares reason c c.flush := .of_same rfl rfl rfl rfl
  have hstart := hflush.trans (startWorking_spares c.flush)
  have hpinged : Ends (Spares reason c.flush.startWorking) (tickPing now c.flush.startWorking) :=
    tickPing_spares now _
  refine Ends.bind hpinged fun c₁ hping => ?_
  have htimeout : Ends (Rests reason c₁) c₁.tickTimeout := tickTimeout_rests c₁
  exact htimeout.mono fun c' hrests => (hstart.trans hping).rests hrests

end ClientHandle

end P2PChat

import P2PChat.PassiveSteps

namespace P2PChat

open ByteQueue Relation

/-- The call of `HandlePacket` that an entry of the log stands for. -/
def Entry.call? : Entry → Option (UInt32 × AString)
  | .handled _ type bytes => some (type, bytes)
  | _ => none

namespace ClientHandle

section Effects

variable {β : Type}

/-- The calls of `HandlePacket` so far. -/
def calls (c : ClientHandle β) : List (UInt32 × AString) := c.log.filterMap Entry.call?

/-- What a tick comes to after it has processed the received data. -/
def pinged (now : Int) (c : ClientHandle β) : ClientHandle β :=
  if c.state = .csWorking ∧ c.pingStartTime + pingTime ≤ now then
    { c with pingID := c.pingID + 1, pingStartTime := now }.keepAliveSent (c.pingID + 1)
  else c

def timedOut (c : ClientHandle β) : ClientHandle β :=
  if 600 < c.countTick.ticksSinceLastPacket then c.countTick.disconnect errorCodeClientTimeout
  else c.countTick

def rested (now : Int) (c : ClientHandle β) : ClientHandle β :=
  (c.flush.startWorking.pinged now).timedOut

/-- Nothing was handled, and what is in the receive buffer stays there. -/
structure Keeps (c c' : ClientHandle β) : Prop where
  received : c'.protocol.receivedData = c.protocol.receivedData
  calls : c'.calls = c.calls

theorem Keeps.refl (c : ClientHandle β) : Keeps c c := ⟨rfl, rfl⟩

theorem Keeps.trans {c c' c'' : ClientHandle β} (h : Keeps c c') (h' : Keeps c' c'') : Keeps c c'' :=
  ⟨h'.received.trans h.received, h'.calls.trans h.calls⟩

theorem calls_append {log : List Entry} {entry : Entry} (h : entry.call? = none) :
    (log ++ [entry]).filterMap Entry.call? = log.filterMap Entry.call? := by
  rw [List.filterMap_append, List.filterMap_cons_none h, List.filterMap_nil, List.append_nil]

theorem record_keeps {entry : Entry} (h : entry.call? = none) (c : ClientHandle β) :
    Keeps c (c.record entry) := ⟨rfl, calls_append h⟩

theorem queue_keeps (p : Packet) (c : ClientHandle β) : Keeps c (c.queue p) := by
  refine ⟨by rw [queue_protocol], ?_⟩
  rw [ClientHandle.calls, queue_log]
  split
  next => rfl
  next => exact calls_append rfl

theorem queueAll_keeps (told : List Packet) (c : ClientHandle β) : Keeps c (c.queueAll told) := by
  induction told generalizing c with
  | nil => exact Keeps.refl c
  | cons pkt told ih =>
    rw [queueAll_cons]
    exact (queue_keeps pkt c).trans (ih (c.queue pkt))

theorem disconnect_keeps (reason : Int32) (c : ClientHandle β) : Keeps c (c.disconnect reason) := by
  unfold disconnect
  split
  next => exact Keeps.refl c
  next =>
    split
    next => exact (queue_keeps _ c).trans ⟨rfl, rfl⟩
    next =>
      split
      next => exact (queue_keeps _ c).trans ⟨rfl, rfl⟩
      next => exact ⟨rfl, rfl⟩

theorem loginSucceeded_keeps (c : ClientHandle β) : Keeps c c.loginSucceeded :=
  ((record_keeps rfl c).trans (queue_keeps _ _)).trans ⟨rfl, rfl⟩

theorem keepAliveSent_keeps (id : UInt32) (c : ClientHandle β) : Keeps c (c.keepAliveSent id) := by
  unfold keepAliveSent
  split
  next => exact record_keeps rfl c
  next => exact (record_keeps rfl c).trans (queue_keeps _ _)

theorem pinged_keeps (now : Int) (c : ClientHandle β) : Keeps c (c.pinged now) := by
  have hnext : Keeps c { c with pingID := c.pingID + 1, pingStartTime := now } := ⟨rfl, rfl⟩
  unfold pinged
  split
  next => exact hnext.trans (keepAliveSent_keeps _ _)
  next => exact Keeps.refl c

theorem startWorking_keeps (c : ClientHandle β) : Keeps c c.startWorking := by
  unfold startWorking
  split
  next => exact ⟨rfl, rfl⟩
  next => exact Keeps.refl c

theorem timedOut_keeps (c : ClientHandle β) : Keeps c c.timedOut := by
  have hcount : Keeps c c.countTick := ⟨rfl, rfl⟩
  unfold timedOut
  split
  next => exact hcount.trans (disconnect_keeps _ _)
  next => exact hcount

theorem rested_keeps (now : Int) (c : ClientHandle β) : Keeps c (c.rested now) := by
  have hflush : Keeps c c.flush := ⟨rfl, rfl⟩
  exact ((hflush.trans (startWorking_keeps _)).trans (pinged_keeps now _)).trans (timedOut_keeps _)

end Effects

theorem keeps_passive : Passive Keeps where
  refl := Keeps.refl
  trans := Keeps.trans
  userInfo _ c _ := queue_keeps _ c
  disconnect := disconnect_keeps
  loginSucceeded := loginSucceeded_keeps
  same _ _ _ _ _ _ := ⟨rfl, rfl⟩

theorem keeps_reactive : Reactive Keeps where
  refl := Keeps.refl
  trans := Keeps.trans
  queue := queue_keeps
  disconnect := disconnect_keeps
  setProtocolState _ _ := ⟨rfl, rfl⟩
  setState _ := ⟨rfl, rfl⟩
  handleKeepAlive id now c := by
    unfold ClientHandle.handleKeepAlive
    split
    next => exact ⟨rfl, rfl⟩
    next => exact Keeps.refl c

theorem Sound.flush {c : ClientHandle Fifo} (hc : c.Sound) : c.flush.Sound :=
  ⟨hc.out, hc.len, hc.received, hc.ip, hc.username, hc.settled⟩

theorem Sound.startWorking {c : ClientHandle Fifo} (hc : c.Sound) : c.startWorking.Sound := by
  unfold ClientHandle.startWorking
  split
  next => exact ⟨hc.out, hc.len, hc.received, hc.ip, hc.username, nofun⟩
  next => exact hc

theorem tickPing_eq {c : ClientHandle Fifo} (hc : c.Sound) (now : Int) :
    c.tickPing now = .ok (c.pinged now) ∧ (c.pinged now).Sound := by
  have hnew : ({ c with pingID := c.pingID + 1, pingStartTime := now } : ClientHandle Fifo).Sound :=
    ⟨hc.out, hc.len, hc.received, hc.ip, hc.username, hc.settled⟩
  unfold tickPing pinged
  split
  next hping => exact ⟨sendKeepAlive_ok hnew _, (Change.keepAlive _ now hping.1).sound hc⟩
  next => exact ⟨rfl, hc⟩

theorem tickTimeout_eq {c : ClientHandle Fifo} (hc : c.Sound) : c.tickTimeout = .ok c.timedOut := by
  have hcount : c.countTick.Sound := ⟨hc.out, hc.len, hc.received, hc.ip, hc.username, hc.settled⟩
  unfold tickTimeout timedOut
  split
  next => exact sendDisconnect_ok hcount _
  next => rfl

theorem tickRest_eq {c : ClientHandle Fifo} (hc : c.Sound) (now : Int) :
    c.tickRest now = .ok (c.rested now) := by
  obtain ⟨hping, hsound⟩ := tickPing_eq hc.flush.startWorking now
  rw [tickRest, hping]
  exact tickTimeout_eq hsound

end ClientHandle

namespace Server

open ClientHandle (Keeps)

variable [Platform]

section Calls

variable {s s' : Server Fifo} {p : Nat}

omit [Platform] in
theorem modify_keeps {g : ClientHandle Fifo → ClientHandle Fifo} (q : Nat)
    (h : ∀ c, Keeps c (g c)) : Keeps (s.heap p) ((s.modify q g).heap p) :=
  modify_passive ClientHandle.keeps_passive q h

/-- Nothing of `p` is handled but in its own ticks. -/
theorem step_keeps (hs : s.Sound) {e : Event} (he : s.enabled e = true) (hp : p < s.allocated)
    (hnot : e ≠ .tickClient p) (h : s.step e = .ok s') : Keeps (s.heap p) (s'.heap p) := by
  cases e with
  | receivedData q data =>
    cases h
    exact modify_keeps q fun _ => ⟨rfl, rfl⟩
  | tickClient q =>
    have hne : p ≠ q := fun heq => hnot (by rw [heq])
    have hstepped := step_stepped hs he (gated_open s _)
    rw [h] at hstepped
    obtain ⟨_, told, htold, _⟩ := effects_others hstepped.2.2 (q := p) hne hp
    rw [htold]
    exact ClientHandle.queueAll_keeps told _
  | connectionAccepted ip => exact step_passive ClientHandle.keeps_passive hs hp (by simp) (by simp) h
  | remoteClosed q => exact step_passive ClientHandle.keeps_passive hs hp (by simp) (by simp) h
  | released q => exact step_passive ClientHandle.keeps_passive hs hp (by simp) (by simp) h
  | authenticatorTake => exact step_passive ClientHandle.keeps_passive hs hp (by simp) (by simp) h
  | authenticatorAnswer => exact step_passive ClientHandle.keeps_passive hs hp (by simp) (by simp) h
  | clock elapsed => exact step_passive ClientHandle.keeps_passive hs hp (by simp) (by simp) h

/-- What comes of a packet, no packet is handled by it. -/
theorem reacted_keeps (type : UInt32) (bytes : AString) :
    Keeps (s.heap p) ((s.reacted p type bytes).heap p) :=
  reacted_reactive ClientHandle.keeps_reactive p type bytes

omit [Platform] in
theorem handled_calls (type : UInt32) (bytes : AString) :
    ((s.handled p type bytes).heap p).calls = (s.heap p).calls ++ [(type, bytes)] := by
  rw [handled_self]
  exact List.filterMap_append

theorem treated_calls (type : UInt32) (bytes : AString) :
    ((s.treated p type bytes).heap p).calls = (s.heap p).calls ++ [(type, bytes)] := by
  have hreacted := @reacted_keeps _ (s.handled p type bytes) p type bytes
  unfold treated
  split
  next => rw [((hreacted.trans (modify_keeps p (ClientHandle.disconnect_keeps _))).calls), handled_calls]
  next => rw [hreacted.calls, handled_calls]

theorem takeIncoming_small {G : Gate} (p : Nat) (s : Server Fifo) :
    Small G p s (s.modify p ClientHandle.takeIncoming) :=
  .change (.quiet ⟨rfl, rfl, rfl, rfl, rfl, Or.inl rfl, rfl, rfl, rfl, rfl, id, rfl, rfl⟩)

/-- A tick is what its two parts do. -/
theorem tickClient_eq {t : Server Fifo} (hs : s.Sound) (hnot : (s.heap p).isDestroyed = false)
    (ht : s.tickReceived p = .ok t) :
    ReflTransGen (Small Gate.open p) s t ∧
      s.tickClient p = .ok (t.modify p (ClientHandle.rested t.now)) := by
  have hlive := live_of_not (hs.connections p) (Bool.eq_false_iff.mp hnot)
  have hhandled := tickReceived_handled hs hlive (G := Gate.open) fun _ _ => rfl
  rw [ht] at hhandled
  refine ⟨hhandled.2, ?_⟩
  unfold tickClient serverTick
  rw [hnot, ht]
  exact act_change (ClientHandle.tickRest_eq ((sound_of_small hs hhandled.2).connections p) t.now)

theorem tickClient_parts (hs : s.Sound) (hnot : (s.heap p).isDestroyed = false)
    (h : s.tickClient p = .ok s') :
    ∃ t, s.tickReceived p = .ok t ∧ ReflTransGen (Small Gate.open p) s t ∧
      s'.heap p = (t.heap p).rested t.now := by
  have hparts := h
  unfold tickClient serverTick at hparts
  rw [hnot] at hparts
  obtain ⟨t, ht, _⟩ := bind_ok_iff.mp hparts
  obtain ⟨hsmall, htick⟩ := tickClient_eq hs hnot ht
  rw [htick] at h
  cases h
  exact ⟨t, ht, hsmall, if_pos rfl⟩

omit [Platform] in
theorem act_allocated {q : Nat} {f : ClientHandle Fifo → Except Halt (ClientHandle Fifo)}
    (h : s.act q f = .ok s') : s'.allocated = s.allocated := by
  obtain ⟨c, _, hok⟩ := bind_ok_iff.mp h
  cases hok
  rfl

omit [Platform] in
theorem kickLoop_allocated {id : UInt32} {reason : Int32} {l : List Nat}
    (h : kickLoop id reason l s = .ok s') : s'.allocated = s.allocated := by
  induction l generalizing s with
  | nil =>
    cases h
    rfl
  | cons q l ih =>
    unfold kickLoop at h
    split at h
    next =>
      obtain ⟨t, hkick, hloop⟩ := bind_ok_iff.mp h
      exact (ih hloop).trans (act_allocated hkick)
    next => exact ih h

theorem answer_allocated (hs : s.Sound) {user : User} (hin : s.inFlight = some user)
    (h : answer user { s with inFlight := none } = .ok s') : s'.allocated = s.allocated := by
  have hs₁ := answered_sound hs
  have hsame : ({ s with inFlight := none } : Server Fifo).allocated = s.allocated := rfl
  rw [← hsame]
  unfold answer at h
  dsimp only at h
  split at h
  next hauth =>
    have hname := accepted_length hs hin hauth
    generalize ({ s with inFlight := none } : Server Fifo) = t at *
    unfold authenticateUser at h
    split at h
    next q _ =>
      by_cases hstate : (t.heap q).state = .csAuthenticating
      · by_cases hfree : t.isPlayerInQueue user.username = false
        · rw [authenticate_login hs₁ hname hstate hfree] at h
          cases h
          rfl
        · rw [Bool.not_eq_false] at hfree
          rw [authenticate, if_neg (not_not.mpr hstate), if_pos hfree] at h
          exact act_allocated h
      · rw [authenticate, if_pos hstate] at h
        cases h
        rfl
    next =>
      cases h
      rfl
  next => exact kickLoop_allocated h

/-- Only a connection that is accepted is new. -/
theorem step_allocated (hs : s.Sound) {e : Event} (hnew : ∀ ip, e ≠ .connectionAccepted ip)
    (h : s.step e = .ok s') : s'.allocated = s.allocated := by
  cases e with
  | connectionAccepted ip => exact absurd rfl (hnew ip)
  | receivedData q data =>
    cases h
    rfl
  | remoteClosed q =>
    have h : s.destroy q = .ok s' := h
    unfold destroy at h
    split at h
    next =>
      cases h
      rfl
    next =>
      have hclosed := closed_sound hs q
      have hok := broadcastUserInfo_ok hclosed.connections hclosed.nodup q
      have heq := Except.ok.inj (hok.symm.trans h)
      rw [← heq]
      rfl
  | tickClient q =>
    by_cases hdead : (s.heap q).isDestroyed = true
    · have h : s.tickClient q = .ok s' := h
      rw [tickClient, if_pos hdead] at h
      cases h
      rfl
    · rw [Bool.not_eq_true] at hdead
      obtain ⟨t, ht, hsmall, _⟩ := tickClient_parts hs hdead h
      have htick := (tickClient_eq hs hdead ht).2
      have heq := Except.ok.inj (htick.symm.trans h)
      rw [← heq]
      exact (framed_of_small hsmall).allocated
  | released q => exact act_allocated h
  | authenticatorTake =>
    cases h
    rfl
  | authenticatorAnswer =>
    have h : s.authenticatorAnswer = .ok s' := h
    unfold authenticatorAnswer at h
    split at h
    next =>
      cases h
      rfl
    next user hin => exact answer_allocated hs hin h
  | clock elapsed =>
    cases h
    rfl

end Calls

end Server

end P2PChat

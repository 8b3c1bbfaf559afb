import P2PChat.KeepAlives

namespace P2PChat

open ByteQueue Relation

namespace ClientHandle

section Steps

variable {c c' c'' : ClientHandle Fifo}

/-- No ping was sent, the log goes on, and a connection that works goes on working. -/
structure CarriesOn (c c' : ClientHandle Fifo) : Prop where
  pingID : c'.pingID = c.pingID
  pingStartTime : c'.pingStartTime = c.pingStartTime
  keepAlives : c'.keepAlives = c.keepAlives
  log : c.log <+: c'.log
  working : c.protocol.state = 3 → c'.protocol.state = 3 ∧ c'.state = c.state

theorem CarriesOn.refl (c : ClientHandle Fifo) : CarriesOn c c := ⟨rfl, rfl, rfl, List.prefix_rfl, fun h => ⟨h, rfl⟩⟩

theorem CarriesOn.trans (h : CarriesOn c c') (h' : CarriesOn c' c'') : CarriesOn c c'' where
  pingID := h'.pingID.trans h.pingID
  pingStartTime := h'.pingStartTime.trans h.pingStartTime
  keepAlives := h'.keepAlives.trans h.keepAlives
  log := h.log.trans h'.log
  working hthree := by
    obtain ⟨hthree', hstate⟩ := h.working hthree
    obtain ⟨hthree'', hstate'⟩ := h'.working hthree'
    exact ⟨hthree'', hstate'.trans hstate⟩

theorem queue_carriesOn {p : Packet} (h : p.keepAlive? = none) (c : ClientHandle Fifo) : CarriesOn c (c.queue p) where
  pingID := (queue_unpinged h c).pingID
  pingStartTime := by rw [queue_eq]
  keepAlives := (queue_unpinged h c).keepAlives
  log := by
    rw [queue_log]
    split
    next => exact List.prefix_rfl
    next => exact List.prefix_append _ _
  working hthree := by
    rw [queue_eq]
    exact ⟨hthree, rfl⟩

theorem record_carriesOn {entry : Entry} (h : entry.keepAlive? = none) (c : ClientHandle Fifo) :
    CarriesOn c (c.record entry) :=
  ⟨rfl, rfl, (record_unpinged h c).keepAlives, List.prefix_append _ _, fun hthree => ⟨hthree, rfl⟩⟩

/-- A connection that does not work yet may come to any state. -/
theorem setProtocolState_carriesOn (hnot : c.protocol.state ≠ 3) (state : UInt32) :
    CarriesOn c (c.setProtocolState state) :=
  ⟨rfl, rfl, rfl, List.prefix_rfl, fun hthree => absurd hthree hnot⟩

theorem setState_carriesOn (hnot : c.protocol.state ≠ 3) (state : EState) : CarriesOn c (c.setState state) :=
  ⟨rfl, rfl, rfl, List.prefix_rfl, fun hthree => absurd hthree hnot⟩

theorem disconnect_carriesOn (reason : Int32) (c : ClientHandle Fifo) : CarriesOn c (c.disconnect reason) where
  pingID := (disconnect_unpinged reason c).pingID
  pingStartTime := by rw [disconnect_eq]
  keepAlives := (disconnect_unpinged reason c).keepAlives
  log := by
    unfold disconnect
    split
    next => exact List.prefix_rfl
    next =>
      split
      next => exact (queue_carriesOn rfl c).log
      next =>
        split
        next => exact (queue_carriesOn rfl c).log
        next => exact List.prefix_rfl
  working hthree := by
    rw [disconnect_eq]
    exact ⟨hthree, rfl⟩

theorem handleKeepAlive_carriesOn (id : UInt32) (now : Int) (c : ClientHandle Fifo) :
    CarriesOn c (c.handleKeepAlive id now) := by
  unfold handleKeepAlive
  split
  next => exact ⟨rfl, rfl, rfl, List.prefix_rfl, fun hthree => ⟨hthree, rfl⟩⟩
  next => exact .refl c

/-- A ping goes out when it is due. -/
def pingDue (now : Int) (c : ClientHandle Fifo) : Prop := c.state = .csWorking ∧ c.pingStartTime + pingTime ≤ now

instance (now : Int) (c : ClientHandle Fifo) : Decidable (pingDue now c) := inferInstanceAs (Decidable (_ ∧ _))

theorem pinged_due {now : Int} (h : pingDue now c) : c.pinged now =
    { c with pingID := c.pingID + 1, pingStartTime := now }.keepAliveSent (c.pingID + 1) := if_pos h

theorem pinged_quiet {now : Int} (h : ¬pingDue now c) : c.pinged now = c := if_neg h

theorem startWorking_carriesOn (c : ClientHandle Fifo) :
    c.startWorking.ping = c.ping ∧ c.startWorking.pingID = c.pingID ∧
      c.startWorking.pingStartTime = c.pingStartTime ∧ c.startWorking.keepAlives = c.keepAlives := by
  unfold startWorking
  split
  next => exact ⟨rfl, rfl, rfl, rfl⟩
  next => exact ⟨rfl, rfl, rfl, rfl⟩

theorem startWorking_hasSentDC (c : ClientHandle Fifo) : c.startWorking.hasSentDC = c.hasSentDC := by
  unfold startWorking
  split
  next => rfl
  next => rfl

theorem keepAliveSent_keepAlives (hthree : c.protocol.state = 3) (id : UInt32) :
    (c.keepAliveSent id).keepAlives = c.keepAlives ++ if c.hasSentDC then [] else [id] := by
  have hrecord : (c.record (.keepAlive c.protocol.state)).keepAlives = c.keepAlives :=
    (record_unpinged rfl c).keepAlives
  rw [keepAliveSent, if_neg (not_not.mpr hthree), queue_keepAlives, hrecord]
  rfl

theorem keepAliveSent_same (id : UInt32) (c : ClientHandle Fifo) :
    (c.keepAliveSent id).ping = c.ping ∧ (c.keepAliveSent id).pingID = c.pingID ∧
      (c.keepAliveSent id).pingStartTime = c.pingStartTime ∧ (c.keepAliveSent id).state = c.state := by
  unfold keepAliveSent
  split
  next => exact ⟨rfl, rfl, rfl, rfl⟩
  next =>
    rw [queue_eq]
    exact ⟨rfl, rfl, rfl, rfl⟩

theorem timedOut_unpinged (c : ClientHandle Fifo) : Unpinged c c.timedOut ∧
    c.timedOut.pingStartTime = c.pingStartTime ∧ c.timedOut.state = c.state := by
  have hcount : Unpinged c c.countTick := ⟨rfl, rfl, rfl⟩
  unfold timedOut
  split
  next =>
    refine ⟨hcount.trans (disconnect_unpinged _ _), ?_, ?_⟩
    · rw [disconnect_eq]
      rfl
    · rw [disconnect_eq]
      rfl
  next => exact ⟨hcount, rfl, rfl⟩

/-- The rest of a tick takes no answer. -/
theorem rested_ping (now : Int) (c : ClientHandle Fifo) : (c.rested now).ping = c.ping := by
  have hstart : c.flush.startWorking.ping = c.ping := (startWorking_carriesOn c.flush).1
  rw [rested, (timedOut_unpinged _).1.ping]
  unfold pinged
  split
  next => exact (keepAliveSent_same _ _).1.trans hstart
  next => exact hstart

/-- A tick that finds no ping due sends none. -/
theorem rested_quiet {now : Int} (hdue : ¬pingDue now c.flush.startWorking) :
    (c.rested now).pingID = c.pingID ∧ (c.rested now).pingStartTime = c.pingStartTime ∧
      (c.rested now).keepAlives = c.keepAlives ∧ (c.rested now).state = c.startWorking.state := by
  obtain ⟨hunpinged, hstart, hstate⟩ := timedOut_unpinged c.flush.startWorking
  obtain ⟨_, hid, hstart', hkeepAlives⟩ := startWorking_carriesOn c.flush
  have hflush : c.flush.startWorking.state = c.startWorking.state := by
    unfold startWorking
    change (if c.state = .csAuthenticated then _ else _ : ClientHandle Fifo).state = _
    split
    next => rfl
    next => rfl
  rw [rested, pinged_quiet hdue]
  exact ⟨hunpinged.pingID.trans hid, hstart.trans hstart', hunpinged.keepAlives.trans hkeepAlives,
    hstate.trans hflush⟩

/-- A ping is due only in the last state of the protocol. -/
theorem due_three {now : Int} (hc : c.InStep) (hdue : pingDue now c.flush.startWorking) :
    c.protocol.state = 3 := by
  have hworking : c.state = .csAuthenticated ∨ c.state = .csWorking := by
    have hstate : c.flush.startWorking.state = .csWorking := hdue.1
    unfold startWorking at hstate
    split at hstate
    next hauthenticated => exact .inl hauthenticated
    next => exact .inr hstate
  have hlive : c.state ≠ .csDestroyed := by
    intro hdead
    rw [hdead] at hworking
    rcases hworking with h | h
    · cases h
    · cases h
  exact (hc.agrees hlive).working.mpr hworking

/-- A tick that finds one due raises the ID, and sends it unless a disconnect was sent. -/
theorem rested_pings {now : Int} (hdue : pingDue now c.flush.startWorking) (hthree : c.protocol.state = 3) :
    (c.rested now).pingID = c.pingID + 1 ∧ (c.rested now).pingStartTime = now ∧
      (c.rested now).keepAlives = c.keepAlives ++ (if c.hasSentDC then [] else [c.pingID + 1]) ∧
        (c.rested now).state = .csWorking := by
  obtain ⟨_, hid, _, hkeepAlives⟩ := startWorking_carriesOn c.flush
  have hproto : c.flush.startWorking.protocol.state = 3 ∧ c.flush.startWorking.hasSentDC = c.hasSentDC := by
    unfold startWorking
    split
    next => exact ⟨hthree, rfl⟩
    next => exact ⟨hthree, rfl⟩
  have hid : c.flush.startWorking.pingID = c.pingID := hid
  have hkeepAlives : c.flush.startWorking.keepAlives = c.keepAlives := hkeepAlives
  rw [rested, pinged_due hdue]
  generalize c.flush.startWorking = d at *
  obtain ⟨hunpinged, hstart, hstate⟩ := timedOut_unpinged
    ({ d with pingID := d.pingID + 1, pingStartTime := now }.keepAliveSent (d.pingID + 1))
  obtain ⟨_, hid', hstart', hstate'⟩ := keepAliveSent_same (d.pingID + 1)
    { d with pingID := d.pingID + 1, pingStartTime := now }
  have hsent := keepAliveSent_keepAlives (c := { d with pingID := d.pingID + 1, pingStartTime := now })
    hproto.1 (d.pingID + 1)
  refine ⟨?_, hstart.trans hstart', ?_, (hstate.trans hstate').trans hdue.1⟩
  · rw [hunpinged.pingID, hid', hid]
  · rw [hunpinged.keepAlives, hsent, hid]
    have hsame : ({ d with pingID := c.pingID + 1, pingStartTime := now } : ClientHandle Fifo).keepAlives =
      d.keepAlives := rfl
    rw [← hkeepAlives, ← hproto.2]
    rfl

end Steps

end ClientHandle

namespace Server

open ClientHandle (CarriesOn)

variable [Platform]

section Ticks

variable {s s' t : Server Fifo} {p : Nat} {type : UInt32} {bytes : AString}

/-- Either the ping is the same, or it is the time since this one was sent. -/
structure PingsAnswered (p : Nat) (type : UInt32) (bytes : AString) (s s' : Server Fifo) : Prop where
  carriesOn : CarriesOn (s.heap p) (s'.heap p)
  ping : (s'.heap p).ping = (s.heap p).ping ∨ (s.heap p).protocol.state = 3 ∧ type = 0x00 ∧
    (parseVarInt32 bytes).1 = some (s.heap p).pingID ∧ (s'.heap p).ping = s.now - (s.heap p).pingStartTime

theorem pingsAnswered_of_modify (q : Nat) {g : ClientHandle Fifo → ClientHandle Fifo}
    (h : ∀ c, CarriesOn c (g c) ∧ (g c).ping = c.ping) : PingsAnswered p type bytes s (s.modify q g) := by
  have hsame : CarriesOn (s.heap p) ((s.modify q g).heap p) ∧ ((s.modify q g).heap p).ping = (s.heap p).ping := by
    rw [modify_heap]
    split
    next heq =>
      rw [heq]
      exact h _
    next => exact ⟨.refl _, rfl⟩
  exact ⟨hsame.1, .inl hsame.2⟩

theorem refused_pingsAnswered : PingsAnswered p type bytes s (s.refused p) :=
  pingsAnswered_of_modify p fun c =>
    ⟨ClientHandle.disconnect_carriesOn _ c, (ClientHandle.disconnect_unpinged _ c).ping⟩

theorem tell_pingsAnswered (q : Nat) {pkt : Packet} (h : pkt.keepAlive? = none) :
    PingsAnswered p type bytes s (s.tell q pkt) :=
  pingsAnswered_of_modify q fun c => ⟨ClientHandle.queue_carriesOn h c, (ClientHandle.queue_unpinged h c).ping⟩

/-- Only the connection itself is changed, and not its ping. -/
theorem pingsAnswered_of_self {c : ClientHandle Fifo} (hself : s'.heap p = c) (hcarries : CarriesOn (s.heap p) c)
    (hping : c.ping = (s.heap p).ping) : PingsAnswered p type bytes s s' := by
  rw [← hself] at hcarries hping
  exact ⟨hcarries, .inl hping⟩

omit [Platform] in
/-- Where the protocol is not in its last state, there is nothing to go on with. -/
theorem answered_carriesOn {c : ClientHandle Fifo} (hnot : c.protocol.state ≠ 3)
    (request : AString × AString × Int32 × Int32) : CarriesOn c (answered request c) := by
  unfold answered
  split
  next => exact (ClientHandle.setProtocolState_carriesOn hnot _).trans (ClientHandle.queue_carriesOn rfl _)
  next => exact ClientHandle.disconnect_carriesOn _ c

omit [Platform] in
theorem answered_ping (request : AString × AString × Int32 × Int32) (c : ClientHandle Fifo) :
    (answered request c).ping = c.ping := by
  unfold answered
  split
  next => exact (ClientHandle.queue_unpinged rfl _).ping
  next => exact (ClientHandle.disconnect_unpinged _ c).ping

theorem keptAlive_pingsAnswered {id : UInt32} (hthree : (s.heap p).protocol.state = 3)
    (hparse : (parseVarInt32 bytes).1 = some id) :
    PingsAnswered p 0x00 bytes s (s.modify p (ClientHandle.handleKeepAlive id s.now)) := by
  have hself : (s.modify p (ClientHandle.handleKeepAlive id s.now)).heap p =
    (s.heap p).handleKeepAlive id s.now := if_pos rfl
  have hcarries := ClientHandle.handleKeepAlive_carriesOn id s.now (s.heap p)
  by_cases hid : id = (s.heap p).pingID
  · refine ⟨by rw [hself]; exact hcarries, .inr ⟨hthree, rfl, by rw [hparse, hid], ?_⟩⟩
    rw [hself, ClientHandle.handleKeepAlive, if_pos hid]
  · refine pingsAnswered_of_self hself hcarries ?_
    rw [ClientHandle.handleKeepAlive, if_neg hid]

theorem reacted_pingsAnswered : PingsAnswered p type bytes s (s.reacted p type bytes) := by
  have hrefl : PingsAnswered p type bytes s s := ⟨.refl _, .inl rfl⟩
  unfold reacted
  split
  next hone =>
    have hnot : (s.heap p).protocol.state ≠ 3 := by rw [hone]; decide
    split
    next =>
      rcases (parseStatusRequest bytes).1 with _ | request
      · exact hrefl
      · exact pingsAnswered_of_self (if_pos rfl) (answered_carriesOn hnot request) (answered_ping request _)
    next =>
      split
      next =>
        rcases (parseBEInt64 bytes).1 with _ | timestamp
        · exact hrefl
        · exact tell_pingsAnswered p rfl
      next => exact refused_pingsAnswered
  next =>
    split
    next htwo =>
      have hnot : (s.heap p).protocol.state ≠ 3 := by rw [htwo]; decide
      split
      next =>
        rcases (parseLoginInfo bytes).1 with _ | login
        · exact hrefl
        · exact pingsAnswered_of_self (if_pos rfl) (ClientHandle.setState_carriesOn hnot .csAuthenticating) rfl
      next => exact refused_pingsAnswered
    next =>
      split
      next hthree =>
        split
        next hzero =>
          subst hzero
          rcases hparse : (parseVarInt32 bytes).1 with _ | id
          · exact hrefl
          · exact keptAlive_pingsAnswered hthree hparse
        next =>
          split
          next =>
            rcases hrelay : s.relay p type bytes with _ | x
            · exact hrefl
            · exact tell_pingsAnswered x.1 (told_keepAlive (relayed_told (relay_shape hrelay).2))
          next => exact refused_pingsAnswered
      next hnot =>
        split
        next => exact hrefl
        next => exact pingsAnswered_of_self (if_pos rfl) (ClientHandle.setProtocolState_carriesOn hnot 255) rfl

/-- What the packets of a tick come to: a ping is taken only from an answer that names the ID. -/
structure PingsKept (p : Nat) (s t : Server Fifo) : Prop where
  now : t.now = s.now
  carriesOn : CarriesOn (s.heap p) (t.heap p)
  ping : (t.heap p).ping = (s.heap p).ping ∨
    ((t.heap p).log.drop (s.heap p).log.length).any (Entry.answers (s.heap p).pingID) = true ∧
      (t.heap p).ping = s.now - (s.heap p).pingStartTime

omit [Platform] in
/-- What was in the log since a tick began stays there. -/
theorem any_since {α : Type} {f : α → Bool} {l l' l'' : List α} (h : l <+: l') (h' : l' <+: l'')
    (hany : (l'.drop l.length).any f = true) : (l''.drop l.length).any f = true := by
  obtain ⟨since, rfl⟩ := h
  obtain ⟨after, rfl⟩ := h'
  rw [List.drop_left] at hany
  rw [List.append_assoc, List.drop_left, List.any_append, hany, Bool.true_or]

theorem PingsKept.quiet (h : PingsKept p s t) {g : ClientHandle Fifo → ClientHandle Fifo}
    (hg : ∀ c, CarriesOn c (g c) ∧ (g c).ping = c.ping) : PingsKept p s (t.modify p g) := by
  have hself : (t.modify p g).heap p = g (t.heap p) := if_pos rfl
  obtain ⟨hcarries, hping⟩ := hg (t.heap p)
  refine ⟨h.now, ?_, ?_⟩
  · rw [hself]
    exact h.carriesOn.trans hcarries
  · rw [hself, hping]
    exact h.ping.imp_right (And.imp_left (any_since h.carriesOn.log hcarries.log))

/-- A packet goes on record before it is handled, so that an answer is found there. -/
theorem PingsKept.packet (h : PingsKept p s t)
    (hnow : ((t.handled p type bytes).reacted p type bytes).now = t.now) :
    PingsKept p s ((t.handled p type bytes).reacted p type bytes) := by
  obtain ⟨entry, hentry⟩ : ∃ entry, entry = Entry.handled (t.heap p).protocol.state type bytes := ⟨_, rfl⟩
  have hself : (t.handled p type bytes).heap p = (t.heap p).record entry := by rw [handled_self, hentry]
  have hrecord : CarriesOn (t.heap p) ((t.handled p type bytes).heap p) := by
    rw [hself]
    exact ClientHandle.record_carriesOn (by rw [hentry]; rfl) _
  have hanswered := @reacted_pingsAnswered _ (t.handled p type bytes) p type bytes
  have hcarries := hrecord.trans hanswered.carriesOn
  refine ⟨hnow.trans h.now, h.carriesOn.trans hcarries, ?_⟩
  rcases hanswered.ping with hsame | ⟨hthree, hzero, hparse, hping⟩
  · rw [hsame]
    have hsame : ((t.handled p type bytes).heap p).ping = (t.heap p).ping := by
      rw [hself]
      rfl
    rw [hsame]
    exact h.ping.imp_right (And.imp_left (any_since h.carriesOn.log hcarries.log))
  · rw [hrecord.pingID, h.carriesOn.pingID] at hparse
    rw [hrecord.pingStartTime, h.carriesOn.pingStartTime] at hping
    have hthree : (t.heap p).protocol.state = 3 := by
      rw [hself] at hthree
      exact hthree
    have hanswers : entry.answers (s.heap p).pingID = true := by
      rw [hentry, Entry.answers, hthree, hzero, hparse]
      simp
    have hlog : ((t.handled p type bytes).heap p).log = (t.heap p).log ++ [entry] := by
      rw [hself]
      rfl
    refine .inr ⟨any_since (h.carriesOn.log.trans hrecord.log) hanswered.carriesOn.log ?_, ?_⟩
    · obtain ⟨since, hsince⟩ := h.carriesOn.log
      rw [hlog, ← hsince, List.append_assoc, List.drop_left, List.any_append, List.any_cons, hanswers,
        Bool.true_or, Bool.or_true]
    · have hclock : (t.handled p type bytes).now = s.now := h.now
      rw [hping, hclock]

theorem pings_rule (s : Server Fifo) : TickRule p s (PingsKept p s) where
  receive _ _ h := h.quiet fun _ => ⟨⟨rfl, rfl, rfl, List.prefix_rfl, fun hthree => ⟨hthree, rfl⟩⟩, rfl⟩
  take h := h.quiet fun _ => ⟨⟨rfl, rfl, rfl, List.prefix_rfl, fun hthree => ⟨hthree, rfl⟩⟩, rfl⟩
  disconnect _ reason _ h := h.quiet fun c =>
    ⟨ClientHandle.disconnect_carriesOn reason c, (ClientHandle.disconnect_unpinged reason c).ping⟩
  packet _ _ _ _ h _ hsmall := h.packet (framed_of_small hsmall).now

theorem PingsKept.refl (s : Server Fifo) : PingsKept p s s := ⟨rfl, .refl _, .inl rfl⟩

/-- A tick of a connection that is not destroyed, in its two parts. -/
theorem tick_pings {s' : Server Fifo} (hs : s.Sound) (hnot : (s.heap p).isDestroyed = false)
    (h : s.tickClient p = .ok s') : ∃ t, s.processed p (.tickClient p) = some t ∧ PingsKept p s t ∧
      ReflTransGen (Small Gate.open p) s t ∧ s' = t.modify p (ClientHandle.rested s.now) := by
  obtain ⟨t, ht, hsmall, _⟩ := tickClient_parts hs hnot h
  have hlive := live_of_not (hs.connections p) (Bool.eq_false_iff.mp hnot)
  have hkept := (pings_rule s).tickReceived hs hlive (PingsKept.refl s) ht
  have heq := Except.ok.inj (h.symm.trans (tickClient_eq hs hnot ht).2)
  rw [hkept.now] at heq
  refine ⟨t, ?_, hkept, hsmall, heq⟩
  rw [processed, if_pos ⟨rfl, hnot⟩, ht]
  rfl

end Ticks

section Runs

variable {s s' : Server Fifo} {p : Nat} {r : PingRecord}

/-- As long as the ID is a raised one, it is the last that was sent, and was sent at the start time. -/
structure Tracked (p : Nat) (s : Server Fifo) (r : PingRecord) : Prop where
  settled : (s.heap p).Settled
  start : (s.heap p).pingStartTime ≤ s.now
  last : r.sent.getLast? = some ((s.heap p).pingID, (s.heap p).pingStartTime)

omit [Platform] in
theorem recorded_quiet (hsame : (s'.heap p).keepAlives = (s.heap p).keepAlives) :
    r.sent ++ ((s'.heap p).keepAlives.drop (s.heap p).keepAlives.length).map (fun id => (id, s'.now)) =
      r.sent := by
  rw [hsame, List.drop_length, List.map_nil, List.append_nil]

omit [Platform] in
theorem Tracked.keep (h : Tracked p s r) (hnow : s.now ≤ s'.now)
    (hid : (s'.heap p).pingID = (s.heap p).pingID)
    (hstays : (s'.heap p).Settled ∧ (s'.heap p).pingStartTime = (s.heap p).pingStartTime) :
    Tracked p s' r where
  settled := hstays.1
  start := by
    rw [hstays.2]
    exact h.start.trans hnow
  last := by
    rw [hid, hstays.2]
    exact h.last

/-- The clock does not go back. -/
theorem Effect.now {G : Gate} {who : Nat → Prop} (h : Effect G who s s') : s.now ≤ s'.now := by
  cases h with
  | small _ _ h => exact Int.le_of_eq h.framed.now.symm
  | accepted _ _ => exact Int.le_refl _
  | destroyed _ _ _ _ => exact Int.le_refl _
  | removed _ _ => exact Int.le_refl _
  | taken _ => exact Int.le_refl _
  | login _ _ _ _ _ _ _ => exact Int.le_refl _
  | answered => exact Int.le_refl _
  | clock elapsed => exact Int.le_add_of_nonneg_right (Int.natCast_nonneg elapsed)

theorem effects_now {G : Gate} {who : Nat → Prop} (h : ReflTransGen (Effect G who) s s') :
    s.now ≤ s'.now := by
  induction h with
  | refl => exact Int.le_refl _
  | tail _ hlast ih => exact ih.trans hlast.now

theorem effects_inStep {G : Gate} {who : Nat → Prop} (h : ReflTransGen (Effect G who) s s')
    (hs : ∀ q, (s.heap q).InStep) : ∀ q, (s'.heap q).InStep := by
  induction h with
  | refl => exact hs
  | tail _ hlast ih => exact hlast.inStep ih

theorem raises_tick {t : Server Fifo} (h : s.processed p (.tickClient p) = some t) :
    s.raises p (.tickClient p) = if ClientHandle.pingDue t.now (t.heap p).flush.startWorking then
      some (t.heap p).hasSentDC else none := by
  have hsame : (t.heap p).flush.startWorking.hasSentDC = (t.heap p).hasSentDC :=
    ClientHandle.startWorking_hasSentDC (t.heap p).flush
  rw [raises, h, ← hsame]
  rfl

/-- A tick that finds no ping due keeps what was tracked, one that finds one due tracks the new ping. -/
theorem tick_tracked {t : Server Fifo} (hs : (s.heap p).InStep) (ht : (t.heap p).InStep)
    (hnot : (s.heap p).isDestroyed = false) (hprocessed : s.processed p (.tickClient p) = some t)
    (hkept : PingsKept p s t) (hs' : s' = t.modify p (ClientHandle.rested s.now))
    (h : r.fresh = true → Tracked p s r)
    (hfresh : (s.recordPings p s' r (.tickClient p)).fresh = true) :
    Tracked p s' (s.recordPings p s' r (.tickClient p)) := by
  have hself : s'.heap p = (t.heap p).rested s.now := by
    rw [hs']
    exact if_pos rfl
  have hclock : s'.now = s.now := by
    rw [hs']
    exact hkept.now
  have hraises := raises_tick hprocessed
  rw [hkept.now] at hraises
  by_cases hdue : ClientHandle.pingDue s.now (t.heap p).flush.startWorking
  · rw [if_pos hdue] at hraises
    have hthree : (t.heap p).protocol.state = 3 := ClientHandle.due_three ht hdue
    obtain ⟨hid, hstart, hkeepAlives, hworking⟩ := ClientHandle.rested_pings hdue hthree
    have hopen : (t.heap p).hasSentDC = false := by
      rw [recordPings, hraises] at hfresh
      simpa using hfresh
    rw [hopen] at hkeepAlives
    refine ⟨.inl (by rw [hself, hworking]), by rw [hself, hstart, hclock], ?_⟩
    rw [hself, recordPings]
    dsimp only
    rw [hself, hkeepAlives, hkept.carriesOn.keepAlives, List.drop_left, hclock, hid, hstart]
    exact List.getLast?_concat
  · rw [if_neg hdue] at hraises
    obtain ⟨hid, hstart, hkeepAlives, hworking⟩ := ClientHandle.rested_quiet hdue
    have hsent : s.recordPings p s' r (.tickClient p) = r := by
      rw [recordPings, hraises, recorded_quiet (by rw [hself, hkeepAlives, hkept.carriesOn.keepAlives])]
      rfl
    rw [hsent] at hfresh ⊢
    have htracked := h hfresh
    refine htracked.keep (Int.le_of_eq hclock.symm) (by rw [hself, hid, hkept.carriesOn.pingID]) ⟨.inl ?_, ?_⟩
    · have hlive : (s.heap p).state ≠ .csDestroyed := by
        rw [ClientHandle.isDestroyed, beq_eq_false_iff_ne] at hnot
        exact hnot
      have hbefore : (s.heap p).state = .csWorking := htracked.settled.resolve_right hlive
      have hthree := (hs.agrees hlive).working.mpr (.inr hbefore)
      have hafter : (t.heap p).state = .csWorking := (hkept.carriesOn.working hthree).2.trans hbefore
      rw [hself, hworking, ClientHandle.startWorking, if_neg (by rw [hafter]; decide), hafter]
    · rw [hself, hstart, hkept.carriesOn.pingStartTime]

/-- What holds in every run in which only fresh pings are answered. -/
structure Honest (p : Nat) (x : Server Fifo × PingRecord) : Prop where
  sound : x.1.Sound
  allocated : p < x.1.allocated
  inStep : ∀ q, (x.1.heap q).InStep
  tracked : x.2.fresh = true → Tracked p x.1 x.2

theorem processed_none {e : Event} (hnot : e ≠ .tickClient p) : s.processed p e = none := by
  unfold processed
  split
  next q =>
    have hne : ¬(q = p ∧ (s.heap p).isDestroyed = false) := fun h => hnot (by rw [h.1])
    exact if_neg hne
  next => rfl

theorem processed_dead (hdead : (s.heap p).isDestroyed = true) : s.processed p (.tickClient p) = none := by
  have hne : ¬(p = p ∧ (s.heap p).isDestroyed = false) := by
    rintro ⟨_, hnot⟩
    exact absurd (hdead.symm.trans hnot) (by decide)
  exact if_neg hne

/-- A step by which nothing of `p` is processed. -/
theorem record_quiet {e : Event} (hnone : s.processed p e = none)
    (hsame : (s'.heap p).keepAlives = (s.heap p).keepAlives) : s.recordPings p s' r e = r := by
  have hraises : s.raises p e = none := by
    rw [raises, hnone]
    rfl
  rw [recordPings, recorded_quiet hsame, hraises]
  rfl

/-- Nothing of `p` is processed but in its ticks, and none when it is destroyed. -/
theorem step_quiet {e : Event} (hs : s.Sound) (he : s.enabled e = true) (hp : p < s.allocated)
    (hnot : ¬(e = .tickClient p ∧ (s.heap p).isDestroyed = false)) (h : s.step e = .ok s') :
    s.processed p e = none ∧ ClientHandle.Unpinged (s.heap p) (s'.heap p) ∧
      ClientHandle.StaysSettled (s.heap p) (s'.heap p) := by
  rcases eq_or_ne e (.tickClient p) with rfl | hne
  · have hdead : (s.heap p).isDestroyed = true := by
      rw [← Bool.not_eq_false]
      exact fun hlive => hnot ⟨rfl, hlive⟩
    have h : s.tickClient p = .ok s' := h
    rw [tickClient, if_pos hdead] at h
    cases h
    exact ⟨processed_dead hdead, .refl _, .refl _⟩
  · exact ⟨processed_none hne, step_unpinged hs he hp hne h⟩

theorem Honest.next {e : Event} (h : Honest p (s, r)) (he : s.enabled e = true) (hstep : s.step e = .ok s') :
    Honest p (s', s.recordPings p s' r e) := by
  have hs : s.Sound := h.sound
  have hp : p < s.allocated := h.allocated
  have hin : ∀ q, (s.heap q).InStep := h.inStep
  have hstepped := step_stepped hs he (gated_open s e)
  rw [hstep] at hstepped
  have heffects := hstepped.2.2
  refine ⟨sound_of_effects hs heffects, Nat.lt_of_lt_of_le hp (effects_allocated heffects),
    effects_inStep heffects hin, ?_⟩
  by_cases htick : e = .tickClient p ∧ (s.heap p).isDestroyed = false
  · obtain ⟨rfl, hnot⟩ := htick
    obtain ⟨t, hprocessed, hkept, hsmall, hs'⟩ := tick_pings hs hnot hstep
    have hothers : ReflTransGen (Effect Gate.open fun _ => True) s t := effects_of_small trivial hp hsmall
    have ht := effects_inStep hothers hin p
    exact tick_tracked (hin p) ht hnot hprocessed hkept hs' h.tracked
  · obtain ⟨hnone, hunpinged, hstays⟩ := step_quiet hs he hp htick hstep
    rw [record_quiet hnone hunpinged.keepAlives]
    intro hfresh
    have htracked : Tracked p s r := h.tracked hfresh
    exact htracked.keep (effects_now heffects) hunpinged.pingID (hstays htracked.settled)

end Runs

section Buffers

variable {β γ : Type} [ByteQueue β] [ByteQueue γ] {f : β → γ} (hf : Hom f) {p : Nat}

include hf

theorem processed_map (s : Server β) (e : Event) :
    (s.map f).processed p e = (s.processed p e).map (Server.map f) := by
  unfold processed
  split
  next q =>
    by_cases hq : q = p ∧ (s.heap p).isDestroyed = false
    · rw [if_pos hq, if_pos (show q = p ∧ ((s.map f).heap p).isDestroyed = false from hq), tickReceived_map hf]
      rcases s.tickReceived p with error | t
      · rfl
      · rfl
    · rw [if_neg hq, if_neg (show ¬(q = p ∧ ((s.map f).heap p).isDestroyed = false) from hq)]
      rfl
  next => rfl

theorem answered?_map (id : UInt32) (s : Server β) (e : Event) :
    (s.map f).answered? p id e = s.answered? p id e := by
  rw [answered?, answered?, processed_map hf]
  rcases s.processed p e with _ | t
  · rfl
  · rfl

theorem raises_map (s : Server β) (e : Event) : (s.map f).raises p e = s.raises p e := by
  rw [raises, raises, processed_map hf]
  rcases s.processed p e with _ | t
  · rfl
  · have hworks : ((t.heap p).map f).flush.startWorking = ((t.heap p).flush.startWorking).map f := by
      unfold ClientHandle.startWorking
      by_cases hstate : (t.heap p).state = .csAuthenticated
      · rw [if_pos (show (t.heap p).flush.state = .csAuthenticated from hstate),
          if_pos (show ((t.heap p).map f).flush.state = .csAuthenticated from hstate)]
        rfl
      · rw [if_neg (show ¬(t.heap p).flush.state = .csAuthenticated from hstate),
          if_neg (show ¬((t.heap p).map f).flush.state = .csAuthenticated from hstate)]
        rfl
    change (let c := ((t.heap p).map f).flush.startWorking
      if c.state = .csWorking ∧ c.pingStartTime + pingTime ≤ t.now then some c.hasSentDC else none) = _
    rw [hworks]
    rfl

theorem recordPings_map (s s' : Server β) (r : PingRecord) (e : Event) :
    (s.map f).recordPings p (s'.map f) r e = s.recordPings p s' r e := by
  unfold recordPings
  rw [raises_map hf]
  rfl

theorem pings_reachable_map {x₀ x : Server β × PingRecord} (h : (pingMachine β p).Reachable x₀ x) :
    (pingMachine γ p).Reachable (x₀.1.map f, x₀.2) (x.1.map f, x.2) := by
  refine Machine.Reach.map (f := fun y : Server β × PingRecord => (y.1.map f, y.2)) (fun y e he => ?_)
    (fun _ _ _ => trivial) (fun x e => ?_) h
  · cases e <;> exact he
  · change ((x.1.map f).step e).map _ = ((x.1.step e).map _).map _
    rw [step_map hf]
    rcases x.1.step e with error | s'
    · rfl
    · exact congrArg (fun r => Except.ok (s'.map f, r)) (recordPings_map hf x.1 s' x.2 e)

end Buffers

section Definitions

variable {β : Type} [ByteQueue β]

/-- The event does not handle an answer that names the ID of no ping that was sent. -/
def asked (p : Nat) (s : Server β) (r : PingRecord) (e : Event) : Bool :=
  !s.answered? p (s.heap p).pingID e || r.fresh

/-- The ping is as it was, or the last one that was sent is answered and it is the time since. -/
def pingHonest (p : Nat) (s s' : Server β) (r : PingRecord) (e : Event) : Prop :=
  (s'.heap p).ping = (s.heap p).ping ∨ ∃ id sent, r.sent.getLast? = some (id, sent) ∧
    s.answered? p id e = true ∧ sent ≤ s.now ∧ (s'.heap p).ping = s.now - sent

end Definitions

section Steps

variable {s s' : Server Fifo} {p : Nat} {r : PingRecord} {e : Event}

theorem Honest.pingHonest (h : Honest p (s, r)) (he : s.enabled e = true) (hasked : s.asked p r e = true)
    (hstep : s.step e = .ok s') : s.pingHonest p s' r e := by
  have hs : s.Sound := h.sound
  by_cases htick : e = .tickClient p ∧ (s.heap p).isDestroyed = false
  · obtain ⟨rfl, hnot⟩ := htick
    obtain ⟨t, hprocessed, hkept, _, hs'⟩ := tick_pings hs hnot hstep
    have hself : (s'.heap p).ping = (t.heap p).ping := by
      rw [hs', modify_heap, if_pos rfl]
      exact ClientHandle.rested_ping _ _
    rcases hkept.ping with hsame | ⟨hanswers, hping⟩
    · exact .inl (hself.trans hsame)
    · have hanswered : s.answered? p (s.heap p).pingID (.tickClient p) = true := by
        rw [answered?, hprocessed]
        exact hanswers
      have hfresh : r.fresh = true := by
        rw [asked, hanswered] at hasked
        exact hasked
      have htracked : Tracked p s r := h.tracked hfresh
      exact .inr ⟨_, _, htracked.last, hanswered, htracked.start, hself.trans hping⟩
  · exact .inl (step_quiet hs he h.allocated htick hstep).2.1.ping

end Steps

/-- In every run from the acceptance of a connection, a step that handles no answer to a ping that was not sent
keeps `m_Ping`, or sets it to the time since the keep-alive packet that is answered was sent. -/
theorem pings_honest {s₀ s s' : Server ByteBuffer} {ip : AString} {r : PingRecord} {e : Event}
    (h₀ : (serverMachine ByteBuffer).Reachable initial s₀)
    (hip : s₀.enabled (.connectionAccepted ip) = true) (hcount : s₀.clientCount ≠ 2 ^ 31 - 1)
    (h : (pingMachine ByteBuffer s₀.allocated).Reachable (s₀.accept ip, ⟨[], false⟩) (s, r))
    (he : s.enabled e = true) (hasked : s.asked s₀.allocated r e = true) (hstep : s.step e = .ok s') :
    s.pingHonest s₀.allocated s' r e := by
  have hf := ByteBuffer.contents_hom
  have hnew : s₀.step (.connectionAccepted ip) = .ok (s₀.accept ip) := by
    rw [step, connectionAccepted, if_neg hcount]
  have hcontents := reachable_contents (.next h₀ hip trivial hnew)
  rw [initial_contents] at hcontents
  have hstart := reach_invariant (I := fun s => ∀ q, (s.heap q).InStep) initial_sound
    (fun _ => ClientHandle.create_inStep _ _ _) (fun _ _ _ _ hi he => he.inStep hi) hcontents
  obtain ⟨p, hp⟩ : ∃ p, p = s₀.allocated := ⟨_, rfl⟩
  rw [← hp] at h hasked ⊢
  have hreach := pings_reachable_map hf h
  have hhonest : Honest p (s.map ByteBuffer.contents, r) := by
    refine hreach.invariant (I := Honest p) ?_ ?_
    · refine ⟨hstart.1, ?_, hstart.2, fun hfresh => absurd hfresh Bool.false_ne_true⟩
      rw [hp]
      exact Nat.lt_succ_self _
    · intro x e x' _ hx he _ hstep
      have hstep : (x.1.step e).map (fun s => (s, x.1.recordPings p s x.2 e)) = .ok x' := hstep
      rcases hok : x.1.step e with error | t
      · rw [hok] at hstep
        cases hstep
      · rw [hok] at hstep
        cases hstep
        exact hx.next he hok
  have hasked' : (s.map ByteBuffer.contents).asked p r e = true := by
    rw [asked, answered?_map hf]
    exact hasked
  have hok : (s.map ByteBuffer.contents).step e = .ok (s'.map ByteBuffer.contents) := by
    rw [step_map hf, hstep]
    rfl
  have henabled : (s.map ByteBuffer.contents).enabled e = true := by
    cases e <;> exact he
  rcases hhonest.pingHonest henabled hasked' hok with hsame | ⟨id, sent, hlast, hanswered, hrest⟩
  · exact .inl hsame
  · rw [answered?_map hf] at hanswered
    exact .inr ⟨id, sent, hlast, hanswered, hrest⟩

/-- A login, and the first tick after it. -/
def logsIn (p : Nat) : List Event := greets p ++ asksLogin p [97] ++ isAnswered

omit [Platform] in
/-- The first ping, that is answered after five nanoseconds. -/
theorem pings_honest_answer :
    letI := zeroPlatform
    ∃ s s' : Server ByteBuffer, ∃ r : PingRecord,
      (s.heap 0).ping = 1000 ∧ (s'.heap 0).ping = 5 ∧ s.pingHonest 0 s' r (.tickClient 0) := by
  let : Platform := zeroPlatform
  have hrun : ((pingMachine ByteBuffer 0).replay (fun x e => x.1.enabled e)
      (logsIn 0 ++ [.clock 18000000000, .tickClient 0, .clock 5, .receivedData 0 [2, 0, 2]])
      (initial.accept [], ⟨[], false⟩)).map (fun x => (x.1.enabled (.tickClient 0),
        x.1.asked 0 x.2 (.tickClient 0), (x.1.heap 0).ping,
        (x.1.step (.tickClient 0)).toOption.map fun s => (s.heap 0).ping)) =
      some (true, true, 1000, some 5) := by
    decide +kernel
  obtain ⟨⟨s, r⟩, hs, hvalues⟩ := Option.map_eq_some_iff.mp hrun
  obtain ⟨he, hvalues⟩ := Prod.mk.inj hvalues
  obtain ⟨hasked, hvalues⟩ := Prod.mk.inj hvalues
  obtain ⟨hping, hstep⟩ := Prod.mk.inj hvalues
  have hreach : (pingMachine ByteBuffer 0).Reachable (initial.accept [], ⟨[], false⟩) (s, r) :=
    Machine.replay_reach (fun _ _ he => ⟨he, trivial⟩) .start hs
  rcases hok : s.step (.tickClient 0) with error | s'
  · rw [hok] at hstep
    cases hstep
  · rw [hok] at hstep
    exact ⟨s, s', r, hping, Option.some.inj hstep, pings_honest .start rfl (by decide) hreach he hasked hok⟩

omit [Platform] in
/-- A client that is logged in answers the ID of the constructor before it was ever pinged, and has a ping of
minus three seconds. -/
theorem ping_unasked :
    letI := zeroPlatform
    ∃ s s' : Server ByteBuffer, ∃ r : PingRecord,
      (pingMachine ByteBuffer 0).Reachable (initial.accept [], ⟨[], false⟩) (s, r) ∧
      s.enabled (.tickClient 0) = true ∧ s.step (.tickClient 0) = .ok s' ∧ r.sent = [] ∧
      (s'.heap 0).ping = -3000000000 ∧ ¬s.pingHonest 0 s' r (.tickClient 0) := by
  let : Platform := zeroPlatform
  have hrun : ((pingMachine ByteBuffer 0).replay (fun x e => x.1.enabled e)
      (logsIn 0 ++ [.receivedData 0 [2, 0, 1]])
      (initial.accept [], ⟨[], false⟩)).map (fun x => (x.1.enabled (.tickClient 0), x.2.sent,
        (x.1.heap 0).ping, (x.1.step (.tickClient 0)).toOption.map fun s => (s.heap 0).ping)) =
      some (true, [], 1000, some (-3000000000)) := by
    decide +kernel
  obtain ⟨⟨s, r⟩, hs, hvalues⟩ := Option.map_eq_some_iff.mp hrun
  obtain ⟨he, hvalues⟩ := Prod.mk.inj hvalues
  obtain ⟨hsent, hvalues⟩ := Prod.mk.inj hvalues
  obtain ⟨hping, hstep⟩ := Prod.mk.inj hvalues
  rcases hok : s.step (.tickClient 0) with error | s'
  · rw [hok] at hstep
    cases hstep
  · rw [hok] at hstep
    have hping' : (s'.heap 0).ping = -3000000000 := Option.some.inj hstep
    refine ⟨s, s', r, Machine.replay_reach (fun _ _ he => ⟨he, trivial⟩) .start hs, he, hok, hsent, hping', ?_⟩
    rintro (hsame | ⟨id, sent, hlast, _⟩)
    · rw [hping', show (s.heap 0).ping = 1000 from hping] at hsame
      exact absurd hsame (by decide)
    · rw [show r.sent = [] from hsent] at hlast
      cases hlast

end Server

end P2PChat

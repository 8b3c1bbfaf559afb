import P2PChat.Profiles
import P2PChat.StateAgreement
import P2PChat.TickRules

namespace P2PChat

open ByteQueue Relation

/-- The ID of a keep-alive packet. -/
def Packet.keepAlive? (p : Packet) : Option UInt32 :=
  match p.fields with
  | [.varInt32 id] => if p.type = 0x00 then some id else none
  | _ => none

/-- The ID of a keep-alive packet that came to `m_OutgoingData`. -/
def Entry.keepAlive? : Entry → Option UInt32
  | .queued _ packet => packet.keepAlive?
  | _ => none

/-- A keep-alive packet of the client with this ID was handled. -/
def Entry.answers [Platform] (id : UInt32) : Entry → Bool
  | .handled state type bytes => state == 3 && type == 0x00 && (parseVarInt32 bytes).1 == some id
  | _ => false

/-- The keep-alive packets that were sent to a connection, with their times. `fresh` is set while `m_PingID` is
one that was raised, and not after a disconnect was sent. -/
structure PingRecord where
  sent : List (UInt32 × Int)
  fresh : Bool

namespace ClientHandle

/-- The IDs of the keep-alive packets that came to `m_OutgoingData`. -/
def keepAlives {β : Type} (c : ClientHandle β) : List UInt32 := c.log.filterMap Entry.keepAlive?

end ClientHandle

namespace Server

section Definitions

variable {β : Type} [ByteQueue β] [Platform]

/-- A tick of `p`, after it has processed the received data. -/
def processed (p : Nat) (s : Server β) : Event → Option (Server β)
  | .tickClient q => if q = p ∧ (s.heap p).isDestroyed = false then (s.tickReceived p).toOption else none
  | _ => none

/-- The event handles a keep-alive packet of `p` with this ID. -/
def answered? (p : Nat) (id : UInt32) (s : Server β) (e : Event) : Bool :=
  (s.processed p e).any fun t => ((t.heap p).log.drop (s.heap p).log.length).any (Entry.answers id)

/-- The tick raises the `m_PingID` of `p`, and finds this `m_HasSentDC` then. -/
def raises (p : Nat) (s : Server β) (e : Event) : Option Bool :=
  (s.processed p e).bind fun t =>
    let c := (t.heap p).flush.startWorking
    if c.state = .csWorking ∧ c.pingStartTime + pingTime ≤ t.now then some c.hasSentDC else none

def recordPings (p : Nat) (s s' : Server β) (r : PingRecord) (e : Event) : PingRecord where
  sent := r.sent ++ ((s'.heap p).keepAlives.drop (s.heap p).keepAlives.length).map fun id => (id, s'.now)
  fresh := ((s.raises p e).map (!·)).getD r.fresh

end Definitions

end Server

/-- The server with a record of the pings of one connection. -/
def pingMachine (β : Type) [ByteQueue β] [Platform] (p : Nat) : Machine (Server β × PingRecord) Event Halt where
  enabled x e := x.1.enabled e = true
  step x e := (x.1.step e).map fun s => (s, x.1.recordPings p s x.2 e)

namespace ClientHandle

section Pings

variable {c c' c'' : ClientHandle Fifo}

/-- No ping was sent, and none answered. -/
structure Unpinged (c c' : ClientHandle Fifo) : Prop where
  ping : c'.ping = c.ping
  pingID : c'.pingID = c.pingID
  keepAlives : c'.keepAlives = c.keepAlives

theorem Unpinged.refl (c : ClientHandle Fifo) : Unpinged c c := ⟨rfl, rfl, rfl⟩

theorem Unpinged.trans (h : Unpinged c c') (h' : Unpinged c' c'') : Unpinged c c'' :=
  ⟨h'.ping.trans h.ping, h'.pingID.trans h.pingID, h'.keepAlives.trans h.keepAlives⟩

theorem keepAlives_append {log : List Entry} {entry : Entry} (h : entry.keepAlive? = none) :
    (log ++ [entry]).filterMap Entry.keepAlive? = log.filterMap Entry.keepAlive? := by
  rw [List.filterMap_append, List.filterMap_cons_none h, List.filterMap_nil, List.append_nil]

theorem record_unpinged {entry : Entry} (h : entry.keepAlive? = none) (c : ClientHandle Fifo) :
    Unpinged c (c.record entry) := ⟨rfl, rfl, keepAlives_append h⟩

theorem queue_keepAlives (p : Packet) (c : ClientHandle Fifo) :
    (c.queue p).keepAlives = c.keepAlives ++ if c.hasSentDC then [] else p.keepAlive?.toList := by
  rw [ClientHandle.keepAlives, queue_log]
  split
  next => exact (List.append_nil _).symm
  next =>
    have hentry : Entry.keepAlive? (.queued c.protocol.state p) = p.keepAlive? := rfl
    rw [List.filterMap_append]
    cases hp : p.keepAlive? with
    | none =>
      rw [List.filterMap_cons_none (hentry.trans hp)]
      rfl
    | some id =>
      rw [List.filterMap_cons_some (hentry.trans hp)]
      rfl

theorem queue_unpinged {p : Packet} (h : p.keepAlive? = none) (c : ClientHandle Fifo) :
    Unpinged c (c.queue p) := by
  have hkept := queue_keepAlives p c
  rw [h, Option.toList_none, ite_self, List.append_nil] at hkept
  exact ⟨by rw [queue_eq], by rw [queue_eq], hkept⟩

theorem queueAll_unpinged {told : List Packet} (h : ∀ pkt ∈ told, pkt.keepAlive? = none)
    (c : ClientHandle Fifo) : Unpinged c (c.queueAll told) := by
  induction told generalizing c with
  | nil => exact .refl c
  | cons pkt told ih =>
    obtain ⟨hpkt, htold⟩ := List.forall_mem_cons.mp h
    rw [queueAll_cons]
    exact (queue_unpinged hpkt c).trans (ih htold (c.queue pkt))

theorem disconnect_unpinged (reason : Int32) (c : ClientHandle Fifo) : Unpinged c (c.disconnect reason) := by
  unfold disconnect
  split
  next => exact .refl c
  next =>
    split
    next => exact (queue_unpinged rfl c).trans ⟨rfl, rfl, rfl⟩
    next =>
      split
      next => exact (queue_unpinged rfl c).trans ⟨rfl, rfl, rfl⟩
      next => exact ⟨rfl, rfl, rfl⟩

theorem unpinged_passive : Passive Unpinged where
  refl := .refl
  trans := .trans
  userInfo _ c _ := queue_unpinged rfl c
  disconnect := disconnect_unpinged
  loginSucceeded c := ((record_unpinged rfl c).trans (queue_unpinged rfl _)).trans ⟨rfl, rfl, rfl⟩
  same _ _ _ _ _ _ := ⟨rfl, rfl, rfl⟩

/-- A connection that pings are sent to, or that was destroyed: nothing but a ping sets its start time. -/
def Settled (c : ClientHandle Fifo) : Prop := c.state = .csWorking ∨ c.state = .csDestroyed

/-- A settled connection stays so, and keeps its start time. -/
def StaysSettled (c c' : ClientHandle Fifo) : Prop := c.Settled → c'.Settled ∧ c'.pingStartTime = c.pingStartTime

theorem StaysSettled.refl (c : ClientHandle Fifo) : StaysSettled c c := fun h => ⟨h, rfl⟩

theorem StaysSettled.trans (h : StaysSettled c c') (h' : StaysSettled c' c'') : StaysSettled c c'' := by
  intro hc
  obtain ⟨hc', hstart⟩ := h hc
  obtain ⟨hc'', hstart'⟩ := h' hc'
  exact ⟨hc'', hstart'.trans hstart⟩

theorem staysSettled_of_same (hstate : c'.state = c.state) (hstart : c'.pingStartTime = c.pingStartTime) :
    StaysSettled c c' := by
  intro hc
  unfold Settled
  rw [hstate]
  exact ⟨hc, hstart⟩

theorem disconnect_staysSettled (reason : Int32) (c : ClientHandle Fifo) : StaysSettled c (c.disconnect reason) := by
  rw [disconnect_eq]
  exact staysSettled_of_same rfl rfl

theorem queueAll_staysSettled (told : List Packet) (c : ClientHandle Fifo) : StaysSettled c (c.queueAll told) := by
  rw [queueAll_eq]
  exact staysSettled_of_same rfl rfl

end Pings

end ClientHandle

namespace Server

open ClientHandle (Unpinged StaysSettled)

section Others

variable {s s' : Server Fifo} {p : Nat}

theorem told_keepAlive {pkt : Packet} (h : told pkt) : pkt.keepAlive? = none := by
  unfold Packet.keepAlive?
  split
  next =>
    have hne : pkt.type ≠ 0x00 := by
      intro h0
      rcases h with h1 | h1 | h1
      · exact absurd (h0.symm.trans h1) (by decide)
      · exact absurd (h0.symm.trans h1) (by decide)
      · exact absurd (h0.symm.trans h1) (by decide)
    rw [if_neg hne]
  next => rfl

theorem modify_staysSettled {g : ClientHandle Fifo → ClientHandle Fifo} (q : Nat) (h : ∀ c, StaysSettled c (g c)) :
    StaysSettled (s.heap p) ((s.modify q g).heap p) := by
  rw [modify_heap]
  split
  next heq =>
    rw [heq]
    exact h _
  next => exact .refl _

theorem tellAll_staysSettled (q : Nat) : StaysSettled (s.heap p) ((s.tellAll q).heap p) := by
  obtain ⟨told, htold, _⟩ := tellOver_queueAll q s.clients s p
  rw [tellAll, htold]
  exact ClientHandle.queueAll_staysSettled told _

theorem kick_staysSettled (hs : s.Sound) {q : Nat} {reason : Int32}
    (h : s.act q (ClientHandle.sendDisconnect reason) = .ok s') : StaysSettled (s.heap p) (s'.heap p) := by
  rw [kick_modify hs] at h
  cases h
  exact modify_staysSettled q (ClientHandle.disconnect_staysSettled reason)

theorem destroy_staysSettled (hs : s.Sound) {q : Nat} (h : s.destroy q = .ok s') :
    StaysSettled (s.heap p) (s'.heap p) := by
  unfold destroy at h
  split at h
  next =>
    cases h
    exact modify_staysSettled q fun c => ClientHandle.staysSettled_of_same rfl rfl
  next =>
    have hclosed := closed_sound hs q
    have hok := broadcastUserInfo_ok hclosed.connections hclosed.nodup q
    have heq := Except.ok.inj (hok.symm.trans h)
    have hstays : StaysSettled (s.heap p) ((s.closed q).heap p) := by
      rw [closed_heap]
      split
      next heq =>
        rw [heq]
        exact fun _ => ⟨.inr rfl, rfl⟩
      next => exact .refl _
    rw [← heq]
    exact hstays.trans (tellAll_staysSettled q)

variable [Platform]

theorem kickLoop_staysSettled (hs : s.Sound) {id : UInt32} {reason : Int32} {l : List Nat}
    (h : kickLoop id reason l s = .ok s') : StaysSettled (s.heap p) (s'.heap p) := by
  induction l generalizing s with
  | nil =>
    cases h
    exact .refl _
  | cons q l ih =>
    unfold kickLoop at h
    split at h
    next =>
      obtain ⟨t, hkick, hloop⟩ := bind_ok_iff.mp h
      obtain ⟨t', hok, hleads⟩ := kick_ok hs (G := Gate.open) q reason
      have heq : t' = t := Except.ok.inj (hok.symm.trans hkick)
      have hsound := sound_of_small hs hleads.small
      rw [heq] at hsound
      exact (kick_staysSettled hs hkick).trans (ih hsound hloop)
    next => exact ih hs h

/-- Only a connection that waits for its authentication is logged in. -/
theorem answer_staysSettled (hs : s.Sound) {user : User} (hin : s.inFlight = some user)
    (h : answer user { s with inFlight := none } = .ok s') : StaysSettled (s.heap p) (s'.heap p) := by
  have hs₁ := answered_sound hs
  have hsame : (s.heap p) = (({ s with inFlight := none } : Server Fifo).heap p) := rfl
  rw [hsame]
  unfold answer at h
  dsimp only at h
  split at h
  next hauth =>
    have hname := accepted_length hs hin hauth
    generalize ({ s with inFlight := none } : Server Fifo) = t at *
    unfold authenticateUser at h
    split at h
    next q _ =>
      by_cases hstate : (t.heap q).state = .csAuthenticating
      · by_cases hfree : t.isPlayerInQueue user.username = false
        · rw [authenticate_login hs₁ hname hstate hfree] at h
          cases h
          intro hsettled
          have hne : p ≠ q := by
            rintro rfl
            rcases hsettled with hworking | hdestroyed
            · rw [hstate] at hworking
              cases hworking
            · rw [hstate] at hdestroyed
              cases hdestroyed
          have htold := @tellAll_staysSettled (t.admitted q user.username) p q
          rw [admitted_other hne] at htold
          rw [modify_heap, if_neg hne]
          exact htold hsettled
        · rw [Bool.not_eq_false] at hfree
          rw [authenticate, if_neg (not_not.mpr hstate), if_pos hfree] at h
          exact kick_staysSettled hs₁ h
      · rw [authenticate, if_pos hstate] at h
        cases h
        exact .refl _
    next =>
      cases h
      exact .refl _
  next => exact kickLoop_staysSettled hs₁ h

/-- What an effect that does not concern `p` tells it is no ping. -/
theorem effects_unpinged {G : Gate} {who : Nat → Prop} (h : ReflTransGen (Effect G who) s s') (hp : ¬who p)
    (ha : p < s.allocated) :
    p < s'.allocated ∧ Unpinged (s.heap p) (s'.heap p) ∧ StaysSettled (s.heap p) (s'.heap p) := by
  induction h with
  | refl => exact ⟨ha, .refl _, .refl _⟩
  | tail _ hlast ih =>
    obtain ⟨ha', hunpinged, hstays⟩ := ih
    obtain ⟨packets, hpackets, htold⟩ := hlast.told hp ha'
    refine ⟨Nat.lt_of_lt_of_le ha' hlast.allocated, ?_, ?_⟩
    · rw [hpackets]
      exact hunpinged.trans (ClientHandle.queueAll_unpinged (fun pkt hpkt => told_keepAlive (htold pkt hpkt)) _)
    · rw [hpackets]
      exact hstays.trans (ClientHandle.queueAll_staysSettled packets _)

/-- No event but a tick of `p` sends it a ping or takes the answer to one. -/
theorem step_unpinged (hs : s.Sound) {e : Event} (he : s.enabled e = true) (hp : p < s.allocated)
    (hnot : e ≠ .tickClient p) (h : s.step e = .ok s') :
    Unpinged (s.heap p) (s'.heap p) ∧ StaysSettled (s.heap p) (s'.heap p) := by
  have hpassive := ClientHandle.unpinged_passive
  cases e with
  | connectionAccepted ip =>
    refine ⟨step_passive hpassive hs hp (by simp) (by simp) h, ?_⟩
    simp only [step, connectionAccepted] at h
    split at h
    next => cases h
    next =>
      cases h
      rw [accept_heap, if_neg (Nat.ne_of_lt hp)]
      exact .refl _
  | receivedData q data =>
    cases h
    refine ⟨modify_passive hpassive q fun _ => ⟨rfl, rfl, rfl⟩, modify_staysSettled q fun _ => ?_⟩
    exact ClientHandle.staysSettled_of_same rfl rfl
  | tickClient q =>
    have hne : ¬s.concerns (.tickClient q) p := fun heq => hnot (by rw [show p = q from heq])
    have hstepped := step_stepped hs he (gated_open s _)
    rw [h] at hstepped
    exact (effects_unpinged hstepped.2.2 hne hp).2
  | remoteClosed q => exact ⟨step_passive hpassive hs hp (by simp) (by simp) h, destroy_staysSettled hs h⟩
  | released q => exact ⟨step_passive hpassive hs hp (by simp) (by simp) h, kick_staysSettled hs h⟩
  | authenticatorTake =>
    cases h
    exact ⟨.refl _, .refl _⟩
  | authenticatorAnswer =>
    refine ⟨step_passive hpassive hs hp (by simp) (by simp) h, ?_⟩
    simp only [step, authenticatorAnswer] at h
    split at h
    next =>
      cases h
      exact .refl _
    next user hin => exact answer_staysSettled hs hin h
  | clock elapsed =>
    cases h
    exact ⟨.refl _, .refl _⟩

end Others

end Server

end P2PChat

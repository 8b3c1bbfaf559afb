import P2PChat.StateAgreement
import P2PChat.StreamRules
import P2PChat.TickRules

namespace P2PChat

open ByteQueue Relation

namespace ClientHandle

/-- Nothing came in, and nothing was handled. -/
structure Untouched (c c' : ClientHandle Fifo) : Prop where
  incoming : c'.incomingData = c.incomingData
  keeps : Keeps c c'

theorem Untouched.refl (c : ClientHandle Fifo) : Untouched c c := ⟨rfl, Keeps.refl c⟩

theorem Untouched.trans {c c' c'' : ClientHandle Fifo} (h : Untouched c c') (h' : Untouched c' c'') :
    Untouched c c'' := ⟨h'.incoming.trans h.incoming, h.keeps.trans h'.keeps⟩

theorem queue_untouched (p : Packet) (c : ClientHandle Fifo) : Untouched c (c.queue p) :=
  ⟨by rw [queue_eq], queue_keeps p c⟩

theorem disconnect_untouched (reason : Int32) (c : ClientHandle Fifo) : Untouched c (c.disconnect reason) :=
  ⟨by rw [disconnect_eq], disconnect_keeps reason c⟩

theorem queueAll_untouched (told : List Packet) (c : ClientHandle Fifo) : Untouched c (c.queueAll told) :=
  ⟨by rw [queueAll_eq], queueAll_keeps told c⟩

theorem untouched_passive : Passive Untouched where
  refl := Untouched.refl
  trans := Untouched.trans
  userInfo _ c _ := queue_untouched _ c
  disconnect := disconnect_untouched
  loginSucceeded c := by
    refine ⟨?_, loginSucceeded_keeps c⟩
    rw [loginSucceeded, queue_eq]
    rfl
  same _ _ _ _ _ _ := ⟨rfl, rfl, rfl⟩

/-- Nothing came in, and nothing is known of the peer that was not. -/
structure Steady (c c' : ClientHandle Fifo) : Prop where
  incoming : c'.incomingData = c.incomingData
  link : c'.link = c.link
  ticks : c'.ticksSinceLastPacket = c.ticksSinceLastPacket

theorem steady_reactive : Reactive Steady where
  refl _ := ⟨rfl, rfl, rfl⟩
  trans h h' := ⟨h'.incoming.trans h.incoming, h'.link.trans h.link, h'.ticks.trans h.ticks⟩
  queue p c := by
    rw [queue_eq]
    exact ⟨rfl, rfl, rfl⟩
  disconnect reason c := by
    rw [disconnect_eq]
    exact ⟨rfl, rfl, rfl⟩
  setProtocolState _ _ := ⟨rfl, rfl, rfl⟩
  setState _ := ⟨rfl, rfl, rfl⟩
  handleKeepAlive id now c := by
    unfold handleKeepAlive
    split <;> exact ⟨rfl, rfl, rfl⟩

theorem rested_untouched (now : Int) (c : ClientHandle Fifo) : Untouched c (c.rested now) := by
  refine ⟨?_, rested_keeps now c⟩
  have hwork : ∀ c : ClientHandle Fifo, c.startWorking.incomingData = c.incomingData := by
    intro c
    unfold startWorking
    split <;> rfl
  have hping : ∀ c : ClientHandle Fifo, (c.pinged now).incomingData = c.incomingData := by
    intro c
    unfold pinged keepAliveSent
    split
    next =>
      split
      next => rfl
      next => rw [queue_eq]; rfl
    next => rfl
  have htime : ∀ c : ClientHandle Fifo, c.timedOut.incomingData = c.incomingData := by
    intro c
    unfold timedOut
    split
    next => rw [disconnect_eq]; rfl
    next => rfl
  rw [rested, htime, hping, hwork]
  rfl

/-- The second part of a tick ends the connection only when the peer was not heard of for too long. -/
theorem rested_eq (now : Int) (c : ClientHandle Fifo) :
    (c.rested now).link = c.link ∧ (c.rested now).protocol.state = c.protocol.state ∧
      (c.rested now).hasSentDC = (c.hasSentDC || decide (600 ≤ c.ticksSinceLastPacket)) ∧
        (c.rested now).isDestroyed = c.isDestroyed := by
  have hwork : c.flush.startWorking.link = c.link ∧ c.flush.startWorking.protocol.state = c.protocol.state ∧
      c.flush.startWorking.hasSentDC = c.hasSentDC ∧ c.flush.startWorking.isDestroyed = c.isDestroyed ∧
        c.flush.startWorking.ticksSinceLastPacket = c.ticksSinceLastPacket := by
    unfold startWorking
    split
    next hstate =>
      have hstate : c.state = .csAuthenticated := hstate
      refine ⟨rfl, rfl, rfl, ?_, rfl⟩
      rw [isDestroyed, isDestroyed, hstate]
      rfl
    next => exact ⟨rfl, rfl, rfl, rfl, rfl⟩
  have hping : ∀ c : ClientHandle Fifo, (c.pinged now).link = c.link ∧
      (c.pinged now).protocol.state = c.protocol.state ∧ (c.pinged now).hasSentDC = c.hasSentDC ∧
        (c.pinged now).isDestroyed = c.isDestroyed ∧
          (c.pinged now).ticksSinceLastPacket = c.ticksSinceLastPacket := by
    intro c
    unfold pinged keepAliveSent
    split
    next =>
      split
      next => exact ⟨rfl, rfl, rfl, rfl, rfl⟩
      next =>
        rw [queue_eq]
        exact ⟨rfl, rfl, rfl, rfl, rfl⟩
    next => exact ⟨rfl, rfl, rfl, rfl, rfl⟩
  have htime : ∀ c : ClientHandle Fifo, c.timedOut.link = c.link ∧
      c.timedOut.protocol.state = c.protocol.state ∧
        c.timedOut.hasSentDC = (c.hasSentDC || decide (600 ≤ c.ticksSinceLastPacket)) ∧
          c.timedOut.isDestroyed = c.isDestroyed := by
    intro c
    have hcount : c.countTick.ticksSinceLastPacket = c.ticksSinceLastPacket + 1 := rfl
    unfold timedOut
    rw [hcount]
    split
    next hlate =>
      have hlate : 600 ≤ c.ticksSinceLastPacket := by omega
      rw [disconnect_eq]
      simp [countTick, isDestroyed, hlate]
    next hlate =>
      have hlate : ¬600 ≤ c.ticksSinceLastPacket := by omega
      simp [countTick, isDestroyed, hlate]
  obtain ⟨hlink, hstate, hdc, hdead⟩ := htime (c.flush.startWorking.pinged now)
  obtain ⟨hlink', hstate', hdc', hdead', hticks'⟩ := hping c.flush.startWorking
  obtain ⟨hlink'', hstate'', hdc'', hdead'', hticks''⟩ := hwork
  rw [rested, hlink, hlink', hlink'', hstate, hstate', hstate'', hdc, hdc', hdc'', hdead, hdead', hdead'',
    hticks', hticks'']
  exact ⟨rfl, rfl, rfl, rfl⟩

theorem rested_hasSentDC {now : Int} {c : ClientHandle Fifo} (h : (c.rested now).hasSentDC = false) :
    c.hasSentDC = false := by
  rw [(rested_eq now c).2.2.1, Bool.or_eq_false_iff] at h
  exact h.1

end ClientHandle

/-- What comes in from this connection. -/
def Event.bytesFor (p : Nat) : Event → AString
  | .receivedData q data => if q = p then data else []
  | _ => []

/-- A receive buffer with less than a frame in it. -/
def Clear [Platform] (b : Fifo) : Prop := ∃ u : AString, u.length ≤ 65536 ∧ b = Fifo.filled 65536 u ∧ nextFrame u = none

/-- The server takes this packet of a connection in its last state, and reads it whole. -/
def Acceptable [Platform] (p : UInt32 × AString) : Prop :=
  Server.knows 3 p.1 = true ∧ (Server.reads 3 p.1 (call p).2).2 + 1 = (call p).2.length

/-- A packet that a client may send: one that the server can take, or one of the login. -/
structure Written [Platform] (p : UInt32 × AString) : Prop where
  fits : (rawPacket p).body.length ≤ 65536
  known : p.1 = 0x00 ∨ Acceptable p

theorem written_size [Platform] {todo : List (UInt32 × AString)} (h : ∀ p ∈ todo, Written p) :
    ∀ p ∈ todo, (rawPacket p).body.length < 2 ^ 32 := by
  intro p hp
  have hfits := (h p hp).fits
  omega

namespace Server

variable [Platform] {s s' t : Server Fifo} {p q : Nat} {type : UInt32} {bytes : AString}

theorem Small.range {G : Gate} (h : Small G p s t)
    (hrange : (s.heap p).protocol.state = 1 ∨ (s.heap p).protocol.state = 2 ∨ (s.heap p).protocol.state = 3) :
    (t.heap p).protocol.state = 1 ∨ (t.heap p).protocol.state = 2 ∨ (t.heap p).protocol.state = 3 := by
  cases h with
  | @change c hc =>
    rw [store_heap, if_pos rfl]
    cases hc with
    | quiet hsame =>
      rw [hsame.protocolState]
      exact hrange
    | handled _ _ _ => exact hrange
    | status state _ _ hstate =>
      rw [ClientHandle.queue_protocol]
      exact hstate.imp_right Or.inl
    | pong _ _ =>
      rw [ClientHandle.queue_protocol]
      exact hrange
    | lost _ h1 h2 h3 =>
      rcases hrange with h | h | h
      · exact absurd h h1
      · exact absurd h h2
      · exact absurd h h3
    | disconnect reason =>
      rw [ClientHandle.disconnect_eq]
      exact hrange
    | flush => exact hrange
    | working _ => exact hrange
    | keepAlive id now _ =>
      unfold ClientHandle.keepAliveSent
      split
      next => exact hrange
      next =>
        rw [ClientHandle.queue_protocol]
        exact hrange
  | request _ _ _ _ _ =>
    rw [handleLogin, modify_heap, if_pos rfl]
    exact hrange
  | @relayed r pkt _ _ _ _ =>
    rcases eq_or_ne p r with rfl | hne
    · rw [tell_self, ClientHandle.queue_protocol]
      exact hrange
    · rw [tell_other hne]
      exact hrange

theorem range_of_small {G : Gate} (h : ReflTransGen (Small G p) s t)
    (hrange : (s.heap p).protocol.state = 1 ∨ (s.heap p).protocol.state = 2 ∨ (s.heap p).protocol.state = 3) :
    (t.heap p).protocol.state = 1 ∨ (t.heap p).protocol.state = 2 ∨ (t.heap p).protocol.state = 3 := by
  induction h with
  | refl => exact hrange
  | tail _ hlast ih => exact hlast.range ih

/-- A packet of a type that the `switch` has not ends the connection. -/
theorem reacted_refused
    (hrange : (s.heap p).protocol.state = 1 ∨ (s.heap p).protocol.state = 2 ∨ (s.heap p).protocol.state = 3)
    (hunknown : knows (s.heap p).protocol.state type = false) :
    s.reacted p type bytes = s.refused p := by
  unfold reacted
  rcases hrange with h | h | h
  · rw [h] at hunknown ⊢
    have hboth : type ≠ 0x00 ∧ type ≠ 0x01 := by simpa [knows] using hunknown
    rw [if_pos rfl, if_neg hboth.1, if_neg hboth.2]
  · rw [h] at hunknown ⊢
    have hno : type ≠ 0x00 := by simpa [knows] using hunknown
    rw [if_neg (by decide), if_pos rfl, if_neg hno]
  · rw [h] at hunknown ⊢
    have hall : (type ≠ 0x00 ∧ type ≠ 0x11) ∧ type ≠ 0x12 := by simpa [knows] using hunknown
    rw [if_neg (by decide), if_neg (by decide), if_pos rfl, if_neg hall.1.1,
      if_neg (not_or.mpr ⟨hall.1.2, hall.2⟩)]

theorem treated_refused
    (hrange : (t.heap p).protocol.state = 1 ∨ (t.heap p).protocol.state = 2 ∨ (t.heap p).protocol.state = 3)
    (hunknown : knows (t.heap p).protocol.state type = false) :
    ((t.treated p type bytes).heap p).hasSentDC = true := by
  have hsame : ((t.handled p type bytes).heap p).protocol.state = (t.heap p).protocol.state := by
    rw [handled_self]
    rfl
  have hunknown' : ¬(knows (t.heap p).protocol.state type = true ∧
      (reads (t.heap p).protocol.state type bytes).2 + 1 ≠ bytes.length) := by
    rw [hunknown]
    exact fun h => Bool.noConfusion h.1
  rw [treated, if_neg hunknown', reacted_refused (by rw [hsame]; exact hrange) (by rw [hsame]; exact hunknown),
    refused, modify_heap, if_pos rfl, ClientHandle.disconnect_eq]

/-- A packet that is taken and read whole does not. -/
theorem treated_acceptable (hstate : (t.heap p).protocol.state = 3) {packet : UInt32 × AString}
    (h : Acceptable packet) (hdc : (t.heap q).hasSentDC = false) :
    ((t.treated p packet.1 (call packet).2).heap q).hasSentDC = false := by
  obtain ⟨hknown, hread⟩ := h
  have hsame : ((t.handled p packet.1 (call packet).2).heap p).protocol.state = 3 := by
    rw [handled_self]
    exact hstate
  have hmodify : ∀ {s : Server Fifo} {g : ClientHandle Fifo → ClientHandle Fifo} (r : Nat),
      (∀ c, (g c).hasSentDC = c.hasSentDC) → (s.heap q).hasSentDC = false →
        ((s.modify r g).heap q).hasSentDC = false := by
    intro s g r hg hno
    rw [modify_heap]
    split
    next heq =>
      rw [hg, ← heq]
      exact hno
    next => exact hno
  have hhandled : ((t.handled p packet.1 (call packet).2).heap q).hasSentDC = false :=
    hmodify p (fun _ => rfl) hdc
  rw [treated, hstate, if_neg (fun hwrong => hwrong.2 hread), reacted, hsame, if_neg (by decide),
    if_neg (by decide), if_pos rfl]
  split
  next =>
    rcases (parseVarInt32 (call packet).2).1 with _ | id
    · exact hhandled
    · refine hmodify p (fun c => ?_) hhandled
      unfold ClientHandle.handleKeepAlive
      split <;> rfl
  next h0 =>
    split
    next =>
      rcases (t.handled p packet.1 (call packet).2).relay p packet.1 (call packet).2 with _ | x
      · exact hhandled
      · exact hmodify x.1 (ClientHandle.queue_hasSentDC x.2) hhandled
    next hmedia =>
      obtain ⟨h11, h12⟩ := not_or.mp hmedia
      simp [knows, h0, h11, h12] at hknown

/-- What the handling of a packet leaves as every handler and every kick does, it leaves. -/
theorem treated_reactive {R : ClientHandle Fifo → ClientHandle Fifo → Prop} (hR : ClientHandle.Reactive R)
    (hrecord : ∀ c : ClientHandle Fifo, R c (c.record (.handled c.protocol.state type bytes))) :
    R (t.heap q) ((t.treated p type bytes).heap q) := by
  have hmodify : ∀ {s : Server Fifo} {g : ClientHandle Fifo → ClientHandle Fifo},
      (∀ c, R c (g c)) → R (s.heap q) ((s.modify p g).heap q) := by
    intro s g hg
    rw [modify_heap]
    split
    next heq =>
      rw [heq]
      exact hg _
    next => exact hR.refl _
  have hreacted := hR.trans (hmodify (s := t) hrecord)
    (reacted_reactive (s := t.handled p type bytes) (p := q) hR p type bytes)
  unfold treated
  split
  next => exact hR.trans hreacted (hmodify (hR.disconnect _))
  next => exact hreacted

/-- Where the loop of a tick stands on a stream: these frames are handled. -/
structure Intake (p : Nat) (s : Server Fifo) (done : List (UInt32 × AString)) (t : Server Fifo) : Prop where
  small : ReflTransGen (Small Gate.open p) s t
  steady : ClientHandle.Steady (s.heap p).takeIncoming (t.heap p)
  calls : (t.heap p).calls = (s.heap p).calls ++ done.map call
  stays : (s.heap p).protocol.state = 3 → (s.heap p).hasSentDC = false → (∀ q ∈ done, Acceptable q) →
    (t.heap p).hasSentDC = false

theorem intake_rule (hs : s.Sound) (hlive : (s.heap p).state.toNat < 4)
    (hrange : (s.heap p).protocol.state = 1 ∨ (s.heap p).protocol.state = 2 ∨ (s.heap p).protocol.state = 3)
    (todo : List (UInt32 × AString)) :
    (endpoint p).ClosingRule 65536 todo (Intake p s) (fun t => (t.heap p).hasSentDC = true)
      (fun _ => False) (fun _ => True) where
  received b t := by
    change ((t.modify p (ClientHandle.setReceived b)).heap p).protocol.receivedData = b
    rw [modify_heap, if_pos rfl]
    rfl
  setReceived done u t hu h := by
    have hself : (((endpoint p).setReceived (Fifo.filled 65536 u) t).heap p) =
        (t.heap p).setReceived (Fifo.filled 65536 u) := if_pos rfl
    refine ⟨h.small.tail (setReceived_small hu t), ?_, ?_, ?_⟩
    · rw [hself]
      exact ⟨h.steady.incoming, h.steady.link, h.steady.ticks⟩
    · rw [hself]
      exact h.calls
    · rw [hself]
      exact h.stays
  frame done packet rest bb t _ h hbb hlen := by
    have ht := sound_of_small hs h.small
    have hlive' := (framed_of_small h.small).live.mpr hlive
    have hrange' := range_of_small h.small hrange
    rcases hlong : overlong (t.relay p packet.1 bb.unread).toList with _ | _
    · obtain ⟨hok, hsmall, hreceived⟩ := handleFrame_eq ht hlive' hlen fun x hx => relay_fits (x := x) hlong hx
      refine Or.inr (Or.inl ⟨_, _, hok, hreceived, ⟨h.small.trans hsmall, ?_, ?_, ?_⟩, fun hno => ?_⟩)
      · exact ClientHandle.steady_reactive.trans h.steady
          (treated_reactive ClientHandle.steady_reactive fun _ => ⟨rfl, rfl, rfl⟩)
      · rw [treated_calls, h.calls, hbb, List.map_append, List.append_assoc]
        rfl
      · intro hstate hdc hall
        have hbytes : bb.unread = (call packet).2 := hbb
        rw [hbytes]
        refine treated_acceptable ((framed_of_small h.small).working.mpr hstate) (hall packet (by simp)) ?_
        exact h.stays hstate hdc fun q hq => hall q (List.mem_append_left _ hq)
      · exact treated_refused hrange' hno
    · obtain ⟨x, hx, hbody⟩ := relay_long hlong
      refine Or.inl ⟨.verify, ?_, trivial⟩
      change (do
        let (understood, bb, s) ← handlePacket p bb packet.1 t
        _) = _
      rw [handlePacket_verify ht hlive' hx hbody]
      rfl

/-- These packets of `p` are handled, and less than a frame is left of what has come in. -/
structure Takes (p : Nat) (new : List (UInt32 × AString)) (data : AString) (s s' : Server Fifo) : Prop where
  bytes : s.inbound p ++ data = stream new ++ s'.inbound p
  calls : (s'.heap p).calls = (s.heap p).calls ++ new.map call
  clear : Clear (s'.heap p).protocol.receivedData

omit [Platform] in
theorem inbound_untouched (h : ClientHandle.Untouched (s.heap p) (s'.heap p)) : s'.inbound p = s.inbound p := by
  rw [inbound, inbound, h.incoming, h.keeps.received]

theorem takes_nothing (hclear : Clear (s.heap p).protocol.receivedData)
    (h : ClientHandle.Untouched (s.heap p) (s'.heap p)) : Takes p [] [] s s' where
  bytes := by
    rw [inbound_untouched h, List.append_nil]
    rfl
  calls := by
    rw [h.keeps.calls]
    exact (List.append_nil _).symm
  clear := by
    rw [h.keeps.received]
    exact hclear

theorem Takes.behind {new : List (UInt32 × AString)} {data : AString} (h : Takes p new data s t)
    (h' : ClientHandle.Untouched (t.heap p) (s'.heap p)) : Takes p new data s s' where
  bytes := by
    rw [inbound_untouched h']
    exact h.bytes
  calls := h'.keeps.calls.trans h.calls
  clear := by
    rw [h'.keeps.received]
    exact h.clear

section Ticks

variable {u : AString} {todo : List (UInt32 × AString)} (hs : s.Sound)
  (hnot : (s.heap p).isDestroyed = false)
  (hrange : (s.heap p).protocol.state = 1 ∨ (s.heap p).protocol.state = 2 ∨ (s.heap p).protocol.state = 3)
  (hsize : ∀ q ∈ todo, (rawPacket q).body.length < 2 ^ 32) (hu : u.length ≤ 65536)
  (hrec : (s.heap p).protocol.receivedData = Fifo.filled 65536 u)
  (hstart : u ++ (s.heap p).incomingData <+: stream todo) (hin : (s.heap p).incomingData ≠ [])

include hs hrec hin in
/-- Data that does not fit ends the connection. -/
theorem tickReceived_overflows (hu : u.length ≤ 65536)
    (hfull : 65536 < (u ++ (s.heap p).incomingData).length) (ht : s.tickReceived p = .ok t) :
    (t.heap p).hasSentDC = true := by
  have htake := takeIncoming_small (G := Gate.open) p s
  have hrec' : (endpoint p).received (s.modify p ClientHandle.takeIncoming) = Fifo.filled 65536 u := by
    change ((s.modify p ClientHandle.takeIncoming).heap p).protocol.receivedData = _
    rw [modify_heap, if_pos rfl]
    exact hrec
  have hset := setReceived_small (G := Gate.open) (p := p) hu (s.modify p ClientHandle.takeIncoming)
  have hkick := kick_modify (hset.sound (htake.sound hs)) p errorCodeServerBusy
  rw [tickReceived, if_pos hin, addReceivedData, addReceivedData_full hu hrec' hfull] at ht
  have heq := Except.ok.inj (hkick.symm.trans ht)
  rw [← heq, modify_heap, if_pos rfl, ClientHandle.disconnect_eq]

include hs hnot hrange hsize hu hrec hstart hin

/-- Data that fits is taken frame by frame. -/
theorem tickReceived_left (hfit : (u ++ (s.heap p).incomingData).length ≤ 65536)
    (ht : s.tickReceived p = .ok t) :
    (endpoint p).Left 65536 todo (Intake p s) (fun t => (t.heap p).hasSentDC = true) (fun _ => False)
      (u ++ (s.heap p).incomingData) t := by
  have hlive := live_of_not (hs.connections p) (Bool.eq_false_iff.mp hnot)
  have htake := takeIncoming_small (G := Gate.open) p s
  have hself : (s.modify p ClientHandle.takeIncoming).heap p = (s.heap p).takeIncoming := if_pos rfl
  have hrule := intake_rule hs hlive hrange todo
  have hrec' : (endpoint p).received (s.modify p ClientHandle.takeIncoming) = Fifo.filled 65536 u := by
    change ((s.modify p ClientHandle.takeIncoming).heap p).protocol.receivedData = _
    rw [hself]
    exact hrec
  have hbefore : Intake p s [] (s.modify p ClientHandle.takeIncoming) := by
    refine ⟨.single htake, ?_, ?_, fun _ hdc _ => ?_⟩
    · rw [hself]
      exact ⟨rfl, rfl, rfl⟩
    · rw [hself]
      exact (List.append_nil _).symm
    · rw [hself]
      exact hdc
  have hleft := hrule.addReceivedData (by omega) hsize hu hrec' hfit hstart hbefore
  have hadd : (endpoint p).addReceivedData (s.heap p).incomingData
      (s.modify p ClientHandle.takeIncoming) = .ok t := by
    rw [tickReceived, if_pos hin] at ht
    exact ht
  rw [hadd] at hleft
  exact hleft

/-- Unless the connection is ended, all that has come in is handled but for less than a frame. -/
theorem tickReceived_takes (ht : s.tickReceived p = .ok t) (hdc : (t.heap p).hasSentDC = false) :
    ∃ new rest, todo = new ++ rest ∧ Takes p new [] s t := by
  by_cases hfit : (u ++ (s.heap p).incomingData).length ≤ 65536
  · cases tickReceived_left hs hnot hrange hsize hu hrec hstart hin hfit ht with
    | emptied _ hno => exact hno.elim
    | reading new rest v htodo hbytes hv hreceived h hwait =>
      have hnext : nextFrame v = none := hwait.resolve_left (by rw [hdc]; decide)
      refine ⟨new, rest, htodo, ?_, h.calls, v, hv, hreceived, hnext⟩
      have hleft : t.inbound p = v := by
        rw [inbound_eq hv hreceived, h.steady.incoming]
        exact List.append_nil v
      rw [inbound_eq hu hrec, hleft, hbytes, List.append_nil]
  · rw [tickReceived_overflows hs hrec hin hu (Nat.lt_of_not_le hfit) ht] at hdc
    cases hdc

/-- Packets that the server can take do not end the connection. -/
theorem tickReceived_stays (hfit : (u ++ (s.heap p).incomingData).length ≤ 65536)
    (hstate : (s.heap p).protocol.state = 3) (hdc : (s.heap p).hasSentDC = false)
    (hall : ∀ new rest v, todo = new ++ rest → u ++ (s.heap p).incomingData = stream new ++ v →
      ∀ q ∈ new, Acceptable q) (ht : s.tickReceived p = .ok t) :
    (t.heap p).hasSentDC = false ∧ ClientHandle.Steady (s.heap p).takeIncoming (t.heap p) := by
  cases tickReceived_left hs hnot hrange hsize hu hrec hstart hin hfit ht with
  | emptied _ hno => exact hno.elim
  | reading new rest v htodo hbytes _ _ h _ =>
    exact ⟨h.stays hstate hdc (hall new rest v htodo hbytes), h.steady⟩

end Ticks

section Steps

variable {e : Event} {todo : List (UInt32 × AString)}

/-- A tick handles what has come in, as far as it goes. -/
theorem tickClient_takes (hs : s.Sound) (hp : p < s.allocated) (hagrees : (s.heap p).InStep)
    (hclear : Clear (s.heap p).protocol.receivedData)
    (hsize : ∀ q ∈ todo, (rawPacket q).body.length < 2 ^ 32) (hstart : s.inbound p <+: stream todo)
    (h : s.tickClient q = .ok s') (hq : q ∈ s.clients) (hdc : (s'.heap p).hasSentDC = false) :
    ∃ new rest, todo = new ++ rest ∧ Takes p new [] s s' := by
  have hnothing : ClientHandle.Untouched (s.heap p) (s'.heap p) →
      ∃ new rest, todo = new ++ rest ∧ Takes p new [] s s' :=
    fun huntouched => ⟨[], todo, rfl, takes_nothing hclear huntouched⟩
  rcases eq_or_ne q p with rfl | hne
  · by_cases hdead : (s.heap q).isDestroyed = true
    · rw [tickClient, if_pos hdead] at h
      cases h
      exact hnothing (ClientHandle.Untouched.refl _)
    · rw [Bool.not_eq_true] at hdead
      obtain ⟨t, ht, _, hheap⟩ := tickClient_parts hs hdead h
      rw [hheap] at hdc hnothing
      have hrested := ClientHandle.rested_untouched t.now (t.heap q)
      by_cases hin : (s.heap q).incomingData = []
      · rw [tickReceived, if_neg (not_not.mpr hin)] at ht
        cases ht
        exact hnothing hrested
      · obtain ⟨u, hu, hrec, _⟩ := hclear
        have hagree := hagrees.live (live_of_not (hs.connections q) (Bool.eq_false_iff.mp hdead))
        rw [inbound_eq hu hrec] at hstart
        obtain ⟨new, rest, htodo, htakes⟩ := tickReceived_takes hs hdead hagree.range hsize hu hrec hstart hin
          ht (ClientHandle.rested_hasSentDC hdc)
        refine ⟨new, rest, htodo, htakes.behind ?_⟩
        rw [hheap]
        exact hrested
  · have hstepped := step_stepped hs (e := .tickClient q) (by simpa [enabled] using hq) (gated_open s _)
    have hok : s.step (.tickClient q) = .ok s' := h
    rw [hok] at hstepped
    obtain ⟨_, told, htold, _⟩ := effects_others hstepped.2.2 (q := p) (fun heq => hne heq.symm) hp
    rw [htold] at hnothing
    exact hnothing (ClientHandle.queueAll_untouched told _)

/-- Whatever happens, unless the connection is ended, the bytes that have come in are handled as packets
of the stream, and less than a frame waits. -/
theorem step_takes (hs : s.Sound) (he : s.enabled e = true) (hp : p < s.allocated)
    (hagrees : (s.heap p).InStep) (hclear : Clear (s.heap p).protocol.receivedData)
    (hsize : ∀ q ∈ todo, (rawPacket q).body.length < 2 ^ 32)
    (hstart : s.inbound p ++ e.bytesFor p <+: stream todo) (h : s.step e = .ok s')
    (hdc : (s'.heap p).hasSentDC = false) :
    ∃ new rest, todo = new ++ rest ∧ Takes p new (e.bytesFor p) s s' := by
  have hnothing : ClientHandle.Untouched (s.heap p) (s'.heap p) →
      ∃ new rest, todo = new ++ rest ∧ Takes p new [] s s' :=
    fun huntouched => ⟨[], todo, rfl, takes_nothing hclear huntouched⟩
  have hpassive : (∀ data, e ≠ .receivedData p data) → (∀ q, e ≠ .tickClient q) →
      ∃ new rest, todo = new ++ rest ∧ Takes p new [] s s' := fun hreceived htick =>
    hnothing (step_passive ClientHandle.untouched_passive hs hp hreceived htick h)
  cases e with
  | receivedData q data =>
    rcases eq_or_ne q p with rfl | hne
    · cases h
      have hself : (s.receivedData q data).heap q = (s.heap q).receive data := if_pos rfl
      have hbytes : (Event.receivedData q data).bytesFor q = data := if_pos rfl
      refine ⟨[], todo, rfl, ?_, ?_, ?_⟩
      · rw [hbytes, inbound, inbound, hself, List.append_assoc]
        rfl
      · rw [hself]
        exact (List.append_nil _).symm
      · rw [hself]
        exact hclear
    · have hbytes : (Event.receivedData q data).bytesFor p = [] := if_neg hne
      rw [hbytes]
      exact hpassive (by simp [hne]) (by simp)
  | tickClient q =>
    have hbytes : s.inbound p ++ (Event.tickClient q).bytesFor p = s.inbound p := List.append_nil _
    rw [hbytes] at hstart
    exact tickClient_takes hs hp hagrees hclear hsize hstart h (by simpa [enabled] using he) hdc
  | connectionAccepted ip => exact hpassive (by simp) (by simp)
  | remoteClosed q => exact hpassive (by simp) (by simp)
  | released q => exact hpassive (by simp) (by simp)
  | authenticatorTake => exact hpassive (by simp) (by simp)
  | authenticatorAnswer => exact hpassive (by simp) (by simp)
  | clock elapsed => exact hpassive (by simp) (by simp)

end Steps

end Server

end P2PChat

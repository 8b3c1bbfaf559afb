import P2PChat.Connection

namespace P2PChat

open ByteQueue

namespace ClientHandle

variable {β : Type}

/-- Packets sent one after another. -/
def queueAll (packets : List Packet) (c : ClientHandle β) : ClientHandle β :=
  packets.foldl (fun c p => c.queue p) c

theorem queueAll_cons (p : Packet) (packets : List Packet) (c : ClientHandle β) :
    c.queueAll (p :: packets) = (c.queue p).queueAll packets := rfl

/-- Sending changes nothing but what is sent. -/
theorem queueAll_eq (packets : List Packet) (c : ClientHandle β) :
    c.queueAll packets = { c with
      outgoingData := (c.queueAll packets).outgoingData
      log := (c.queueAll packets).log } := by
  induction packets generalizing c with
  | nil => rfl
  | cons p packets ih =>
    rw [queueAll_cons, ih (c.queue p), queue_eq]

theorem queueAll_log (packets : List Packet) (c : ClientHandle β) :
    (c.queueAll packets).log =
      if c.hasSentDC then c.log else c.log ++ packets.map (.queued c.protocol.state) := by
  induction packets generalizing c with
  | nil => simp [queueAll]
  | cons p packets ih =>
    rw [queueAll_cons, ih (c.queue p), queue_log, queue_hasSentDC, queue_protocol]
    split
    next => rfl
    next => simp

/-- A connection that was sent a disconnect gets nothing more. -/
theorem queueAll_quiet {c : ClientHandle β} (h : c.hasSentDC = true) (packets : List Packet) :
    c.queueAll packets = c := by
  induction packets with
  | nil => rfl
  | cons p packets ih =>
    have hq : c.queue p = c := by
      unfold queue
      rw [if_pos h]
    rw [queueAll_cons, hq, ih]

theorem Sound.queueAll {c : ClientHandle Fifo} (hc : c.Sound) (packets : List Packet) :
    (c.queueAll packets).Sound := by
  induction packets generalizing c with
  | nil => exact hc
  | cons p packets ih => exact ih (hc.queue p)

theorem userInfo_queue (p : Packet) (c : ClientHandle β) : (c.queue p).userInfo = c.userInfo := by
  rw [queue_eq]
  rfl

theorem isLoggedIn_queue (p : Packet) (c : ClientHandle β) :
    (c.queue p).isLoggedIn = c.isLoggedIn := by
  rw [queue_eq]
  rfl

end ClientHandle

namespace Server

section Effect

variable {β : Type}

/-- The state after `BroadcastUserInfo` has gone through these connections: each of them that has
another ID was told of `p`, and `p`, if it counts as logged in, of each. -/
def tellOver (p : Nat) (l : List Nat) (s : Server β) : Server β :=
  { s with heap := fun q =>
      if q = p then
        if (s.heap p).isLoggedIn then
          (s.heap p).queueAll ((l.filter fun r => (s.heap r).uniqueID ≠ (s.heap p).uniqueID).map
            fun r => (s.heap r).userInfo)
        else s.heap p
      else if q ∈ l ∧ (s.heap q).uniqueID ≠ (s.heap p).uniqueID then
        (s.heap q).queue (s.heap p).userInfo
      else s.heap q }

def tellAll (p : Nat) (s : Server β) : Server β := s.tellOver p s.clients

theorem store_heap (p q : Nat) (c : ClientHandle β) (s : Server β) :
    (s.store p c).heap q = if q = p then c else s.heap q := rfl

theorem tellOver_self (p : Nat) (l : List Nat) (s : Server β) :
    (s.tellOver p l).heap p =
      if (s.heap p).isLoggedIn then
        (s.heap p).queueAll ((l.filter fun r => (s.heap r).uniqueID ≠ (s.heap p).uniqueID).map
          fun r => (s.heap r).userInfo)
      else s.heap p := if_pos rfl

theorem tellOver_other {p q : Nat} (h : q ≠ p) (l : List Nat) (s : Server β) :
    (s.tellOver p l).heap q =
      if q ∈ l ∧ (s.heap q).uniqueID ≠ (s.heap p).uniqueID then (s.heap q).queue (s.heap p).userInfo
      else s.heap q := if_neg h

theorem heap_ext {s t : Server β} (h : ∀ q, s.heap q = t.heap q)
    (hrest : s = { t with heap := s.heap }) : s = t := by
  rw [hrest, funext h]

theorem tellOver_nil (p : Nat) (s : Server β) : s.tellOver p [] = s := by
  refine heap_ext (fun q => ?_) rfl
  rcases eq_or_ne q p with rfl | hq
  · rw [tellOver_self]
    split <;> rfl
  · rw [tellOver_other hq, if_neg (fun h => List.not_mem_nil h.1)]

/-- `q` gets one packet. -/
def tell (q : Nat) (pkt : Packet) (s : Server β) : Server β := s.modify q (ClientHandle.queue pkt)

theorem tell_self (q : Nat) (pkt : Packet) (s : Server β) :
    (s.tell q pkt).heap q = (s.heap q).queue pkt := if_pos rfl

theorem tell_other {q r : Nat} (h : r ≠ q) (pkt : Packet) (s : Server β) :
    (s.tell q pkt).heap r = s.heap r := if_neg h

theorem tell_identity (q : Nat) (pkt : Packet) (s : Server β) (r : Nat) :
    ((s.tell q pkt).heap r).uniqueID = (s.heap r).uniqueID ∧
      ((s.tell q pkt).heap r).userInfo = (s.heap r).userInfo ∧
      ((s.tell q pkt).heap r).isLoggedIn = (s.heap r).isLoggedIn := by
  rcases eq_or_ne r q with rfl | h
  · rw [tell_self]
    exact ⟨ClientHandle.queue_uniqueID _ _, ClientHandle.userInfo_queue _ _,
      ClientHandle.isLoggedIn_queue _ _⟩
  · rw [tell_other h]
    exact ⟨rfl, rfl, rfl⟩

/-- One round of the loop. -/
def tellRound (p q : Nat) (s : Server β) : Server β :=
  if (s.heap p).isLoggedIn then (s.tell q (s.heap p).userInfo).tell p (s.heap q).userInfo
  else s.tell q (s.heap p).userInfo

theorem tellRound_identity (p q : Nat) (s : Server β) (r : Nat) :
    ((s.tellRound p q).heap r).uniqueID = (s.heap r).uniqueID ∧
      ((s.tellRound p q).heap r).userInfo = (s.heap r).userInfo ∧
      ((s.tellRound p q).heap r).isLoggedIn = (s.heap r).isLoggedIn := by
  have hone := tell_identity q (s.heap p).userInfo s r
  have htwo := tell_identity p (s.heap q).userInfo (s.tell q (s.heap p).userInfo) r
  unfold tellRound
  split
  next => exact ⟨htwo.1.trans hone.1, htwo.2.1.trans hone.2.1, htwo.2.2.trans hone.2.2⟩
  next => exact hone

theorem tellRound_heap {p q : Nat} (h : q ≠ p) (s : Server β) :
    (s.tellRound p q).heap q = (s.heap q).queue (s.heap p).userInfo ∧
      (s.tellRound p q).heap p =
        (if (s.heap p).isLoggedIn then (s.heap p).queue (s.heap q).userInfo else s.heap p) ∧
      ∀ r, r ≠ p → r ≠ q → (s.tellRound p q).heap r = s.heap r := by
  unfold tellRound
  split
  next =>
    refine ⟨?_, ?_, fun r hrp hrq => ?_⟩
    · rw [tell_other h, tell_self]
    · rw [tell_self, tell_other (Ne.symm h)]
    · rw [tell_other hrp, tell_other hrq]
  next =>
    refine ⟨tell_self _ _ _, tell_other (Ne.symm h) _ _, fun r _ hrq => tell_other hrq _ _⟩

theorem tellOver_cons {p q : Nat} {l : List Nat} {s : Server β}
    (hid : (s.heap q).uniqueID ≠ (s.heap p).uniqueID) (hq : q ∉ l) :
    s.tellOver p (q :: l) = (s.tellRound p q).tellOver p l := by
  have hne : q ≠ p := fun h => hid (by rw [h])
  obtain ⟨hheapq, hheapp, hother⟩ := tellRound_heap hne s
  have hids : ∀ r, ((s.tellRound p q).heap r).uniqueID = (s.heap r).uniqueID :=
    fun r => (tellRound_identity p q s r).1
  have hinfos : ∀ r, ((s.tellRound p q).heap r).userInfo = (s.heap r).userInfo :=
    fun r => (tellRound_identity p q s r).2.1
  refine heap_ext (fun r => ?_) ?_
  · rcases eq_or_ne r p with rfl | hrp
    · rw [tellOver_self, tellOver_self]
      have hin : ((s.tellRound r q).heap r).isLoggedIn = (s.heap r).isLoggedIn :=
        (tellRound_identity r q s r).2.2
      have hfilter : (q :: l).filter (fun x => decide ((s.heap x).uniqueID ≠ (s.heap r).uniqueID)) =
          q :: l.filter (fun x => decide ((s.heap x).uniqueID ≠ (s.heap r).uniqueID)) :=
        List.filter_cons_of_pos (decide_eq_true hid)
      simp only [hin, hids, hinfos, hfilter, List.map_cons, ClientHandle.queueAll_cons]
      rw [hheapp]
      split
      next h => rfl
      next h => rfl
    · rw [tellOver_other hrp, tellOver_other hrp, hids, hids, hinfos]
      rcases eq_or_ne r q with rfl | hrq
      · rw [if_pos ⟨List.mem_cons_self, hid⟩, if_neg (fun h => hq h.1), hheapq]
      · rw [hother r hrp hrq]
        simp only [List.mem_cons, hrq, false_or]
  · unfold tellRound
    split <;> rfl

theorem tellOver_skip {p q : Nat} {l : List Nat} {s : Server β}
    (hid : (s.heap q).uniqueID = (s.heap p).uniqueID) : s.tellOver p (q :: l) = s.tellOver p l := by
  refine heap_ext (fun r => ?_) rfl
  rcases eq_or_ne r p with rfl | hrp
  · have hfilter : (q :: l).filter (fun x => decide ((s.heap x).uniqueID ≠ (s.heap r).uniqueID)) =
        l.filter (fun x => decide ((s.heap x).uniqueID ≠ (s.heap r).uniqueID)) :=
      List.filter_cons_of_neg (by simpa using hid)
    rw [tellOver_self, tellOver_self, hfilter]
  · rw [tellOver_other hrp, tellOver_other hrp]
    rcases eq_or_ne r q with rfl | hrq
    · rw [if_neg (fun h => h.2 hid), if_neg (fun h => h.2 hid)]
    · simp only [List.mem_cons, hrq, false_or]

/-- Every connection that is told of something gets packets of this kind only. -/
theorem tellOver_queueAll (p : Nat) (l : List Nat) (s : Server β) (q : Nat) :
    ∃ told : List Packet, (s.tellOver p l).heap q = (s.heap q).queueAll told ∧
      ∀ pkt ∈ told, (q = p ∧ ∃ r ∈ l, (s.heap r).uniqueID ≠ (s.heap p).uniqueID ∧
          pkt = (s.heap r).userInfo) ∨
        (q ≠ p ∧ q ∈ l ∧ (s.heap q).uniqueID ≠ (s.heap p).uniqueID ∧ pkt = (s.heap p).userInfo) := by
  rcases eq_or_ne q p with rfl | hq
  · rw [tellOver_self]
    split
    next =>
      refine ⟨_, rfl, ?_⟩
      intro pkt hpkt
      obtain ⟨r, hr, rfl⟩ := List.mem_map.mp hpkt
      obtain ⟨hmem, hid⟩ := List.mem_filter.mp hr
      exact Or.inl ⟨rfl, r, hmem, by simpa using hid, rfl⟩
    next => exact ⟨[], rfl, by simp⟩
  · rw [tellOver_other hq]
    split
    next h =>
      refine ⟨[(s.heap p).userInfo], rfl, ?_⟩
      intro pkt hpkt
      rw [List.mem_singleton] at hpkt
      exact Or.inr ⟨hq, h.1, h.2, hpkt⟩
    next => exact ⟨[], rfl, by simp⟩

/-- What is told leaves everything but what is sent. -/
theorem tellAll_same (p q : Nat) (s : Server β) :
    ((s.tellAll p).heap q).state = (s.heap q).state ∧
      ((s.tellAll p).heap q).uniqueID = (s.heap q).uniqueID ∧
      ((s.tellAll p).heap q).username = (s.heap q).username ∧
      ((s.tellAll p).heap q).hasSentDC = (s.heap q).hasSentDC := by
  obtain ⟨told, htold, _⟩ := tellOver_queueAll p s.clients s q
  rw [tellAll, htold, ClientHandle.queueAll_eq]
  exact ⟨rfl, rfl, rfl, rfl⟩

end Effect

section Loop

theorem act_queue {s : Server Fifo} {q : Nat} {pkt : Packet} (hq : (s.heap q).Sound)
    (hpkt : pkt.body.length ≤ 65536) : s.act q (ClientHandle.packet pkt) = .ok (s.tell q pkt) := by
  rw [act, ClientHandle.packet_queue hq hpkt]
  rfl

theorem tell_sound {s : Server Fifo} (hs : ∀ p, (s.heap p).Sound) (q : Nat) (pkt : Packet) (r : Nat) :
    ((s.tell q pkt).heap r).Sound := by
  rcases eq_or_ne r q with rfl | h
  · rw [tell_self]
    exact (hs r).queue pkt
  · rw [tell_other h]
    exact hs r

theorem broadcastTo_ok {s : Server Fifo} (hs : ∀ p, (s.heap p).Sound) {p q : Nat} (hne : q ≠ p) :
    broadcastTo p q s = .ok (s.tellRound p q) := by
  have hfirst := act_queue (hs q) (ClientHandle.userInfo_length (hs p))
  have hsecond := act_queue (tell_sound hs q (s.heap p).userInfo p)
    (ClientHandle.userInfo_length (hs q))
  have hself := tell_other (Ne.symm hne) (s.heap p).userInfo s
  have hinfo := (tell_identity q (s.heap p).userInfo s q).2.1
  have hround : broadcastTo p q s = (do
      let s' ← s.act q (ClientHandle.packet (s.heap p).userInfo)
      if (s'.heap p).isLoggedIn then s'.act p (ClientHandle.packet (s'.heap q).userInfo)
      else .ok s') := rfl
  rw [hround, hfirst]
  unfold tellRound
  simp only [bind, Except.bind, hself, hinfo]
  split
  next => exact hsecond
  next => rfl

theorem broadcastLoop_ok {s : Server Fifo} (hs : ∀ p, (s.heap p).Sound) (p : Nat) {l : List Nat}
    (hl : l.Nodup) : broadcastLoop p l s = .ok (s.tellOver p l) := by
  induction l generalizing s with
  | nil =>
    rw [tellOver_nil]
    rfl
  | cons q l ih =>
    obtain ⟨hq, hl⟩ := List.nodup_cons.mp hl
    by_cases hid : (s.heap q).uniqueID = (s.heap p).uniqueID
    · rw [broadcastLoop, if_neg (not_not.mpr hid), tellOver_skip hid]
      exact ih hs hl
    · have hne : q ≠ p := fun h => hid (by rw [h])
      have hround : ∀ r, ((s.tellRound p q).heap r).Sound := by
        intro r
        unfold tellRound
        split
        next => exact tell_sound (tell_sound hs q _) p _ r
        next => exact tell_sound hs q _ r
      rw [broadcastLoop, if_pos hid, broadcastTo_ok hs hne, tellOver_cons hid hq]
      exact ih hround hl

theorem broadcastUserInfo_ok {s : Server Fifo} (hs : ∀ p, (s.heap p).Sound) (hl : s.clients.Nodup)
    (p : Nat) : broadcastUserInfo p s = .ok (s.tellAll p) := broadcastLoop_ok hs p hl

theorem tellOver_sound {s : Server Fifo} (hs : ∀ p, (s.heap p).Sound) (p : Nat) (l : List Nat)
    (q : Nat) : ((s.tellOver p l).heap q).Sound := by
  obtain ⟨told, htold, _⟩ := tellOver_queueAll p l s q
  rw [htold]
  exact (hs q).queueAll told

end Loop

end Server

end P2PChat

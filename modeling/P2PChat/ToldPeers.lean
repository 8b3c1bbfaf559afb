import P2PChat.PeerLists
import P2PChat.RelayedMessages
import P2PChat.ShownPeers

namespace P2PChat

open ByteQueue Relation

namespace ClientHandle

/-- What holds between a connection before and after what the gate lets happen to it. -/
structure Guarded (G : Gate) (R : ClientHandle Fifo → ClientHandle Fifo → Prop) : Prop where
  refl : ∀ c, R c c
  trans : ∀ {c c' c'' : ClientHandle Fifo}, R c c' → R c' c'' → R c c''
  change : ∀ {c c' : ClientHandle Fifo}, c.Sound → Change c c' → R c c'
  userInfo : ∀ about c : ClientHandle Fifo, about.Sound → G.passes c about.userInfo → R c (c.queue about.userInfo)
  relayed : ∀ pkt c, ((∃ id type, pkt = mediaPacket id type) ∨ ∃ id msg, pkt = mediaMsgPacket id msg) →
    pkt.body.length ≤ 65536 → G.passes c pkt → R c (c.queue pkt)
  login : ∀ (c : ClientHandle Fifo) name, c.InStep → c.state = .csAuthenticating →
    R c (((c.setUsername name).loginSucceeded).setState .csAuthenticated)
  same : ∀ (c : ClientHandle Fifo) state link time, (link = true → c.link = true) →
    R c { c with state := state, link := link, pingStartTime := time }

variable {G : Gate} {R : ClientHandle Fifo → ClientHandle Fifo → Prop}

theorem Guarded.queueAll (hR : Guarded G R) {packets : List Packet} {c : ClientHandle Fifo}
    (hpackets : ∀ p ∈ packets, G.passes c p ∧ ∃ about : ClientHandle Fifo, about.Sound ∧ p = about.userInfo) :
    R c (c.queueAll packets) := by
  induction packets generalizing c with
  | nil => exact hR.refl c
  | cons p packets ih =>
    obtain ⟨hpass, about, habout, rfl⟩ := hpackets p List.mem_cons_self
    refine hR.trans (hR.userInfo about c habout hpass) (ih fun q hq => ?_)
    obtain ⟨hpass', hinfo⟩ := hpackets q (List.mem_cons_of_mem _ hq)
    exact ⟨Gate.passes_queue.mpr hpass', hinfo⟩

end ClientHandle

namespace Server

open ClientHandle

variable {G : Gate} {R : ClientHandle Fifo → ClientHandle Fifo → Prop} {s s' : Server Fifo}

/-- A broadcast that passes the gate. -/
theorem tellOver_guarded (hR : Guarded G R) (hs : s.Sound) {p : Nat} {l : List Nat}
    (hothers : ∀ q ∈ l, (s.heap q).uniqueID ≠ (s.heap p).uniqueID → G.passes (s.heap q) (s.heap p).userInfo)
    (hself : ∀ q ∈ l, (s.heap q).uniqueID ≠ (s.heap p).uniqueID → G.passes (s.heap p) (s.heap q).userInfo)
    (q : Nat) : R (s.heap q) ((s.tellOver p l).heap q) := by
  obtain ⟨told, htold, hmem⟩ := tellOver_queueAll p l s q
  rw [htold]
  apply hR.queueAll
  intro pkt hpkt
  rcases hmem pkt hpkt with ⟨rfl, r, hr, hid, rfl⟩ | ⟨_, hq, hid, rfl⟩
  · exact ⟨hself r hr hid, _, hs.connections r, rfl⟩
  · exact ⟨hothers q hq hid, _, hs.connections p, rfl⟩

theorem store_guarded (hR : Guarded G R) {p : Nat} {c : ClientHandle Fifo} (h : R (s.heap p) c) (q : Nat) :
    R (s.heap q) ((s.store p c).heap q) := by
  rw [store_heap]
  split
  next hq =>
    rw [hq]
    exact h
  next => exact hR.refl _

variable [Platform]

/-- What holds of every such thing holds of what an effect does to a connection. -/
theorem Effect.guarded (hR : Guarded G R) {who : Nat → Prop} (hs : s.Sound) (hin : ∀ q, (s.heap q).InStep)
    (he : Effect G who s s') {q : Nat} (hq : q < s.allocated) : R (s.heap q) (s'.heap q) := by
  cases he with
  | @small _ p _ _ hsmall =>
    cases hsmall with
    | change hc => exact store_guarded hR (hR.change (hs.connections p) hc) q
    | request _ _ _ _ _ =>
      have hsame := hR.same (s.heap p) .csAuthenticating (s.heap p).link (s.heap p).pingStartTime id
      exact store_guarded hR hsame q
    | @relayed r pkt _ hshape hbody hpass => exact store_guarded hR (hR.relayed pkt _ hshape hbody hpass) q
  | @accepted ip _ _ =>
    rw [accept_heap, if_neg (Nat.ne_of_lt hq)]
    exact hR.refl _
  | @destroyed p _ _ _ hgate =>
    have hother : ∀ r, (s.heap r).uniqueID ≠ (s.heap p).uniqueID → (s.closed p).heap r = s.heap r := by
      intro r hid
      rw [closed_heap, if_neg fun heq => hid (by rw [heq])]
    have hids : ∀ r, ((s.closed p).heap r).uniqueID = (s.heap r).uniqueID := by
      intro r
      rw [closed_heap]
      split
      next heq =>
        rw [heq]
        rfl
      next => rfl
    have hfirst : R (s.heap q) ((s.closed p).heap q) := by
      rw [closed_heap]
      split
      next heq =>
        rw [heq]
        exact hR.same _ .csDestroyed false (s.heap p).pingStartTime (by rintro ⟨⟩)
      next => exact hR.refl _
    refine hR.trans hfirst (tellOver_guarded hR (closed_sound hs p) (fun r hr hid => ?_) (fun r hr hid => ?_) q)
    · rw [hids, hids] at hid
      rw [hother r hid]
      exact (hgate r hr hid).1
    · rw [hids, hids] at hid
      rw [hother r hid]
      exact (hgate r hr hid).2
  | removed _ _ => exact hR.refl _
  | taken _ => exact hR.refl _
  | @login p user _ hflight hauth _ hstate _ hgate =>
    obtain ⟨t, ht⟩ : ∃ t : Server Fifo, t = { s with inFlight := none } := ⟨_, rfl⟩
    have hheap : t.heap = s.heap := by rw [ht]
    have hsound : (t.admitted p user.username).Sound := by
      rw [ht]
      exact admitted_sound (answered_sound hs) p (accepted_length hs hflight hauth)
    have hself : (t.admitted p user.username).heap p =
        (((s.heap p).setUsername user.username).loginSucceeded).setState .csAuthenticated := by
      rw [admitted, store_heap, if_pos rfl, hheap]
    have hself' : (s.admitted p user.username).heap p =
        (((s.heap p).setUsername user.username).loginSucceeded).setState .csAuthenticated := by
      rw [admitted, store_heap, if_pos rfl]
    have hother : ∀ r, r ≠ p → (t.admitted p user.username).heap r = s.heap r := by
      intro r hne
      rw [admitted, store_heap, if_neg hne, hheap]
    have hid₀ : ((t.admitted p user.username).heap p).uniqueID = (s.heap p).uniqueID := by
      rw [hself, ClientHandle.loginSucceeded, ClientHandle.queue_eq]
      rfl
    have hfirst : R (s.heap q) ((t.admitted p user.username).heap q) := by
      rcases eq_or_ne q p with rfl | hne
      · rw [hself]
        exact hR.login _ _ (hin q) hstate
      · rw [hother q hne]
        exact hR.refl _
    have htold : R ((t.admitted p user.username).heap q)
        (((t.admitted p user.username).tellOver p s.clients).heap q) := by
      apply tellOver_guarded hR hsound
      · intro r hr hid
        have hne : r ≠ p := fun heq => hid (by rw [heq])
        rw [hid₀, hother r hne] at hid
        have hpass := (hgate r hr hid).1
        rw [hself'] at hpass
        rw [hother r hne, hself]
        exact hpass
      · intro r _ _
        have hthree : ((t.admitted p user.username).heap p).protocol.state = 3 := by
          rw [hself]
          rfl
        rw [Gate.passes, hthree]
        exact G.working _ _ _
    rw [← ht]
    refine hR.trans hfirst (hR.trans htold ?_)
    have hclients : (t.admitted p user.username).clients = s.clients := by
      rw [ht]
      rfl
    rw [modify_heap, tellAll, hclients]
    split
    next heq =>
      rw [heq]
      exact hR.same _ _ _ _ id
    next => exact hR.refl _
  | answered => exact hR.refl _
  | clock elapsed => exact hR.refl _

end Server

section Packets

variable [Platform]

/-- The client reads what `BroadcastUserInfo` wrote. -/
theorem parseUserInfo_fields (uid state : UInt32) {name : AString} (h : name.length < 2 ^ 32) :
    (parseUserInfo ((⟨0x01, [.varInt32 uid, .string name, .varInt32 state]⟩ : Packet).fieldBytes ++ [0])).1 =
      some (uid, name, state) := by
  have hbytes : (⟨0x01, [.varInt32 uid, .string name, .varInt32 state]⟩ : Packet).fieldBytes =
      varInt uid ++ (varInt (UInt32.ofNat name.length) ++ name ++ varInt state) := by
    simp [Packet.fieldBytes, Field.bytes]
  have hstring := parseString_string h (varInt state ++ [0])
  rw [hbytes, parseUserInfo, Parser.andThen, List.append_assoc, parseVarInt32_varInt]
  dsimp only
  rw [List.drop_left, Parser.andThen, List.append_assoc _ (varInt state), hstring]
  dsimp only
  rw [List.drop_left' (by simp), Parser.andThen, parseVarInt32_varInt]
  rfl

end Packets

namespace ClientHandle

open PeerConnectionClient

/-- The state, and the list that the client is to have in the last one. -/
def view {β : Type} (c : ClientHandle β) : UInt32 × Peers :=
  (c.protocol.state, if c.protocol.state = 3 then c.knownPeers else fun _ => none)

variable [Platform]

/-- As long as it can be told more, what a client was told makes this of one that has just connected. -/
def Tells (c : ClientHandle Fifo) : Prop :=
  c.hasSentDC = false → c.link = true → c.told.foldl shows (1, fun _ => none) = c.view

variable {c c' : ClientHandle Fifo}

theorem Tells.range (h : Tells c) (hdc : c.hasSentDC = false) (hlink : c.link = true) :
    c.protocol.state = 1 ∨ c.protocol.state = 2 ∨ c.protocol.state = 3 := by
  have hstate : c.told.foldl meets 1 = c.protocol.state :=
    (foldl_shows c.told (1, fun _ => none)).symm.trans (congrArg Prod.fst (h hdc hlink))
  rw [← hstate]
  exact foldl_meets_range (Or.inl rfl) c.told

theorem Tells.of_same (h : Tells c) (hstate : c'.protocol.state = c.protocol.state) (hlog : c'.log = c.log)
    (hdc : c'.hasSentDC = c.hasSentDC) (hlink : c'.link = true → c.link = true) : Tells c' := by
  intro hno hl
  rw [hdc] at hno
  have hview : c'.view = c.view := by rw [view, view, knownPeers, knownPeers, hstate, hlog]
  rw [told, hlog, hview]
  exact h hno (hlink hl)

/-- What is recorded besides packets and logins changes nothing. -/
theorem Tells.record (h : Tells c) {entry : Entry} (hpacket : entry.packet? = none)
    (hlist : ∀ peers, Entry.list peers entry = peers) : Tells (c.record entry) := by
  intro hdc hlink
  have htold : (c.record entry).told = c.told := by
    change (c.log ++ [entry]).filterMap Entry.packet? = _
    rw [List.filterMap_append, List.filterMap_cons_none hpacket, List.filterMap_nil, List.append_nil]
    rfl
  have hview : (c.record entry).view = c.view := by
    rw [view, view, knownPeers_record, hlist]
    rfl
  rw [htold, hview]
  exact h hdc hlink

/-- A packet that makes of the list what the server makes of it. -/
theorem Tells.queue (h : Tells c) {p : Packet}
    (hmeets : meets c.protocol.state (p.type, p.fieldBytes) = c.protocol.state)
    (hlist : c.protocol.state = 3 → shows c.view (p.type, p.fieldBytes) = (3, p.list c.knownPeers)) :
    Tells (c.queue p) := by
  intro hdc hlink
  rw [queue_hasSentDC] at hdc
  rw [queue_eq] at hlink
  have hview : (c.queue p).view =
      (c.protocol.state, if c.protocol.state = 3 then p.list c.knownPeers else fun _ => none) := by
    rw [view, queue_protocol, knownPeers_queue, hdc]
    rfl
  rw [queue_told, hdc, if_neg (by decide), List.foldl_append, h hdc hlink, hview]
  change shows c.view (p.type, p.fieldBytes) = _
  by_cases h3 : c.protocol.state = 3
  · rw [hlist h3, if_pos h3, h3]
  · have hfirst : c.view.1 ≠ 3 := h3
    have hnone : c.view.2 = fun _ => none := if_neg h3
    rw [shows_other fun hlast => absurd hlast hfirst, hnone, if_neg h3]
    exact congrArg (fun state => (state, fun _ => none)) hmeets

/-- A packet that is no `UserInfo`, and no news of the login. -/
theorem Tells.queue_other (h : Tells c) {p : Packet}
    (hmeets : meets c.protocol.state (p.type, p.fieldBytes) = c.protocol.state)
    (htype : c.protocol.state = 3 → p.type ≠ 0x01) : Tells (c.queue p) := by
  refine h.queue hmeets fun h3 => ?_
  have hthree : c.view.1 = 3 := h3
  have hlist : c.view.2 = c.knownPeers := if_pos h3
  rw [shows_other fun _ => htype h3, hthree, meets_last, hlist, list_other (userInfo?_of_type (htype h3))]

theorem Tells.userInfo (h : Tells c) {about : ClientHandle Fifo} (habout : about.Sound)
    (hpass : Gate.undisturbed.passes c about.userInfo) : Tells (c.queue about.userInfo) := by
  intro hdc hlink
  have hdc' := hdc
  have hlink' := hlink
  rw [queue_hasSentDC] at hdc'
  rw [queue_eq] at hlink'
  have htwo : c.protocol.state ≠ 2 := by
    rcases Gate.undisturbed_iff.mp hpass with ((hsent | hnone) | hother) | hstate
    · rw [hdc'] at hsent
      cases hsent
    · rw [hlink'] at hnone
      cases hnone
    · exact absurd rfl hother
    · exact hstate
  refine Tells.queue h (meets_other (by decide : (0x01 : UInt32) ≠ 0x00) fun _ => htwo) (fun h3 => ?_) hdc hlink
  have hthree : c.view.1 = 3 := h3
  have hlist : c.view.2 = c.knownPeers := if_pos h3
  have hname : about.username.length < 2 ^ 32 := by
    have hle := habout.username
    omega
  have hparse := @parseUserInfo_fields _ about.uniqueID (UInt32.ofNat about.state.toNat) _ hname
  have hcall : (call (about.userInfo.type, about.userInfo.fieldBytes)).2 = about.userInfo.fieldBytes ++ [0] := rfl
  have hfields : about.userInfo =
      ⟨0x01, [.varInt32 about.uniqueID, .string about.username, .varInt32 (UInt32.ofNat about.state.toNat)]⟩ := rfl
  rw [shows_last hthree (by rw [hfields]), hcall, hfields, hparse, hlist]
  rfl

theorem Change.tells (hsound : c.Sound) (h : Tells c) (hc : Change c c') : Tells c' := by
  cases hc with
  | quiet hsame => exact h.of_same hsame.protocolState hsame.log hsame.hasSentDC hsame.link
  | handled packetType bytes _ => exact h.record rfl fun _ => rfl
  | status state _ hone hstate =>
    intro hdc hlink
    rw [queue_hasSentDC] at hdc
    rw [queue_eq] at hlink
    have hip := hsound.ip
    have hv : state.toInt32 = 1 ∨ state.toInt32 = 2 := by
      rcases hstate with rfl | rfl
      · exact Or.inl rfl
      · exact Or.inr rfl
    have hthree : state ≠ 3 := by
      rcases hstate with rfl | rfl
      · decide
      · decide
    have hbefore : c.view = (1, fun _ => none) := by
      rw [view, hone]
      rfl
    have hafter : ∀ p, ((c.setProtocolState state).queue p).view = (state, fun _ => none) := by
      intro p
      rw [view, queue_protocol]
      exact congrArg (Prod.mk state) (if_neg hthree)
    have hfold : (c.setProtocolState state).told.foldl shows (1, fun _ => none) = (1, fun _ => none) :=
      (h hdc hlink).trans hbefore
    rw [queue_told, hdc, if_neg (by decide), List.foldl_append, hfold, hafter]
    have hfirst : ((1, fun _ => none) : UInt32 × Peers).1 = 3 → (0x00 : UInt32) ≠ 0x01 := fun _ => by decide
    refine (shows_other hfirst).trans (congrArg (fun state => (state, fun _ => none)) ?_)
    exact (meets_status hv (by omega)).trans (UInt32.toUInt32_toInt32 state)
  | pong timestamp hone =>
    refine h.queue_other (meets_other (by decide : (0x01 : UInt32) ≠ 0x00) fun _ => ?_) fun h3 => ?_
    · rw [hone]
      decide
    · rw [hone] at h3
      exact absurd h3 (by decide)
  | lost _ h1 h2 h3 =>
    intro hdc hlink
    rcases h.range hdc hlink with hone | htwo | hthree
    · exact absurd hone h1
    · exact absurd htwo h2
    · exact absurd hthree h3
  | disconnect reason =>
    intro hdc
    rw [disconnect_eq] at hdc
    cases hdc
  | flush => exact h.of_same rfl rfl rfl id
  | working _ => exact h.of_same rfl rfl rfl id
  | keepAlive id now _ =>
    have hrecord : Tells (({ c with pingID := id, pingStartTime := now } : ClientHandle Fifo).record
        (.keepAlive c.protocol.state)) := by
      have hsame : Tells ({ c with pingID := id, pingStartTime := now } : ClientHandle Fifo) :=
        h.of_same rfl rfl rfl fun hlink => hlink
      exact hsame.record rfl fun _ => rfl
    unfold keepAliveSent
    split
    next => exact hrecord
    next hnot =>
      have hthree : c.protocol.state = 3 := not_not.mp hnot
      have htype : (0x00 : UInt32) ≠ 0x01 := by decide
      refine hrecord.queue_other ?_ fun _ => htype
      have hlast : meets 3 (0x00, (⟨0x00, [.varInt32 id]⟩ : Packet).fieldBytes) = 3 := meets_last _
      rw [← hthree] at hlast
      exact hlast

theorem loginSucceeded_tells (h : Tells c) (hstate : c.protocol.state = 2) (name : AString) :
    Tells (((c.setUsername name).loginSucceeded).setState .csAuthenticated) := by
  intro hdc hlink
  have hafter : (((c.setUsername name).loginSucceeded).setState .csAuthenticated).view = (3, fun _ => none) := by
    have hthree : (((c.setUsername name).loginSucceeded).setState .csAuthenticated).protocol.state = 3 := rfl
    rw [view, knownPeers_admitted, hthree]
    rfl
  have hdc : ((c.setUsername name).loginSucceeded).hasSentDC = false := hdc
  have hlink : ((c.setUsername name).loginSucceeded).link = true := hlink
  rw [ClientHandle.loginSucceeded, queue_eq] at hdc hlink
  have hdc : c.hasSentDC = false := hdc
  have hlink : c.link = true := hlink
  have hbefore : c.view = (2, fun _ => none) := by
    rw [view, hstate]
    rfl
  have htold : (((c.setUsername name).loginSucceeded).setState .csAuthenticated).told = c.told ++ [(0x01, [])] := by
    change ((c.setUsername name).record (.loginSuccess c.protocol.state) |>.queue ⟨0x01, []⟩).told = _
    rw [queue_told]
    have hrecord : ((c.setUsername name).record (.loginSuccess c.protocol.state)).hasSentDC = false := hdc
    rw [hrecord, if_neg (by decide)]
    have hrest : ((c.setUsername name).record (.loginSuccess c.protocol.state)).told = c.told := by
      change (c.log ++ [Entry.loginSuccess c.protocol.state]).filterMap Entry.packet? = _
      rw [List.filterMap_append, List.filterMap_cons_none rfl, List.filterMap_nil, List.append_nil]
      rfl
    rw [hrest]
    rfl
  rw [htold, List.foldl_append, h hdc hlink, hbefore, hafter]
  have hsecond : ((2, fun _ => none) : UInt32 × Peers).1 = 3 → (0x01 : UInt32) ≠ 0x01 :=
    fun hlast => absurd hlast (by decide)
  refine (shows_other hsecond).trans (congrArg (fun state => (state, fun _ => none)) ?_)
  rw [meets_two, if_pos rfl]

/-- What the gate lets happen keeps what the client was told in step with the connection. -/
theorem tells_guarded : Guarded Gate.undisturbed fun c c' => Tells c → Tells c' where
  refl _ := id
  trans h h' := fun hc => h' (h hc)
  change hsound hc := fun h => hc.tells hsound h
  userInfo _ _ habout hpass := fun h => h.userInfo habout hpass
  relayed pkt c hshape _ _ := by
    intro h
    have htype : pkt.type ≠ 0x00 ∧ pkt.type ≠ 0x01 := by
      rcases Server.relayed_type hshape with heq | heq
      · rw [heq]
        decide
      · rw [heq]
        decide
    exact h.queue_other (meets_other htype.1 fun h1 => absurd h1 htype.2) fun _ => htype.2
  login c name hin hstate := by
    intro h
    have hagrees := hin.agrees (by rw [hstate]; decide)
    refine loginSucceeded_tells h ?_ name
    rcases hagrees.range with hone | htwo | hthree
    · have hconnected := hagrees.status hone
      rw [hstate] at hconnected
      cases hconnected
    · exact htwo
    · rcases hagrees.working.mp hthree with hin | hin
      · rw [hstate] at hin
        cases hin
      · rw [hstate] at hin
        cases hin
  same c state link time hlink := fun h => h.of_same rfl rfl rfl hlink

end ClientHandle

end P2PChat

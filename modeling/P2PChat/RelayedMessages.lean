import P2PChat.Messages
import P2PChat.RelayRouting
import P2PChat.ServerStreams
import P2PChat.TickRules

namespace P2PChat

open ByteQueue Relation

namespace ClientHandle

variable [Platform]

/-- The texts that the client was told with this ID. -/
def relayed {β : Type} (id : UInt32) (c : ClientHandle β) : List AString := messages id (c.told.map call)

/-- Unless it was sent a disconnect, the client is told these texts with this ID behind the others. -/
def Hears (id : UInt32) (texts : List AString) (c c' : ClientHandle Fifo) : Prop :=
  c'.hasSentDC = false → c.hasSentDC = false ∧ c'.relayed id = c.relayed id ++ texts

section Texts

variable {c c' c'' : ClientHandle Fifo} {id : UInt32} {texts texts' : List AString}

theorem Hears.trans (h : Hears id texts c c') (h' : Hears id texts' c' c'') :
    Hears id (texts ++ texts') c c'' := by
  intro hdc
  obtain ⟨hdc', htexts'⟩ := h' hdc
  obtain ⟨hdc'', htexts⟩ := h hdc'
  exact ⟨hdc'', by rw [htexts', htexts, List.append_assoc]⟩

theorem Hears.behind (h : Hears id texts c c') (h' : Hears id [] c' c'') : Hears id texts c c'' := by
  simpa using h.trans h'

theorem hears_nothing (htold : c'.told = c.told) (hdc : c'.hasSentDC = false → c.hasSentDC = false) :
    Hears id [] c c' := by
  intro hno
  refine ⟨hdc hno, ?_⟩
  rw [relayed, relayed, htold, List.append_nil]

theorem queue_relayed (id : UInt32) (p : Packet) (c : ClientHandle Fifo) :
    (c.queue p).relayed id = c.relayed id ++
      if c.hasSentDC then [] else (message id (call (p.type, p.fieldBytes))).toList := by
  rw [relayed, relayed, queue_told, List.map_append, messages_append]
  split
  next => rfl
  next => rw [List.map_singleton, messages_singleton]

theorem queue_hears (id : UInt32) (p : Packet) (c : ClientHandle Fifo) :
    Hears id (message id (call (p.type, p.fieldBytes))).toList c (c.queue p) := by
  intro hdc
  rw [queue_hasSentDC] at hdc
  refine ⟨hdc, ?_⟩
  rw [queue_relayed, hdc]
  rfl

theorem queue_silent {p : Packet} (h : p.type ≠ 0x12) (c : ClientHandle Fifo) :
    Hears id [] c (c.queue p) := by
  have hnone : message id (call (p.type, p.fieldBytes)) = none := message_other h
  have hears := queue_hears id p c
  rw [hnone] at hears
  exact hears

theorem record_silent {entry : Entry} (h : entry.packet? = none) (c : ClientHandle Fifo) :
    Hears id [] c (c.record entry) := by
  refine hears_nothing ?_ (fun hdc => hdc)
  change (c.log ++ [entry]).filterMap Entry.packet? = _
  rw [List.filterMap_append, List.filterMap_cons_none h, List.filterMap_nil, List.append_nil]
  rfl

theorem disconnect_silent (reason : Int32) (c : ClientHandle Fifo) :
    Hears id [] c (c.disconnect reason) := by
  intro hdc
  rw [disconnect_eq] at hdc
  cases hdc

theorem silent_passive : Passive (Hears id []) where
  refl _ := hears_nothing rfl (fun hdc => hdc)
  trans h h' := h.behind h'
  userInfo _ c _ := queue_silent (by simp [userInfo]) c
  disconnect := disconnect_silent
  loginSucceeded c := ((record_silent rfl c).behind (queue_silent (by simp) _)).behind
    (hears_nothing rfl (fun hdc => hdc))
  same _ _ _ _ _ _ := hears_nothing rfl (fun hdc => hdc)

theorem pinged_silent (now : Int) (c : ClientHandle Fifo) : Hears id [] c (c.pinged now) := by
  have hnext : Hears id [] c { c with pingID := c.pingID + 1, pingStartTime := now } :=
    hears_nothing rfl (fun hdc => hdc)
  unfold pinged keepAliveSent
  split
  next =>
    split
    next => exact hnext.behind (record_silent rfl _)
    next => exact hnext.behind ((record_silent rfl _).behind (queue_silent (by simp) _))
  next => exact silent_passive.refl c

theorem rested_silent (now : Int) (c : ClientHandle Fifo) : Hears id [] c (c.rested now) := by
  have hflush : Hears id [] c c.flush := hears_nothing rfl (fun hdc => hdc)
  have hwork : Hears id [] c.flush c.flush.startWorking := by
    unfold startWorking
    split
    next => exact hears_nothing rfl (fun hdc => hdc)
    next => exact silent_passive.refl _
  have htime : ∀ c : ClientHandle Fifo, Hears id [] c c.timedOut := by
    intro c
    have hcount : Hears id [] c c.countTick := hears_nothing rfl (fun hdc => hdc)
    unfold timedOut
    split
    next => exact hcount.behind (disconnect_silent _ _)
    next => exact hcount
  exact ((hflush.behind hwork).behind (pinged_silent now _)).behind (htime _)

end Texts

end ClientHandle

namespace Server

open ClientHandle (Hears)

variable [Platform]

/-- The text that `b` is told with this ID by a relay. -/
def tells (id : UInt32) (b : Nat) (relay : Option (Nat × Packet)) : List AString :=
  (relay.bind fun x => if x.1 = b then message id (call (x.2.type, x.2.fieldBytes)) else none).toList

section Packets

variable {s t : Server Fifo} {p b : Nat} {id type : UInt32} {bytes : AString}

theorem modify_silent {g : ClientHandle Fifo → ClientHandle Fifo} (h : ∀ c, Hears id [] c (g c)) :
    Hears id [] (s.heap b) ((s.modify p g).heap b) := modify_passive ClientHandle.silent_passive p h

theorem tell_hears (x : Nat × Packet) :
    Hears id (tells id b (some x)) (s.heap b) ((s.tell x.1 x.2).heap b) := by
  rcases eq_or_ne b x.1 with rfl | hne
  · rw [tell_self]
    simpa [tells] using ClientHandle.queue_hears id x.2 (s.heap x.1)
  · have hnothing : tells id b (some x) = [] := by simp [tells, hne.symm]
    rw [tell_other hne, hnothing]
    exact ClientHandle.silent_passive.refl _

/-- Of all that comes of a packet only the relay tells a text. -/
theorem reacted_hears :
    Hears id (tells id b (s.relay p type bytes)) (s.heap b) ((s.reacted p type bytes).heap b) := by
  have hrefl : Hears id [] (s.heap b) (s.heap b) := ClientHandle.silent_passive.refl _
  have hrefused : Hears id [] (s.heap b) ((s.refused p).heap b) :=
    modify_silent (ClientHandle.disconnect_silent _)
  by_cases h3 : (s.heap p).protocol.state = 3
  · have h1 : ¬(s.heap p).protocol.state = 1 := by
      rw [h3]
      decide
    have h2 : ¬(s.heap p).protocol.state = 2 := by
      rw [h3]
      decide
    rw [reacted, if_neg h1, if_neg h2, if_pos h3]
    split
    next h0 =>
      have hnone : s.relay p type bytes = none := relay_none (by simp [h0]) (by simp [h0]) bytes
      rw [hnone]
      rcases (parseVarInt32 bytes).1 with _ | pingID
      · exact hrefl
      · refine modify_silent fun c => ?_
        unfold ClientHandle.handleKeepAlive
        split
        next => exact ClientHandle.hears_nothing rfl (fun hdc => hdc)
        next => exact ClientHandle.silent_passive.refl c
    next =>
      split
      next =>
        rcases s.relay p type bytes with _ | x
        · exact hrefl
        · exact tell_hears x
      next hmedia =>
        obtain ⟨h11, h12⟩ := not_or.mp hmedia
        rw [relay_none h11 h12 bytes]
        exact hrefused
  · have hnone : s.relay p type bytes = none := if_neg h3
    rw [hnone, reacted, if_neg h3]
    split
    next =>
      split
      next =>
        rcases (parseStatusRequest bytes).1 with _ | request
        · exact hrefl
        · refine modify_silent fun c => ?_
          have hset : Hears id [] c (c.setProtocolState request.2.2.2.toUInt32) :=
            ClientHandle.hears_nothing rfl (fun hdc => hdc)
          unfold answered
          split
          next => exact hset.behind (ClientHandle.queue_silent (by simp) _)
          next => exact ClientHandle.disconnect_silent _ _
      next =>
        split
        next =>
          rcases (parseBEInt64 bytes).1 with _ | timestamp
          · exact hrefl
          · exact modify_silent (ClientHandle.queue_silent (by simp))
        next => exact hrefused
    next =>
      split
      next =>
        split
        next =>
          rcases (parseLoginInfo bytes).1 with _ | login
          · exact hrefl
          · exact modify_silent fun c => ClientHandle.hears_nothing rfl (fun hdc => hdc)
        next => exact hrefused
      next =>
        split
        next => exact hrefl
        next => exact modify_silent fun c => ClientHandle.hears_nothing rfl (fun hdc => hdc)

/-- What a relay of a text tells. -/
theorem tells_msg {q : Nat} {from_id : UInt32} {msg : AString} (hlen : msg.length ≤ 65536) :
    tells id b (some (q, mediaMsgPacket from_id msg)) =
      if q = b ∧ from_id = id ∧ msg ≠ PeerConnectionClient.kByeMessage then [msg] else [] := by
  have hmessage := @message_mediaMsg _ id from_id msg (by omega)
  have hcall : message id (call ((mediaMsgPacket from_id msg).type, (mediaMsgPacket from_id msg).fieldBytes)) =
      if from_id = id ∧ msg ≠ PeerConnectionClient.kByeMessage then some msg else none := hmessage
  rw [tells, Option.bind_some, hcall]
  by_cases hq : q = b
  · by_cases hall : from_id = id ∧ msg ≠ PeerConnectionClient.kByeMessage
    · simp [hq, hall]
    · simp [hq, hall]
  · simp [hq]

theorem tells_media {q : Nat} {from_id code : UInt32} :
    tells id b (some (q, mediaPacket from_id code)) = [] := by
  have hnone : message id (call ((mediaPacket from_id code).type, (mediaPacket from_id code).fieldBytes)) =
      none := message_other (by simp [call, mediaPacket])
  rw [tells, Option.bind_some, hnone]
  simp

/-- A relay names the connection that it comes from. -/
theorem tells_other (hid : (s.heap p).uniqueID ≠ id) (hlen : bytes.length ≤ 65536) :
    tells id b (s.relay p type bytes) = [] := by
  unfold relay
  split
  next =>
    split
    next =>
      rcases (parseMedia bytes).1 with _ | media
      · rfl
      · rcases hfind : s.findClient media.1 with _ | q
        · simp [hfind, tells]
        · simp [hfind, tells_media]
    next =>
      split
      next =>
        rcases hparse : (parseMediaMsg bytes).1 with _ | media
        · rfl
        · have hmsg := parseMediaMsg_length hparse
          rcases hfind : s.findClient media.1 with _ | q
          · simp [hfind, tells]
          · simp only [Option.bind_some, hfind, Option.map_some, tells_msg (Nat.le_trans hmsg hlen)]
            rw [if_neg fun h => hid h.2.1]
      next => rfl
  next => rfl

omit [Platform] in
theorem findClient_unique {q : Nat} (hb : b ∈ s.clients)
    (hids : ∀ q ∈ s.clients, (s.heap q).uniqueID = (s.heap b).uniqueID → q = b)
    (hfind : s.findClient id = some q) : q = b ↔ id = (s.heap b).uniqueID := by
  obtain ⟨hq, hid⟩ := findClient_some hfind
  constructor
  · rintro rfl
    exact hid.symm
  · intro h
    exact hids q hq (hid.trans h)

/-- The text that is sent to `b` is what `b` is told. -/
theorem tells_self (hstate : (s.heap p).protocol.state = 3) (hb : b ∈ s.clients)
    (hids : ∀ q ∈ s.clients, (s.heap q).uniqueID = (s.heap b).uniqueID → q = b)
    (hlen : bytes.length ≤ 65536) :
    tells (s.heap p).uniqueID b (s.relay p type bytes) =
      (message (s.heap b).uniqueID (type, bytes)).toList := by
  unfold relay
  rw [if_pos hstate]
  split
  next h11 =>
    have hnone : message (s.heap b).uniqueID (type, bytes) = none := message_other (by simp [h11])
    rw [hnone]
    rcases (parseMedia bytes).1 with _ | media
    · rfl
    · rcases hfind : s.findClient media.1 with _ | q
      · simp [hfind, tells]
      · simp [hfind, tells_media]
  next =>
    split
    next h12 =>
      rcases hparse : (parseMediaMsg bytes).1 with _ | ⟨to_id, msg⟩
      · simp [message, hparse, tells]
      · have hmsg := parseMediaMsg_length hparse
        have hmessage : message (s.heap b).uniqueID (type, bytes) =
            if to_id = (s.heap b).uniqueID ∧ msg ≠ PeerConnectionClient.kByeMessage then some msg
            else none := by
          simp [message, h12, hparse]
        rw [hmessage]
        rcases hfind : s.findClient to_id with _ | q
        · have hne : to_id ≠ (s.heap b).uniqueID := fun heq => findClient_none hfind hb heq.symm
          simp [hfind, tells, hne]
        · have hunique := findClient_unique hb hids hfind
          simp only [Option.bind_some, hfind, Option.map_some, tells_msg (Nat.le_trans hmsg hlen),
            hunique, true_and]
          split <;> rfl
    next h12 =>
      rw [message_other h12]
      rfl

end Packets

section Steps

variable {s s' t : Server Fifo} {p a b : Nat} {id : UInt32} {e : Event}

theorem handled_silent (type : UInt32) (bytes : AString) :
    Hears id [] (t.heap b) ((t.handled p type bytes).heap b) :=
  modify_silent fun c => ClientHandle.record_silent rfl c

/-- No packet of another connection tells a text with this ID. -/
theorem other_rule (hid : (s.heap p).uniqueID ≠ id) (b : Nat) :
    TickRule p s fun t => Hears id [] (s.heap b) (t.heap b) where
  receive t _ h := h.behind (modify_silent fun _ => ClientHandle.hears_nothing rfl (fun hdc => hdc))
  take h := h.behind (modify_silent fun _ => ClientHandle.hears_nothing rfl (fun hdc => hdc))
  disconnect t reason _ h := h.behind (modify_silent (ClientHandle.disconnect_silent reason))
  packet t type bytes hsmall h hlen _ := by
    have hid' : ((t.handled p type bytes).heap p).uniqueID ≠ id := by
      rw [handled_self]
      change (t.heap p).uniqueID ≠ id
      rw [(framed_of_small hsmall).uniqueID]
      exact hid
    have hreacted := @reacted_hears _ (t.handled p type bytes) p b id type bytes
    rw [tells_other hid' hlen] at hreacted
    exact (h.behind (handled_silent type bytes)).behind hreacted

/-- Of what was handled from `a` since then, `b` is told the texts for it. -/
def Passes (a b : Nat) (s t : Server Fifo) : Prop :=
  ∃ news, (t.heap a).calls = (s.heap a).calls ++ news ∧
    Hears (s.heap a).uniqueID (messages (s.heap b).uniqueID news) (s.heap b) (t.heap b)

theorem Passes.silent {t' : Server Fifo} (h : Passes a b s t)
    (hcalls : (t'.heap a).calls = (t.heap a).calls)
    (hsilent : Hears (s.heap a).uniqueID [] (t.heap b) (t'.heap b)) : Passes a b s t' := by
  obtain ⟨news, hnews, htold⟩ := h
  exact ⟨news, hcalls.trans hnews, htold.behind hsilent⟩

theorem Passes.modify {g : ClientHandle Fifo → ClientHandle Fifo} (h : Passes a b s t)
    (hcalls : ∀ c, (g c).calls = c.calls) (hsilent : ∀ c, Hears (s.heap a).uniqueID [] c (g c)) :
    Passes a b s (t.modify p g) := by
  refine h.silent ?_ (modify_silent hsilent)
  rw [modify_heap]
  split
  next heq =>
    rw [heq]
    exact hcalls _
  next => rfl

theorem own_rule (hstate : (s.heap a).protocol.state = 3) (hb : b ∈ s.clients)
    (hids : ∀ q ∈ s.clients, (s.heap q).uniqueID = (s.heap b).uniqueID → q = b) :
    TickRule a s (Passes a b s) where
  receive t u h := h.modify (g := ClientHandle.setReceived u) (fun _ => rfl)
    fun _ => ClientHandle.hears_nothing rfl (fun hdc => hdc)
  take h := h.modify (g := ClientHandle.takeIncoming) (fun _ => rfl)
    fun _ => ClientHandle.hears_nothing rfl (fun hdc => hdc)
  disconnect t reason _ h := h.modify (fun c => (ClientHandle.disconnect_keeps reason c).calls)
    (ClientHandle.disconnect_silent reason)
  packet t type bytes hsmall h hlen _ := by
    obtain ⟨news, hnews, htold⟩ := h
    have hframed := framed_of_small hsmall
    have hid : ∀ q, ((t.handled a type bytes).heap q).uniqueID = (s.heap q).uniqueID := by
      intro q
      rw [← hframed.uniqueID, handled, modify_heap]
      split
      next heq =>
        rw [heq]
        rfl
      next => rfl
    have hstate' : ((t.handled a type bytes).heap a).protocol.state = 3 := by
      rw [handled_self]
      exact hframed.working.mpr hstate
    have hclients : (t.handled a type bytes).clients = s.clients := hframed.clients
    have hreacted := @reacted_hears _ (t.handled a type bytes) a b (s.heap a).uniqueID type bytes
    have hself := @tells_self _ (t.handled a type bytes) a b type bytes hstate'
      (by rw [hclients]; exact hb) (fun q hq heq => hids q (by rw [← hclients]; exact hq)
        (by rw [← hid, ← hid]; exact heq)) hlen
    rw [hid, hid] at hself
    rw [hself] at hreacted
    refine ⟨news ++ [(type, bytes)], ?_, ?_⟩
    · rw [(reacted_keeps type bytes).calls, handled_calls, hnews, List.append_assoc]
    · rw [messages_append, messages_singleton]
      exact (htold.behind (handled_silent type bytes)).trans hreacted

theorem tickClient_passes (hs : s.Sound) (ha : a ∈ s.clients) (hb : b ∈ s.clients) (hp : p ∈ s.clients)
    (hstate : (s.heap a).protocol.state = 3)
    (hids : ∀ q ∈ s.clients, ∀ r ∈ s.clients, (s.heap q).uniqueID = (s.heap r).uniqueID → q = r)
    (h : s.tickClient p = .ok s') : Passes a b s s' := by
  rcases eq_or_ne p a with rfl | hne
  · have hrule := own_rule hstate hb fun q hq => hids q hq b hb
    refine hrule.tickClient hs ⟨[], (List.append_nil _).symm, ClientHandle.silent_passive.refl _⟩ id
      (fun t now ht => ?_) h
    exact ht.modify (fun c => (ClientHandle.rested_keeps now c).calls) (ClientHandle.rested_silent now)
  · have hrule := other_rule (fun hid => hne (hids p hp a ha hid)) b
    have hsilent := hrule.tickClient hs (ClientHandle.silent_passive.refl _) id
      (fun t now ht => ht.behind (modify_silent (ClientHandle.rested_silent now))) h
    have hkeeps := step_keeps hs (e := .tickClient p) (by simpa [enabled] using hp) (hs.allocated a ha)
      (fun heq => hne (Event.tickClient.inj heq)) h
    exact ⟨[], by rw [hkeeps.calls, List.append_nil], hsilent⟩

/-- Whatever happens, the texts that are handled from `a` for `b` are what `b` is told with the ID of
`a`, in order. -/
theorem step_passes (hs : s.Sound) (he : s.enabled e = true) (ha : a ∈ s.clients) (hb : b ∈ s.clients)
    (hstate : (s.heap a).protocol.state = 3)
    (hids : ∀ q ∈ s.clients, ∀ r ∈ s.clients, (s.heap q).uniqueID = (s.heap r).uniqueID → q = r)
    (h : s.step e = .ok s') : Passes a b s s' := by
  have hnothing : (∀ q, e ≠ .tickClient q) →
      Hears (s.heap a).uniqueID [] (s.heap b) (s'.heap b) → Passes a b s s' := by
    intro htick hsilent
    have hkeeps := step_keeps hs he (hs.allocated a ha) (htick a) h
    exact ⟨[], by rw [hkeeps.calls, List.append_nil], hsilent⟩
  have hpassive : (∀ data, e ≠ .receivedData b data) → (∀ q, e ≠ .tickClient q) → Passes a b s s' :=
    fun hreceived htick => hnothing htick
      (step_passive ClientHandle.silent_passive hs (hs.allocated b hb) hreceived htick h)
  cases e with
  | tickClient p => exact tickClient_passes hs ha hb (by simpa [enabled] using he) hstate hids h
  | receivedData p data =>
    refine hnothing (by simp) ?_
    cases h
    exact modify_silent fun _ => ClientHandle.hears_nothing rfl (fun hdc => hdc)
  | connectionAccepted ip => exact hpassive (by simp) (by simp)
  | remoteClosed p => exact hpassive (by simp) (by simp)
  | released p => exact hpassive (by simp) (by simp)
  | authenticatorTake => exact hpassive (by simp) (by simp)
  | authenticatorAnswer => exact hpassive (by simp) (by simp)
  | clock elapsed => exact hpassive (by simp) (by simp)

end Steps

end Server

end P2PChat

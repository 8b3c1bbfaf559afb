import P2PChat.DroppedChunks
import P2PChat.Profiles

namespace P2PChat

open ByteQueue Relation

namespace Server

open ClientHandle (Marks)

section Definitions

variable {β : Type} [ByteQueue β]

/-- Something other than the received data has a say in what becomes of `p`: the connection is closed or
its last reference goes away, the authenticator answers a request of it, or it has been silent for
600 ticks. -/
def disturbs (p : Nat) (s : Server β) : Event → Bool
  | .remoteClosed q => q == p
  | .released q => q == p
  | .authenticatorAnswer => s.inFlight.any fun user => (s.heap p).uniqueID == user.clientID
  | .tickClient q => q == p && decide (600 ≤ (s.heap p).ticksSinceLastPacket)
  | _ => false

/-- A tick of `p` finds more than the receive buffer can take. -/
def overflows (p : Nat) (s : Server β) (e : Event) : Bool := (s.handed p e).isSome && !s.accepts? p

/-- Only the received data decides what becomes of `p`, and none of it is rejected. -/
def calm (p : Nat) (x : Server β × Feed) (e : Event) : Prop :=
  x.1.disturbs p e = false ∧ x.1.overflows p e = false

instance (p : Nat) (x : Server β × Feed) (e : Event) : Decidable (calm p x e) :=
  inferInstanceAs (Decidable (_ ∧ _))

end Definitions

variable [Platform]

section Packets

variable {s : Server Fifo} {p : Nat} {type : UInt32} {bytes : AString}

omit [Platform] in
theorem tell_marks {q : Nat} {pkt : Packet} (h : told pkt) :
    Marks id (s.heap p) ((s.tell q pkt).heap p) := by
  rw [tell, modify_heap]
  split
  next heq =>
    rw [heq]
    exact ClientHandle.queue_marks (told_closes h _)
  next => exact Marks.refl _

omit [Platform] in
theorem modify_marks {f : Profile → Profile} {g : ClientHandle Fifo → ClientHandle Fifo}
    (h : Marks f (s.heap p) (g (s.heap p))) : Marks f (s.heap p) ((s.modify p g).heap p) := by
  rw [modify_heap, if_pos rfl]
  exact h

omit [Platform] in
theorem answered_marks (request : AString × AString × Int32 × Int32) (c : ClientHandle Fifo) :
    Marks (fun x => if accepts request then { x with state := request.2.2.2.toUInt32 }
      else x.disconnect errorCodeBadApp) c (answered request c) := by
  unfold answered
  split
  next =>
    have hset : Marks (fun x => { x with state := request.2.2.2.toUInt32 }) c
        (c.setProtocolState request.2.2.2.toUInt32) := ⟨rfl, rfl⟩
    exact hset.trans (ClientHandle.queue_marks rfl)
  next => exact ClientHandle.disconnect_marks _ _

/-- What comes of a packet of a known type, in the profile. -/
theorem reacted_marks (hknown : knows (s.heap p).protocol.state type = true) :
    Marks (Profile.reacted type bytes) (s.heap p) ((s.reacted p type bytes).heap p) := by
  have hsame : ¬((s.heap p).protocol.state = 1 ∧ type = 0x00) → ∀ {c : ClientHandle Fifo},
      Marks id (s.heap p) c → Marks (Profile.reacted type bytes) (s.heap p) c := by
    intro hno c h
    refine ⟨h.profile.trans ?_, h.ticks⟩
    exact (if_neg hno).symm
  have hrefl := Marks.refl (s.heap p)
  unfold knows at hknown
  unfold reacted
  by_cases h1 : (s.heap p).protocol.state = 1
  · rw [if_pos h1] at hknown ⊢
    split
    next h0 =>
      have hyes : (s.heap p).profile.state = 1 ∧ type = 0x00 := ⟨h1, h0⟩
      rcases hparse : (parseStatusRequest bytes).1 with _ | request
      · refine ⟨?_, rfl⟩
        rw [Profile.reacted, if_pos hyes, hparse]
        rfl
      · obtain ⟨hprofile, hticks⟩ := modify_marks (p := p) (answered_marks request (s.heap p))
        refine ⟨hprofile.trans ?_, hticks⟩
        rw [Profile.reacted, if_pos hyes, hparse]
        rfl
    next h0 =>
      have hping : type = 0x01 := by simpa [h0] using hknown
      rw [if_pos hping]
      refine hsame (fun h => h0 h.2) ?_
      rcases (parseBEInt64 bytes).1 with _ | timestamp
      · exact hrefl
      · exact tell_marks (Or.inl rfl)
  · rw [if_neg h1] at hknown ⊢
    refine hsame (fun h => h1 h.1) ?_
    by_cases h2 : (s.heap p).protocol.state = 2
    · rw [if_pos h2] at hknown ⊢
      rw [if_pos (by simpa using hknown)]
      rcases (parseLoginInfo bytes).1 with _ | login
      · exact hrefl
      · exact modify_marks ⟨rfl, rfl⟩
    · rw [if_neg h2] at hknown ⊢
      by_cases h3 : (s.heap p).protocol.state = 3
      · rw [if_pos h3] at hknown ⊢
        split
        next =>
          rcases (parseVarInt32 bytes).1 with _ | id
          · exact hrefl
          · refine modify_marks ?_
            unfold ClientHandle.handleKeepAlive
            split
            next => exact ⟨rfl, rfl⟩
            next => exact hrefl
        next h0 =>
          rw [if_pos (by simpa [h0] using hknown)]
          rcases hrelay : s.relay p type bytes with _ | x
          · exact hrefl
          · exact tell_marks (relayed_told (relay_shape hrelay).2)
      · rw [if_neg h3] at hknown
        cases hknown

theorem treated_marks (hknown : knows (s.heap p).protocol.state type = true) :
    Marks (fun x => x.after (type, bytes)) (s.heap p) ((s.treated p type bytes).heap p) := by
  have hstate : ((s.handled p type bytes).heap p).protocol.state = (s.heap p).protocol.state := by
    rw [handled_self]
    rfl
  have hhandled : Marks (Profile.handled type bytes) (s.heap p) ((s.handled p type bytes).heap p) := by
    rw [handled_self]
    exact ClientHandle.handled_marks type bytes _
  have hreacted := hhandled.trans
    (@reacted_marks _ (s.handled p type bytes) p type bytes (by rw [hstate]; exact hknown))
  unfold treated
  split
  next hwrong =>
    obtain ⟨hprofile, hticks⟩ := hreacted.trans
      (modify_marks (ClientHandle.disconnect_marks errorCodePacketError _))
    refine ⟨hprofile.trans ?_, hticks⟩
    exact (if_pos hwrong.2).symm
  next hright =>
    refine ⟨hreacted.profile.trans ?_, hreacted.ticks⟩
    exact (if_neg fun h => hright ⟨hknown, h⟩).symm

/-- What a short packet asks to be relayed is short. -/
theorem relay_short (hbytes : bytes.length ≤ 1024) {x : Nat × Packet}
    (h : s.relay p type bytes = some x) : x.2.body.length ≤ 65536 := by
  unfold relay at h
  split at h
  next =>
    split at h
    next =>
      obtain ⟨media, _, h⟩ := Option.bind_eq_some_iff.mp h
      obtain ⟨q, _, h⟩ := Option.map_eq_some_iff.mp h
      rw [← h]
      refine (body_length_le _).trans ?_
      simp only [mediaPacket, List.map_cons, List.map_nil, List.sum_cons, List.sum_nil, Field.bound]
      omega
    next =>
      split at h
      next =>
        obtain ⟨⟨id, msg⟩, hparse, h⟩ := Option.bind_eq_some_iff.mp h
        obtain ⟨q, _, h⟩ := Option.map_eq_some_iff.mp h
        have hmsg := parseMediaMsg_length hparse
        rw [← h]
        refine (body_length_le _).trans ?_
        simp only [mediaMsgPacket, List.map_cons, List.map_nil, List.sum_cons, List.sum_nil, Field.bound]
        omega
      next => cases h
  next => cases h

end Packets

section Ticks

variable {s s' : Server Fifo} {p : Nat} {u : AString}

/-- Short packets of known types are taken one after another, and none is left. -/
theorem timely_rule (hs : s.Sound) (hlive : (s.heap p).state.toNat < 4)
    {todo : List (UInt32 × AString)} (hshort : ∀ q ∈ todo, (frame (rawPacket q).body).length < 1024)
    (hknown : understands (s.heap p).protocol.state todo = true) :
    (endpoint p).StreamRule 65536 todo (fun done t => ReflTransGen (Small Gate.open p) s t ∧
      Marks (fun x => (done.map call).foldl Profile.after x) (s.heap p) (t.heap p)) False
        (fun _ => False) where
  received b t := by
    change ((t.modify p (ClientHandle.setReceived b)).heap p).protocol.receivedData = b
    rw [modify_heap, if_pos rfl]
    rfl
  setReceived done v t hv h := by
    have hset : Marks id (t.heap p) ((t.modify p (ClientHandle.setReceived (Fifo.filled 65536 v))).heap p) :=
      modify_marks ⟨rfl, rfl⟩
    exact ⟨h.1.tail (setReceived_small hv t), h.2.trans hset⟩
  frame done q rest bb t htodo h hbb hlen := by
    have hstate : (t.heap p).protocol.state =
        ((done.map call).foldl Profile.after (s.heap p).profile).state :=
      congrArg Profile.state h.2.profile
    rw [htodo] at hknown
    have hknows : knows (t.heap p).protocol.state q.1 = true := by
      rw [hstate]
      exact (Bool.and_eq_true_iff.mp (understands_rest (x := (s.heap p).profile) hknown)).1
    have hq : (frame (rawPacket q).body).length < 1024 :=
      hshort q (by rw [htodo]; exact List.mem_append_right _ List.mem_cons_self)
    have hbytes : bb.unread.length ≤ 1024 := by
      have hbody := rawPacket_length q
      rw [frame, List.length_append] at hq
      rw [hbb]
      omega
    obtain ⟨hok, hsmall, hreceived⟩ := handleFrame_eq (sound_of_small hs h.1)
      ((framed_of_small h.1).live.mpr hlive) hlen fun x hx => relay_short hbytes hx
    refine Or.inr ⟨_, _, hok, hreceived, ⟨h.1.trans hsmall, ?_⟩, fun hno => ?_⟩
    · have hmarks := h.2.trans (@treated_marks _ t p q.1 bb.unread hknows)
      rw [hbb] at hmarks
      refine ⟨?_, by rw [hbb]; exact hmarks.ticks⟩
      rw [hbb, hmarks.profile, List.map_append, List.foldl_append]
      rfl
    · rw [hknows] at hno
      cases hno

/-- A tick that has data to process, and not too much of it. -/
theorem tickClient_timely (hs : s.Sound) (hnot : (s.heap p).isDestroyed = false)
    (hticks : (s.heap p).ticksSinceLastPacket < 600) {todo : List (UInt32 × AString)}
    (hshort : ∀ q ∈ todo, (frame (rawPacket q).body).length < 1024)
    (hknown : understands (s.heap p).protocol.state todo = true) (hu : u.length ≤ 65536)
    (hrec : (s.heap p).protocol.receivedData = Fifo.filled 65536 u)
    (hin : (s.heap p).incomingData ≠ []) (hfit : (u ++ (s.heap p).incomingData).length ≤ 65536)
    (hgoes : u ++ (s.heap p).incomingData <+: stream todo) :
    ∃ s', s.tickClient p = .ok s' ∧ ∃ done rest v, todo = done ++ rest ∧
      u ++ (s.heap p).incomingData = stream done ++ v ∧ v.length ≤ 65536 ∧
        (s'.heap p).protocol.receivedData = Fifo.filled 65536 v ∧ nextFrame v = none ∧
          (s'.heap p).profile = (done.map call).foldl Profile.after (s.heap p).profile := by
  have hlive := live_of_not (hs.connections p) (Bool.eq_false_iff.mp hnot)
  have htake := takeIncoming_small (G := Gate.open) p s
  have hself : (s.modify p ClientHandle.takeIncoming).heap p = (s.heap p).takeIncoming := if_pos rfl
  have hstate : ((s.modify p ClientHandle.takeIncoming).heap p).protocol.state =
      (s.heap p).protocol.state := by
    rw [hself]
    rfl
  have hrule := timely_rule (htake.sound hs) (htake.framed.live.mpr hlive) hshort
    (by rw [hstate]; exact hknown)
  have hrec' : (endpoint p).received (s.modify p ClientHandle.takeIncoming) = Fifo.filled 65536 u := by
    change ((s.modify p ClientHandle.takeIncoming).heap p).protocol.receivedData = _
    rw [hself]
    exact hrec
  have hsize : ∀ q ∈ todo, (rawPacket q).body.length < 2 ^ 32 := by
    intro q hq
    have hlen := hshort q hq
    rw [frame, List.length_append] at hlen
    omega
  have htaken := hrule.addReceivedData (by omega) hsize hu hrec' hfit hgoes ⟨.refl, Marks.refl _⟩
  rcases hadd : (endpoint p).addReceivedData (s.heap p).incomingData
    (s.modify p ClientHandle.takeIncoming) with e | t
  · rw [hadd] at htaken
    exact htaken.elim
  · rw [hadd] at htaken
    obtain ⟨done, rest, v, htodo, hbytes, hv, hreceived, ⟨_, hmarks⟩, hleft⟩ := htaken
    have ht : s.tickReceived p = .ok t := by
      rw [tickReceived, if_pos hin]
      exact hadd
    obtain ⟨_, htick⟩ := tickClient_eq hs hnot ht
    have hprofile : (t.heap p).profile = (done.map call).foldl Profile.after (s.heap p).profile := by
      rw [hmarks.profile, hself]
      rfl
    have hcount : (t.heap p).ticksSinceLastPacket < 600 := by
      rw [hmarks.ticks, hself]
      exact hticks
    refine ⟨_, htick, done, rest, v, htodo, hbytes, hv, ?_, hleft.resolve_left id, ?_⟩
    · rw [modify_heap, if_pos rfl, (ClientHandle.rested_keeps t.now _).received]
      exact hreceived
    · rw [modify_heap, if_pos rfl, ClientHandle.rested_profile hcount, hprofile]

end Ticks

section Runs

variable {p : Nat} {packets : List (UInt32 × AString)}

/-- Frames that take up the same bytes, but for a part of a frame, are the same. -/
theorem taken_unique {done todo done' todo' : List (UInt32 × AString)} {v v' : AString}
    (hsize : ∀ q ∈ packets, (rawPacket q).body.length < 2 ^ 32) (h : packets = done ++ todo)
    (h' : packets = done' ++ todo') (hbytes : stream done ++ v = stream done' ++ v')
    (hv : nextFrame v = none) (hv' : nextFrame v' = none) : done = done' := by
  have hmore : ∀ {l : List (UInt32 × AString)} {w w' : AString}, (∀ q ∈ l, q ∈ packets) →
      w = stream l ++ w' → nextFrame w = none → l = [] := by
    intro l w w' hl hw hnone
    cases l with
    | nil => rfl
    | cons q l =>
      rw [hw, stream_cons, List.append_assoc,
        nextFrame_frame (hsize q (hl q List.mem_cons_self))] at hnone
      cases hnone
  rcases List.append_eq_append_iff.mp (h.symm.trans h') with ⟨l, hdone, htodo⟩ | ⟨l, hdone, htodo⟩
  · rw [hdone, stream_append, List.append_assoc] at hbytes
    have hl := hmore (fun q hq => by rw [h, htodo]; simp [hq]) (List.append_cancel_left hbytes) hv
    rw [hdone, hl, List.append_nil]
  · rw [hdone, stream_append, List.append_assoc] at hbytes
    have hl := hmore (fun q hq => by rw [h', htodo]; simp [hq]) (List.append_cancel_left hbytes).symm
      hv'
    rw [hdone, hl, List.append_nil]

/-- As long as what came in is a part of the stream, the complete frames of it were handled, and the
profile is what they come to. -/
def Timely (packets : List (UInt32 × AString)) (p : Nat) (u : AString) (x₀ : Profile)
    (x : Server Fifo × Feed) : Prop :=
  u ++ x.2.bytes <+: stream packets → ∃ done todo v, packets = done ++ todo ∧
    u ++ x.2.bytes = stream done ++ v ∧ v.length ≤ 65536 ∧
      (x.1.heap p).protocol.receivedData = Fifo.filled 65536 v ∧
        (x.1.heap p).profile = (done.map call).foldl Profile.after x₀ ∧
          (x.2.bytes = [] → done = []) ∧ (x.2.bytes ≠ [] → nextFrame v = none)

/-- Nothing else changes the profile. -/
theorem undisturbed_profile {s s' : Server Fifo} {e : Event} (hs : s.Sound) (he : s.enabled e = true)
    (hp : p < s.allocated) (hnone : s.handed p e = none) (hcalm : s.disturbs p e = false)
    (h : s.step e = .ok s') : (s'.heap p).profile = (s.heap p).profile ∧
      (s'.heap p).protocol.receivedData = (s.heap p).protocol.receivedData := by
  have hothers : ¬s.concerns e p → (s'.heap p).profile = (s.heap p).profile ∧
      (s'.heap p).protocol.receivedData = (s.heap p).protocol.receivedData := by
    intro hnot
    have hstepped := step_stepped hs he (gated_open s e)
    rw [h] at hstepped
    obtain ⟨_, hmarks, hreceived⟩ := effects_told hstepped.2.2 hnot hp
    exact ⟨hmarks.profile, hreceived⟩
  cases e with
  | connectionAccepted ip => exact hothers id
  | receivedData q data =>
    cases h
    have hmodify : (s.receivedData q data).heap p =
        if p = q then (s.heap q).receive data else s.heap p := rfl
    rw [hmodify]
    split
    next heq =>
      rw [heq]
      exact ⟨rfl, rfl⟩
    next => exact ⟨rfl, rfl⟩
  | remoteClosed q => exact hothers fun heq => absurd heq.symm (by simpa [disturbs] using hcalm)
  | tickClient q =>
    by_cases heq : p = q
    · subst heq
      have hkeeps := unfed_keeps hs he hp hnone h
      have h : s.tickClient p = .ok s' := h
      cases hdead : (s.heap p).isDestroyed with
      | true =>
        rw [tickClient, if_pos hdead] at h
        cases h
        exact ⟨rfl, rfl⟩
      | false =>
        have hidle : ¬(s.heap p).incomingData ≠ [] := by
          intro hin
          rw [handed, if_pos ⟨rfl, hdead, hin⟩] at hnone
          cases hnone
        have hcount : (s.heap p).ticksSinceLastPacket < 600 := by simpa [disturbs] using hcalm
        obtain ⟨t, ht, _, hrested⟩ := tickClient_parts hs hdead h
        rw [tickReceived, if_neg hidle] at ht
        cases ht
        refine ⟨?_, hkeeps.received⟩
        rw [hrested]
        exact ClientHandle.rested_profile hcount _
    · exact hothers fun hq => heq hq
  | released q => exact hothers fun heq => absurd heq.symm (by simpa [disturbs] using hcalm)
  | authenticatorTake => exact hothers id
  | authenticatorAnswer =>
    refine hothers ?_
    rintro ⟨user, hin, hid⟩
    have hyes : s.disturbs p .authenticatorAnswer = true := by
      rw [disturbs, hin, Option.any_some]
      exact beq_iff_eq.mpr hid
    rw [hyes] at hcalm
    cases hcalm
  | clock elapsed => exact hothers id

section Next

variable {s : Server Fifo} {feed : Feed} {u : AString} {x₀ : Profile}

/-- A tick that goes on with the stream. -/
theorem Timely.tick (h : Timely packets p u x₀ (s, feed))
    (hshort : ∀ q ∈ packets, (frame (rawPacket q).body).length < 1024)
    (hknown : understands x₀.state packets = true) (hs : s.Sound) {data : AString}
    (hhanded : s.handed p (.tickClient p) = some data)
    (hcalm : s.disturbs p (.tickClient p) = false) (hfit : s.overflows p (.tickClient p) = false)
    (hstream : u ++ (feed.bytes ++ data) <+: stream packets) : ∃ s', s.tickClient p = .ok s' ∧
      Timely packets p u x₀ (s', s.feeds p feed (.tickClient p)) := by
  obtain ⟨_, hdead, hin, rfl⟩ := handed_tick hhanded
  obtain ⟨done, todo, v, hpackets, hbytes, hv, hrec, hprofile, _, _⟩ :=
    h ((List.prefix_append_right_inj u).mpr (List.prefix_append _ _) |>.trans hstream)
  have hcount : (s.heap p).ticksSinceLastPacket < 600 := by simpa [disturbs] using hcalm
  have hstate : (s.heap p).protocol.state = ((done.map call).foldl Profile.after x₀).state :=
    congrArg Profile.state hprofile
  have htodo : understands (s.heap p).protocol.state todo = true := by
    rw [hpackets] at hknown
    rw [hstate]
    exact understands_rest hknown
  have hroom : (v ++ (s.heap p).incomingData).length ≤ 65536 := by
    rw [overflows, hhanded, accepts?, inbound_eq hv hrec] at hfit
    simpa using hfit
  have hbytes : u ++ feed.bytes = stream done ++ v := hbytes
  have hrest : v ++ (s.heap p).incomingData <+: stream todo := by
    rw [← List.append_assoc, hbytes, hpackets, stream_append, List.append_assoc] at hstream
    exact (List.prefix_append_right_inj _).mp hstream
  obtain ⟨s', htick, done', rest, v', htodo', hread, hv', hrec', hleft, hprofile'⟩ :=
    tickClient_timely hs hdead hcount
      (fun q hq => hshort q (by rw [hpackets]; exact List.mem_append_right _ hq)) htodo hv hrec hin
      hroom hrest
  have hfeeds : s.feeds p feed (.tickClient p) =
      ⟨feed.bytes ++ (s.heap p).incomingData, feed.lost || !s.accepts? p⟩ := by rw [feeds, hhanded]
  refine ⟨s', htick, ?_⟩
  rw [hfeeds]
  refine fun _ => ⟨done ++ done', rest, v', by rw [hpackets, htodo', List.append_assoc], ?_, hv', hrec',
    ?_, fun hnil => absurd (List.append_eq_nil_iff.mp hnil).2 hin, fun _ => hleft⟩
  · rw [← List.append_assoc, hbytes, stream_append, List.append_assoc, List.append_assoc, hread]
  · rw [hprofile', hprofile, List.map_append, List.foldl_append]

theorem Timely.next {s' : Server Fifo} {e : Event} (h : Timely packets p u x₀ (s, feed))
    (hshort : ∀ q ∈ packets, (frame (rawPacket q).body).length < 1024)
    (hknown : understands x₀.state packets = true) (hs : s.Sound) (he : s.enabled e = true)
    (hp : p < s.allocated) (hcalm : s.disturbs p e = false) (hfit : s.overflows p e = false)
    (hstep : s.step e = .ok s') : Timely packets p u x₀ (s', s.feeds p feed e) := by
  rcases hhanded : s.handed p e with _ | data
  · have hsame : s.feeds p feed e = feed := by rw [feeds, hhanded]
    obtain ⟨hprofile, hreceived⟩ := undisturbed_profile hs he hp hhanded hcalm hstep
    rw [hsame]
    intro hstream
    obtain ⟨done, todo, v, hpackets, hbytes, hv, hrec, hprofile', hends⟩ := h hstream
    exact ⟨done, todo, v, hpackets, hbytes, hv, hreceived.trans hrec, hprofile.trans hprofile', hends⟩
  · obtain ⟨rfl, _⟩ := handed_tick hhanded
    intro hstream
    have hfeeds : (s.feeds p feed (.tickClient p)).bytes = feed.bytes ++ data := by
      rw [feeds, hhanded]
    obtain ⟨s'', htick, htimely⟩ := h.tick hshort hknown hs hhanded hcalm hfit
      (by rw [← hfeeds]; exact hstream)
    have heq : s'' = s' := Except.ok.inj (htick.symm.trans hstep)
    rw [heq] at htimely
    exact htimely hstream

end Next

section Buffers

variable {β γ : Type} [ByteQueue β] [ByteQueue γ] {f : β → γ} (hf : Hom f)

include hf

omit [Platform] in
theorem overflows_map (p : Nat) (s : Server β) (e : Event) :
    (s.map f).overflows p e = s.overflows p e := by
  have hhanded : (s.map f).handed p e = s.handed p e := by cases e <;> rfl
  rw [overflows, overflows, hhanded, accepts?_map hf]

end Buffers

theorem timely_of_reach {s₀ : Server ByteBuffer} {x : Server ByteBuffer × Feed}
    (h₀ : (serverMachine ByteBuffer).Reachable initial s₀) (hp : p < s₀.allocated)
    (hshort : ∀ q ∈ packets, (frame (rawPacket q).body).length < 1024)
    (hknown : understands (s₀.heap p).protocol.state packets = true)
    (h : (fedMachine ByteBuffer p).Reach (calm p) (s₀, ⟨[], false⟩) x) :
    (x.1.map ByteBuffer.contents).Sound ∧
      Timely packets p (readAll (s₀.heap p).protocol.receivedData).1 (s₀.heap p).profile
        (x.1.map ByteBuffer.contents, x.2) := by
  have hf := ByteBuffer.contents_hom
  have hsound := reachable_sound (by rw [initial_contents]; exact initial_sound) h₀
  obtain ⟨u, hu, hrec⟩ := (hsound.connections p).received
  have hread : (readAll (s₀.heap p).protocol.receivedData).1 = u := by
    have hcontents := congrArg (fun b => (readAll b).1) hrec
    change (readAll (ByteBuffer.contents (s₀.heap p).protocol.receivedData)).1 =
      (Fifo.filled 65536 u).unread at hcontents
    rw [hf.readAll, (Fifo.filled_eq hu).2.2] at hcontents
    exact hcontents
  have hreach := @fed_reach_map _ p _ _ _ _ _ hf (calm p) _ _ (h.mono fun y e hcalm => by
    refine ⟨?_, by rw [overflows_map hf]; exact hcalm.2⟩
    cases e <;> exact hcalm.1)
  rw [hread]
  have hinv := hreach.invariant (I := fun y => y.1.Sound ∧ p < y.1.allocated ∧
    Timely packets p u (s₀.heap p).profile y) ?_ ?_
  · exact ⟨hinv.1, hinv.2.2⟩
  · refine ⟨hsound, hp, fun hstream => ?_⟩
    obtain ⟨rest, hrest⟩ := hstream
    exact ⟨[], packets, u, rfl, List.append_nil u, hu, hrec, rfl, fun _ => rfl, fun hne => absurd rfl hne⟩
  · rintro ⟨t, feed⟩ e ⟨t', feed'⟩ _ ⟨ht, halloc, htimely⟩ he ⟨hcalm, hfit⟩ hstep
    obtain ⟨hok, rfl⟩ : t.step e = .ok t' ∧ t.feeds p feed e = feed' := by
      change (t.step e).map _ = _ at hstep
      rcases htstep : t.step e with error | t''
      · rw [htstep] at hstep
        cases hstep
      · rw [htstep] at hstep
        cases hstep
        exact ⟨rfl, rfl⟩
    have hstepped := step_stepped ht he (gated_open t e)
    rw [hok] at hstepped
    exact ⟨sound_of_effects ht hstepped.2.2, Nat.lt_of_lt_of_le halloc (effects_allocated hstepped.2.2),
      htimely.next hshort hknown ht he halloc hcalm hfit hok⟩

/-- A tick that has to go on with the stream does not fail. -/
theorem timely_tick {s₀ s : Server ByteBuffer} {feed : Feed} {data : AString}
    (h₀ : (serverMachine ByteBuffer).Reachable initial s₀) (hp : p < s₀.allocated)
    (hshort : ∀ q ∈ packets, (frame (rawPacket q).body).length < 1024)
    (hknown : understands (s₀.heap p).protocol.state packets = true)
    (h : (fedMachine ByteBuffer p).Reach (calm p) (s₀, ⟨[], false⟩) (s, feed))
    (hhanded : s.handed p (.tickClient p) = some data) (hcalm : calm p (s, feed) (.tickClient p))
    (hstream : (readAll (s₀.heap p).protocol.receivedData).1 ++ (feed.bytes ++ data) <+:
      stream packets) : ∃ s', s.tickClient p = .ok s' := by
  have hf := ByteBuffer.contents_hom
  obtain ⟨hs, htimely⟩ := timely_of_reach h₀ hp hshort hknown h
  obtain ⟨_, htick, _⟩ := htimely.tick hshort hknown hs hhanded hcalm.1
    (by rw [overflows_map hf]; exact hcalm.2) hstream
  have hmap : (s.map ByteBuffer.contents).step (.tickClient p) =
      (s.step (.tickClient p)).map (Server.map ByteBuffer.contents) := step_map hf s _
  change (s.map ByteBuffer.contents).tickClient p = (s.tickClient p).map _ at hmap
  rw [htick] at hmap
  rcases hs' : s.tickClient p with e | s'
  · rw [hs'] at hmap
    cases hmap
  · exact ⟨s', rfl⟩

/-- Data that comes in and goes on with the stream, and its tick. -/
theorem timely_delivery {s₀ s : Server ByteBuffer} {feed : Feed} {data : AString}
    (h₀ : (serverMachine ByteBuffer).Reachable initial s₀) (hp : p < s₀.allocated)
    (hshort : ∀ q ∈ packets, (frame (rawPacket q).body).length < 1024)
    (hknown : understands (s₀.heap p).protocol.state packets = true)
    (h : (fedMachine ByteBuffer p).Reach (calm p) (s₀, ⟨[], false⟩) (s, feed))
    (he : s.enabled (.receivedData p data) = true) (hmem : p ∈ s.clients)
    (hnot : (s.heap p).isDestroyed = false) (hempty : (s.heap p).incomingData = []) (hdata : data ≠ [])
    (hfit : ((readAll (s.heap p).protocol.receivedData).1 ++ data).length ≤ 65536)
    (hstream : (readAll (s₀.heap p).protocol.receivedData).1 ++ (feed.bytes ++ data) <+:
      stream packets) : ∃ s' lost, (fedMachine ByteBuffer p).Reach (calm p) (s₀, ⟨[], false⟩)
        (s', ⟨feed.bytes ++ data, lost⟩) := by
  have hself : (s.receivedData p data).heap p = (s.heap p).receive data := if_pos rfl
  have hin : ((s.receivedData p data).heap p).incomingData = data := by
    rw [hself]
    exact congrArg (· ++ data) hempty
  have hlive : ((s.receivedData p data).heap p).isDestroyed = false := by
    rw [hself]
    exact hnot
  have hhanded : (s.receivedData p data).handed p (.tickClient p) = some data := by
    have hall : p = p ∧ ((s.receivedData p data).heap p).isDestroyed = false ∧
        ((s.receivedData p data).heap p).incomingData ≠ [] := ⟨rfl, hlive, by rw [hin]; exact hdata⟩
    rw [handed, if_pos hall, hin]
  have hreceive : calm p (s, feed) (.receivedData p data) := ⟨rfl, rfl⟩
  have htime : calm p (s.receivedData p data, feed) (.tickClient p) := by
    have haccepts : (s.receivedData p data).accepts? p = true := by
      rw [accepts?, inbound, hin, hself]
      exact decide_eq_true hfit
    have hticks : ((s.receivedData p data).heap p).ticksSinceLastPacket = 0 := by
      rw [hself]
      rfl
    refine ⟨?_, ?_⟩
    · rw [disturbs, hticks]
      exact Bool.and_false _
    · rw [overflows, haccepts]
      exact Bool.and_false _
  obtain ⟨s', htick⟩ := timely_tick h₀ hp hshort hknown (.next h he hreceive rfl) hhanded htime hstream
  obtain ⟨lost, hreach⟩ := fed_delivery h hreceive htime he hmem hnot hempty hdata htick
  exact ⟨s', lost, hreach⟩

/-- When the first frame has come in, its packet is handled. -/
theorem timely_handles {s₀ : Server ByteBuffer} {x : Server ByteBuffer × Feed} {q : UInt32 × AString}
    {todo : List (UInt32 × AString)}
    (h₀ : (serverMachine ByteBuffer).Reachable initial s₀) (hp : p < s₀.allocated)
    (hshort : ∀ q' ∈ q :: todo, (frame (rawPacket q').body).length < 1024)
    (hknown : understands (s₀.heap p).protocol.state (q :: todo) = true)
    (hx : (fedMachine ByteBuffer p).Reach (calm p) (s₀, ⟨[], false⟩) x)
    (hempty : (readAll (s₀.heap p).protocol.receivedData).1 = [])
    (hbytes : x.2.bytes = stream (q :: todo)) : (x.1.heap p).history ≠ [] := by
  have hne : x.2.bytes ≠ [] := by
    intro hnil
    have hcons := hbytes.symm.trans hnil
    rw [stream_cons, List.append_eq_nil_iff] at hcons
    have hpos := frame_length_pos (rawPacket q).body
    rw [hcons.1] at hpos
    exact absurd hpos (Nat.lt_irrefl 0)
  have hlen := hshort q List.mem_cons_self
  rw [frame, List.length_append] at hlen
  have htimely := (timely_of_reach h₀ hp hshort hknown hx).2
  rw [hempty] at htimely
  obtain ⟨done, _, v, hpackets, hread, _, _, hprofile, _, hleft⟩ := htimely (by
    simp [hbytes])
  cases done with
  | nil =>
    have hv : v = stream (q :: todo) := (hbytes.symm.trans hread).symm
    have hnone := hleft hne
    rw [hv, stream_cons, nextFrame_frame (by omega)] at hnone
    cases hnone
  | cons q' done =>
    intro hnil
    have hcalls := Profile.foldl_calls (s₀.heap p).profile ((q' :: done).map call)
    rw [← hprofile] at hcalls
    change (x.1.heap p).history.filterMap _ = _ at hcalls
    rw [hnil] at hcalls
    exact absurd hcalls.symm (List.append_ne_nil_of_right_ne_nil _ (List.cons_ne_nil _ _))

/-- The packets that are handled, and the disconnect packets, depend on the bytes only, in whatever
ticks they are processed, if no tick finds more than the receive buffer can take. -/
theorem ticks_agree {s₀ : Server ByteBuffer} {x y : Server ByteBuffer × Feed}
    (h₀ : (serverMachine ByteBuffer).Reachable initial s₀) (hp : p < s₀.allocated)
    (hshort : ∀ q ∈ packets, (frame (rawPacket q).body).length < 1024)
    (hknown : understands (s₀.heap p).protocol.state packets = true)
    (hx : (fedMachine ByteBuffer p).Reach (calm p) (s₀, ⟨[], false⟩) x)
    (hy : (fedMachine ByteBuffer p).Reach (calm p) (s₀, ⟨[], false⟩) y)
    (hstream : (readAll (s₀.heap p).protocol.receivedData).1 ++ x.2.bytes <+: stream packets)
    (hsame : x.2.bytes = y.2.bytes) :
    (x.1.heap p).history = (y.1.heap p).history ∧
      ∀ data, x.1.handed p (.tickClient p) = some data → calm p x (.tickClient p) →
        (readAll (s₀.heap p).protocol.receivedData).1 ++ (x.2.bytes ++ data) <+: stream packets →
          ∃ s', x.1.tickClient p = .ok s' := by
  refine ⟨?_, fun data hhanded hcalm hmore =>
    timely_tick h₀ hp hshort hknown hx hhanded hcalm hmore⟩
  have hsize : ∀ q ∈ packets, (rawPacket q).body.length < 2 ^ 32 := by
    intro q hq
    have hlen := hshort q hq
    rw [frame, List.length_append] at hlen
    omega
  obtain ⟨done, todo, v, hpackets, hbytes, _, _, hprofile, hstart, hleft⟩ :=
    (timely_of_reach h₀ hp hshort hknown hx).2 hstream
  obtain ⟨done', todo', v', hpackets', hbytes', _, _, hprofile', hstart', hleft'⟩ :=
    (timely_of_reach h₀ hp hshort hknown hy).2 (by rw [← hsame]; exact hstream)
  have hdone : done = done' := by
    by_cases hnil : x.2.bytes = []
    · rw [hstart hnil, hstart' (hsame ▸ hnil)]
    · refine taken_unique hsize hpackets hpackets' ?_ (hleft hnil) (hleft' (hsame ▸ hnil))
      exact hbytes.symm.trans ((congrArg (_ ++ ·) hsame).trans hbytes')
  have hfold : (x.1.map ByteBuffer.contents |>.heap p).profile =
      (y.1.map ByteBuffer.contents |>.heap p).profile := by
    rw [hprofile, hprofile', hdone]
  exact congrArg Profile.history hfold

theorem accept_reachable :
    (serverMachine ByteBuffer).Reachable initial ((initial : Server ByteBuffer).accept []) :=
  .next .start (e := .connectionAccepted []) rfl trivial rfl

theorem replay_fed {β : Type} [ByteQueue β] {allowed : Server β × Feed → Event → Prop}
    [∀ x e, Decidable (allowed x e)] {x x' : Server β × Feed} {events : List Event}
    (h : (fedMachine β p).replay (fun x e => x.1.enabled e && decide (allowed x e)) events x = some x') :
    (fedMachine β p).Reach allowed x x' := by
  refine Machine.replay_reach (fun y e hpass => ?_) .start h
  obtain ⟨he, hallowed⟩ := Bool.and_eq_true_iff.mp hpass
  exact ⟨he, of_decide_eq_true hallowed⟩

omit [Platform] in
/-- Two pings, in two ticks and in one. -/
theorem ticks_agree_pings :
    letI := zeroPlatform
    ∃ x y : Server ByteBuffer × Feed,
      (fedMachine ByteBuffer 0).Reach (calm 0) (initial.accept [], ⟨[], false⟩) x ∧
      (fedMachine ByteBuffer 0).Reach (calm 0) (initial.accept [], ⟨[], false⟩) y ∧
      x.2.bytes = stream (List.replicate 2 (0x01, [0, 0, 0, 0, 0, 0, 0, 0])) ∧
      (x.1.heap 0).history = (y.1.heap 0).history := by
  let : Platform := zeroPlatform
  have hruns : ((fedMachine ByteBuffer 0).replay (fun x e => x.1.enabled e && decide (calm 0 x e))
      [.receivedData 0 [9, 1, 0, 0, 0, 0, 0, 0, 0, 0], .tickClient 0,
        .receivedData 0 [9, 1, 0, 0, 0, 0, 0, 0, 0, 0], .tickClient 0]
      (initial.accept [], ⟨[], false⟩)).bind (fun x =>
        ((fedMachine ByteBuffer 0).replay (fun x e => x.1.enabled e && decide (calm 0 x e))
          [.receivedData 0 [9, 1, 0, 0, 0, 0, 0, 0, 0, 0],
            .receivedData 0 [9, 1, 0, 0, 0, 0, 0, 0, 0, 0], .tickClient 0]
          (initial.accept [], ⟨[], false⟩)).map fun y => decide
            (x.2.bytes = stream (List.replicate 2 (0x01, [0, 0, 0, 0, 0, 0, 0, 0])) ∧
              x.2.bytes = y.2.bytes)) = some true := by
    decide +kernel
  obtain ⟨x, hx, hruns⟩ := Option.bind_eq_some_iff.mp hruns
  obtain ⟨y, hy, hall⟩ := Option.map_eq_some_iff.mp hruns
  obtain ⟨hbytes, hsame⟩ := of_decide_eq_true hall
  have hshort : ∀ q ∈ List.replicate 2 ((0x01 : UInt32), ([0, 0, 0, 0, 0, 0, 0, 0] : AString)),
      (frame (rawPacket q).body).length < 1024 := by
    decide +kernel
  have hagree := ticks_agree (p := 0) accept_reachable (Nat.lt_succ_self 0) hshort
    (by decide +kernel) (replay_fed hx) (replay_fed hy) (by rw [hbytes]; exact List.prefix_rfl) hsame
  exact ⟨x, y, replay_fed hx, replay_fed hy, hbytes, hagree.1⟩

theorem understands_ping (bytes : AString) {todo : List (UInt32 × AString)}
    (h : understands 1 todo = true) : understands 1 ((0x01, bytes) :: todo) = true := h

theorem understands_pings (bytes : AString) (n : Nat) :
    understands 1 (List.replicate n (0x01, bytes)) = true := by
  induction n with
  | zero => rfl
  | succ n ih => exact understands_ping bytes ih

omit [Platform] in
/-- More pings than the receive buffer can take are all lost in one tick, and none in two. -/
theorem ticks_disagree :
    letI := zeroPlatform
    ∃ x y : Server ByteBuffer × Feed, ∃ packets : List (UInt32 × AString),
      (∀ q ∈ packets, (frame (rawPacket q).body).length < 1024) ∧ understands 1 packets = true ∧
      (fedMachine ByteBuffer 0).Reach (fun x e => x.1.disturbs 0 e = false)
        (initial.accept [], ⟨[], false⟩) x ∧
      (fedMachine ByteBuffer 0).Reach (fun x e => x.1.disturbs 0 e = false)
        (initial.accept [], ⟨[], false⟩) y ∧
      x.2.bytes = stream packets ∧ y.2.bytes = stream packets ∧
        (x.1.heap 0).history ≠ (y.1.heap 0).history := by
  let : Platform := zeroPlatform
  obtain ⟨ping, hping⟩ : ∃ ping : UInt32 × AString, ping = (0x01, [0, 0, 0, 0, 0, 0, 0, 0]) := ⟨_, rfl⟩
  have hframe : frame (rawPacket ping).body = [9, 1, 0, 0, 0, 0, 0, 0, 0, 0] := by
    rw [hping]
    decide +kernel
  obtain ⟨todo, htodo⟩ : ∃ todo, todo = List.replicate 6553 ping := ⟨_, rfl⟩
  have hshort : ∀ q ∈ ping :: todo, (frame (rawPacket q).body).length < 1024 := by
    intro q hq
    have hsame : q = ping := by
      rcases List.mem_cons.mp hq with rfl | hq
      · rfl
      · rw [htodo] at hq
        exact List.eq_of_mem_replicate hq
    rw [hsame, hframe]
    decide
  have hknown : understands 1 (ping :: todo) = true := by
    rw [hping]
    refine understands_ping _ ?_
    rw [htodo, hping]
    exact understands_pings _ _
  have hstream : stream (ping :: todo) = [9, 1, 0, 0, 0, 0, 0, 0, 0, 0] ++ stream todo := by
    rw [stream_cons, hframe]
  have hrest : (stream todo).length = 65530 := by
    rw [htodo, stream_replicate_length, hframe]
    decide
  have hlen : (stream (ping :: todo)).length = 65540 := by
    rw [hstream, List.length_append, hrest]
    decide
  -- in one tick
  have hrejects : ((((initial : Server ByteBuffer).accept []).receivedData 0 []).rejects
      0).toOption.map (fun x => decide ((x.heap 0).history = [])) = some true := by
    decide +kernel
  obtain ⟨x, hx, hnone⟩ := Option.map_eq_some_iff.mp hrejects
  have hnone := of_decide_eq_true hnone
  have hsome : stream (ping :: todo) ≠ [] := by
    intro hnil
    rw [hnil] at hlen
    exact absurd hlen (by decide)
  have htick : (((initial : Server ByteBuffer).accept []).receivedData 0
      (stream (ping :: todo))).tickClient 0 = .ok x := by
    rw [tickClient_rejects rfl hsome]
    · exact toOption_eq_some.mp hx
    · refine write_rejected ?_
      change getFreeSpace (new 65536 : ByteBuffer) < (stream (ping :: todo)).length
      rw [hlen]
      decide +kernel
  obtain ⟨_, hreach⟩ := @fed_delivery _ 0 _ _ (fun x e => x.1.disturbs 0 e = false) _ x ⟨[], false⟩
    (initial.accept [], ⟨[], false⟩) _ .start rfl rfl rfl List.mem_cons_self rfl rfl hsome htick
  -- in two
  have hfirst : ((fedMachine ByteBuffer 0).replay (fun x e => x.1.enabled e && decide (calm 0 x e))
      [.receivedData 0 [9, 1, 0, 0, 0, 0, 0, 0, 0, 0], .tickClient 0]
      (initial.accept [], ⟨[], false⟩)).map (fun y => decide
        ((y.1.heap 0).link = true ∧ y.1.allocated = 1 ∧ y.1.clients = [0] ∧
          (y.1.heap 0).isDestroyed = false ∧ (y.1.heap 0).incomingData = [] ∧
          y.2.bytes = [9, 1, 0, 0, 0, 0, 0, 0, 0, 0] ∧
            (readAll (y.1.heap 0).protocol.receivedData).1 = [])) = some true := by
    decide +kernel
  obtain ⟨⟨s, feed⟩, hs, hall⟩ := Option.map_eq_some_iff.mp hfirst
  obtain ⟨hlink, hcount, hclients, hlive, hempty, hfed, hbuffer⟩ := of_decide_eq_true hall
  have hfed : feed.bytes = [9, 1, 0, 0, 0, 0, 0, 0, 0, 0] := hfed
  obtain ⟨y, lost, hreach'⟩ := @timely_delivery _ 0 (ping :: todo) (initial.accept []) s
    feed (stream todo) accept_reachable (Nat.lt_succ_self 0) hshort hknown
    (replay_fed hs) (by rw [enabled, hlink, hcount]; rfl) (by rw [hclients]; exact List.mem_cons_self)
    hlive hempty (by
      intro hnil
      rw [hnil] at hrest
      exact absurd hrest (by decide)) (by
      rw [hbuffer, List.nil_append, hrest]
      decide) (by
      rw [hfed, ← hstream]
      exact List.prefix_rfl)
  refine ⟨_, _, ping :: todo, hshort, hknown, hreach, hreach'.mono fun _ _ h => h.1,
    List.nil_append _, ?_, ?_⟩
  · rw [hfed, hstream]
  · have hhandled := @timely_handles _ 0 (initial.accept []) _ ping todo
      accept_reachable (Nat.lt_succ_self 0) hshort hknown hreach' rfl (by rw [hfed, ← hstream])
    intro heq
    exact hhandled (heq.symm.trans hnone)

end Runs

end Server

end P2PChat

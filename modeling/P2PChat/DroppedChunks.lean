import P2PChat.Reception
import P2PChat.StreamRules

namespace P2PChat

open ByteQueue Relation

/-- What was handed to `DataReceived` of one connection, and whether some of it was rejected. -/
structure Feed where
  bytes : AString
  lost : Bool

namespace Server

section Definitions

variable {β : Type} [ByteQueue β]

/-- The data that the event hands to `DataReceived` of `p`. -/
def handed (p : Nat) (s : Server β) : Event → Option AString
  | .tickClient q =>
    if q = p ∧ (s.heap p).isDestroyed = false ∧ (s.heap p).incomingData ≠ [] then
      some (s.heap p).incomingData
    else none
  | _ => none

/-- The data fits what is left of the 64 KiB. -/
def accepts? (p : Nat) (s : Server β) : Bool := (s.inbound p).length ≤ 65536

/-- Data is accepted although some before it was rejected. -/
def resumes (p : Nat) (s : Server β) (feed : Feed) (e : Event) : Bool :=
  feed.lost && (s.handed p e).isSome && s.accepts? p

def feeds (p : Nat) (s : Server β) (feed : Feed) (e : Event) : Feed :=
  match s.handed p e with
  | some data => ⟨feed.bytes ++ data, feed.lost || !s.accepts? p⟩
  | none => feed

end Definitions

end Server

/-- The server with a record of what one connection is fed. -/
def fedMachine (β : Type) [ByteQueue β] [Platform] (p : Nat) : Machine (Server β × Feed) Event Halt where
  enabled x e := x.1.enabled e = true
  step x e := (x.1.step e).map fun s => (s, x.1.feeds p x.2 e)

namespace Server

open ClientHandle (Keeps)

variable [Platform]

section Ticks

variable {s s' : Server Fifo} {p : Nat} {u : AString}

/-- What the frames of a stream come to, one after another, whatever they are. -/
theorem stream_rule (hs : s.Sound) (hlive : (s.heap p).state.toNat < 4)
    (todo : List (UInt32 × AString)) :
    (endpoint p).StreamRule 65536 todo (fun done t => ReflTransGen (Small Gate.open p) s t ∧
      (t.heap p).calls = (s.heap p).calls ++ done.map call) True (fun _ => True) where
  received b t := by
    change ((t.modify p (ClientHandle.setReceived b)).heap p).protocol.receivedData = b
    rw [modify_heap, if_pos rfl]
    rfl
  setReceived done v t hv h := by
    refine ⟨h.1.tail (setReceived_small hv t), ?_⟩
    change ((t.modify p (ClientHandle.setReceived _)).heap p).calls = _
    rw [modify_heap, if_pos rfl]
    exact h.2
  frame done q rest bb t _ h hbb hlen := by
    have ht := sound_of_small hs h.1
    have hlive' := (framed_of_small h.1).live.mpr hlive
    rcases hlong : overlong (t.relay p q.1 bb.unread).toList with _ | _
    · obtain ⟨hok, hsmall, hreceived⟩ := handleFrame_eq ht hlive' hlen
        fun x hx => relay_fits (x := x) hlong hx
      refine Or.inr ⟨_, _, hok, hreceived, ⟨h.1.trans hsmall, ?_⟩, fun _ => trivial⟩
      rw [treated_calls, h.2, hbb, List.map_append, List.append_assoc]
      rfl
    · obtain ⟨x, hx, hlong⟩ := relay_long hlong
      refine Or.inl ⟨.verify, ?_, trivial⟩
      change (do
        let (understood, bb, s) ← handlePacket p bb q.1 t
        _) = _
      rw [handlePacket_verify ht hlive' hx hlong]
      rfl

/-- Data that fits is read frame by frame. -/
theorem tickReceived_accepted {t : Server Fifo} (hs : s.Sound) (hlive : (s.heap p).state.toNat < 4)
    {todo : List (UInt32 × AString)} (hsize : ∀ q ∈ todo, (rawPacket q).body.length < 2 ^ 32)
    (hu : u.length ≤ 65536) (hrec : (s.heap p).protocol.receivedData = Fifo.filled 65536 u)
    (hin : (s.heap p).incomingData ≠ []) (hfit : (u ++ (s.heap p).incomingData).length ≤ 65536)
    (hstart : u ++ (s.heap p).incomingData <+: stream todo) (h : s.tickReceived p = .ok t) :
    ∃ done rest v, todo = done ++ rest ∧ u ++ (s.heap p).incomingData = stream done ++ v ∧
      v.length ≤ 65536 ∧ (t.heap p).protocol.receivedData = Fifo.filled 65536 v ∧
        (t.heap p).calls = (s.heap p).calls ++ done.map call := by
  have htake := takeIncoming_small (G := Gate.open) p s
  have hself : (s.modify p ClientHandle.takeIncoming).heap p = (s.heap p).takeIncoming := if_pos rfl
  rw [tickReceived, if_pos hin] at h
  have hrule := stream_rule (htake.sound hs) (htake.framed.live.mpr hlive) todo
  have hrec' : (endpoint p).received (s.modify p ClientHandle.takeIncoming) = Fifo.filled 65536 u := by
    change ((s.modify p ClientHandle.takeIncoming).heap p).protocol.receivedData = _
    rw [hself]
    exact hrec
  have htaken := hrule.addReceivedData (by omega) hsize hu hrec' hfit hstart
    ⟨.refl, (List.append_nil _).symm⟩
  have h : (endpoint p).addReceivedData (s.heap p).incomingData
    (s.modify p ClientHandle.takeIncoming) = .ok t := h
  rw [h] at htaken
  obtain ⟨done, rest, v, htodo, hbytes, hv, hreceived, ⟨_, hcalls⟩, _⟩ := htaken
  refine ⟨done, rest, v, htodo, hbytes, hv, hreceived, hcalls.trans ?_⟩
  rw [hself]
  rfl

/-- Data that does not fit is dropped, and nothing is read. -/
theorem tickReceived_rejected {t : Server Fifo} (hs : s.Sound) (hu : u.length ≤ 65536)
    (hrec : (s.heap p).protocol.receivedData = Fifo.filled 65536 u)
    (hin : (s.heap p).incomingData ≠ []) (hfull : 65536 < (u ++ (s.heap p).incomingData).length)
    (h : s.tickReceived p = .ok t) : Keeps (s.heap p) (t.heap p) := by
  have htake := takeIncoming_small (G := Gate.open) p s
  have hself : (s.modify p ClientHandle.takeIncoming).heap p = (s.heap p).takeIncoming := if_pos rfl
  have hrec' : (endpoint p).received (s.modify p ClientHandle.takeIncoming) = Fifo.filled 65536 u := by
    change ((s.modify p ClientHandle.takeIncoming).heap p).protocol.receivedData = _
    rw [hself]
    exact hrec
  rw [tickReceived, if_pos hin, addReceivedData, addReceivedData_full hu hrec' hfull] at h
  have hset := setReceived_small (G := Gate.open) (p := p) hu (s.modify p ClientHandle.takeIncoming)
  have hkick := kick_passive (p := p) ClientHandle.keeps_passive (hset.sound (htake.sound hs)) h
  have hbefore : Keeps (s.heap p) (((s.modify p ClientHandle.takeIncoming).modify p
      (ClientHandle.setReceived (Fifo.filled 65536 u))).heap p) := by
    rw [modify_heap, if_pos rfl, hself]
    exact ⟨hrec.symm, rfl⟩
  exact hbefore.trans hkick

end Ticks

section Runs

variable {p : Nat} {packets : List (UInt32 × AString)}

/-- As long as what was fed is a part of the stream, frames of it were handled in order, and as long as
nothing was rejected the rest is in the receive buffer. -/
def Fed (p : Nat) (packets : List (UInt32 × AString)) (x : Server Fifo × Feed) : Prop :=
  x.2.bytes <+: stream packets → ∃ done todo v, packets = done ++ todo ∧
    (x.1.heap p).calls = done.map call ∧ v.length ≤ 65536 ∧
      (x.1.heap p).protocol.receivedData = Fifo.filled 65536 v ∧
        (x.2.lost = false → x.2.bytes = stream done ++ v)

omit [Platform] in
theorem Fed.keep {s s' : Server Fifo} {feed : Feed} (h : Fed p packets (s, feed))
    (hkeeps : Keeps (s.heap p) (s'.heap p)) : Fed p packets (s', feed) := by
  intro hbytes
  obtain ⟨done, todo, v, hpackets, hcalls, hv, hrec, hall⟩ := h hbytes
  exact ⟨done, todo, v, hpackets, hkeeps.calls.trans hcalls, hv, hkeeps.received.trans hrec, hall⟩

omit [Platform] in
theorem handed_tick {β : Type} {s : Server β} {e : Event} {data : AString}
    (h : s.handed p e = some data) : e = .tickClient p ∧ (s.heap p).isDestroyed = false ∧
      (s.heap p).incomingData ≠ [] ∧ (s.heap p).incomingData = data := by
  unfold handed at h
  split at h
  next q =>
    split at h
    next hall => exact ⟨by rw [hall.1], hall.2.1, hall.2.2, Option.some.inj h⟩
    next => cases h
  next => cases h

/-- An event that hands nothing over changes nothing about it. -/
theorem unfed_keeps {s s' : Server Fifo} {e : Event} (hs : s.Sound) (he : s.enabled e = true)
    (hp : p < s.allocated) (hnone : s.handed p e = none) (h : s.step e = .ok s') :
    Keeps (s.heap p) (s'.heap p) := by
  rcases eq_or_ne e (.tickClient p) with rfl | hne
  · have h : s.tickClient p = .ok s' := h
    cases hdead : (s.heap p).isDestroyed with
    | true =>
      rw [tickClient, if_pos hdead] at h
      cases h
      exact Keeps.refl _
    | false =>
      have hidle : ¬(s.heap p).incomingData ≠ [] := by
        intro hin
        rw [handed, if_pos ⟨rfl, hdead, hin⟩] at hnone
        cases hnone
      obtain ⟨t, ht, _, hrested⟩ := tickClient_parts hs hdead h
      rw [tickReceived, if_neg hidle] at ht
      cases ht
      rw [hrested]
      exact ClientHandle.rested_keeps _ _
  · exact step_keeps hs he hp hne h

theorem Fed.next {s s' : Server Fifo} {feed : Feed} {e : Event} (h : Fed p packets (s, feed))
    (hsize : ∀ q ∈ packets, (rawPacket q).body.length < 2 ^ 32) (hs : s.Sound)
    (he : s.enabled e = true) (hp : p < s.allocated) (hresumes : s.resumes p feed e = false)
    (hstep : s.step e = .ok s') : Fed p packets (s', s.feeds p feed e) := by
  rcases hhanded : s.handed p e with _ | data
  · have hsame : s.feeds p feed e = feed := by rw [feeds, hhanded]
    rw [hsame]
    exact h.keep (unfed_keeps hs he hp hhanded hstep)
  · obtain ⟨rfl, hdead, hin, rfl⟩ := handed_tick hhanded
    have hfeeds : s.feeds p feed (.tickClient p) =
        ⟨feed.bytes ++ (s.heap p).incomingData, feed.lost || !s.accepts? p⟩ := by rw [feeds, hhanded]
    rw [hfeeds]
    intro hbytes
    have hlive := live_of_not (hs.connections p) (Bool.eq_false_iff.mp hdead)
    obtain ⟨done, todo, v, hpackets, hcalls, hv, hrec, hall⟩ :=
      h ((List.prefix_append _ _).trans hbytes)
    obtain ⟨t, ht, _, hrested⟩ := tickClient_parts hs hdead hstep
    have hkeeps : Keeps (t.heap p) (s'.heap p) := by
      rw [hrested]
      exact ClientHandle.rested_keeps _ _
    have hinbound := inbound_eq hv hrec
    by_cases hfit : (v ++ (s.heap p).incomingData).length ≤ 65536
    · have haccepts : s.accepts? p = true := by
        rw [accepts?, hinbound]
        exact decide_eq_true hfit
      have hwhole : feed.lost = false := by
        rw [resumes, hhanded, haccepts, Option.isSome_some, Bool.and_true, Bool.and_true] at hresumes
        exact hresumes
      have hfed : feed.bytes = stream done ++ v := hall hwhole
      have hstart : v ++ (s.heap p).incomingData <+: stream todo := by
        change feed.bytes ++ _ <+: _ at hbytes
        rw [hfed, hpackets, stream_append, List.append_assoc] at hbytes
        exact (List.prefix_append_right_inj _).mp hbytes
      obtain ⟨done', rest, v', htodo, hread, hv', hrec', hcalls'⟩ := tickReceived_accepted hs hlive
        (fun q hq => hsize q (by rw [hpackets]; exact List.mem_append_right _ hq)) hv hrec hin hfit
        hstart ht
      refine ⟨done ++ done', rest, v', by rw [hpackets, htodo, List.append_assoc], ?_, hv',
        hkeeps.received.trans hrec', fun _ => ?_⟩
      · rw [hkeeps.calls, hcalls', hcalls, List.map_append]
      · change feed.bytes ++ _ = _
        rw [hfed, stream_append, List.append_assoc, List.append_assoc, hread]
    · have hrejects : s.accepts? p = false := by
        rw [accepts?, hinbound]
        exact decide_eq_false hfit
      have hkept := (tickReceived_rejected hs hv hrec hin (Nat.lt_of_not_le hfit) ht).trans hkeeps
      refine ⟨done, todo, v, hpackets, hkept.calls.trans hcalls, hv, hkept.received.trans hrec, ?_⟩
      intro hlost
      rw [hrejects, Bool.not_false, Bool.or_true] at hlost
      cases hlost

section Buffers

variable {β γ : Type} [ByteQueue β] [ByteQueue γ] {f : β → γ} (hf : Hom f)

/-- Every run can be followed with the record. -/
theorem fed_of_reachable {s₀ s : Server β} (feed₀ : Feed) (h : (serverMachine β).Reachable s₀ s) :
    ∃ feed, (fedMachine β p).Reachable (s₀, feed₀) (s, feed) := by
  induction h with
  | start => exact ⟨feed₀, .start⟩
  | @next s s' e _ he _ hstep ih =>
    obtain ⟨feed, hreach⟩ := ih
    have hstep : s.step e = .ok s' := hstep
    refine ⟨s.feeds p feed e, .next hreach he trivial ?_⟩
    change (s.step e).map _ = _
    rw [hstep]
    rfl

include hf

omit [Platform] in
theorem accepts?_map (p : Nat) (s : Server β) : (s.map f).accepts? p = s.accepts? p := by
  rw [accepts?, accepts?, inbound_map hf]

theorem fed_reach_map {allowed : Server γ × Feed → Event → Prop} {x₀ x : Server β × Feed}
    (h : (fedMachine β p).Reach (fun x e => allowed (x.1.map f, x.2) e) x₀ x) :
    (fedMachine γ p).Reach allowed (x₀.1.map f, x₀.2) (x.1.map f, x.2) := by
  refine Machine.Reach.map (f := fun y : Server β × Feed => (y.1.map f, y.2)) (fun y e he => ?_)
    (fun _ _ hallowed => hallowed) (fun x e => ?_) h
  · cases e <;> exact he
  · have hfeeds : (x.1.map f).feeds p x.2 e = x.1.feeds p x.2 e := by
      have hhanded : (x.1.map f).handed p e = x.1.handed p e := by cases e <;> rfl
      unfold feeds
      rw [hhanded, accepts?_map hf]
    change ((x.1.map f).step e).map _ = ((x.1.step e).map _).map _
    rw [step_map hf, hfeeds]
    rcases x.1.step e with error | s'
    · rfl
    · rfl

end Buffers

/-- From its acceptance on, the packets of a connection that are handled are the first of those its
client sent, in every run in which no data is accepted after some was rejected. -/
theorem handled_prefix {s₀ s : Server ByteBuffer} {ip : AString} {feed : Feed}
    (h₀ : (serverMachine ByteBuffer).Reachable initial s₀)
    (hip : s₀.enabled (.connectionAccepted ip) = true) (hcount : s₀.clientCount ≠ 2 ^ 31 - 1)
    (hsize : ∀ q ∈ packets, (rawPacket q).body.length < 2 ^ 32)
    (h : (fedMachine ByteBuffer s₀.allocated).Reach
      (fun x e => x.1.resumes s₀.allocated x.2 e = false) (s₀.accept ip, ⟨[], false⟩) (s, feed))
    (hfeed : feed.bytes <+: stream packets) :
    (s.heap s₀.allocated).calls <+: packets.map call := by
  have hf := ByteBuffer.contents_hom
  obtain ⟨p, hp⟩ : ∃ p, p = s₀.allocated := ⟨_, rfl⟩
  rw [← hp] at h ⊢
  have hstep : s₀.step (.connectionAccepted ip) = .ok (s₀.accept ip) := by
    rw [step, connectionAccepted, if_neg hcount]
  have hsound : ((s₀.accept ip).map ByteBuffer.contents).Sound :=
    reachable_sound (by rw [initial_contents]; exact initial_sound) (.next h₀ hip trivial hstep)
  have hself : ((s₀.accept ip).map ByteBuffer.contents).heap p =
      ((ClientHandle.create ip (UInt32.ofNat (s₀.clientCount + 1)) s₀.now).onLinkCreated).map
        ByteBuffer.contents := by
    rw [hp]
    exact congrArg (ClientHandle.map ByteBuffer.contents) (if_pos rfl)
  have hreach := @fed_reach_map _ p _ _ _ _ _ hf (fun x e => x.1.resumes p x.2 e = false) _ _
    (h.mono fun x e hno => by
      rw [resumes, accepts?_map hf]
      cases e <;> exact hno)
  have hinv := hreach.invariant
    (I := fun x => x.1.Sound ∧ p < x.1.allocated ∧ Fed p packets x) ?_ ?_
  · obtain ⟨_, _, hfed⟩ := hinv
    obtain ⟨done, todo, _, hpackets, hcalls, _⟩ := hfed hfeed
    have hcalls : (s.heap p).calls = done.map call := hcalls
    rw [hcalls, hpackets, List.map_append]
    exact List.prefix_append _ _
  · refine ⟨hsound, by rw [hp]; exact Nat.lt_succ_self _, fun _ => ?_⟩
    refine ⟨[], packets, [], rfl, ?_, Nat.zero_le _, ?_, fun _ => rfl⟩
    · rw [hself]
      rfl
    · rw [hself]
      exact hf.new 65536
  · rintro ⟨t, feed⟩ e ⟨t', feed'⟩ _ ⟨ht, halloc, hfed⟩ he hresumes hstep
    obtain ⟨t'', hok, heq⟩ : ∃ t'', t.step e = .ok t'' ∧ (t'', t.feeds p feed e) = (t', feed') := by
      change (t.step e).map _ = _ at hstep
      rcases htstep : t.step e with error | t''
      · rw [htstep] at hstep
        cases hstep
      · rw [htstep] at hstep
        exact ⟨t'', rfl, Except.ok.inj hstep⟩
    cases heq
    have hstepped := step_stepped ht he (gated_open t e)
    rw [hok] at hstepped
    refine ⟨sound_of_effects ht hstepped.2.2, ?_, hfed.next hsize ht he halloc hresumes hok⟩
    exact Nat.lt_of_lt_of_le halloc (effects_allocated hstepped.2.2)

omit [Platform] in
/-- A ping that comes in two parts. -/
theorem handled_prefix_ping :
    letI := zeroPlatform
    ∃ s : Server ByteBuffer, ∃ feed : Feed,
      (fedMachine ByteBuffer 0).Reach (fun x e => x.1.resumes 0 x.2 e = false)
        (initial.accept [], ⟨[], false⟩) (s, feed) ∧
      feed.bytes = stream [(0x01, [0, 0, 0, 0, 0, 0, 0, 7])] ∧
      (s.heap 0).calls <+: [((0x01 : UInt32), ([0, 0, 0, 0, 0, 0, 0, 7] : AString))].map call := by
  let : Platform := zeroPlatform
  have hrun : ((fedMachine ByteBuffer 0).replay (fun x e => x.1.enabled e && !x.1.resumes 0 x.2 e)
      [.receivedData 0 [9, 1, 0, 0, 0], .tickClient 0, .receivedData 0 [0, 0, 0, 0, 7], .tickClient 0]
      (initial.accept [], ⟨[], false⟩)).map (fun x => decide
        (x.2.bytes = stream [(0x01, [0, 0, 0, 0, 0, 0, 0, 7])])) = some true := by
    decide +kernel
  obtain ⟨⟨s, feed⟩, hs, hbytes⟩ := Option.map_eq_some_iff.mp hrun
  have hbytes := of_decide_eq_true hbytes
  have hreach : (fedMachine ByteBuffer 0).Reach (fun x e => x.1.resumes 0 x.2 e = false)
      (initial.accept [], ⟨[], false⟩) (s, feed) := by
    refine Machine.replay_reach (fun x e hpass => ?_) .start hs
    obtain ⟨he, hno⟩ := Bool.and_eq_true_iff.mp hpass
    exact ⟨he, by simpa using hno⟩
  have hsize : ∀ q ∈ [((0x01 : UInt32), ([0, 0, 0, 0, 0, 0, 0, 7] : AString))],
      (rawPacket q).body.length < 2 ^ 32 := by
    decide +kernel
  refine ⟨s, feed, hreach, hbytes, handled_prefix .start rfl (by decide) hsize hreach ?_⟩
  exact hbytes ▸ List.prefix_rfl

section Rejections

variable {β : Type} [ByteQueue β]

/-- A tick that has too much to process. -/
def rejects (p : Nat) (s : Server β) : Except Halt (Server β) := do
  let s ← ((s.modify p ClientHandle.takeIncoming).modify p
    (ClientHandle.setReceived (s.heap p).protocol.receivedData)).act p ClientHandle.packetBufferFull
  s.act p (ClientHandle.tickRest s.now)

theorem tickClient_rejects {s : Server β} (hnot : (s.heap p).isDestroyed = false) {data : AString}
    (hdata : data ≠ [])
    (hfull : write ((s.heap p).incomingData ++ data) (s.heap p).protocol.receivedData =
      (false, (s.heap p).protocol.receivedData)) :
    (s.receivedData p data).tickClient p = (s.receivedData p []).rejects p := by
  have hself : ∀ d, (s.receivedData p d).heap p = (s.heap p).receive d := fun _ => if_pos rfl
  have htaken : (s.receivedData p data).modify p ClientHandle.takeIncoming =
      (s.receivedData p []).modify p ClientHandle.takeIncoming := by
    refine heap_ext (fun q => ?_) rfl
    rw [modify_heap, modify_heap, hself, hself]
    split
    next => rfl
    next hne => exact (if_neg hne).trans (if_neg hne).symm
  have hin : ((s.receivedData p data).heap p).incomingData = (s.heap p).incomingData ++ data := by
    rw [hself]
    rfl
  have hrec : (((s.receivedData p []).modify p ClientHandle.takeIncoming).heap
      p).protocol.receivedData = (s.heap p).protocol.receivedData := by
    rw [modify_heap, if_pos rfl, hself]
    rfl
  have hlive : ((s.receivedData p data).heap p).isDestroyed = false := by
    rw [hself]
    exact hnot
  have hpending : ((s.receivedData p data).heap p).incomingData ≠ [] := by
    rw [hin]
    exact List.append_ne_nil_of_right_ne_nil _ hdata
  have hwrite : write ((s.heap p).incomingData ++ data) ((endpoint p).received
      ((s.receivedData p []).modify p ClientHandle.takeIncoming)) = (false, (s.heap p).protocol.receivedData) := by
    rw [← hfull]
    exact congrArg _ hrec
  rw [tickClient, if_neg (by simp [hlive]), serverTick, tickReceived, if_pos hpending, hin, htaken,
    addReceivedData, addReceivedData_rejected hwrite, rejects, hself]
  rfl

/-- Data that comes in, and a tick that processes it. -/
theorem fed_delivery {allowed : Server β × Feed → Event → Prop} {s s' : Server β} {feed : Feed}
    {x₀ : Server β × Feed} {data : AString} (h : (fedMachine β p).Reach allowed x₀ (s, feed))
    (hreceive : allowed (s, feed) (.receivedData p data))
    (htime : allowed (s.receivedData p data, feed) (.tickClient p))
    (he : s.enabled (.receivedData p data) = true)
    (hmem : p ∈ s.clients) (hnot : (s.heap p).isDestroyed = false)
    (hempty : (s.heap p).incomingData = []) (hdata : data ≠ [])
    (htick : (s.receivedData p data).tickClient p = .ok s') :
    ∃ lost, (fedMachine β p).Reach allowed x₀ (s', ⟨feed.bytes ++ data, lost⟩) := by
  have hself : (s.receivedData p data).heap p = (s.heap p).receive data := if_pos rfl
  have hin : ((s.receivedData p data).heap p).incomingData = data := by
    rw [hself]
    exact congrArg (· ++ data) hempty
  have hlive : ((s.receivedData p data).heap p).isDestroyed = false := by
    rw [hself]
    exact hnot
  have hnext : (fedMachine β p).Reach allowed x₀ (s.receivedData p data, feed) :=
    .next h he hreceive rfl
  have hhanded : (s.receivedData p data).handed p (.tickClient p) = some data := by
    have hall : p = p ∧ ((s.receivedData p data).heap p).isDestroyed = false ∧
        ((s.receivedData p data).heap p).incomingData ≠ [] := ⟨rfl, hlive, by rw [hin]; exact hdata⟩
    rw [handed, if_pos hall, hin]
  refine ⟨feed.lost || !(s.receivedData p data).accepts? p, .next hnext (e := .tickClient p) ?_ htime ?_⟩
  · exact List.elem_iff.mpr hmem
  · change ((s.receivedData p data).tickClient p).map _ = _
    rw [htick, Except.map, feeds, hhanded]

end Rejections

theorem write_rejected {data : AString} {b : ByteBuffer} (h : getFreeSpace b < data.length) :
    write data b = (false, b) := by
  have hring : b.1.write data = (false, b.1) := if_pos h
  have hfst : (write data b).1 = false := congrArg (fun r => r.1) hring
  have hsnd : (write data b).2.1 = b.1 := congrArg (fun r => r.2) hring
  exact Prod.ext hfst (Subtype.ext hsnd)

omit [Platform] in
/-- The first half of a ping stays in the buffer, its second half is dropped with a lot of other pings,
and the next ping is taken for the second half. -/
theorem dropped_chunk_parsed :
    letI := zeroPlatform
    ∃ s : Server ByteBuffer, ∃ feed : Feed, ∃ packets : List (UInt32 × AString),
      (∀ q ∈ packets, (rawPacket q).body.length < 2 ^ 32) ∧
      (fedMachine ByteBuffer 0).Reachable (initial.accept [], ⟨[], false⟩) (s, feed) ∧
      feed.bytes = stream packets ∧ ¬(s.heap 0).calls <+: packets.map call := by
  let : Platform := zeroPlatform
  obtain ⟨ping, hping⟩ : ∃ ping : UInt32 × AString, ping = (0x01, [0, 0, 0, 0, 0, 0, 0, 0]) := ⟨_, rfl⟩
  have hframe : frame (rawPacket ping).body = [9, 1, 0, 0, 0] ++ [0, 0, 0, 0, 0] := by
    rw [hping]
    decide +kernel
  have hrun : ((((initial : Server ByteBuffer).accept []).receivedData 0 [9, 1, 0, 0, 0]).tickClient
      0).toOption.bind (fun s₁ =>
        ((s₁.receivedData 0 []).rejects 0).toOption.bind fun s₂ =>
          ((s₂.receivedData 0 [9, 1, 0, 0, 0, 0, 0, 0, 0, 0]).tickClient 0).toOption.map fun s₃ => decide
            (((s₁.heap 0).link = true ∧ s₁.allocated = 1 ∧ s₁.clients = [0] ∧
              (s₁.heap 0).isDestroyed = false ∧ (s₁.heap 0).incomingData = [] ∧
                getFreeSpace (s₁.heap 0).protocol.receivedData = 65531) ∧
              ((s₂.heap 0).link = true ∧ s₂.allocated = 1 ∧ s₂.clients = [0] ∧
                (s₂.heap 0).isDestroyed = false ∧ (s₂.heap 0).incomingData = []) ∧
                  (s₃.heap 0).calls = [(0x01, [0, 0, 0, 9, 1, 0, 0, 0, 0])])) = some true := by
    decide +kernel
  obtain ⟨s₁, h₁, hnext⟩ := Option.bind_eq_some_iff.mp hrun
  obtain ⟨s₂, h₂, hnext⟩ := Option.bind_eq_some_iff.mp hnext
  obtain ⟨s₃, h₃, hall⟩ := Option.map_eq_some_iff.mp hnext
  obtain ⟨⟨hlink₁, hcount₁, hclients₁, hlive₁, hempty₁, hfree⟩,
    ⟨hlink₂, hcount₂, hclients₂, hlive₂, hempty₂⟩, hcalls⟩ := of_decide_eq_true hall
  obtain ⟨data, hdata⟩ : ∃ data, data = [0, 0, 0, 0, 0] ++ stream (List.replicate 6554 ping) := ⟨_, rfl⟩
  have hlong : 65531 < data.length := by
    rw [hdata, List.length_append, stream_replicate_length, hframe]
    decide
  have hsome : data ≠ [] := by
    rintro rfl
    exact absurd hlong (by decide)
  have htick : (s₁.receivedData 0 data).tickClient 0 = .ok s₂ := by
    rw [tickClient_rejects hlive₁ hsome]
    · exact toOption_eq_some.mp h₂
    · rw [hempty₁, List.nil_append]
      exact write_rejected (by rw [hfree]; exact hlong)
  have henabled : ∀ (t : Server ByteBuffer) (d : AString), (t.heap 0).link = true → t.allocated = 1 →
      t.enabled (.receivedData 0 d) = true := by
    intro t d hlink hcount
    rw [enabled, hlink, hcount]
    rfl
  have hstart : (fedMachine ByteBuffer 0).Reachable (initial.accept [], ⟨[], false⟩)
      (initial.accept [], ⟨[], false⟩) := .start
  obtain ⟨_, hreach₁⟩ := fed_delivery hstart trivial trivial rfl List.mem_cons_self rfl rfl (by decide)
    (toOption_eq_some.mp h₁)
  obtain ⟨_, hreach₂⟩ := fed_delivery hreach₁ trivial trivial (henabled s₁ _ hlink₁ hcount₁)
    (by rw [hclients₁]; exact List.mem_cons_self) hlive₁ hempty₁ hsome htick
  obtain ⟨_, hreach₃⟩ := fed_delivery hreach₂ trivial trivial (henabled s₂ _ hlink₂ hcount₂)
    (by rw [hclients₂]; exact List.mem_cons_self) hlive₂ hempty₂ (by decide) (toOption_eq_some.mp h₃)
  refine ⟨s₃, _, ping :: (List.replicate 6554 ping ++ [ping]), ?_, hreach₃, ?_, ?_⟩
  · intro q hq
    have hsame : q = ping := by
      rcases List.mem_cons.mp hq with rfl | hq
      · rfl
      · rcases List.mem_append.mp hq with hq | hq
        · exact List.eq_of_mem_replicate hq
        · exact List.mem_singleton.mp hq
    rw [hsame, hping]
    decide +kernel
  · have hone : stream [ping] = [9, 1, 0, 0, 0, 0, 0, 0, 0, 0] := by
      rw [stream_cons, hframe]
      rfl
    rw [stream_cons, stream_append, hframe, hone, hdata]
    simp only [List.nil_append, List.append_assoc]
  · rw [hcalls, List.map_cons, hping]
    intro hstart
    have hhead := (List.cons_prefix_cons.mp hstart).1
    exact absurd hhead (by decide)

end Runs

end Server

end P2PChat

import P2PChat.Reception
import P2PChat.StreamRules

namespace P2PChat

open ByteQueue Relation

/-- The packet that `SendDisconnect` sends in this state, if it sends one. -/
def goodbye (state : UInt32) (reason : Int32) : Option Packet :=
  if state = 2 then some ⟨0x00, [.beInt32 reason]⟩
  else if state = 3 then some ⟨0x40, [.beUInt32 reason.toUInt32]⟩
  else none

/-- It is such a packet. -/
def Packet.closes (state : UInt32) (packet : Packet) : Bool :=
  match packet.fields with
  | [.beInt32 _] => state == 2 && packet.type == 0x00
  | [.beUInt32 _] => state == 3 && packet.type == 0x40
  | _ => false

/-- A packet that was handled, or a disconnect packet that was sent. -/
def Entry.noted : Entry → Bool
  | .handled _ _ _ => true
  | .queued state packet => packet.closes state
  | _ => false

/-- What a connection has come to by the packets that it was sent. -/
structure Profile where
  state : UInt32
  hasSentDC : Bool
  history : List Entry

namespace Profile

def disconnect (reason : Int32) (x : Profile) : Profile :=
  if x.hasSentDC then x
  else
    { x with
      hasSentDC := true
      history := x.history ++ (goodbye x.state reason).toList.map (.queued x.state) }

def handled (type : UInt32) (bytes : AString) (x : Profile) : Profile :=
  { x with history := x.history ++ [.handled x.state type bytes] }

variable [Platform]

/-- The state after a packet of a known type. -/
def next (state type : UInt32) (bytes : AString) : UInt32 :=
  if state = 1 ∧ type = 0x00 then
    (parseStatusRequest bytes).1.elim state fun request =>
      if Server.accepts request then request.2.2.2.toUInt32 else state
  else state

def reacted (type : UInt32) (bytes : AString) (x : Profile) : Profile :=
  if x.state = 1 ∧ type = 0x00 then
    (parseStatusRequest bytes).1.elim x fun request =>
      if Server.accepts request then { x with state := request.2.2.2.toUInt32 }
      else x.disconnect errorCodeBadApp
  else x

/-- What a packet of a known type comes to. -/
def after (x : Profile) (call : UInt32 × AString) : Profile :=
  if (Server.reads x.state call.1 call.2).2 + 1 ≠ call.2.length then
    ((x.handled call.1 call.2).reacted call.1 call.2).disconnect errorCodePacketError
  else (x.handled call.1 call.2).reacted call.1 call.2

omit [Platform] in
theorem disconnect_state (reason : Int32) (x : Profile) : (x.disconnect reason).state = x.state := by
  unfold disconnect
  split
  next => rfl
  next => rfl

theorem after_state (x : Profile) (call : UInt32 × AString) :
    (x.after call).state = next x.state call.1 call.2 := by
  have hreacted : ((x.handled call.1 call.2).reacted call.1 call.2).state =
      next x.state call.1 call.2 := by
    unfold reacted next
    change (if x.state = 1 ∧ call.1 = 0x00 then _ else _ : Profile).state = _
    split
    next =>
      rcases (parseStatusRequest call.2).1 with _ | request
      · rfl
      · simp only [Option.elim_some]
        split
        next => rfl
        next => exact disconnect_state _ _
    next => rfl
  unfold after
  split
  next => rw [disconnect_state, hreacted]
  next => exact hreacted

omit [Platform] in
theorem disconnect_calls (reason : Int32) (x : Profile) :
    (x.disconnect reason).history.filterMap Entry.call? = x.history.filterMap Entry.call? := by
  unfold disconnect goodbye
  split
  next => rfl
  next =>
    rw [List.filterMap_append]
    split
    next => exact List.append_nil _
    next =>
      split
      next => exact List.append_nil _
      next => exact List.append_nil _

/-- The calls of a profile are those it has come to by. -/
theorem after_calls (x : Profile) (call : UInt32 × AString) :
    (x.after call).history.filterMap Entry.call? = x.history.filterMap Entry.call? ++ [call] := by
  have hhandled : (x.handled call.1 call.2).history.filterMap Entry.call? =
      x.history.filterMap Entry.call? ++ [call] := List.filterMap_append
  have hreacted : ((x.handled call.1 call.2).reacted call.1 call.2).history.filterMap Entry.call? =
      x.history.filterMap Entry.call? ++ [call] := by
    unfold reacted
    split
    next =>
      rcases (parseStatusRequest call.2).1 with _ | request
      · exact hhandled
      · simp only [Option.elim_some]
        split
        next => exact hhandled
        next => rw [disconnect_calls, hhandled]
    next => exact hhandled
  unfold after
  split
  next => rw [disconnect_calls, hreacted]
  next => exact hreacted

theorem foldl_calls (x : Profile) (calls : List (UInt32 × AString)) :
    (calls.foldl after x).history.filterMap Entry.call? =
      x.history.filterMap Entry.call? ++ calls := by
  induction calls generalizing x with
  | nil => exact (List.append_nil _).symm
  | cons call calls ih =>
    rw [List.foldl_cons, ih, after_calls, List.append_assoc]
    rfl

end Profile

/-- The types of these packets are known, each in the state in which it comes. -/
def understands [Platform] : UInt32 → List (UInt32 × AString) → Bool
  | _, [] => true
  | state, q :: packets =>
    Server.knows state q.1 && understands (Profile.next state q.1 (q.2 ++ [0])) packets

theorem understands_rest [Platform] {x : Profile} {done rest : List (UInt32 × AString)}
    (h : understands x.state (done ++ rest) = true) :
    understands ((done.map call).foldl Profile.after x).state rest = true := by
  induction done generalizing x with
  | nil => exact h
  | cons q done ih =>
    have hrest := (Bool.and_eq_true_iff.mp h).2
    exact ih (x := x.after (call q)) (by rw [Profile.after_state]; exact hrest)

namespace ClientHandle

section Marks

variable {β : Type}

/-- The calls of `HandlePacket` and the disconnect packets, in order. -/
def history (c : ClientHandle β) : List Entry := c.log.filter Entry.noted

def profile (c : ClientHandle β) : Profile := ⟨c.protocol.state, c.hasSentDC, c.history⟩

/-- The profile goes on by `f`, and no tick is counted. -/
structure Marks (f : Profile → Profile) (c c' : ClientHandle β) : Prop where
  profile : c'.profile = f c.profile
  ticks : c'.ticksSinceLastPacket = c.ticksSinceLastPacket

theorem Marks.refl (c : ClientHandle β) : Marks id c c := ⟨rfl, rfl⟩

theorem Marks.trans {f g : Profile → Profile} {c c' c'' : ClientHandle β} (h : Marks f c c')
    (h' : Marks g c' c'') : Marks (fun x => g (f x)) c c'' :=
  ⟨h'.profile.trans (congrArg g h.profile), h'.ticks.trans h.ticks⟩

theorem Marks.kept {c c' c'' : ClientHandle β} (h : Marks id c c') (h' : Marks id c' c'') :
    Marks id c c'' := h.trans h'

theorem history_append {log : List Entry} {entry : Entry} (h : entry.noted = false) :
    (log ++ [entry]).filter Entry.noted = log.filter Entry.noted := by
  rw [List.filter_append, List.filter_cons_of_neg (by rw [h]; exact Bool.false_ne_true),
    List.filter_nil, List.append_nil]

theorem history_noted {log : List Entry} {entry : Entry} (h : entry.noted = true) :
    (log ++ [entry]).filter Entry.noted = log.filter Entry.noted ++ [entry] := by
  rw [List.filter_append, List.filter_cons_of_pos h, List.filter_nil]

theorem record_marks {entry : Entry} (h : entry.noted = false) (c : ClientHandle β) :
    Marks id c (c.record entry) := by
  refine ⟨?_, rfl⟩
  change Profile.mk _ _ ((c.log ++ [entry]).filter Entry.noted) = _
  rw [history_append h]
  rfl

theorem handled_marks (type : UInt32) (bytes : AString) (c : ClientHandle β) :
    Marks (Profile.handled type bytes) c (c.record (.handled c.protocol.state type bytes)) := by
  refine ⟨?_, rfl⟩
  change Profile.mk _ _ ((c.log ++ [_]).filter Entry.noted) = _
  rw [history_noted rfl]
  rfl

theorem queue_profile (p : Packet) (c : ClientHandle β) : (c.queue p).profile =
    if c.hasSentDC = false ∧ p.closes c.protocol.state = true then
      { c.profile with history := c.history ++ [.queued c.protocol.state p] }
    else c.profile := by
  unfold queue
  split
  next h => rw [if_neg (fun hall => by rw [h] at hall; exact Bool.noConfusion hall.1)]
  next h =>
    change Profile.mk _ _ ((c.log ++ [Entry.queued c.protocol.state p]).filter Entry.noted) = _
    split
    next hall =>
      rw [@history_noted c.log (.queued c.protocol.state p) hall.2]
      rfl
    next hno =>
      rw [history_append]
      · rfl
      · exact Bool.eq_false_iff.mpr fun hcloses => hno ⟨Bool.eq_false_iff.mpr h, hcloses⟩

theorem queue_ticks (p : Packet) (c : ClientHandle β) :
    (c.queue p).ticksSinceLastPacket = c.ticksSinceLastPacket := by
  rw [queue_eq]

theorem queue_marks {p : Packet} {c : ClientHandle β} (h : p.closes c.protocol.state = false) :
    Marks id c (c.queue p) := by
  refine ⟨?_, queue_ticks p c⟩
  rw [queue_profile, if_neg (fun hall => by rw [h] at hall; exact Bool.noConfusion hall.2)]
  rfl

theorem queueAll_marks {told : List Packet} {c : ClientHandle β}
    (h : ∀ pkt ∈ told, pkt.closes c.protocol.state = false) : Marks id c (c.queueAll told) := by
  induction told generalizing c with
  | nil => exact Marks.refl c
  | cons pkt told ih =>
    rw [queueAll_cons]
    refine (queue_marks (h pkt List.mem_cons_self)).kept (ih fun pkt' hpkt' => ?_)
    rw [queue_protocol]
    exact h pkt' (List.mem_cons_of_mem _ hpkt')

theorem disconnect_marks (reason : Int32) (c : ClientHandle β) :
    Marks (Profile.disconnect reason) c (c.disconnect reason) := by
  have hsent : ∀ {p : Packet}, c.hasSentDC = false → goodbye c.protocol.state reason = some p →
      p.closes c.protocol.state = true →
        Marks (Profile.disconnect reason) c { c.queue p with hasSentDC := true } := by
    intro p hno hp hcloses
    refine ⟨?_, queue_ticks p c⟩
    have hprofile := queue_profile p c
    rw [if_pos ⟨hno, hcloses⟩] at hprofile
    have hhistory : (c.queue p).history = c.history ++ [.queued c.protocol.state p] :=
      congrArg Profile.history hprofile
    have hstate : (c.queue p).protocol.state = c.protocol.state := by rw [queue_protocol]
    change Profile.mk (c.queue p).protocol.state true (c.queue p).history = _
    rw [hstate, hhistory, Profile.disconnect, if_neg (by rw [profile, hno]; exact Bool.false_ne_true)]
    change _ = Profile.mk _ _ (c.history ++ (goodbye c.protocol.state reason).toList.map _)
    rw [hp]
    rfl
  unfold disconnect
  split
  next h => exact ⟨by rw [Profile.disconnect, if_pos (by exact h)], rfl⟩
  next hno =>
    have hno := Bool.eq_false_iff.mpr hno
    split
    next h2 =>
      refine hsent hno (by rw [goodbye, if_pos h2]) ?_
      rw [h2]
      rfl
    next h2 =>
      split
      next h3 =>
        refine hsent hno (by rw [goodbye, if_neg h2, if_pos h3]) ?_
        rw [h3]
        rfl
      next h3 =>
        refine ⟨?_, rfl⟩
        rw [Profile.disconnect, if_neg (by rw [profile, hno]; exact Bool.false_ne_true)]
        change Profile.mk _ _ _ = Profile.mk _ _ (c.history ++ (goodbye c.protocol.state reason).toList.map _)
        rw [goodbye, if_neg h2, if_neg h3, Option.toList_none, List.map_nil, List.append_nil]
        rfl


theorem keepAliveSent_marks (pingID : UInt32) (c : ClientHandle β) :
    Marks id c (c.keepAliveSent pingID) := by
  unfold keepAliveSent
  split
  next => exact record_marks rfl c
  next => exact (record_marks rfl c).kept (queue_marks rfl)

/-- A tick notes nothing, but that the client has been silent for too long. -/
theorem rested_profile {c : ClientHandle β} (h : c.ticksSinceLastPacket < 600) (now : Int) :
    (c.rested now).profile = c.profile := by
  have hworking : Marks id c.flush c.flush.startWorking := by
    unfold startWorking
    split
    next => exact ⟨rfl, rfl⟩
    next => exact Marks.refl _
  have hpinged : Marks id c.flush.startWorking (c.flush.startWorking.pinged now) := by
    have hnext : Marks id c.flush.startWorking { c.flush.startWorking with
        pingID := c.flush.startWorking.pingID + 1, pingStartTime := now } := ⟨rfl, rfl⟩
    unfold pinged
    split
    next => exact hnext.kept (keepAliveSent_marks _ _)
    next => exact Marks.refl _
  have hall := hworking.kept hpinged
  have hcount : (c.flush.startWorking.pinged now).ticksSinceLastPacket = c.ticksSinceLastPacket :=
    hall.ticks
  unfold rested timedOut
  rw [if_neg]
  · exact hall.profile
  · change ¬600 < (c.flush.startWorking.pinged now).ticksSinceLastPacket + 1
    omega

end Marks

end ClientHandle

namespace Server

open ClientHandle (Marks)

section Told

variable {s s' : Server Fifo} {p : Nat}

/-- The types of the packets that one connection causes to be sent to another. -/
def told (pkt : Packet) : Prop := pkt.type = 0x01 ∨ pkt.type = 0x11 ∨ pkt.type = 0x12

theorem told_closes {pkt : Packet} (h : told pkt) (state : UInt32) : pkt.closes state = false := by
  unfold Packet.closes
  split
  next => rcases h with h | h | h <;> rw [h, Bool.and_eq_false_imp] <;> intro _ <;> rfl
  next => rcases h with h | h | h <;> rw [h, Bool.and_eq_false_imp] <;> intro _ <;> rfl
  next => rfl

theorem relayed_told {pkt : Packet}
    (h : (∃ id type, pkt = mediaPacket id type) ∨ (∃ id msg, pkt = mediaMsgPacket id msg)) :
    told pkt := by
  rcases h with ⟨id, type, rfl⟩ | ⟨id, msg, rfl⟩
  · exact Or.inr (Or.inl rfl)
  · exact Or.inr (Or.inr rfl)

theorem tellAll_told (q : Nat) (hne : p ≠ q) :
    ∃ packets, (s.tellAll q).heap p = (s.heap p).queueAll packets ∧ ∀ pkt ∈ packets, told pkt := by
  obtain ⟨packets, hpackets, hmem⟩ := tellOver_queueAll q s.clients s p
  refine ⟨packets, hpackets, fun pkt hpkt => ?_⟩
  rcases hmem pkt hpkt with ⟨heq, _⟩ | ⟨_, _, _, rfl⟩
  · exact absurd heq hne
  · exact Or.inl rfl

variable [Platform]

/-- A connection that an effect does not concern is told of others, and of nothing else. -/
theorem Effect.told {G : Gate} {who : Nat → Prop} (h : Effect G who s s') (hp : ¬who p)
    (ha : p < s.allocated) :
    ∃ packets, s'.heap p = (s.heap p).queueAll packets ∧ ∀ pkt ∈ packets, told pkt := by
  cases h with
  | @small _ q hq _ h =>
    have hne : p ≠ q := fun heq => hp (heq ▸ hq)
    cases h with
    | change _ => exact ⟨[], by rw [store_heap, if_neg hne]; rfl, nofun⟩
    | request _ _ _ _ _ => exact ⟨[], if_neg hne, nofun⟩
    | @relayed r pkt _ hkind _ _ =>
      rw [tell, modify_heap]
      split
      next heq =>
        refine ⟨[pkt], by rw [heq]; rfl, fun pkt' hpkt' => ?_⟩
        rw [List.mem_singleton.mp hpkt']
        exact relayed_told hkind
      next => exact ⟨[], rfl, nofun⟩
  | accepted _ _ => exact ⟨[], by rw [accept_heap, if_neg (Nat.ne_of_lt ha)]; rfl, nofun⟩
  | @destroyed q hq _ _ _ =>
    have hne : p ≠ q := fun heq => hp (heq ▸ hq)
    obtain ⟨packets, hpackets, htold⟩ := @tellAll_told (s.closed q) p q hne
    exact ⟨packets, by rw [hpackets, closed_heap, if_neg hne], htold⟩
  | removed _ _ => exact ⟨[], rfl, nofun⟩
  | taken _ => exact ⟨[], rfl, nofun⟩
  | @login q user hq _ _ _ _ _ _ =>
    have hne : p ≠ q := fun heq => hp (heq ▸ hq)
    obtain ⟨packets, hpackets, htold⟩ :=
      @tellAll_told ({ s with inFlight := none }.admitted q user.username) p q hne
    refine ⟨packets, ?_, htold⟩
    rw [modify_heap, if_neg hne, hpackets, admitted, store_heap, if_neg hne]
  | answered => exact ⟨[], rfl, nofun⟩
  | clock elapsed => exact ⟨[], rfl, nofun⟩

theorem effects_told {G : Gate} {who : Nat → Prop} (h : ReflTransGen (Effect G who) s s')
    (hp : ¬who p) (ha : p < s.allocated) : p < s'.allocated ∧
      Marks id (s.heap p) (s'.heap p) ∧
        (s'.heap p).protocol.receivedData = (s.heap p).protocol.receivedData := by
  induction h with
  | refl => exact ⟨ha, Marks.refl _, rfl⟩
  | tail _ hlast ih =>
    obtain ⟨ha', hmarks, hreceived⟩ := ih
    obtain ⟨packets, hpackets, htold⟩ := hlast.told hp ha'
    refine ⟨Nat.lt_of_lt_of_le ha' hlast.allocated, ?_, ?_⟩
    · rw [hpackets]
      exact hmarks.kept (ClientHandle.queueAll_marks fun pkt hpkt => told_closes (htold pkt hpkt) _)
    · rw [hpackets, ClientHandle.queueAll_eq]
      exact hreceived

end Told

end Server

end P2PChat

import P2PChat.Intake
import P2PChat.Messages

namespace P2PChat

open ByteQueue Relation

namespace Server

section Definitions

variable {β : Type}

/-- The connection is logged in and open, and no disconnect was sent. -/
structure Serves (p : Nat) (s : Server β) : Prop where
  member : p ∈ s.clients
  live : (s.heap p).isDestroyed = false
  link : (s.heap p).link = true
  working : (s.heap p).protocol.state = 3
  hasSentDC : (s.heap p).hasSentDC = false

variable [ByteQueue β] [Platform]

/-- The event is none that ends the connection: its link is not closed, no login of it fails, and when it
has its tick it was heard of lately, what has come in fits, and its answers to pings are read whole. -/
def quiet (p : Nat) (s : Server β) : Event → Prop
  | .remoteClosed q => q ≠ p
  | .authenticatorAnswer => ∀ user, s.inFlight = some user → user.clientID ≠ (s.heap p).uniqueID
  | .tickClient q => q = p → (s.heap p).ticksSinceLastPacket < 600 ∧ (s.inbound p).length ≤ 65536 ∧
      ∀ packet ∈ s.arriving p, packet.1 = 0x00 → (parseVarInt32 packet.2).2 + 1 = packet.2.length
  | _ => True

end Definitions

variable [Platform] {s s' : Server Fifo} {p : Nat} {e : Event}

/-- What concerns other connections does not end this one. -/
theorem Effect.serves {G : Gate} {who : Nat → Prop} (h : Serves p s) (hs : s.Sound) (hp : ¬who p)
    (he : Effect G who s s') : Serves p s' := by
  obtain ⟨told, htold, _⟩ := he.others hp (hs.allocated p h.member)
  have hmember : p ∈ s'.clients := by
    cases he with
    | small _ _ hsmall =>
      rw [hsmall.framed.clients]
      exact h.member
    | accepted _ _ => exact List.mem_append_left _ h.member
    | destroyed _ _ _ _ => exact h.member
    | @removed q hdead _ =>
      refine (List.mem_erase_of_ne fun heq => ?_).mpr h.member
      rw [← heq, h.live] at hdead
      cases hdead
    | taken _ => exact h.member
    | login _ _ _ _ _ _ _ => exact h.member
    | answered => exact h.member
    | clock _ => exact h.member
  have hheap := ClientHandle.queueAll_eq told (s.heap p)
  rw [← htold] at hheap
  refine ⟨hmember, ?_, ?_, ?_, ?_⟩
  · rw [hheap]
    exact h.live
  · rw [hheap]
    exact h.link
  · rw [hheap]
    exact h.working
  · rw [hheap]
    exact h.hasSentDC

theorem effects_serve {G : Gate} {who : Nat → Prop} (h : Serves p s) (hs : s.Sound) (hp : ¬who p)
    (he : ReflTransGen (Effect G who) s s') : Serves p s' := by
  induction he with
  | refl => exact h
  | tail hbefore hlast ih => exact hlast.serves ih (sound_of_effects hs hbefore) hp

section Ticks

variable {todo : List (UInt32 × AString)}

/-- The packets of a stream that have come in are those that arrive. -/
theorem acceptable_of_arriving (h : Serves p s) (hin : (s.heap p).incomingData ≠ [])
    (hfit : (s.inbound p).length ≤ 65536)
    (hpings : ∀ packet ∈ s.arriving p, packet.1 = 0x00 → (parseVarInt32 packet.2).2 + 1 = packet.2.length)
    {new : List (UInt32 × AString)} {v : AString} (hwritten : ∀ q ∈ new, Written q)
    (hbytes : s.inbound p = stream new ++ v) : ∀ q ∈ new, Acceptable q := by
  have hknown : ∀ q ∈ new, knows 3 q.1 = true := by
    intro q hq
    rcases (hwritten q hq).known with h0 | hacceptable
    · rw [h0]
      rfl
    · exact hacceptable.1
  have harriving : s.arriving p = new.map call ++ packets (knows 3) v := by
    rw [arriving, if_pos ⟨h.live, hin, hfit⟩, h.working, hbytes]
    exact packets_stream (written_size hwritten) hknown v
  intro q hq
  rcases (hwritten q hq).known with h0 | hacceptable
  · refine ⟨hknown q hq, ?_⟩
    have hmem : call q ∈ s.arriving p := by
      rw [harriving]
      exact List.mem_append_left _ (List.mem_map_of_mem hq)
    have hwhole := hpings (call q) hmem h0
    rw [h0]
    exact hwhole
  · exact hacceptable

theorem tickClient_serves (hs : s.Sound) (h : Serves p s) (hquiet : s.quiet p (.tickClient p))
    (hclear : Clear (s.heap p).protocol.receivedData) (hwritten : ∀ q ∈ todo, Written q)
    (hstart : s.inbound p <+: stream todo) (hok : s.tickClient p = .ok s') : Serves p s' := by
  obtain ⟨hticks, hfit, hpings⟩ := hquiet rfl
  obtain ⟨t, ht, hsmall, hheap⟩ := tickClient_parts hs h.live hok
  have htick := (tickClient_eq hs h.live ht).2
  rw [hok] at htick
  have hclients : s'.clients = s.clients := by
    rw [Except.ok.inj htick]
    exact (framed_of_small hsmall).clients
  obtain ⟨hdc, hlink, hticks'⟩ : (t.heap p).hasSentDC = false ∧ (t.heap p).link = true ∧
      (t.heap p).ticksSinceLastPacket < 600 := by
    by_cases hin : (s.heap p).incomingData = []
    · rw [tickReceived, if_neg (not_not.mpr hin)] at ht
      cases ht
      exact ⟨h.hasSentDC, h.link, hticks⟩
    · obtain ⟨u, hu, hrec, _⟩ := hclear
      have hinbound := inbound_eq hu hrec
      have hall : ∀ new rest v, todo = new ++ rest → u ++ (s.heap p).incomingData = stream new ++ v →
          ∀ q ∈ new, Acceptable q := by
        intro new rest v htodo hbytes
        refine acceptable_of_arriving h hin hfit hpings (fun q hq => hwritten q ?_) (hinbound.trans hbytes)
        rw [htodo]
        exact List.mem_append_left _ hq
      rw [hinbound] at hstart hfit
      obtain ⟨hdc, hsteady⟩ := tickReceived_stays hs h.live (Or.inr (Or.inr h.working))
        (written_size hwritten) hu hrec hstart hin hfit h.working h.hasSentDC hall ht
      exact ⟨hdc, hsteady.link.trans h.link, by rw [hsteady.ticks]; exact hticks⟩
  obtain ⟨hlink', hstate', hdc', hlive'⟩ := ClientHandle.rested_eq t.now (t.heap p)
  have hframed := framed_of_small hsmall
  have hlive := hframed.live.mpr (live_of_not (hs.connections p) (Bool.eq_false_iff.mp h.live))
  refine ⟨?_, ?_, ?_, ?_, ?_⟩
  · rw [hclients]
    exact h.member
  · rw [hheap, hlive', ClientHandle.isDestroyed, beq_eq_false_iff_ne]
    intro hdead
    rw [hdead] at hlive
    exact absurd hlive (by decide)
  · rw [hheap, hlink', hlink]
  · rw [hheap, hstate']
    exact hframed.working.mpr h.working
  · rw [hheap, hdc', hdc]
    simp only [Bool.false_or, decide_eq_false_iff_not]
    omega

end Ticks

/-- Nor does any of these events, whatever connection it concerns. -/
theorem step_serves {todo : List (UInt32 × AString)} (hs : s.Sound) (he : s.enabled e = true)
    (h : Serves p s) (hquiet : s.quiet p e) (hclear : Clear (s.heap p).protocol.receivedData)
    (hwritten : ∀ q ∈ todo, Written q) (hstart : s.inbound p <+: stream todo) (hok : s.step e = .ok s') :
    Serves p s' := by
  have hother : ¬s.concerns e p → Serves p s' := by
    intro hconcerns
    have hstepped := step_stepped hs he (gated_open s e)
    rw [hok] at hstepped
    exact effects_serve h hs hconcerns hstepped.2.2
  cases e with
  | connectionAccepted ip => exact hother id
  | receivedData q data =>
    cases hok
    rcases eq_or_ne p q with rfl | hne
    · have hself : (s.receivedData p data).heap p = (s.heap p).receive data := if_pos rfl
      refine ⟨h.member, ?_, ?_, ?_, ?_⟩
      · rw [hself]
        exact h.live
      · rw [hself]
        exact h.link
      · rw [hself]
        exact h.working
      · rw [hself]
        exact h.hasSentDC
    · exact hother hne
  | remoteClosed q => exact hother fun heq => hquiet heq.symm
  | tickClient q =>
    rcases eq_or_ne q p with rfl | hne
    · exact tickClient_serves hs h hquiet hclear hwritten hstart hok
    · exact hother hne.symm
  | released q =>
    refine hother fun heq => ?_
    simp only [enabled, Bool.and_eq_true, Bool.not_eq_true', List.contains_eq_mem,
      decide_eq_false_iff_not] at he
    have heq : p = q := heq
    rw [← heq] at he
    exact he.2 h.member
  | authenticatorTake => exact hother id
  | authenticatorAnswer =>
    refine hother ?_
    rintro ⟨user, hin, hid⟩
    exact hquiet user hin hid.symm
  | clock elapsed => exact hother id

end Server

end P2PChat

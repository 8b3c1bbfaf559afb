import P2PChat.Departures

namespace P2PChat

open ByteQueue Relation

namespace Server

section Definitions

variable {β : Type} [ByteQueue β]

/-- The loop of `Shutdown` over the rest of `m_Clients`. -/
def shutdownLoop : List Nat → Server β → Except Halt (Server β)
  | [], s => .ok s
  | p :: clients, s => do
    let s ← s.destroy p
    shutdownLoop clients s

/-- What `Shutdown` does when the tick thread has answered it. -/
def shutdown (s : Server β) : Except Halt (Server β) := do
  let s ← shutdownLoop s.clients s
  .ok { s with clients := [] }

end Definitions

section Maps

variable {β γ : Type} [ByteQueue β] [ByteQueue γ] {f : β → γ} (hf : Hom f)

include hf

theorem shutdownLoop_map (l : List Nat) (s : Server β) :
    shutdownLoop l (s.map f) = (shutdownLoop l s).map (Server.map f) := by
  induction l generalizing s with
  | nil => rfl
  | cons p l ih => exact map_bind (destroy_map hf p s) ih

theorem shutdown_map (s : Server β) : (s.map f).shutdown = s.shutdown.map (Server.map f) :=
  map_bind (shutdownLoop_map hf s.clients s) fun _ => rfl

end Maps

variable {s s' t : Server Fifo} {p q : Nat}

/-- Nothing went to the link. -/
def Muted (c c' : ClientHandle Fifo) : Prop := c'.sent = c.sent

theorem muted_passive : ClientHandle.Passive Muted where
  refl _ := rfl
  trans h h' := h'.trans h
  userInfo about c _ := ClientHandle.queue_sent about.userInfo c
  disconnect reason c := by rw [ClientHandle.disconnect_eq]; rfl
  loginSucceeded c := ClientHandle.queue_sent ⟨0x01, []⟩ (c.record (.loginSuccess c.protocol.state))
  same _ _ _ _ _ _ := rfl

/-- What closing any connections does to one of them, or to another. -/
structure Closes (c c' : ClientHandle Fifo) : Prop where
  sent : c'.sent = c.sent
  destroyed : c.state = .csDestroyed → c'.state = .csDestroyed
  link : c'.link = true → c.link = true
  unlinked : (c.state = .csDestroyed → c.link = false) → c'.state = .csDestroyed → c'.link = false

theorem Closes.refl (c : ClientHandle Fifo) : Closes c c := ⟨rfl, id, id, id⟩

theorem Closes.trans {c c' c'' : ClientHandle Fifo} (h : Closes c c') (h' : Closes c' c'') : Closes c c'' where
  sent := h'.sent.trans h.sent
  destroyed hc := h'.destroyed (h.destroyed hc)
  link hc := h.link (h'.link hc)
  unlinked hc := h'.unlinked (h.unlinked hc)

section Shutdown

/-- Who counts as destroyed already only loses its link. -/
theorem destroyed_of_late (hs : s.Sound) (hlate : EState.csDestroying.toNat ≤ (s.heap p).state.toNat) :
    (s.heap p).state = .csDestroyed := by
  by_contra hnot
  have hdead : ¬(s.heap p).isDestroyed = true := fun h => hnot (eq_of_beq h)
  have hlive := live_of_not (hs.connections p) hdead
  exact absurd hlive (Nat.not_lt_of_le hlate)

theorem destroy_closes (hs : s.Sound) (p : Nat) :
    ∃ s', s.destroy p = .ok s' ∧ s'.clients = s.clients ∧ s'.allocated = s.allocated ∧ s'.Sound ∧
      ((s'.heap p).state = .csDestroyed ∧ (s'.heap p).link = false) ∧ ∀ q, Closes (s.heap q) (s'.heap q) := by
  by_cases hlate : EState.csDestroying.toNat ≤ (s.heap p).state.toNat
  · have hself : (s.modify p ClientHandle.unlink).heap p = (s.heap p).unlink := if_pos rfl
    refine ⟨s.modify p ClientHandle.unlink, by rw [destroy, if_pos hlate], rfl, rfl, ?_, ?_, fun q => ?_⟩
    · refine ⟨fun q => ?_, hs.requests, hs.nodup, hs.allocated⟩
      rw [modify_heap]
      split
      next => exact (unlink_change _).sound (hs.connections p)
      next => exact hs.connections q
    · rw [hself]
      exact ⟨destroyed_of_late hs hlate, rfl⟩
    · rw [modify_heap]
      split
      next heq =>
        rw [heq]
        refine ⟨rfl, id, ?_, fun _ _ => rfl⟩
        rintro ⟨⟩
      next => exact Closes.refl _
  · have hclosed := closed_sound hs p
    have hself := closed_heap p p s
    rw [if_pos rfl] at hself
    refine ⟨(s.closed p).tellAll p, ?_, rfl, rfl, tellAll_sound hclosed p, ?_, fun q => ?_⟩
    · rw [destroy, if_neg hlate]
      exact broadcastUserInfo_ok hclosed.connections hclosed.nodup p
    · rw [(tellAll_bound p p _).1, (tellAll_bound p p _).2, hself]
      exact ⟨rfl, rfl⟩
    · obtain ⟨hstate, hlink⟩ := tellAll_bound p q (s.closed p)
      have hsent : ((s.closed p).tellAll p |>.heap q).sent = ((s.closed p).heap q).sent :=
        tellAll_passive muted_passive hclosed p
      have htold : Closes ((s.closed p).heap q) (((s.closed p).tellAll p).heap q) :=
        ⟨hsent, fun h => hstate.trans h, fun h => hlink.symm.trans h,
          fun h h' => hlink.trans (h (hstate.symm.trans h'))⟩
      refine Closes.trans ?_ htold
      rw [closed_heap]
      split
      next heq =>
        rw [heq]
        refine ⟨rfl, fun _ => rfl, ?_, fun _ _ => rfl⟩
        rintro ⟨⟩
      next => exact Closes.refl _

/-- The loop destroys the connections one after another. -/
theorem shutdownLoop_closes (hs : s.Sound) (l : List Nat) :
    ∃ s', shutdownLoop l s = .ok s' ∧ s'.allocated = s.allocated ∧ s'.Sound ∧
      (∀ q ∈ l, (s'.heap q).state = .csDestroyed ∧ (s'.heap q).link = false) ∧
      ∀ q, Closes (s.heap q) (s'.heap q) := by
  induction l generalizing s with
  | nil => exact ⟨s, rfl, rfl, hs, fun q h => absurd h List.not_mem_nil, fun q => Closes.refl _⟩
  | cons p l ih =>
    obtain ⟨s₁, hdestroy, _, hallocated, hs₁, hdead, hkept⟩ := destroy_closes hs p
    obtain ⟨s', hloop, hallocated', hs', hdone, hkept'⟩ := ih hs₁
    refine ⟨s', ?_, hallocated'.trans hallocated, hs', fun q hq => ?_, fun q => (hkept q).trans (hkept' q)⟩
    · rw [shutdownLoop, hdestroy]
      exact hloop
    · rcases List.mem_cons.mp hq with rfl | hrest
      · exact ⟨(hkept' q).destroyed hdead.1, (hkept' q).unlinked (fun _ => hdead.2) ((hkept' q).destroyed hdead.1)⟩
      · exact hdone q hrest

theorem shutdown_closes (hs : s.Sound) (ho : s.Orderly) :
    ∃ s', s.shutdown = .ok s' ∧ s'.clients = [] ∧ s'.allocated = s.allocated ∧ s'.Sound ∧ s'.Orderly ∧
      ∀ q, (s'.heap q).sent = (s.heap q).sent := by
  obtain ⟨s₁, hloop, hallocated, hs₁, hdone, hkept⟩ := shutdownLoop_closes hs s.clients
  refine ⟨{ s₁ with clients := [] }, ?_, rfl, hallocated, ?_, ⟨fun q hq => ?_, fun q hq _ => ?_⟩,
    fun q => (hkept q).sent⟩
  · rw [shutdown, hloop]
    rfl
  · exact ⟨hs₁.connections, hs₁.requests, List.nodup_nil, fun q hq => absurd hq List.not_mem_nil⟩
  · exact (hkept q).unlinked (ho.unlinked q) hq
  · rw [hallocated] at hq
    by_cases hmem : q ∈ s.clients
    · exact (hdone q hmem).1
    · exact (hkept q).destroyed (ho.departed q hq hmem)

end Shutdown

variable [Platform]

section Silence

/-- Nobody comes back into `m_Clients`. -/
theorem Effect.clients {G : Gate} {who : Nat → Prop} (h : Effect G who s s') (hp : p < s.allocated)
    (hmem : p ∈ s'.clients) : p ∈ s.clients := by
  cases h with
  | small _ _ h =>
    rw [h.framed.clients] at hmem
    exact hmem
  | accepted _ _ =>
    rcases List.mem_append.mp hmem with hold | hnew
    · exact hold
    · exact absurd (List.mem_singleton.mp hnew) (Nat.ne_of_lt hp)
  | destroyed _ _ _ _ => exact hmem
  | removed _ _ => exact List.mem_of_mem_erase hmem
  | taken _ => exact hmem
  | login _ _ _ _ _ _ _ => exact hmem
  | answered => exact hmem
  | clock elapsed => exact hmem

theorem effects_clients {G : Gate} {who : Nat → Prop} (h : ReflTransGen (Effect G who) s s')
    (hp : p < s.allocated) (hmem : p ∈ s'.clients) : p ∈ s.clients := by
  induction h with
  | refl => exact hmem
  | tail hbefore hlast ih =>
    exact ih (hlast.clients (Nat.lt_of_lt_of_le hp (effects_allocated hbefore)) hmem)

/-- Only a tick of its own gives bytes to the link of a connection. -/
theorem step_muted (hs : s.Sound) {e : Event} (he : s.enabled e = true) (hp : p < s.allocated)
    (hnot : e ≠ .tickClient p) (h : s.step e = .ok s') : (s'.heap p).sent = (s.heap p).sent := by
  cases e with
  | receivedData q data =>
    cases h
    rw [receivedData, modify_heap]
    split
    next heq => rw [heq]; rfl
    next => rfl
  | tickClient q =>
    have hne : p ≠ q := fun heq => hnot (by rw [heq])
    have hstepped := step_stepped hs he (gated_open s _)
    rw [h] at hstepped
    obtain ⟨_, told, htold, _⟩ := effects_others hstepped.2.2 (q := p) hne hp
    rw [htold, ClientHandle.queueAll_eq]
  | connectionAccepted ip => exact step_passive muted_passive hs hp (by simp) (by simp) h
  | remoteClosed q => exact step_passive muted_passive hs hp (by simp) (by simp) h
  | released q => exact step_passive muted_passive hs hp (by simp) (by simp) h
  | authenticatorTake => exact step_passive muted_passive hs hp (by simp) (by simp) h
  | authenticatorAnswer => exact step_passive muted_passive hs hp (by simp) (by simp) h
  | clock elapsed => exact step_passive muted_passive hs hp (by simp) (by simp) h

/-- What stays true of a connection that has left `m_Clients`. -/
structure Left (p : Nat) (sent : AString) (s : Server Fifo) : Prop where
  sound : s.Sound
  orderly : s.Orderly
  allocated : p < s.allocated
  gone : p ∉ s.clients
  sent : (s.heap p).sent = sent

theorem Left.step {sent : AString} (h : s.Left p sent) {e : Event} (he : s.enabled e = true)
    (hstep : s.step e = .ok s') : s'.Left p sent := by
  have hstepped := step_stepped h.sound he (gated_open s e)
  rw [hstep] at hstepped
  obtain ⟨_, _, heffects⟩ := hstepped
  have horderly : ∀ u, ReflTransGen (Effect Gate.open (s.concerns e)) s u → u.Sound ∧ u.Orderly := by
    intro u hu
    induction hu with
    | refl => exact ⟨h.sound, h.orderly⟩
    | tail _ hlast ih => exact ⟨hlast.sound ih.1, hlast.orderly ih.1 ih.2⟩
  have hnot : e ≠ .tickClient p := by
    rintro rfl
    exact h.gone (by simpa [enabled] using he)
  exact ⟨(horderly s' heffects).1, (horderly s' heffects).2, Nat.lt_of_lt_of_le h.allocated
    (effects_allocated heffects), fun hmem => h.gone (effects_clients heffects h.allocated hmem),
    (step_muted h.sound he h.allocated hnot hstep).trans h.sent⟩

theorem Left.reach {sent : AString} {allowed : Server Fifo → Event → Prop} (h : s.Left p sent)
    (hreach : (serverMachine Fifo).Reach allowed s t) : t.Left p sent :=
  hreach.invariant h fun _ _ _ _ hleft he _ hstep => hleft.step he hstep

omit [Platform] in
theorem Left.dead {sent : AString} (h : s.Left p sent) :
    (s.heap p).state = .csDestroyed ∧ (s.heap p).link = false :=
  ⟨h.orderly.departed p h.allocated h.gone, h.orderly.unlinked p (h.orderly.departed p h.allocated h.gone)⟩

theorem reachable_orderly (h : (serverMachine Fifo).Reach (fun s e => s.gated Gate.open e) initial s) :
    s.Sound ∧ s.Orderly :=
  reach_invariant initial_sound initial_orderly (fun _ _ _ hs ho heffect => heffect.orderly hs ho) h

end Silence

/-- Who has left `m_Clients` is destroyed and has no link, and in no later state of the run has anything gone
to the link that it had: what the destructor still queues goes nowhere. -/
theorem departed_silent {s t : Server ByteBuffer} {p : Nat}
    (hs : (serverMachine ByteBuffer).Reachable initial s) (hp : p < s.allocated) (hgone : p ∉ s.clients)
    (ht : (serverMachine ByteBuffer).Reachable s t) :
    p ∉ t.clients ∧ (t.heap p).state = .csDestroyed ∧ (t.heap p).link = false ∧
      (t.heap p).sent = (s.heap p).sent := by
  have hfrom := reachable_contents hs
  rw [initial_contents] at hfrom
  obtain ⟨hsound, horderly⟩ := reachable_orderly hfrom
  have hleft : (s.map ByteBuffer.contents).Left p (s.heap p).sent := ⟨hsound, horderly, hp, hgone, rfl⟩
  have hend := hleft.reach (reachable_contents ht)
  exact ⟨hend.gone, hend.dead.1, hend.dead.2, hend.sent⟩

omit [Platform] in
/-- A connection past its StatusRequest was closed and taken out of `m_Clients`; then its destructor runs, and queues
a notice. -/
theorem departed_silent_greeted :
    letI := zeroPlatform
    ∃ s t : Server ByteBuffer, .queued 2 ⟨0x00, [.beInt32 errorCodeServerShutdown]⟩ ∈ (t.heap 0).log ∧
      (s.heap 0).outgoingData ≠ (t.heap 0).outgoingData ∧ 0 ∉ t.clients ∧
        (t.heap 0).state = .csDestroyed ∧ (t.heap 0).link = false ∧ (t.heap 0).sent = (s.heap 0).sent := by
  let : Platform := zeroPlatform
  have hruns : ((serverMachine ByteBuffer).replay enabled
      (.connectionAccepted [] :: (greets 0 ++ [.remoteClosed 0, .tickClient 0])) initial).bind (fun s =>
        ((serverMachine ByteBuffer).replay enabled [.released 0] s).map fun t =>
          decide (0 < s.allocated ∧ 0 ∉ s.clients ∧ (s.heap 0).outgoingData ≠ (t.heap 0).outgoingData ∧
            .queued 2 ⟨0x00, [.beInt32 errorCodeServerShutdown]⟩ ∈ (t.heap 0).log)) = some true := by
    decide +kernel
  obtain ⟨s, hs, hrest⟩ := Option.bind_eq_some_iff.mp hruns
  obtain ⟨t, ht, hfacts⟩ := Option.map_eq_some_iff.mp hrest
  obtain ⟨hallocated, hgone, hgrown, hnotice⟩ := of_decide_eq_true hfacts
  exact ⟨s, t, hnotice, hgrown, departed_silent (replay_reachable hs) hallocated hgone (replay_reachable ht)⟩

/-- In every state that a run can come to, `Shutdown` succeeds. It leaves every connection there ever was
destroyed and without a link, and `m_Clients` empty; neither it nor anything that happens afterwards sends one of
them a byte. -/
theorem shutdown_silent {s : Server ByteBuffer} (hs : (serverMachine ByteBuffer).Reachable initial s) :
    ∃ s', s.shutdown = .ok s' ∧ s'.clients = [] ∧
      ∀ t, (serverMachine ByteBuffer).Reachable s' t → ∀ p, p < s.allocated →
        p ∉ t.clients ∧ (t.heap p).state = .csDestroyed ∧ (t.heap p).link = false ∧
          (t.heap p).sent = (s.heap p).sent := by
  have hfrom := reachable_contents hs
  rw [initial_contents] at hfrom
  obtain ⟨hsound, horderly⟩ := reachable_orderly hfrom
  obtain ⟨u, hshut, hclients, hallocated, husound, huorderly, hsent⟩ := shutdown_closes hsound horderly
  have hmap := shutdown_map ByteBuffer.contents_hom s
  rw [hshut] at hmap
  rcases hs' : s.shutdown with e | s'
  · rw [hs'] at hmap
    cases hmap
  · rw [hs'] at hmap
    have hu : u = s'.map ByteBuffer.contents := Except.ok.inj hmap
    subst hu
    refine ⟨s', rfl, hclients, fun t ht p hp => ?_⟩
    have hleft : (s'.map ByteBuffer.contents).Left p (s.heap p).sent :=
      ⟨husound, huorderly, by rw [hallocated]; exact hp, by rw [hclients]; exact List.not_mem_nil, hsent p⟩
    have hend := hleft.reach (reachable_contents ht)
    exact ⟨hend.gone, hend.dead.1, hend.dead.2, hend.sent⟩

omit [Platform] in
/-- Two connections are there when `Shutdown` is called. The first is logged in, and the second is told that it
goes. -/
theorem shutdown_silent_two :
    letI := zeroPlatform
    ∃ s s' : Server ByteBuffer, s.clients = [0, 1] ∧ (s.heap 0).protocol.state = 3 ∧ s.shutdown = .ok s' ∧
      (s'.heap 1).outgoingData ≠ (s.heap 1).outgoingData ∧ s'.clients = [] ∧
        (s'.heap 0).state = .csDestroyed ∧ (s'.heap 1).state = .csDestroyed ∧
          (s'.heap 1).sent = (s.heap 1).sent := by
  let : Platform := zeroPlatform
  have hruns : ((serverMachine ByteBuffer).replay enabled
      (.connectionAccepted [] :: .connectionAccepted [] :: (greets 0 ++ greets 1 ++ asksLogin 0 [97] ++ isAnswered))
      initial).bind (fun s => s.shutdown.toOption.map fun s' =>
        decide (s.clients = [0, 1] ∧ (s.heap 0).protocol.state = 3 ∧ s.allocated = 2 ∧
          (s'.heap 1).outgoingData ≠ (s.heap 1).outgoingData)) = some true := by
    decide +kernel
  obtain ⟨s, hs, hrest⟩ := Option.bind_eq_some_iff.mp hruns
  obtain ⟨s', hshut, hfacts⟩ := Option.map_eq_some_iff.mp hrest
  obtain ⟨hclients, hlogged, hallocated, htold⟩ := of_decide_eq_true hfacts
  obtain ⟨t, hshut', hnone, hafter⟩ := shutdown_silent (replay_reachable hs)
  have heq : t = s' := Except.ok.inj (hshut'.symm.trans (toOption_eq_some.mp hshut))
  subst heq
  obtain ⟨_, hfirst, _, _⟩ := hafter t .start 0 (by omega)
  obtain ⟨_, hsecond, _, hsent⟩ := hafter t .start 1 (by omega)
  exact ⟨s, t, hclients, hlogged, hshut', htold, hnone, hfirst, hsecond, hsent⟩

end Server

end P2PChat

import P2PChat.Reception

namespace P2PChat

open ByteQueue Relation

namespace ClientHandle

/-- A change neither destroys a connection nor gives it a link. -/
theorem Change.bound {c c' : ClientHandle Fifo} (hc : c.Sound) (h : Change c c') :
    (c'.state = .csDestroyed ↔ c.state = .csDestroyed) ∧ (c'.link = true → c.link = true) := by
  refine ⟨?_, ?_⟩
  · have hlive := (Server.Change.framed h).2.1
    have hdestroyed : ∀ d : ClientHandle Fifo, d.Sound → (d.state = .csDestroyed ↔ ¬d.state.toNat < 4) := by
      intro d hd
      have hsettled := hd.settled
      cases hstate : d.state with
      | csDestroying => exact absurd hstate hsettled
      | csConnected => decide
      | csAuthenticating => decide
      | csAuthenticated => decide
      | csWorking => decide
      | csDestroyed => decide
    rw [hdestroyed c' (h.sound hc), hdestroyed c hc, hlive]
  · cases h with
    | quiet h => exact h.link
    | handled _ _ _ => exact id
    | status state _ _ _ => rw [queue_eq]; exact id
    | pong timestamp _ => rw [queue_eq]; exact id
    | lost _ _ _ _ => exact id
    | disconnect reason => rw [disconnect_eq]; exact id
    | flush => exact id
    | working _ => exact id
    | keepAlive pingID now _ =>
      unfold keepAliveSent
      split
      next => exact id
      next => rw [queue_eq]; exact id

end ClientHandle

namespace Server

/-- Who is destroyed has no link, and only who is destroyed has left `m_Clients`. -/
structure Orderly (s : Server Fifo) : Prop where
  unlinked : ∀ p, (s.heap p).state = .csDestroyed → (s.heap p).link = false
  departed : ∀ p, p < s.allocated → p ∉ s.clients → (s.heap p).state = .csDestroyed

variable {s s' : Server Fifo} {p q : Nat}

/-- What leaves the list of clients, and neither destroys nor links, keeps the order. -/
theorem Orderly.of_same (hs : s.Orderly) (hallocated : s'.allocated = s.allocated)
    (hclients : s'.clients = s.clients)
    (hheap : ∀ q, ((s'.heap q).state = .csDestroyed ↔ (s.heap q).state = .csDestroyed) ∧
      ((s'.heap q).link = true → (s.heap q).link = true)) : s'.Orderly where
  unlinked q hq := by
    have hbefore := hs.unlinked q ((hheap q).1.mp hq)
    exact Bool.eq_false_iff.mpr fun hlink => Bool.eq_false_iff.mp hbefore ((hheap q).2 hlink)
  departed q hq hnot := by
    rw [hallocated] at hq
    rw [hclients] at hnot
    exact (hheap q).1.mpr (hs.departed q hq hnot)

theorem tellAll_bound (p q : Nat) (s : Server Fifo) :
    ((s.tellAll p).heap q).state = (s.heap q).state ∧ ((s.tellAll p).heap q).link = (s.heap q).link := by
  obtain ⟨told, htold, _⟩ := tellOver_queueAll p s.clients s q
  rw [tellAll, htold, ClientHandle.queueAll_eq]
  exact ⟨rfl, rfl⟩

variable [Platform]

theorem Small.bound {G : Gate} (hs : s.Sound) (h : Small G p s s') (q : Nat) :
    ((s'.heap q).state = .csDestroyed ↔ (s.heap q).state = .csDestroyed) ∧
      ((s'.heap q).link = true → (s.heap q).link = true) := by
  cases h with
  | change hc =>
    rw [store_heap]
    split
    next heq =>
      rw [heq]
      exact hc.bound (hs.connections p)
    next => exact ⟨Iff.rfl, id⟩
  | request hlive _ _ _ _ =>
    rw [handleLogin, modify_heap]
    split
    next heq =>
      rw [heq]
      refine ⟨⟨?_, fun h => ?_⟩, id⟩
      · rintro ⟨⟩
      · rw [h] at hlive
        exact absurd hlive (by decide)
    next => exact ⟨Iff.rfl, id⟩
  | @relayed r pkt _ _ _ _ =>
    rcases eq_or_ne q r with rfl | hne
    · rw [tell_self, ClientHandle.queue_eq]
      exact ⟨Iff.rfl, id⟩
    · rw [tell_other hne]
      exact ⟨Iff.rfl, id⟩

theorem Effect.orderly {G : Gate} {who : Nat → Prop} (hs : s.Sound) (ho : s.Orderly)
    (h : Effect G who s s') : s'.Orderly := by
  cases h with
  | small _ _ h => exact ho.of_same h.framed.allocated h.framed.clients (h.bound hs)
  | @accepted ip _ _ =>
    refine ⟨fun q hq => ?_, fun q hq hnot => ?_⟩
    · rw [accept_heap] at hq ⊢
      split at hq
      next => cases hq
      next hne =>
        rw [if_neg hne]
        exact ho.unlinked q hq
    · have hclients : (s.accept ip).clients = s.clients ++ [s.allocated] := rfl
      have hnew : q ≠ s.allocated := by
        rintro rfl
        exact hnot (by rw [hclients]; exact List.mem_append_right _ (List.mem_singleton.mpr rfl))
      have hold : q ∉ s.clients := fun h => hnot (by rw [hclients]; exact List.mem_append_left _ h)
      have hlt : q < s.allocated := Nat.lt_of_le_of_ne (Nat.lt_succ_iff.mp hq) hnew
      rw [accept_heap, if_neg hnew]
      exact ho.departed q hlt hold
  | @destroyed p _ _ _ _ =>
    have hheap := fun q => closed_heap p q s
    refine ⟨fun q hq => ?_, fun q hq hnot => ?_⟩
    · rw [(tellAll_bound p q _).1, hheap] at hq
      rw [(tellAll_bound p q _).2, hheap]
      split
      next => rfl
      next hne =>
        rw [if_neg hne] at hq
        exact ho.unlinked q hq
    · rw [(tellAll_bound p q _).1, hheap]
      split
      next => rfl
      next => exact ho.departed q hq hnot
  | @removed p hdead _ =>
    refine ⟨ho.unlinked, fun q hq hnot => ?_⟩
    rcases eq_or_ne q p with rfl | hne
    · exact eq_of_beq hdead
    · exact ho.departed q hq fun hmem => hnot ((List.mem_erase_of_ne hne).mpr hmem)
  | taken _ => exact ⟨ho.unlinked, ho.departed⟩
  | @login p user _ hin _ hfound hstate _ _ =>
    have hmem := (findClient_some hfound).1
    have hsame : ∀ q, (((({ s with inFlight := none } : Server Fifo).admitted p user.username).tellAll
        p).modify p (ClientHandle.setPingStart (s.now + 3 * 1000000000))).heap q =
        if q = p then ((({ s with inFlight := none } : Server Fifo).admitted p user.username).tellAll
          p |>.heap p).setPingStart (s.now + 3 * 1000000000)
        else (((({ s with inFlight := none } : Server Fifo).admitted p user.username).tellAll p).heap q) :=
      fun _ => rfl
    refine ⟨fun q hq => ?_, fun q hq hnot => ?_⟩
    · rw [hsame] at hq ⊢
      split at hq
      next =>
        exfalso
        change ((({ s with inFlight := none } : Server Fifo).admitted p user.username).tellAll p |>.heap
          p).state = .csDestroyed at hq
        rw [(tellAll_bound p p _).1, admitted, store_heap, if_pos rfl] at hq
        cases hq
      next hne =>
        rw [if_neg hne, (tellAll_bound p q _).2, admitted_other hne]
        rw [(tellAll_bound p q _).1, admitted_other hne] at hq
        exact ho.unlinked q hq
    · have hne : q ≠ p := fun heq => hnot (heq ▸ hmem)
      rw [hsame, if_neg hne, (tellAll_bound p q _).1, admitted_other hne]
      exact ho.departed q hq hnot
  | answered => exact ⟨ho.unlinked, ho.departed⟩
  | clock elapsed => exact ⟨ho.unlinked, ho.departed⟩

omit [Platform] in
theorem initial_orderly : (initial : Server Fifo).Orderly :=
  ⟨fun _ h => (nomatch h), fun _ h => absurd h (Nat.not_lt_zero _)⟩

end Server

end P2PChat

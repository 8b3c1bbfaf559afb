import P2PChat.PeerLists

namespace P2PChat

open ByteQueue Relation

namespace Server

/-- Two connections of `m_Clients` with one name that is not empty are the same. -/
def UniqueNames {β : Type} (s : Server β) : Prop :=
  ∀ p ∈ s.clients, ∀ q ∈ s.clients, (s.heap p).username = (s.heap q).username →
    (s.heap p).username ≠ [] → p = q

theorem UniqueNames.keep {s s' : Server Fifo} (h : s.UniqueNames) (hclients : s'.clients ⊆ s.clients)
    (hname : ∀ q, (s'.heap q).username = (s.heap q).username) : s'.UniqueNames := by
  intro p hp q hq heq hne
  rw [hname, hname] at heq
  rw [hname] at hne
  exact h p (hclients hp) q (hclients hq) heq hne

theorem UniqueNames.tellAll {s : Server Fifo} (h : s.UniqueNames) (p : Nat) :
    (s.tellAll p).UniqueNames :=
  h.keep (List.Subset.refl _) fun q => (tellAll_same p q s).2.2.1

/-- The name that is given to a connection is one that nobody in `m_Clients` has. -/
theorem UniqueNames.admitted {s : Server Fifo} (h : s.UniqueNames) {name : AString}
    (hfree : s.isPlayerInQueue name = false) (p : Nat) : (s.admitted p name).UniqueNames := by
  have hself : ((s.admitted p name).heap p).username = name := by
    rw [Server.admitted, store_heap, if_pos rfl, ClientHandle.loginSucceeded, ClientHandle.queue_eq]
    rfl
  have hother : ∀ q, q ≠ p → ((s.admitted p name).heap q).username = (s.heap q).username := by
    intro q hq
    rw [admitted_other hq]
  have hnobody : ∀ q ∈ s.clients, (s.heap q).username ≠ name := by
    intro q hq heq
    have hany := List.any_eq_false.mp hfree q hq
    exact hany (beq_iff_eq.mpr heq)
  intro q hq r hr heq hne
  have hq' : q ∈ s.clients := hq
  have hr' : r ∈ s.clients := hr
  rcases eq_or_ne q p with rfl | hqp
  · rcases eq_or_ne r q with rfl | hrq
    · rfl
    · rw [hself, hother r hrq] at heq
      exact absurd heq.symm (hnobody r hr')
  · rcases eq_or_ne r p with rfl | hrp
    · rw [hself, hother q hqp] at heq
      exact absurd heq (hnobody q hq')
    · rw [hother q hqp, hother r hrp] at heq
      rw [hother q hqp] at hne
      exact h q hq' r hr' heq hne

theorem UniqueNames.accept {s : Server Fifo} (hs : s.Sound) (h : s.UniqueNames) (ip : AString) :
    (s.accept ip).UniqueNames := by
  have hold : ∀ q ∈ s.clients, (s.accept ip).heap q = s.heap q := by
    intro q hq
    rw [accept_heap, if_neg (Nat.ne_of_lt (hs.allocated q hq))]
  have hnew : ((s.accept ip).heap s.allocated).username = [] := by
    rw [accept_heap, if_pos rfl]
    rfl
  have hmem : ∀ q ∈ (s.accept ip).clients, q ∈ s.clients ∨ q = s.allocated := by
    intro q hq
    exact (List.mem_append.mp hq).imp id List.mem_singleton.mp
  intro p hp q hq heq hne
  rcases hmem p hp with hp' | rfl
  · rcases hmem q hq with hq' | rfl
    · rw [hold p hp', hold q hq'] at heq
      rw [hold p hp'] at hne
      exact h p hp' q hq' heq hne
    · exact absurd (heq.trans hnew) hne
  · exact absurd hnew hne

variable [Platform]

theorem Small.username {G : Gate} {p : Nat} {s s' : Server Fifo} (h : Small G p s s') (q : Nat) :
    (s'.heap q).username = (s.heap q).username := by
  cases h with
  | change hc =>
    rw [store_heap]
    split
    next heq => rw [heq, hc.history.1]
    next => rfl
  | request _ _ _ _ _ =>
    rw [handleLogin, modify_heap]
    split
    next heq =>
      rw [heq]
      rfl
    next => rfl
  | @relayed r pkt _ _ _ _ =>
    rcases eq_or_ne q r with rfl | hne
    · rw [tell_self, ClientHandle.queue_username]
    · rw [tell_other hne]

theorem Effect.uniqueNames {G : Gate} {who : Nat → Prop} {s s' : Server Fifo} (hs : s.Sound)
    (h : s.UniqueNames) (he : Effect G who s s') : s'.UniqueNames := by
  cases he with
  | small _ _ hsmall =>
    have hclients := hsmall.framed.clients
    exact h.keep (by rw [hclients]; exact List.Subset.refl _) hsmall.username
  | accepted _ _ => exact h.accept hs _
  | @destroyed p _ _ _ _ =>
    refine UniqueNames.tellAll (s := s.closed p) (h.keep (List.Subset.refl _) fun q => ?_) p
    rw [closed_heap]
    split
    next heq =>
      rw [heq]
      rfl
    next => rfl
  | removed _ _ => exact h.keep List.erase_subset fun _ => rfl
  | taken _ => exact h.keep (List.Subset.refl _) fun _ => rfl
  | @login p user _ _ _ _ _ hfree _ =>
    have hidle : ({ s with inFlight := none } : Server Fifo).UniqueNames :=
      h.keep (List.Subset.refl _) fun _ => rfl
    refine ((hidle.admitted hfree p).tellAll p).keep (List.Subset.refl _) fun q => ?_
    rw [modify_heap]
    split
    next heq =>
      rw [heq]
      rfl
    next => rfl
  | answered => exact h.keep (List.Subset.refl _) fun _ => rfl
  | clock elapsed => exact h.keep (List.Subset.refl _) fun _ => rfl

/-- In every state of every run no two connections of `m_Clients` have been given one name. -/
theorem names_unique {s : Server ByteBuffer} (h : (serverMachine ByteBuffer).Reachable initial s) :
    s.UniqueNames := by
  have hcontents := reachable_contents h
  rw [initial_contents] at hcontents
  have hstart : (initial : Server Fifo).UniqueNames := fun p hp => nomatch hp
  exact (reach_invariant (I := UniqueNames) initial_sound hstart
    (fun _ _ _ hs hi he => he.uniqueNames hs hi) hcontents).2

omit [Platform] in
/-- Two connections ask for one name; the second that is answered is kicked. -/
theorem names_unique_asked_twice :
    letI := zeroPlatform
    ∃ s : Server ByteBuffer, (s.clients = [0, 1] ∧ (s.heap 0).username = [97] ∧
      (s.heap 1).hasSentDC = true) ∧ s.UniqueNames := by
  let : Platform := zeroPlatform
  have hrun : ((serverMachine ByteBuffer).replay enabled
      (.connectionAccepted [] :: .connectionAccepted [] :: (greets 0 ++ greets 1 ++ asksLogin 0 [97] ++
        asksLogin 1 [97] ++ isAnswered ++ isAnswered)) initial).map (fun s => decide
          (s.clients = [0, 1] ∧ (s.heap 0).username = [97] ∧ (s.heap 1).hasSentDC = true)) =
      some true := by
    decide +kernel
  obtain ⟨s, hs, hall⟩ := Option.map_eq_some_iff.mp hrun
  exact ⟨s, of_decide_eq_true hall, names_unique (replay_reachable hs)⟩

end Server

end P2PChat

import P2PChat.SharedNotifications
import P2PChat.SharedWakeUps

namespace P2PChat

namespace SharedQueue

/-- In every run, what is put into the queue is returned, erased, deleted or still in it, once; what is returned
comes in the order in which it was put in; and nobody sleeps through an event that is set. No wake-up is lost
in a run whose steps are calm. -/
theorem wakeups_kept {ι α : Type} [Fintype ι] [DecidableEq ι] (funcs : QueueFuncs α) :
    (∀ s, (sharedQueueMachine ι funcs).Reachable create s → s.Conserved funcs ∧ ∀ e, s.Notified e) ∧
      ∀ s, (sharedQueueMachine ι funcs).Reach (fun s a => s.calm funcs a = true) create s → ∀ e, ¬s.Lost e :=
  ⟨fun _ h => ⟨reach_conserved h, fun _ => reach_notified h⟩, fun _ h => (reach_signalled h).not_lost⟩

section Examples

/-- From the call of `DequeueItem` or `BlockTillEmpty` to the sleep. -/
def falls (t : Fin 3) (op : QueueOp Nat) : List (SharedAct (Fin 3) Nat) :=
  .call t op :: List.replicate 4 (.go t)

/-- A whole call of `EnqueueItem`, which wakes a thread or none. -/
def enqueues (t : Fin 3) (item : Nat) (woken : Option (Fin 3)) : List (SharedAct (Fin 3) Nat) :=
  [.call t (.enqueueItem item), .go t, .go t, .go t, .notify t woken, .go t]

/-- One thread waits and is woken by the item that comes. -/
theorem wakeups_kept_one :
    ∃ s : SharedQueue (Fin 3) Nat,
      (sharedQueueMachine (Fin 3) cQueueFuncs).Reach (fun s a => s.calm cQueueFuncs a = true) create s ∧
        (s.points 0).waits .added = true ∧ s.contents.map Numbered.item = [7] ∧ s.isSet .added = true ∧
          ∀ e, ¬s.Lost e := by
  have hrun : ((sharedQueueMachine (Fin 3) cQueueFuncs).replay (fun s a => s.calm cQueueFuncs a)
      (falls 0 .dequeueItem ++ enqueues 2 7 (some 0)) create).map (fun s => decide
        ((s.points 0).waits .added = true ∧ s.contents.map Numbered.item = [7] ∧ s.isSet .added = true)) =
          some true := by
    decide +kernel
  obtain ⟨s, hs, hall⟩ := Option.map_eq_some_iff.mp hrun
  obtain ⟨hwaits, hcontents, hset⟩ := of_decide_eq_true hall
  have hreach := Machine.replay_reach (fun _ _ hcalm => ⟨trivial, hcalm⟩) .start hs
  exact ⟨s, hreach, hwaits, hcontents, hset, (wakeups_kept cQueueFuncs).2 s hreach⟩

/-- Two threads wait, two items come before the event is reset, and one of the threads sleeps on beside the
second item. A thread waits until the queue is empty, and `Clear` does not wake it. -/
theorem wakeup_lost :
    (∃ s : SharedQueue (Fin 3) Nat, (sharedQueueMachine (Fin 3) cQueueFuncs).Reachable create s ∧
      (s.points 1).waits .added = true ∧ (∀ t, t ≠ 1 → (s.points t).isOutside = true) ∧
        s.isSet .added = false ∧ s.contents.map Numbered.item = [8]) ∧
      ∃ s : SharedQueue (Fin 3) Nat, (sharedQueueMachine (Fin 3) cQueueFuncs).Reachable create s ∧
        (s.points 1).waits .removed = true ∧ (∀ t, t ≠ 1 → (s.points t).isOutside = true) ∧
          s.isSet .removed = false ∧ s.contents.length = 0 := by
  constructor
  · have hrun : ((sharedQueueMachine (Fin 3) cQueueFuncs).replay (fun _ _ => true)
        (falls 0 .dequeueItem ++ falls 1 .dequeueItem ++ enqueues 2 7 (some 0) ++ enqueues 2 8 (some 1) ++
          [.go 0, .go 1, .go 0, .go 0, .go 0, .notify 0 none, .go 0]) create).map (fun s => decide
            ((s.points 1).waits .added = true ∧ (∀ t, t ≠ 1 → (s.points t).isOutside = true) ∧
              s.isSet .added = false ∧ s.contents.map Numbered.item = [8])) = some true := by
      decide +kernel
    obtain ⟨s, hs, hall⟩ := Option.map_eq_some_iff.mp hrun
    exact ⟨s, Machine.replay_reach (fun _ _ _ => ⟨trivial, trivial⟩) .start hs, of_decide_eq_true hall⟩
  · have hrun : ((sharedQueueMachine (Fin 3) cQueueFuncs).replay (fun _ _ => true)
        (enqueues 2 7 none ++ falls 1 .blockTillEmpty ++ [.call 2 .clear, .go 2, .go 2, .go 2]) create).map
          (fun s => decide
            ((s.points 1).waits .removed = true ∧ (∀ t, t ≠ 1 → (s.points t).isOutside = true) ∧
              s.isSet .removed = false ∧ s.contents.length = 0)) = some true := by
      decide +kernel
    obtain ⟨s, hs, hall⟩ := Option.map_eq_some_iff.mp hrun
    exact ⟨s, Machine.replay_reach (fun _ _ _ => ⟨trivial, trivial⟩) .start hs, of_decide_eq_true hall⟩

end Examples

end SharedQueue

end P2PChat

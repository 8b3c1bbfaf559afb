namespace P2PChat

/-- `cEvent`: the flag that its `m_Mutex` guards. -/
structure CEvent where
  shouldContinue : Bool
  deriving DecidableEq, Repr

namespace CEvent

def create : CEvent := ⟨false⟩

/-- `Set`, before the notification. -/
def set (e : CEvent) : CEvent := { e with shouldContinue := true }

/-- A look at the predicate in `Wait`: the wait is over and the flag is reset, or the thread sleeps. -/
def wait (e : CEvent) : Option CEvent :=
  if e.shouldContinue then some { e with shouldContinue := false } else none

variable {e e' : CEvent}

theorem wait_eq_some (h : e.wait = some e') : e.shouldContinue = true ∧ e'.shouldContinue = false := by
  unfold wait at h
  split at h
  next hset =>
    cases h
    exact ⟨hset, rfl⟩
  next => cases h

theorem wait_eq_none : e.wait = none ↔ e.shouldContinue = false := by
  unfold wait
  split
  next hset => exact ⟨nofun, fun h => absurd (hset.symm.trans h) nofun⟩
  next hunset => exact ⟨fun _ => Bool.eq_false_iff.mpr hunset, fun _ => rfl⟩

theorem wait_of_set (h : e.shouldContinue = true) : e.wait = some { e with shouldContinue := false } :=
  if_pos h

end CEvent

end P2PChat

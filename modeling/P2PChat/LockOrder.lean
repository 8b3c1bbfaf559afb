import P2PChat.ServerLocks

namespace P2PChat

/-- The order in which the threads take the locks of the server. -/
def Lock.rank : Lock → Nat
  | .csClients => 0
  | .bufferEvent _ => 1
  | .csPacket _ => 2
  | _ => 3

/-- A thread that holds these locks keeps to the order when it takes this one; the network thread does
not when a callback of a bufferevent comes to the broadcast. -/
def MayLock (t : Thread) (held : List Lock) (l : Lock) : Prop :=
  (l ∈ held ∨ (∀ k ∈ held, k.rank < l.rank) ∨
    (t = .network ∧ l = .csClients ∧ ∀ k ∈ held, ∃ p, k = .bufferEvent p)) ∧
  ∀ p, l = .bufferEvent p → t = .network

/-- From these locks on, the operations keep to the order, and all locks are given back. Only the tick
thread sends. -/
def Safe (t : Thread) : List Lock → List LockOp → Prop
  | held, [] => held = []
  | held, .lock l :: ops => MayLock t held l ∧ Safe t (l :: held) ops
  | held, .unlock l :: ops => Safe t (held.erase l) ops
  | held, .setLink _ _ :: ops => Safe t held ops
  | held, .send _ :: ops => (t = .tick ∧ ∀ k ∈ held, k.rank < 1) ∧ Safe t held ops
  | _, .write _ :: _ => False

/-- A piece that leaves the locks as they were. -/
def SafePart (t : Thread) (held : List Lock) (part : List LockOp) : Prop :=
  ∀ ops, Safe t held ops → Safe t held (part ++ ops)

variable {t : Thread} {held : List Lock} {l : Lock} {part part' : List LockOp} {p : Nat}

theorem Safe.no_write {ops : List LockOp} (h : Safe t held ops) : ops.head? ≠ some (.write p) := by
  cases ops with
  | nil => simp
  | cons op ops => cases op with
    | write q => exact h.elim
    | _ => simp

theorem MayLock.first (hp : ∀ p, l = .bufferEvent p → t = .network) : MayLock t [] l :=
  ⟨Or.inr (Or.inl (by simp)), hp⟩

theorem MayLock.above (h : ∀ k ∈ held, k.rank < l.rank) (hp : ∀ p, l = .bufferEvent p → t = .network) :
    MayLock t held l :=
  ⟨Or.inr (Or.inl h), hp⟩

theorem MayLock.again (h : l ∈ held) (hp : ∀ p, l = .bufferEvent p → t = .network) :
    MayLock t held l :=
  ⟨Or.inl h, hp⟩

namespace SafePart

theorem nil : SafePart t held [] := fun _ h => h

theorem append (h : SafePart t held part) (h' : SafePart t held part') :
    SafePart t held (part ++ part') := by
  intro ops hops
  rw [List.append_assoc]
  exact h _ (h' ops hops)

theorem flatMap {α : Type} {f : α → List LockOp} {xs : List α}
    (h : ∀ x ∈ xs, SafePart t held (f x)) : SafePart t held (xs.flatMap f) := by
  induction xs with
  | nil => exact nil
  | cons x xs ih =>
    rw [List.flatMap_cons]
    exact (h x List.mem_cons_self).append (ih fun y hy => h y (List.mem_cons_of_mem x hy))

theorem block (hl : MayLock t held l) (h : SafePart t (l :: held) part) :
    SafePart t held (within l part) := by
  intro ops hops
  have hrest : Safe t (l :: held) (part ++ .unlock l :: ops) := by
    apply h
    simpa [Safe] using hops
  simpa [within, Safe, hl] using hrest

theorem setLink {link : Bool} : SafePart t held [.setLink p link] := fun _ h => h

theorem send (h : ∀ k ∈ held, k.rank < 1) : SafePart .tick held [.send p] := fun _ hops => ⟨⟨rfl, h⟩, hops⟩

/-- The locks of the highest rank are taken last. -/
theorem leaf (hl : l.rank = 3) (h : ∀ k ∈ held, k.rank < 3) (hpart : SafePart t (l :: held) part) :
    SafePart t held (within l part) := by
  refine block (.above (by rwa [hl]) ?_) hpart
  rintro p rfl
  cases hl

theorem packet {hasSentDC : Bool} (h : ∀ k ∈ held, k.rank < 2) :
    SafePart t held (packetizer p hasSentDC) := by
  refine block (.above h (by simp)) ?_
  split
  · exact nil
  · refine leaf rfl (fun k hk => ?_) nil
    obtain rfl | hk := List.mem_cons.mp hk
    · exact Nat.lt_add_one 2
    · exact (h k hk).trans (by decide)

theorem packets {list : List (Nat × Bool)} (h : ∀ k ∈ held, k.rank < 2) :
    SafePart t held (packetizers list) :=
  flatMap fun _ _ => packet h

theorem destructor {disconnect : Option Bool} (h : ∀ k ∈ held, k.rank < 2) :
    SafePart t held (destructorLocks p disconnect) :=
  flatMap fun _ _ => packet h

/-- A look through the clients that sends packets. -/
theorem clients (hl : MayLock t held .csClients) (h : ∀ k ∈ held, k.rank < 2)
    (hpart : (∀ k ∈ Lock.csClients :: held, k.rank < 2) → SafePart t (.csClients :: held) part) :
    SafePart t held (within .csClients part) :=
  block hl (hpart (List.forall_mem_cons.mpr ⟨by decide, h⟩))

end SafePart

open SafePart

theorem handlePacket_safe {handled : Handled} :
    SafePart .tick [.csClients] (handlePacketLocks p handled) := by
  cases handled with
  | quiet => exact nil
  | packet hasSentDC => exact packet (by simp [Lock.rank])
  | login => exact leaf rfl (by simp [Lock.rank]) nil
  | forward client =>
    exact clients (.again (by simp) (by simp)) (by simp [Lock.rank]) fun h => SafePart.packets h

theorem serverTick_safe {course : TickCourse} :
    SafePart .tick [.csClients] (serverTickLocks p course) := by
  have hpacket : ∀ {hasSentDC}, SafePart .tick [.csClients] (packetizer p hasSentDC) :=
    packet (by simp [Lock.rank])
  have hswap : ∀ {l : Lock}, l.rank = 3 → SafePart .tick [.csClients] (within l []) :=
    fun hl => leaf hl (by simp [Lock.rank]) nil
  refine append (append (append (append (hswap rfl) (flatMap fun _ _ => handlePacket_safe)) (hswap rfl)) ?_)
    (append (flatMap fun _ _ => hpacket) (flatMap fun _ _ => hpacket))
  split
  · exact send (by simp [Lock.rank])
  · exact nil

theorem tickClients_safe {ticks : List (Nat × TickCourse)} {removed : List (Nat × Option Bool)} :
    SafePart .tick [] (tickClientsLocks ticks removed) :=
  append (block (.first (by simp)) (flatMap fun _ _ => serverTick_safe))
    (flatMap fun _ _ => destructor (by simp))

theorem broadcastUserInfo_safe {packets : List (Nat × Bool)} (hl : MayLock t held .csClients)
    (h : ∀ k ∈ held, k.rank < 2) : SafePart t held (broadcastUserInfoLocks packets) :=
  clients hl h fun h => SafePart.packets h

theorem eventCallback_safe {broadcast : Option (List (Nat × Bool))} {disconnect : Option Bool} :
    SafePart .network [] (eventCallbackLocks p broadcast disconnect) := by
  refine block (.first (by simp)) ?_
  have hlow : ∀ k ∈ [Lock.bufferEvent p], k.rank < 2 := by simp [Lock.rank]
  have hreset : SafePart .network [.bufferEvent p] (within (.csOutgoingData p) [.setLink p false]) :=
    leaf rfl (by simp [Lock.rank]) setLink
  have hdestroy : SafePart .network [.bufferEvent p] (destroyLocks p broadcast) := by
    refine append (append hreset (leaf rfl (by simp [Lock.rank]) nil)) (flatMap fun _ _ => ?_)
    exact broadcastUserInfo_safe ⟨Or.inr (Or.inr ⟨rfl, rfl, by simp⟩), by simp⟩ hlow
  have hfree : SafePart .network [.bufferEvent p] (within (.bufferEvent p) []) :=
    block (.again (by simp) (by simp)) nil
  exact append (append (append hreset hdestroy) hfree) (destructor hlow)

theorem readCallback_safe {chunks : Nat} : SafePart .network [] (readCallbackLocks p chunks) := by
  refine block (.first (by simp)) ?_
  have hread : SafePart .network [.bufferEvent p] (within (.bufferEvent p) []) :=
    block (.again (by simp) (by simp)) nil
  exact append (flatMap fun _ _ => append hread (leaf rfl (by simp [Lock.rank]) nil)) hread

theorem authenticate_safe {course : AuthenticateCourse} :
    SafePart .authenticator [.csClients] (authenticateLocks p course) := by
  have hlook : ∀ {part}, ((∀ k ∈ [Lock.csClients, .csClients], k.rank < 2) →
      SafePart .authenticator [.csClients, .csClients] part) →
        SafePart .authenticator [.csClients] (within .csClients part) :=
    fun h => clients (.again (by simp) (by simp)) (by simp [Lock.rank]) h
  have hpacket : ∀ {hasSentDC}, SafePart .authenticator [.csClients] (packetizer p hasSentDC) :=
    packet (by simp [Lock.rank])
  cases course with
  | notAuthenticating => exact nil
  | multiLogin kick => exact append (hlook fun _ => nil) (flatMap fun _ _ => hpacket)
  | success hasSentDC broadcast =>
    exact append (append (hlook fun _ => nil) hpacket) (hlook fun h => SafePart.packets h)

theorem takeUser_safe {waits : Nat} : SafePart .authenticator [] (takeUserLocks waits) := by
  refine block (.first (by simp)) (flatMap fun _ _ => ?_)
  intro ops hops
  have hfirst : MayLock .authenticator [] .authenticatorCS := .first (by simp)
  simpa [Safe, hfirst] using hops

/-- Every call of every thread keeps to the order, but for the broadcast under a bufferevent's lock. -/
theorem ops_safe (c : LockCall) : Safe c.thread [] c.ops := by
  have hpart : SafePart c.thread [] c.ops := by
    cases c with
    | tickClients ticks removed => exact tickClients_safe
    | accept p =>
      refine append (append (append ?_ setLink) ?_) ?_
      · exact block (.first (by simp)) nil
      · exact block (.first (by simp [LockCall.thread])) nil
      · exact block (.first (by simp [LockCall.thread])) nil
    | readCallback p chunks => exact readCallback_safe
    | writeCallback p =>
      exact block (.first (by simp [LockCall.thread])) (block (.again (by simp) (by simp [LockCall.thread])) nil)
    | eventCallback p broadcast disconnect => exact eventCallback_safe
    | authenticateUser waits client =>
      exact append takeUser_safe (block (.first (by simp)) (flatMap fun _ _ => authenticate_safe))
    | kickUser waits kicked =>
      exact append takeUser_safe (clients (.first (by simp)) (by simp) fun h => SafePart.packets h)
  simpa using hpart [] rfl

end P2PChat

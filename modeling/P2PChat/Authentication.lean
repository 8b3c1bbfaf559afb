import P2PChat.ServerRuns

namespace P2PChat

open ByteQueue Relation

namespace ClientHandle

variable [Platform]

/-- A `LoginInfo` packet of this connection carried this name and this password. -/
def Asked {β : Type} (c : ClientHandle β) (username password : AString) : Prop :=
  ∃ bytes, .handled 2 0x00 bytes ∈ c.log ∧ (parseLoginInfo bytes).1 = some (username, password)

/-- The connection counts as logged in, by one of its members or another. -/
def Entered {β : Type} (c : ClientHandle β) : Prop :=
  c.state = .csAuthenticated ∨ c.state = .csWorking ∨ c.protocol.state = 3 ∨ c.username ≠ []

/-- The login that was asked for was accepted, if the connection counts as logged in. -/
def Authentic {β : Type} (c : ClientHandle β) : Prop :=
  c.Entered → ∃ password, c.Asked c.username password ∧
    authFromDBPoll c.username password = errorCodeAuthOk

theorem Asked.mono {β γ : Type} {c : ClientHandle β} {c' : ClientHandle γ}
    {username password : AString} (h : c.Asked username password) (hlog : c.log ⊆ c'.log) :
    c'.Asked username password := by
  obtain ⟨bytes, hmem, hparse⟩ := h
  exact ⟨bytes, hlog hmem, hparse⟩

omit [Platform] in
theorem queue_history {β : Type} (p : Packet) (c : ClientHandle β) : c.log ⊆ (c.queue p).log := by
  rw [queue_log]
  split
  next => exact List.Subset.refl _
  next => exact List.subset_append_left _ _

omit [Platform] in
theorem queueAll_history {β : Type} (packets : List Packet) (c : ClientHandle β) :
    c.log ⊆ (c.queueAll packets).log := by
  rw [queueAll_log]
  split
  next => exact List.Subset.refl _
  next => exact List.subset_append_left _ _

omit [Platform] in
theorem record_history {β : Type} (entry : Entry) (c : ClientHandle β) :
    c.log ⊆ (c.record entry).log := List.subset_append_left _ _

omit [Platform] in
theorem disconnect_history {β : Type} (reason : Int32) (c : ClientHandle β) :
    c.log ⊆ (c.disconnect reason).log := by
  unfold disconnect
  split
  next => exact List.Subset.refl _
  next =>
    split
    next => exact queue_history _ c
    next =>
      split
      next => exact queue_history _ c
      next => exact List.Subset.refl _

omit [Platform] in
/-- Own changes keep the name and the history, and log nobody in. -/
theorem Change.history {c c' : ClientHandle Fifo} (h : Change c c') :
    c'.username = c.username ∧ c.log ⊆ c'.log ∧
      (c'.state = .csAuthenticated ∨ c'.state = .csWorking →
        c.state = .csAuthenticated ∨ c.state = .csWorking) := by
  cases h with
  | quiet h =>
    rw [h.username, h.log, h.state]
    exact ⟨rfl, List.Subset.refl _, id⟩
  | handled packetType bytes _ => exact ⟨rfl, record_history _ c, id⟩
  | status state _ _ _ =>
    exact ⟨queue_username _ _, queue_history _ (c.setProtocolState state), by rw [queue_state]; exact id⟩
  | pong timestamp _ => exact ⟨queue_username _ _, queue_history _ c, by rw [queue_state]; exact id⟩
  | lost _ _ _ _ => exact ⟨rfl, List.Subset.refl _, id⟩
  | disconnect reason =>
    refine ⟨by rw [disconnect_eq], disconnect_history reason c, ?_⟩
    rw [disconnect_eq]
    exact id
  | flush => exact ⟨rfl, List.Subset.refl _, id⟩
  | working h => exact ⟨rfl, List.Subset.refl _, fun _ => Or.inl h⟩
  | keepAlive id now _ =>
    unfold keepAliveSent
    split
    next => exact ⟨rfl, record_history _ c, fun h => h⟩
    next =>
      exact ⟨queue_username _ _, fun entry hmem => queue_history _ _ (record_history _ c hmem),
        by rw [queue_state]; exact fun h => h⟩

theorem Authentic.mono {c c' : ClientHandle Fifo} (h : c.Authentic)
    (hname : c'.username = c.username) (hlog : c.log ⊆ c'.log)
    (hstate : c'.state = .csAuthenticated ∨ c'.state = .csWorking →
      c.state = .csAuthenticated ∨ c.state = .csWorking)
    (hproto : c'.protocol.state = 3 → c.protocol.state = 3) : c'.Authentic := by
  intro hentered
  have hentered' : c.Entered := by
    rcases hentered with hin | hin | hin | hin
    · exact (hstate (Or.inl hin)).elim Or.inl (fun h => Or.inr (Or.inl h))
    · exact (hstate (Or.inr hin)).elim Or.inl (fun h => Or.inr (Or.inl h))
    · exact Or.inr (Or.inr (Or.inl (hproto hin)))
    · rw [hname] at hin
      exact Or.inr (Or.inr (Or.inr hin))
  obtain ⟨password, hasked, hauth⟩ := h hentered'
  rw [hname]
  exact ⟨password, hasked.mono hlog, hauth⟩

theorem Change.authentic {c c' : ClientHandle Fifo} (h : c.Authentic) (hc : Change c c') :
    c'.Authentic := by
  obtain ⟨hname, hlog, hstate⟩ := hc.history
  exact h.mono hname hlog hstate (Server.Change.framed hc).2.2.mp

theorem Authentic.queueAll {c : ClientHandle Fifo} (h : c.Authentic) (packets : List Packet) :
    (c.queueAll packets).Authentic := by
  have heq := queueAll_eq packets c
  refine h.mono (by rw [heq]) (queueAll_history packets c) ?_ ?_
  · rw [heq]
    exact id
  · rw [heq]
    exact id

end ClientHandle

namespace Server

variable [Platform]

/-- The IDs are handed out in order, requests belong to the connections that asked, and logins to
requests that were accepted. -/
structure Authentic (s : Server Fifo) : Prop where
  count : s.clientCount = s.allocated
  bounded : s.allocated < 2 ^ 31
  ids : ∀ p < s.allocated, (s.heap p).uniqueID = UInt32.ofNat (p + 1)
  asked : ∀ user, user ∈ s.queue ∨ s.inFlight = some user →
    ∃ p < s.allocated, (s.heap p).uniqueID = user.clientID ∧
      (s.heap p).Asked user.username user.password
  logins : ∀ p, (s.heap p).Authentic

theorem Authentic.id_inj {s : Server Fifo} (h : s.Authentic) {p q : Nat} (hp : p < s.allocated)
    (hq : q < s.allocated) (hid : (s.heap p).uniqueID = (s.heap q).uniqueID) : p = q := by
  have hb := h.bounded
  rw [h.ids p hp, h.ids q hq] at hid
  have hnat := congrArg UInt32.toNat hid
  rw [UInt32.toNat_ofNat', UInt32.toNat_ofNat'] at hnat
  omega

/-- Effects that take no connection in, and that keep the IDs and the histories, keep the requests
with the connections that asked. -/
theorem Authentic.keep {s s' : Server Fifo} (h : s.Authentic) (hcount : s'.clientCount = s.clientCount)
    (hallocated : s'.allocated = s.allocated)
    (hid : ∀ q, (s'.heap q).uniqueID = (s.heap q).uniqueID)
    (hlog : ∀ q, (s.heap q).log ⊆ (s'.heap q).log)
    (hqueue : ∀ user, user ∈ s'.queue ∨ s'.inFlight = some user →
      (user ∈ s.queue ∨ s.inFlight = some user) ∨ ∃ p < s.allocated,
        (s.heap p).uniqueID = user.clientID ∧ (s.heap p).Asked user.username user.password)
    (hlogins : ∀ p, (s'.heap p).Authentic) : s'.Authentic where
  count := by rw [hcount, hallocated, h.count]
  bounded := by rw [hallocated]; exact h.bounded
  ids p hp := by rw [hid]; exact h.ids p (hallocated ▸ hp)
  asked user huser := by
    obtain ⟨p, hp, hpid, hasked⟩ : ∃ p < s.allocated, (s.heap p).uniqueID = user.clientID ∧
        (s.heap p).Asked user.username user.password :=
      (hqueue user huser).elim (h.asked user) id
    exact ⟨p, hallocated ▸ hp, (hid p).trans hpid, hasked.mono (hlog p)⟩
  logins := hlogins

/-- The same for an effect on one connection. -/
theorem Authentic.store {s : Server Fifo} (h : s.Authentic) {p : Nat} {c : ClientHandle Fifo}
    (hid : c.uniqueID = (s.heap p).uniqueID) (hlog : (s.heap p).log ⊆ c.log) (hc : c.Authentic) :
    (s.store p c).Authentic := by
  refine h.keep rfl rfl (fun q => ?_) (fun q => ?_) (fun _ => Or.inl) (fun q => ?_)
  · rw [store_heap]
    split
    next heq => rw [heq, hid]
    next => rfl
  · rw [store_heap]
    split
    next heq => rw [heq]; exact hlog
    next => exact List.Subset.refl _
  · rw [store_heap]
    split
    next => exact hc
    next => exact h.logins q

theorem Authentic.tellAll {s : Server Fifo} (h : s.Authentic) (p : Nat) : (s.tellAll p).Authentic := by
  have htold := fun q => tellOver_queueAll p s.clients s q
  refine h.keep rfl rfl (fun q => ?_) (fun q => ?_) (fun _ => Or.inl) (fun q => ?_)
  · obtain ⟨told, heq, _⟩ := htold q
    rw [Server.tellAll, heq, ClientHandle.queueAll_eq]
  · obtain ⟨told, heq, _⟩ := htold q
    rw [Server.tellAll, heq]
    exact ClientHandle.queueAll_history told _
  · obtain ⟨told, heq, _⟩ := htold q
    rw [Server.tellAll, heq]
    exact (h.logins q).queueAll told

theorem Authentic.closed {s : Server Fifo} (h : s.Authentic) (p : Nat) : (s.closed p).Authentic := by
  have heq : s.closed p = s.store p ((s.heap p).unlink.setState .csDestroyed) := by
    refine heap_ext (fun q => ?_) rfl
    rw [Server.closed, modify_heap, modify_heap, modify_heap, if_pos rfl, store_heap]
    split <;> rfl
  rw [heq]
  refine h.store rfl (List.Subset.refl _) ((h.logins p).mono rfl (List.Subset.refl _) ?_ id)
  rintro (hin | hin) <;> cases hin

theorem Authentic.accept {s : Server Fifo} (h : s.Authentic) (ip : AString)
    (hcount : s.clientCount ≠ 2 ^ 31 - 1) : (s.accept ip).Authentic where
  count := by
    have hc := h.count
    change s.clientCount + 1 = s.allocated + 1
    omega
  bounded := by
    have hc := h.count
    have hb := h.bounded
    change s.allocated + 1 < 2 ^ 31
    omega
  ids p hp := by
    have hp' : p < s.allocated + 1 := hp
    rw [accept_heap]
    split
    next heq => rw [heq, ← h.count]; rfl
    next hne => exact h.ids p (by omega)
  asked user huser := by
    obtain ⟨p, hp, hpid, hasked⟩ := h.asked user huser
    have hsame : (s.accept ip).heap p = s.heap p := by
      rw [accept_heap, if_neg (Nat.ne_of_lt hp)]
    exact ⟨p, Nat.lt_succ_of_lt hp, by rw [hsame, hpid], by rw [hsame]; exact hasked⟩
  logins p := by
    rw [accept_heap]
    split
    next =>
      intro hin
      rcases hin with hin | hin | hin | hin
      · cases hin
      · cases hin
      · exact absurd hin (by decide : (1 : UInt32) ≠ 3)
      · exact absurd rfl hin
    next => exact h.logins p

/-- An answered request logs in the connection that asked, under the name it gave. -/
theorem Authentic.admitted {s : Server Fifo} (h : s.Authentic) (hs : s.Sound) {p : Nat} {user : User}
    (hin : s.inFlight = some user)
    (hauth : authFromDBPoll user.username user.password = errorCodeAuthOk)
    (hfound : s.findClient user.clientID = some p) : (s.admitted p user.username).Authentic := by
  obtain ⟨hmem, hid⟩ := findClient_some hfound
  obtain ⟨q, hq, hqid, hasked⟩ := h.asked user (Or.inr hin)
  have heq : p = q := h.id_inj (hs.allocated p hmem) hq (hid.trans hqid.symm)
  subst heq
  have hlog : (s.heap p).log ⊆ (((s.heap p).setUsername user.username).loginSucceeded).log :=
    fun entry hentry => ClientHandle.queue_history _ _ (ClientHandle.record_history _ _ hentry)
  have hname : (((s.heap p).setUsername user.username).loginSucceeded).username = user.username := by
    rw [ClientHandle.loginSucceeded, ClientHandle.queue_eq]
    rfl
  refine h.store ?_ hlog fun _ => ⟨user.password, ?_, ?_⟩
  · rw [ClientHandle.loginSucceeded, ClientHandle.queue_eq]
    rfl
  · change ClientHandle.Asked _ (((s.heap p).setUsername user.username).loginSucceeded).username _
    rw [hname]
    exact hasked.mono hlog
  · change authFromDBPoll (((s.heap p).setUsername user.username).loginSucceeded).username _ = _
    rw [hname]
    exact hauth

theorem Effect.authentic {G : Gate} {who : Nat → Prop} {s s' : Server Fifo} (hs : s.Sound)
    (h : s.Authentic) (he : Effect G who s s') : s'.Authentic := by
  cases he with
  | @small _ p _ hp hsmall =>
    cases hsmall with
    | change hc =>
      exact h.store (Change.framed hc).1 hc.history.2.1 (hc.authentic (h.logins p))
    | @request bytes username password hlive hstate _ hmem hparse =>
      have hset : (s.modify p (ClientHandle.setState .csAuthenticating)).Authentic := by
        refine h.store rfl (List.Subset.refl _) ((h.logins p).mono rfl (List.Subset.refl _) ?_ id)
        rintro (hin | hin) <;> cases hin
      refine hset.keep rfl rfl (fun _ => rfl) (fun _ => List.Subset.refl _) (fun user huser => ?_)
        hset.logins
      rcases huser with hq | hin
      · rcases List.mem_append.mp hq with hold | hnew
        · exact Or.inl (Or.inl hold)
        · have hself : (s.modify p (ClientHandle.setState .csAuthenticating)).heap p =
              (s.heap p).setState .csAuthenticating := if_pos rfl
          rw [List.mem_singleton.mp hnew]
          refine Or.inr ⟨p, hp, by rw [hself]; rfl, ?_⟩
          rw [hself]
          exact ⟨bytes, hmem, hparse⟩
      · exact Or.inl (Or.inr hin)
    | @relayed q pkt _ _ _ _ =>
      exact h.store (ClientHandle.queue_uniqueID _ _) (ClientHandle.queue_history _ _)
        ((h.logins q).queueAll [pkt])
  | @accepted ip _ hcount => exact h.accept ip hcount
  | destroyed _ _ _ _ => exact (h.closed _).tellAll _
  | removed _ _ =>
    exact h.keep rfl rfl (fun _ => rfl) (fun _ => List.Subset.refl _) (fun _ => Or.inl) h.logins
  | taken _ =>
    refine h.keep rfl rfl (fun _ => rfl) (fun _ => List.Subset.refl _) (fun user huser => ?_) h.logins
    rcases huser with hq | hin
    · exact Or.inl (Or.inl (List.mem_of_mem_tail hq))
    · exact Or.inl (Or.inl (List.mem_of_mem_head? hin))
  | @login p user _ hin hauth hfound _ _ _ =>
    have hadmitted := h.admitted hs hin hauth hfound
    have hidle : (({ s with inFlight := none } : Server Fifo).admitted p user.username).Authentic :=
      hadmitted.keep rfl rfl (fun _ => rfl) (fun _ => List.Subset.refl _)
        (fun user huser => Or.inl (huser.elim Or.inl fun h => nomatch h)) hadmitted.logins
    have htold := hidle.tellAll p
    refine htold.store rfl (List.Subset.refl _) ?_
    exact (htold.logins p).mono rfl (List.Subset.refl _) id id
  | answered =>
    exact h.keep rfl rfl (fun _ => rfl) (fun _ => List.Subset.refl _)
      (fun user huser => Or.inl (huser.elim Or.inl fun h => nomatch h)) h.logins
  | clock elapsed =>
    exact h.keep rfl rfl (fun _ => rfl) (fun _ => List.Subset.refl _) (fun _ => Or.inl) h.logins

theorem initial_authentic : (initial : Server Fifo).Authentic where
  count := rfl
  bounded := by decide
  ids p hp := absurd hp (Nat.not_lt_zero p)
  asked user h := h.elim (fun h => nomatch h) (fun h => nomatch h)
  logins p := by
    intro hin
    rcases hin with hin | hin | hin | hin
    · cases hin
    · cases hin
    · exact absurd hin (by decide : (1 : UInt32) ≠ 3)
    · exact absurd rfl hin

theorem reachable_authentic {s : Server ByteBuffer}
    (h : (serverMachine ByteBuffer).Reachable initial s) :
    (s.map ByteBuffer.contents).Sound ∧ (s.map ByteBuffer.contents).Authentic := by
  have hcontents := reachable_contents h
  rw [initial_contents] at hcontents
  exact reach_invariant (I := fun s => s.Authentic) initial_sound initial_authentic
    (fun _ _ _ hs hi he => he.authentic hs hi) hcontents

/-- In every state of every run, whatever counts as logged in asked for it with an accepted password,
and the answer to a request changes no other connection than the one that asked. -/
theorem logins_authentic {s : Server ByteBuffer}
    (h : (serverMachine ByteBuffer).Reachable initial s) :
    (∀ p, (s.heap p).Authentic) ∧
      ∀ user s', s.inFlight = some user → s.step .authenticatorAnswer = .ok s' →
        ∃ p < s.allocated, (s.heap p).uniqueID = user.clientID ∧
          (s.heap p).Asked user.username user.password ∧
          ∀ q < s.allocated, q ≠ p → (s'.heap q).username = (s.heap q).username ∧
            (s'.heap q).state = (s.heap q).state ∧
            (s'.heap q).protocol.state = (s.heap q).protocol.state ∧
            (s'.heap q).hasSentDC = (s.heap q).hasSentDC := by
  obtain ⟨hs, hi⟩ := reachable_authentic h
  refine ⟨hi.logins, fun user s' hin hstep => ?_⟩
  obtain ⟨p, hp, hpid, hasked⟩ := hi.asked user (Or.inr hin)
  refine ⟨p, hp, hpid, hasked, fun q hq hne => ?_⟩
  have hen : s.enabled .authenticatorAnswer = true := by
    rw [enabled, hin]
    rfl
  have hstepped := step_contents hs hen (gated_open s _)
  rw [hstep] at hstepped
  have hnot : ¬(s.map ByteBuffer.contents).concerns .authenticatorAnswer q := by
    rintro ⟨user', hin', hid⟩
    have heq : user' = user := Option.some.inj (hin'.symm.trans hin)
    rw [heq] at hid
    exact hne (hi.id_inj hq hp (hid.trans hpid.symm))
  obtain ⟨_, told, htold, _⟩ := effects_others hstepped.2.2 hnot hq
  rw [ClientHandle.queueAll_eq] at htold
  refine ⟨?_, ?_, ?_, ?_⟩
  · exact congrArg (fun c : ClientHandle Fifo => c.username) htold
  · exact congrArg (fun c : ClientHandle Fifo => c.state) htold
  · exact congrArg (fun c : ClientHandle Fifo => c.protocol.state) htold
  · exact congrArg (fun c : ClientHandle Fifo => c.hasSentDC) htold

omit [Platform] in
/-- A connection that has just been logged in. -/
theorem login_authentic :
    letI := zeroPlatform
    ∃ s : Server ByteBuffer, (s.heap 0).username = [97] ∧ (s.heap 0).Authentic := by
  let : Platform := zeroPlatform
  have hrun : ((serverMachine ByteBuffer).replay enabled
      (.connectionAccepted [] :: (greets 0 ++ asksLogin 0 [97] ++ isAnswered))
      initial).map (fun s => (s.heap 0).username) = some [97] := by
    decide +kernel
  obtain ⟨s, hs, hname⟩ := Option.map_eq_some_iff.mp hrun
  exact ⟨s, hname, (logins_authentic (replay_reachable hs)).1 0⟩

end Server

end P2PChat

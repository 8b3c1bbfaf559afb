import P2PChat.ServerRuns

namespace P2PChat

open ByteQueue Relation

namespace ClientHandle

/-- `m_State` of the protocol and of the connection are in step. -/
structure Agrees {β : Type} (c : ClientHandle β) : Prop where
  range : c.protocol.state = 1 ∨ c.protocol.state = 2 ∨ c.protocol.state = 3
  status : c.protocol.state = 1 → c.state = .csConnected
  login : c.protocol.state = 2 → c.state = .csConnected ∨ c.state = .csAuthenticating
  working : c.protocol.state = 3 ↔ c.state = .csAuthenticated ∨ c.state = .csWorking

end ClientHandle

/-- The call found the `m_State` that it is written for. -/
def Entry.Expected : Entry → Prop
  | .handled state _ _ => state = 1 ∨ state = 2 ∨ state = 3
  | .loginSuccess state => state = 2
  | .keepAlive state => state = 3
  | .queued _ _ => True

namespace ClientHandle

structure InStep {β : Type} (c : ClientHandle β) : Prop where
  agrees : c.state ≠ .csDestroyed → c.Agrees
  expected : ∀ entry ∈ c.log, entry.Expected

theorem create_inStep {β : Type} [ByteQueue β] (ip : AString) (id : UInt32) (now : Int) :
    (create ip id now : ClientHandle β).InStep where
  agrees _ := ⟨Or.inl rfl, fun _ => rfl, fun h => absurd h (by decide : (1 : UInt32) ≠ 2),
    ⟨fun h => absurd h (by decide : (1 : UInt32) ≠ 3), fun h => by rcases h with h | h <;> cases h⟩⟩
  expected _ h := nomatch h

/-- The same two states, and a log with expected calls. -/
theorem InStep.of_same {c c' : ClientHandle Fifo} (h : c.InStep)
    (hp : c'.protocol.state = c.protocol.state) (hs : c'.state = c.state)
    (hlog : ∀ entry ∈ c'.log, entry ∈ c.log ∨ entry.Expected) : c'.InStep where
  agrees hnot := by
    rw [hs] at hnot
    have ha := h.agrees hnot
    exact ⟨by rw [hp]; exact ha.range, by rw [hp, hs]; exact ha.status, by rw [hp, hs]; exact ha.login,
      by rw [hp, hs]; exact ha.working⟩
  expected entry hmem := (hlog entry hmem).elim (h.expected entry) id

theorem queue_mem {β : Type} {c : ClientHandle β} {p : Packet} {entry : Entry}
    (h : entry ∈ (c.queue p).log) : entry ∈ c.log ∨ entry = .queued c.protocol.state p := by
  rw [queue_log] at h
  split at h
  next => exact Or.inl h
  next => simpa using h

theorem InStep.queue {c : ClientHandle Fifo} (h : c.InStep) (p : Packet) : (c.queue p).InStep := by
  refine h.of_same (by rw [queue_protocol]) (queue_state p c) fun entry hmem => ?_
  rcases queue_mem hmem with hold | rfl
  · exact Or.inl hold
  · exact Or.inr trivial

theorem InStep.queueAll {c : ClientHandle Fifo} (h : c.InStep) (packets : List Packet) :
    (c.queueAll packets).InStep := by
  induction packets generalizing c with
  | nil => exact h
  | cons p packets ih => exact ih (h.queue p)

theorem InStep.record {c : ClientHandle Fifo} (h : c.InStep) {entry : Entry} (he : entry.Expected) :
    (c.record entry).InStep := by
  refine h.of_same rfl rfl fun e hmem => ?_
  rcases List.mem_append.mp hmem with hold | hnew
  · exact Or.inl hold
  · rw [List.mem_singleton.mp hnew]
    exact Or.inr he

theorem InStep.live {c : ClientHandle Fifo} (h : c.InStep) (hlive : c.state.toNat < 4) : c.Agrees := by
  refine h.agrees fun hdead => ?_
  rw [hdead] at hlive
  exact absurd hlive (by decide)

theorem InStep.disconnect {c : ClientHandle Fifo} (h : c.InStep) (reason : Int32) :
    (c.disconnect reason).InStep := by
  refine h.of_same (by rw [disconnect_eq]) (by rw [disconnect_eq]) fun entry hmem => ?_
  unfold ClientHandle.disconnect at hmem
  split at hmem
  next => exact Or.inl hmem
  next =>
    split at hmem
    next =>
      rcases queue_mem hmem with hold | rfl
      · exact Or.inl hold
      · exact Or.inr trivial
    next =>
      split at hmem
      next =>
        rcases queue_mem hmem with hold | rfl
        · exact Or.inl hold
        · exact Or.inr trivial
      next => exact Or.inl hmem

theorem Change.inStep {c c' : ClientHandle Fifo} (h : c.InStep) (hc : Change c c') : c'.InStep := by
  cases hc with
  | quiet hsame =>
    exact h.of_same hsame.protocolState hsame.state fun entry hmem => by
      rw [hsame.log] at hmem
      exact Or.inl hmem
  | handled packetType bytes hlive => exact h.record (h.live hlive).range
  | status state hlive hone hstate =>
    have hconnected := (h.live hlive).status hone
    refine InStep.queue (c := c.setProtocolState state)
      ⟨fun _ => ⟨?_, fun _ => hconnected, fun _ => Or.inl hconnected, ?_⟩, h.expected⟩ _
    · exact hstate.elim Or.inl (fun h2 => Or.inr (Or.inl h2))
    · constructor
      · intro h3
        have h3' : state = 3 := h3
        rcases hstate with rfl | rfl <;> exact absurd h3' (by decide)
      · intro hin
        have hin' : c.state = .csAuthenticated ∨ c.state = .csWorking := hin
        rw [hconnected] at hin'
        rcases hin' with h | h <;> cases h
  | pong timestamp _ => exact h.queue _
  | lost hlive h1 h2 h3 =>
    rcases (h.live hlive).range with h' | h' | h'
    · exact absurd h' h1
    · exact absurd h' h2
    · exact absurd h' h3
  | disconnect reason => exact h.disconnect reason
  | flush => exact h.of_same rfl rfl fun _ hmem => Or.inl hmem
  | working hstate =>
    have hnot : c.state ≠ .csDestroyed := by rw [hstate]; nofun
    have ha := h.agrees hnot
    have h3 : c.protocol.state = 3 := ha.working.mpr (Or.inl hstate)
    refine ⟨fun _ => ⟨ha.range, fun h1 => ?_, fun h2 => ?_, fun _ => Or.inr rfl, fun _ => h3⟩,
      h.expected⟩
    · exact absurd (h3.symm.trans h1) (by decide)
    · exact absurd (h3.symm.trans h2) (by decide)
  | keepAlive id now hstate =>
    have hnot : c.state ≠ .csDestroyed := by rw [hstate]; nofun
    have h3 : c.protocol.state = 3 := (h.agrees hnot).working.mpr (Or.inr hstate)
    have hc : ({ c with pingID := id, pingStartTime := now } : ClientHandle Fifo).InStep :=
      h.of_same rfl rfl fun _ hmem => Or.inl hmem
    unfold keepAliveSent
    split
    next hne => exact absurd h3 hne
    next =>
      have hentry : (Entry.keepAlive c.protocol.state).Expected := h3
      exact (hc.record hentry).queue _

/-- A login finds the protocol in its second state, and takes it to the third. -/
theorem InStep.admitted {c : ClientHandle Fifo} (h : c.InStep) (hstate : c.state = .csAuthenticating)
    (name : AString) : (((c.setUsername name).loginSucceeded).setState .csAuthenticated).InStep := by
  have hnot : c.state ≠ .csDestroyed := by rw [hstate]; nofun
  have ha := h.agrees hnot
  have h2 : c.protocol.state = 2 := by
    rcases ha.range with h' | h' | h'
    · exact absurd (hstate.symm.trans (ha.status h')) nofun
    · exact h'
    · rcases ha.working.mp h' with hs | hs <;> exact absurd (hstate.symm.trans hs) nofun
  have hname : (c.setUsername name).InStep := h.of_same rfl rfl fun _ hmem => Or.inl hmem
  have hentry : (Entry.loginSuccess (c.setUsername name).protocol.state).Expected := h2
  have hrecord := (hname.record hentry).queue ⟨0x01, []⟩
  refine ⟨fun _ => ⟨Or.inr (Or.inr rfl), fun h1 => ?_, fun h1 => ?_, fun _ => Or.inl rfl, fun _ => rfl⟩,
    hrecord.expected⟩
  · exact absurd h1 (by decide : (3 : UInt32) ≠ 1)
  · exact absurd h1 (by decide : (3 : UInt32) ≠ 2)

end ClientHandle

namespace Server

theorem tellOver_inStep {s : Server Fifo} (h : ∀ q, (s.heap q).InStep) (p : Nat) (l : List Nat)
    (q : Nat) : ((s.tellOver p l).heap q).InStep := by
  obtain ⟨told, htold, _⟩ := tellOver_queueAll p l s q
  rw [htold]
  exact (h q).queueAll told

theorem store_inStep {s : Server Fifo} (h : ∀ q, (s.heap q).InStep) {p : Nat} {c : ClientHandle Fifo}
    (hc : c.InStep) (q : Nat) : ((s.store p c).heap q).InStep := by
  rw [store_heap]
  split
  next => exact hc
  next => exact h q

variable [Platform]

theorem Effect.inStep {G : Gate} {who : Nat → Prop} {s s' : Server Fifo} (h : ∀ q, (s.heap q).InStep)
    (he : Effect G who s s') : ∀ q, (s'.heap q).InStep := by
  cases he with
  | @small _ p _ _ hsmall =>
    cases hsmall with
    | change hc => exact store_inStep h (hc.inStep (h p))
    | @request bytes username password hlive hstate _ _ _ =>
      refine store_inStep h ⟨fun _ => ⟨Or.inr (Or.inl hstate), fun h1 => ?_, fun _ => Or.inr rfl, ?_⟩,
        (h p).expected⟩
      · exact absurd (hstate.symm.trans h1) (by decide)
      · exact ⟨fun h3 => absurd (hstate.symm.trans h3) (by decide),
          fun hin => by rcases hin with hin | hin <;> cases hin⟩
    | relayed _ _ _ _ => exact store_inStep h ((h _).queue _)
  | @accepted ip _ _ =>
    have hnew := ClientHandle.create_inStep (β := Fifo) ip (UInt32.ofNat (s.clientCount + 1)) s.now
    have hlinked : (ClientHandle.create ip (UInt32.ofNat (s.clientCount + 1)) s.now :
        ClientHandle Fifo).onLinkCreated.InStep := hnew.of_same rfl rfl fun _ hmem => Or.inl hmem
    exact store_inStep h hlinked
  | @destroyed p _ _ _ _ =>
    refine tellOver_inStep (fun q => ?_) p _
    have hclosed : (((s.heap p).unlink).setState .csDestroyed).InStep :=
      ⟨fun hnot => absurd rfl hnot, (h p).expected⟩
    rw [closed, modify_heap, modify_heap, modify_heap, if_pos rfl]
    split
    next => exact hclosed
    next => exact h q
  | removed _ _ => exact h
  | taken _ => exact h
  | @login p user _ _ _ _ hstate _ _ =>
    have hadmitted : ∀ q, ((({ s with inFlight := none } : Server Fifo).admitted p
        user.username).heap q).InStep :=
      store_inStep h ((h p).admitted hstate user.username)
    have htold := tellOver_inStep hadmitted p s.clients
    exact store_inStep htold ((htold p).of_same rfl rfl fun _ hmem => Or.inl hmem)
  | answered => exact h
  | clock elapsed => exact h

/-- In every state of every run, the two states of a connection that is not destroyed are in step,
and `HandlePacket`, `SendLoginSuccess` and `SendKeepAlive` have found the states they expect. -/
theorem states_agree {s : Server ByteBuffer} (h : (serverMachine ByteBuffer).Reachable initial s)
    (p : Nat) : ((s.heap p).state ≠ .csDestroyed → (s.heap p).Agrees) ∧
      ∀ entry ∈ (s.heap p).log, entry.Expected := by
  have hcontents := reachable_contents h
  rw [initial_contents] at hcontents
  have hinv := (reach_invariant (I := fun s => ∀ q, (s.heap q).InStep) initial_sound
    (fun _ => ClientHandle.create_inStep _ _ _) (fun _ _ _ _ hi he => he.inStep hi) hcontents).2 p
  refine ⟨fun hnot => ?_, hinv.expected⟩
  have ha := hinv.agrees hnot
  exact ⟨ha.range, ha.status, ha.login, ha.working⟩

omit [Platform] in
/-- A connection that was logged in and has had its first tick since. -/
theorem working_agrees :
    letI := zeroPlatform
    ∃ s : Server ByteBuffer, (s.heap 0).protocol.state = 3 ∧ (s.heap 0).state = .csWorking ∧
      (s.heap 0).Agrees := by
  let : Platform := zeroPlatform
  have hrun : ((serverMachine ByteBuffer).replay enabled
      (.connectionAccepted [] :: (greets 0 ++ asksLogin 0 [97] ++ isAnswered ++ [.tickClient 0]))
      initial).map (fun s => ((s.heap 0).protocol.state, (s.heap 0).state)) =
      some (3, .csWorking) := by
    decide +kernel
  obtain ⟨s, hs, hstates⟩ := Option.map_eq_some_iff.mp hrun
  obtain ⟨hthree, hworking⟩ := Prod.mk.inj hstates
  exact ⟨s, hthree, hworking, (states_agree (replay_reachable hs) 0).1 (by rw [hworking]; nofun)⟩

end Server

end P2PChat

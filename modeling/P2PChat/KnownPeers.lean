import P2PChat.StateAgreement
import P2PChat.PeerConnectionClient

namespace P2PChat

open ByteQueue Relation

/-- The fields of a `UserInfo` packet. -/
def Packet.userInfo? (p : Packet) : Option (UInt32 × AString × UInt32) :=
  match p.type == 0x01, p.fields with
  | true, [.varInt32 uid, .string name, .varInt32 state] => some (uid, name, state)
  | _, _ => none

/-- What the client's list becomes by a packet that was queued for it. -/
def Packet.list (p : Packet) (peers : Peers) : Peers :=
  match p.userInfo? with
  | some info => peers.userInfo info.1 info.2.1 info.2.2
  | none => peers

/-- The list starts with nobody at the login. -/
def Entry.list (peers : Peers) : Entry → Peers
  | .loginSuccess _ => fun _ => none
  | .queued _ packet => packet.list peers
  | .handled _ _ _ => peers
  | .keepAlive _ => peers

namespace ClientHandle

/-- The list that the packets queued since the login make up. -/
def knownPeers {β : Type} (c : ClientHandle β) : Peers := c.log.foldl Entry.list fun _ => none

/-- Logged in, without those who are still being authenticated or are destroyed. -/
def Present {β : Type} (c : ClientHandle β) : Prop := c.state = .csAuthenticated ∨ c.state = .csWorking

instance {β : Type} (c : ClientHandle β) : Decidable c.Present :=
  inferInstanceAs (Decidable (c.state = .csAuthenticated ∨ c.state = .csWorking))

end ClientHandle

theorem list_other {p : Packet} (h : p.userInfo? = none) (peers : Peers) : p.list peers = peers := by
  rw [Packet.list, h]

theorem userInfo?_of_type {p : Packet} (h : p.type ≠ 0x01) : p.userInfo? = none := by
  unfold Packet.userInfo?
  split
  next htype _ => exact absurd (beq_iff_eq.mp htype) h
  next => rfl

namespace ClientHandle

variable {β : Type}

theorem userInfo_list (c : ClientHandle β) (peers : Peers) :
    c.userInfo.list peers =
      peers.userInfo c.uniqueID c.username (UInt32.ofNat c.state.toNat) := rfl

theorem userInfo_present {c : ClientHandle β} (h : c.Present) (peers : Peers) :
    c.userInfo.list peers = Function.update peers c.uniqueID (some c.username) := by
  rw [userInfo_list, Peers.userInfo, if_neg]
  rcases h with h | h <;> rw [h] <;> decide

theorem userInfo_destroyed {c : ClientHandle β} (h : c.state = .csDestroyed) (peers : Peers) :
    c.userInfo.list peers = Function.update peers c.uniqueID none := by
  rw [userInfo_list, Peers.userInfo, if_pos]
  rw [h]
  decide

theorem knownPeers_record (entry : Entry) (c : ClientHandle β) :
    (c.record entry).knownPeers = Entry.list c.knownPeers entry := List.foldl_append

theorem knownPeers_queue (p : Packet) (c : ClientHandle β) :
    (c.queue p).knownPeers = if c.hasSentDC then c.knownPeers else p.list c.knownPeers := by
  rw [knownPeers, queue_log]
  split
  next => rfl
  next => exact List.foldl_append

theorem knownPeers_queue_other {p : Packet} (h : p.userInfo? = none) (c : ClientHandle β) :
    (c.queue p).knownPeers = c.knownPeers := by
  rw [knownPeers_queue, list_other h, ite_self]

theorem knownPeers_queueAll {c : ClientHandle β} (h : c.hasSentDC = false) (packets : List Packet) :
    (c.queueAll packets).knownPeers = packets.foldl (fun peers p => p.list peers) c.knownPeers := by
  induction packets generalizing c with
  | nil => rfl
  | cons p packets ih =>
    rw [queueAll_cons, ih (by rw [queue_hasSentDC]; exact h), knownPeers_queue, h, if_neg (by decide)]
    rfl

theorem knownPeers_disconnect (reason : Int32) (c : ClientHandle β) :
    (c.disconnect reason).knownPeers = c.knownPeers := by
  have hlogin : (⟨0x00, [.beInt32 reason]⟩ : Packet).userInfo? = none := rfl
  have hwork : (⟨0x40, [.beUInt32 reason.toUInt32]⟩ : Packet).userInfo? = none := rfl
  unfold disconnect
  split
  next => rfl
  next =>
    split
    next => exact knownPeers_queue_other hlogin c
    next =>
      split
      next => exact knownPeers_queue_other hwork c
      next => rfl

/-- Own changes leave the list, and who is in. -/
theorem Change.knownPeers {c c' : ClientHandle Fifo} (h : Change c c') :
    c'.knownPeers = c.knownPeers ∧ (c'.Present ↔ c.Present) ∧ (c'.hasSentDC = false → c.hasSentDC = false) := by
  cases h with
  | quiet h =>
    refine ⟨?_, ?_, ?_⟩
    · rw [ClientHandle.knownPeers, h.log]
      rfl
    · rw [Present, h.state]
      exact Iff.rfl
    · rw [h.hasSentDC]
      exact id
  | handled packetType bytes _ => exact ⟨knownPeers_record _ c, Iff.rfl, id⟩
  | status state _ _ _ =>
    have hother : (⟨0x00, [.beInt32 state.toInt32, .string c.ipString]⟩ : Packet).userInfo? = none := rfl
    refine ⟨knownPeers_queue_other hother (c.setProtocolState state), ?_, ?_⟩
    · rw [Present, queue_state]
      exact Iff.rfl
    · rw [queue_hasSentDC]
      exact id
  | pong timestamp _ =>
    have hother : (⟨0x01, [.beInt64 timestamp]⟩ : Packet).userInfo? = none := rfl
    refine ⟨knownPeers_queue_other hother c, ?_, ?_⟩
    · rw [Present, queue_state]
      exact Iff.rfl
    · rw [queue_hasSentDC]
      exact id
  | lost _ _ _ _ => exact ⟨rfl, Iff.rfl, id⟩
  | disconnect reason =>
    refine ⟨knownPeers_disconnect reason c, ?_, fun hdc => ?_⟩
    · rw [Present, disconnect_eq]
      exact Iff.rfl
    · rw [disconnect_eq] at hdc
      cases hdc
  | flush => exact ⟨rfl, Iff.rfl, id⟩
  | working h => exact ⟨rfl, ⟨fun _ => Or.inl h, fun _ => Or.inr rfl⟩, id⟩
  | keepAlive id now _ =>
    have hother : (⟨0x00, [.varInt32 id]⟩ : Packet).userInfo? = none := rfl
    unfold keepAliveSent
    split
    next => exact ⟨knownPeers_record _ c, Iff.rfl, fun h => h⟩
    next =>
      refine ⟨(knownPeers_queue_other hother _).trans (knownPeers_record _ c), ?_, ?_⟩
      · rw [Present, queue_state]
        exact Iff.rfl
      · rw [queue_hasSentDC]
        exact fun h => h

/-- A login starts the list anew. -/
theorem knownPeers_admitted (name : AString) (c : ClientHandle β) :
    (((c.setUsername name).loginSucceeded).setState .csAuthenticated).knownPeers = fun _ => none := by
  have hother : (⟨0x01, []⟩ : Packet).userInfo? = none := rfl
  exact (knownPeers_queue_other hother _).trans (knownPeers_record _ (c.setUsername name))

end ClientHandle

namespace Server

/-- Connections that are in or destroyed are told of one after another: those that are in are on the
list then, under their names. -/
theorem foldl_userInfo {β : Type} {s : Server β} {l : List Nat} (hnodup : l.Nodup)
    (hids : ∀ r ∈ l, ∀ q ∈ l, (s.heap r).uniqueID = (s.heap q).uniqueID → r = q)
    (hstates : ∀ r ∈ l, (s.heap r).Present ∨ (s.heap r).state = .csDestroyed) (peers : Peers)
    (id : UInt32) (name : AString) :
    (l.map fun r => (s.heap r).userInfo).foldl (fun peers p => p.list peers) peers id = some name ↔
      (∃ r ∈ l, (s.heap r).Present ∧ (s.heap r).uniqueID = id ∧ (s.heap r).username = name) ∨
        ((∀ r ∈ l, (s.heap r).uniqueID ≠ id) ∧ peers id = some name) := by
  induction l generalizing peers with
  | nil => simp
  | cons r l ih =>
    obtain ⟨hr, hl⟩ := List.nodup_cons.mp hnodup
    have hids' := fun q hq t ht => hids q (List.mem_cons_of_mem r hq) t (List.mem_cons_of_mem r ht)
    have hstates' := fun q hq => hstates q (List.mem_cons_of_mem r hq)
    have hself : ∀ q ∈ l, (s.heap q).uniqueID ≠ (s.heap r).uniqueID := by
      intro q hq heq
      have hqr := hids q (List.mem_cons_of_mem r hq) r List.mem_cons_self heq
      exact hr (hqr ▸ hq)
    rw [List.map_cons, List.foldl_cons, ih hl hids' hstates']
    rcases hstates r List.mem_cons_self with hpresent | hdead
    · rw [ClientHandle.userInfo_present hpresent]
      by_cases hid : (s.heap r).uniqueID = id
      · subst hid
        rw [Function.update_self]
        constructor
        · rintro (⟨q, hq, hin, heq, hname⟩ | ⟨_, hname⟩)
          · exact absurd heq (hself q hq)
          · exact Or.inl ⟨r, List.mem_cons_self, hpresent, rfl, Option.some.inj hname⟩
        · rintro (⟨q, hq, hin, heq, hname⟩ | ⟨hnone, _⟩)
          · rcases List.mem_cons.mp hq with rfl | hq
            · exact Or.inr ⟨hself, congrArg some hname⟩
            · exact absurd heq (hself q hq)
          · exact absurd rfl (hnone r List.mem_cons_self)
      · rw [Function.update_of_ne (Ne.symm hid)]
        simp only [List.mem_cons, exists_eq_or_imp, forall_eq_or_imp, hid, false_and, and_false,
          false_or, ne_eq, not_false_eq_true, true_and]
    · have hnot : ¬(s.heap r).Present := by
        rintro (h | h) <;> rw [hdead] at h <;> cases h
      rw [ClientHandle.userInfo_destroyed hdead]
      by_cases hid : (s.heap r).uniqueID = id
      · subst hid
        rw [Function.update_self]
        constructor
        · rintro (⟨q, hq, hin, heq, hname⟩ | ⟨_, hname⟩)
          · exact absurd heq (hself q hq)
          · cases hname
        · rintro (⟨q, hq, hin, heq, hname⟩ | ⟨hnone, _⟩)
          · rcases List.mem_cons.mp hq with rfl | hq
            · exact absurd hin hnot
            · exact absurd heq (hself q hq)
          · exact absurd rfl (hnone r List.mem_cons_self)
      · rw [Function.update_of_ne (Ne.symm hid)]
        simp only [List.mem_cons, exists_eq_or_imp, forall_eq_or_imp, hid, false_and, and_false,
          false_or, ne_eq, not_false_eq_true, true_and]

end Server

end P2PChat

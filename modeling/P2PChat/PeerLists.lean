import P2PChat.Authentication
import P2PChat.KnownPeers

namespace P2PChat

open ByteQueue Relation

/-- Nobody is logged in, to stay connected, beside somebody who has not logged in yet. -/
def Gate.together : Gate where
  allows _ _ _ _ := true
  working _ _ _ := rfl
  beside hasSentDC state :=
    hasSentDC || state == .csAuthenticated || state == .csWorking || state == .csDestroyed

theorem Gate.together_iff {hasSentDC : Bool} {c : ClientHandle Fifo} :
    Gate.together.beside hasSentDC c.state = true ↔
      hasSentDC = true ∨ c.Present ∨ c.state = .csDestroyed := by
  simp only [Gate.together, Bool.or_eq_true, beq_iff_eq, ClientHandle.Present]
  tauto

namespace Server

/-- The list of `p` is that of the other connections that are in. -/
def Listed {β : Type} (s : Server β) (p : Nat) : Prop :=
  ∀ id name, (s.heap p).knownPeers id = some name ↔
    ∃ q < s.allocated, q ≠ p ∧ (s.heap q).Present ∧ (s.heap q).uniqueID = id ∧ (s.heap q).username = name

/-- Whoever is not destroyed is in `m_Clients`. -/
def Registered {β : Type} (s : Server β) : Prop :=
  ∀ p < s.allocated, (s.heap p).state ≠ .csDestroyed → p ∈ s.clients

/-- Whoever is in, and gets what is sent, has the list of the others. -/
def PeerLists {β : Type} (s : Server β) : Prop :=
  ∀ p < s.allocated, (s.heap p).Present → (s.heap p).hasSentDC = false → s.Listed p

theorem Listed.congr {β γ : Type} {s : Server β} {s' : Server γ} {p : Nat} (h : s.Listed p)
    (hallocated : s'.allocated = s.allocated)
    (hpresent : ∀ q, (s'.heap q).Present ↔ (s.heap q).Present)
    (hid : ∀ q, (s'.heap q).uniqueID = (s.heap q).uniqueID)
    (hname : ∀ q, (s'.heap q).username = (s.heap q).username)
    (hlist : (s'.heap p).knownPeers = (s.heap p).knownPeers) : s'.Listed p := by
  intro id name
  rw [hlist, h id name, hallocated]
  simp only [hpresent, hid, hname]

theorem present_destroyed {c : ClientHandle Fifo} (h : c.state = .csDestroyed) : ¬c.Present := by
  rintro (hin | hin) <;> rw [h] at hin <;> cases hin

theorem present_live {c : ClientHandle Fifo} (h : c.Present) : c.state ≠ .csDestroyed := by
  intro hdead
  exact present_destroyed hdead h

variable [Platform]

theorem Effect.registered {G : Gate} {who : Nat → Prop} {s s' : Server Fifo} (hs : s.Sound)
    (h : s.Registered) (he : Effect G who s s') : s'.Registered := by
  have hs' := he.sound hs
  cases he with
  | @small _ p _ _ hsmall =>
    have hframed := hsmall.framed
    intro q hq hlive
    rw [hframed.clients]
    rw [hframed.allocated] at hq
    refine h q hq fun hdead => ?_
    rcases eq_or_ne q p with rfl | hne
    · have hnot := hframed.live.mp (live_of_not (hs'.connections q) (by
        rw [ClientHandle.isDestroyed, beq_iff_eq]
        exact hlive))
      rw [hdead] at hnot
      exact absurd hnot (by decide)
    · obtain ⟨told, htold⟩ := hframed.others q hne
      rw [htold, ClientHandle.queueAll_eq] at hlive
      exact hlive hdead
  | @accepted ip _ _ =>
    intro q hq hlive
    have hq' : q < s.allocated + 1 := hq
    rw [accept_heap] at hlive
    change q ∈ s.clients ++ [s.allocated]
    split at hlive
    next heq =>
      rw [heq]
      exact List.mem_append_right _ List.mem_cons_self
    next hne => exact List.mem_append_left _ (h q (by omega) hlive)
  | @destroyed p _ _ _ _ =>
    intro q hq hlive
    rw [(tellAll_same p q _).1, closed_heap] at hlive
    split at hlive
    next => exact absurd rfl hlive
    next => exact h q hq hlive
  | @removed p hdead _ =>
    intro q hq hlive
    have hmem := h q hq hlive
    have hne : q ≠ p := by
      intro heq
      rw [heq] at hlive
      exact hlive (beq_iff_eq.mp hdead)
    exact (List.mem_erase_of_ne hne).mpr hmem
  | taken _ => exact h
  | @login p user _ _ _ hfound _ _ _ =>
    intro q hq hlive
    rcases eq_or_ne q p with rfl | hne
    · exact (findClient_some hfound).1
    · rw [modify_heap, if_neg hne, (tellAll_same p q _).1, admitted, store_heap, if_neg hne] at hlive
      exact h q hq hlive
  | answered => exact h
  | clock elapsed => exact h

theorem small_peerLists {G : Gate} {p : Nat} {s s' : Server Fifo} (hin : ∀ q, (s.heap q).InStep)
    (h : s.PeerLists) (hsmall : Small G p s s') : s'.PeerLists := by
  cases hsmall with
  | @change c hc =>
    obtain ⟨hlist, hpresent, hdc⟩ := hc.knownPeers
    obtain ⟨hid, _, _⟩ := Change.framed hc
    have hname := hc.history.1
    have hheap : ∀ q, (s.store p c).heap q = if q = p then c else s.heap q := fun _ => rfl
    intro q hq hpq hdcq
    have hq' : (s.heap q).Present ∧ (s.heap q).hasSentDC = false ∧
        ((s.store p c).heap q).knownPeers = (s.heap q).knownPeers := by
      rw [hheap] at hpq hdcq ⊢
      split at hpq
      next heq =>
        rw [if_pos heq] at hdcq ⊢
        rw [heq]
        exact ⟨hpresent.mp hpq, hdc hdcq, hlist⟩
      next hne =>
        rw [if_neg hne] at hdcq ⊢
        exact ⟨hpq, hdcq, rfl⟩
    refine (h q hq hq'.1 hq'.2.1).congr rfl (fun r => ?_) (fun r => ?_) (fun r => ?_) hq'.2.2
    · rw [hheap]
      split
      next heq => rw [heq]; exact hpresent
      next => exact Iff.rfl
    · rw [hheap]
      split
      next heq => rw [heq]; exact hid
      next => rfl
    · rw [hheap]
      split
      next heq => rw [heq]; exact hname
      next => rfl
  | @request bytes username password hlive hstate _ _ _ =>
    have hnot : ¬(s.heap p).Present := by
      intro hpresent
      have h3 := ((hin p).live hlive).working.mpr hpresent
      rw [hstate] at h3
      exact absurd h3 (by decide)
    have hnew : ¬((s.heap p).setState .csAuthenticating).Present := by
      rintro (h | h) <;> cases h
    have hheap : ∀ q, (s.handleLogin p username password).heap q =
        if q = p then (s.heap p).setState .csAuthenticating else s.heap q := fun _ => rfl
    intro q hq hpq hdcq
    have hne : q ≠ p := by
      intro heq
      rw [hheap, if_pos heq] at hpq
      exact hnew hpq
    rw [hheap, if_neg hne] at hpq hdcq
    refine (h q hq hpq hdcq).congr rfl (fun r => ?_) (fun r => ?_) (fun r => ?_) ?_
    · rw [hheap]
      split
      next heq => rw [heq]; exact ⟨fun h => absurd h hnew, fun h => absurd h hnot⟩
      next => exact Iff.rfl
    · rw [hheap]
      split
      next heq => rw [heq]; rfl
      next => rfl
    · rw [hheap]
      split
      next heq => rw [heq]; rfl
      next => rfl
    · rw [hheap, if_neg hne]
  | @relayed r pkt _ hshape _ _ =>
    have hother : pkt.userInfo? = none := by
      rcases hshape with ⟨id, type, rfl⟩ | ⟨id, msg, rfl⟩
      · exact userInfo?_of_type (by decide : (0x11 : UInt32) ≠ 0x01)
      · exact userInfo?_of_type (by decide : (0x12 : UInt32) ≠ 0x01)
    have hsame : ∀ q, ((s.tell r pkt).heap q).state = (s.heap q).state ∧
        ((s.tell r pkt).heap q).uniqueID = (s.heap q).uniqueID ∧
        ((s.tell r pkt).heap q).username = (s.heap q).username ∧
        ((s.tell r pkt).heap q).hasSentDC = (s.heap q).hasSentDC ∧
        ((s.tell r pkt).heap q).knownPeers = (s.heap q).knownPeers := by
      intro q
      rcases eq_or_ne q r with rfl | hne
      · rw [tell_self, ClientHandle.queue_state, ClientHandle.queue_uniqueID,
          ClientHandle.queue_username, ClientHandle.queue_hasSentDC,
          ClientHandle.knownPeers_queue_other hother]
        exact ⟨rfl, rfl, rfl, rfl, rfl⟩
      · rw [tell_other hne]
        exact ⟨rfl, rfl, rfl, rfl, rfl⟩
    have hpresent : ∀ q, ((s.tell r pkt).heap q).Present ↔ (s.heap q).Present := by
      intro q
      rw [ClientHandle.Present, (hsame q).1]
      exact Iff.rfl
    intro q hq hpq hdcq
    rw [(hsame q).2.2.2.1] at hdcq
    exact (h q hq ((hpresent q).mp hpq) hdcq).congr rfl hpresent (fun r => (hsame r).2.1)
      (fun r => (hsame r).2.2.1) (hsame q).2.2.2.2

omit [Platform] in
/-- Whoever is closed is taken off the lists of all who get what is sent. -/
theorem destroyed_peerLists {s : Server Fifo} (hids : ∀ q < s.allocated, ∀ r < s.allocated,
      (s.heap q).uniqueID = (s.heap r).uniqueID → q = r)
    (hregistered : s.Registered) (h : s.PeerLists) {p : Nat} (hp : p < s.allocated) :
    ((s.closed p).tellAll p).PeerLists := by
  have hself : (s.closed p).heap p = ((s.heap p).unlink).setState .csDestroyed := by
    rw [closed_heap, if_pos rfl]
  have hsame : ∀ q, q ≠ p → (s.closed p).heap q = s.heap q := by
    intro q hne
    rw [closed_heap, if_neg hne]
  have hgone : ¬(((s.closed p).tellAll p).heap p).Present := by
    refine present_destroyed ?_
    rw [(tellAll_same p p _).1, hself]
    rfl
  have hpresent : ∀ q, q ≠ p → ((((s.closed p).tellAll p).heap q).Present ↔ (s.heap q).Present) := by
    intro q hne
    rw [ClientHandle.Present, (tellAll_same p q _).1, hsame q hne]
    exact Iff.rfl
  have hid : ∀ q, (((s.closed p).tellAll p).heap q).uniqueID = (s.heap q).uniqueID := by
    intro q
    rw [(tellAll_same p q _).2.1, closed_heap]
    split
    next heq => rw [heq]; rfl
    next => rfl
  intro q hq hpq hdcq
  have hne : q ≠ p := by
    intro heq
    rw [heq] at hpq
    exact hgone hpq
  have hpq' := (hpresent q hne).mp hpq
  have hmem := hregistered q hq (present_live hpq')
  have hdiff : (s.heap q).uniqueID ≠ (s.heap p).uniqueID := fun heq => hne (hids q hq p hp heq)
  rw [(tellAll_same p q _).2.2.2, hsame q hne] at hdcq
  have hlist : (((s.closed p).tellAll p).heap q).knownPeers =
      Function.update (s.heap q).knownPeers (s.heap p).uniqueID none := by
    have htold : q ∈ (s.closed p).clients ∧
        ((s.closed p).heap q).uniqueID ≠ ((s.closed p).heap p).uniqueID := by
      rw [hsame q hne, hself]
      exact ⟨hmem, hdiff⟩
    have hdead : (((s.heap p).unlink).setState .csDestroyed).state = .csDestroyed := rfl
    rw [tellAll, tellOver_other hne, if_pos htold, hsame q hne, hself, ClientHandle.knownPeers_queue,
      hdcq, if_neg (by decide), ClientHandle.userInfo_destroyed hdead]
    rfl
  intro id name
  rw [hlist]
  by_cases heq : id = (s.heap p).uniqueID
  · subst heq
    rw [Function.update_self]
    constructor
    · intro hno
      cases hno
    · rintro ⟨r, hr, _, hpr, hidr, _⟩
      rw [hid] at hidr
      rw [hids r hr p hp hidr] at hpr
      exact absurd hpr hgone
  · rw [Function.update_of_ne heq, h q hq hpq' hdcq id name]
    have hrest : ∀ r, (s.heap r).uniqueID = id → r ≠ p := by
      intro r hidr hrp
      rw [hrp] at hidr
      exact heq hidr.symm
    constructor
    · rintro ⟨r, hr, hrq, hpr, hidr, hname⟩
      have hrp := hrest r hidr
      refine ⟨r, hr, hrq, (hpresent r hrp).mpr hpr, (hid r).trans hidr, ?_⟩
      rw [(tellAll_same p r _).2.2.1, hsame r hrp, hname]
    · rintro ⟨r, hr, hrq, hpr, hidr, hname⟩
      rw [hid] at hidr
      have hrp := hrest r hidr
      rw [(tellAll_same p r _).2.2.1, hsame r hrp] at hname
      exact ⟨r, hr, hrq, (hpresent r hrp).mp hpr, hidr, hname⟩

section Logins

variable {s : Server Fifo} {p q : Nat} {name : AString}

omit [Platform] in
/-- What a login makes of the connection. -/
theorem admitted_own (p : Nat) (name : AString) (s : Server Fifo) :
    ((s.admitted p name).heap p).uniqueID = (s.heap p).uniqueID ∧
      ((s.admitted p name).heap p).username = name ∧ ((s.admitted p name).heap p).Present ∧
      ((s.admitted p name).heap p).hasSentDC = (s.heap p).hasSentDC ∧
      ((s.admitted p name).heap p).isLoggedIn = true ∧
      ((s.admitted p name).heap p).knownPeers = fun _ => none := by
  have hself : (s.admitted p name).heap p =
      (((s.heap p).setUsername name).loginSucceeded).setState .csAuthenticated := if_pos rfl
  rw [hself]
  refine ⟨?_, ?_, Or.inl rfl, ?_, rfl, ClientHandle.knownPeers_admitted _ _⟩
  · rw [ClientHandle.loginSucceeded, ClientHandle.queue_eq]
    rfl
  · rw [ClientHandle.loginSucceeded, ClientHandle.queue_eq]
    rfl
  · rw [ClientHandle.loginSucceeded, ClientHandle.queue_eq]
    rfl

omit [Platform] in
theorem admitted_uniqueID (p : Nat) (name : AString) (q : Nat) :
    ((s.admitted p name).heap q).uniqueID = (s.heap q).uniqueID := by
  rcases eq_or_ne q p with rfl | hne
  · exact (admitted_own q name s).1
  · rw [admitted_other hne]

variable (hids : ∀ q < s.allocated, ∀ r < s.allocated, (s.heap q).uniqueID = (s.heap r).uniqueID → q = r)
  (hregistered : s.Registered)

include hids hregistered

omit [Platform] in
/-- Whoever is logged in is told of the others, one after another. -/
theorem login_ownList (hs : s.Sound) (hp : p < s.allocated)
    (hbeside : ∀ q ∈ s.clients, (s.heap q).uniqueID ≠ (s.heap p).uniqueID →
      Gate.together.beside (s.heap p).hasSentDC (s.heap q).state = true)
    (hdc : (s.heap p).hasSentDC = false) (id : UInt32) (name' : AString) :
    (((s.admitted p name).tellAll p).heap p).knownPeers id = some name' ↔
      ∃ r < s.allocated, r ≠ p ∧ ((s.admitted p name).heap r).Present ∧ (s.heap r).uniqueID = id ∧
        ((s.admitted p name).heap r).username = name' := by
  obtain ⟨_, _, _, hdcp, hin, hstart⟩ := admitted_own p name s
  rw [tellAll, tellOver_self, if_pos hin, ClientHandle.knownPeers_queueAll (hdcp.trans hdc), hstart]
  have hothers : ∀ r ∈ (s.admitted p name).clients.filter (fun r =>
        ((s.admitted p name).heap r).uniqueID ≠ ((s.admitted p name).heap p).uniqueID),
      r ∈ s.clients ∧ r ≠ p ∧ (s.heap r).uniqueID ≠ (s.heap p).uniqueID := by
    intro r hr
    obtain ⟨hmem, hdiff⟩ := List.mem_filter.mp hr
    have hdiff' := of_decide_eq_true hdiff
    rw [admitted_uniqueID, admitted_uniqueID] at hdiff'
    exact ⟨hmem, fun heq => hdiff' (by rw [heq]), hdiff'⟩
  have hnodup : ((s.admitted p name).clients.filter fun r =>
      decide (((s.admitted p name).heap r).uniqueID ≠ ((s.admitted p name).heap p).uniqueID)).Nodup :=
    hs.nodup.filter _
  have hfold := foldl_userInfo hnodup
    (fun r hr t ht heq => by
      rw [admitted_uniqueID p name r, admitted_uniqueID p name t] at heq
      exact hids r (hs.allocated r (hothers r hr).1) t (hs.allocated t (hothers t ht).1) heq)
    (fun r hr => by
      obtain ⟨hmem, hrp, hdiff⟩ := hothers r hr
      rw [admitted_other hrp]
      rcases Gate.together_iff.mp (hbeside r hmem hdiff) with hdcp' | hfine
      · rw [hdc] at hdcp'
        cases hdcp'
      · exact hfine) (fun _ => none) id name'
  rw [hfold]
  constructor
  · rintro (⟨r, hr, hpr, hidr, hname⟩ | ⟨_, hno⟩)
    · obtain ⟨hmem, hrp, _⟩ := hothers r hr
      rw [admitted_uniqueID] at hidr
      exact ⟨r, hs.allocated r hmem, hrp, hpr, hidr, hname⟩
    · cases hno
  · rintro ⟨r, hr, hrp, hpr, hidr, hname⟩
    refine Or.inl ⟨r, List.mem_filter.mpr ⟨?_, decide_eq_true ?_⟩, hpr,
      (admitted_uniqueID p name r).trans hidr, hname⟩
    · rw [admitted_other hrp] at hpr
      exact hregistered r hr (present_live hpr)
    · rw [admitted_uniqueID, admitted_uniqueID]
      exact fun heq => hrp (hids r hr p hp heq)

omit [Platform] in
/-- Whoever has the list of the others is told of the one that is logged in. -/
theorem login_otherList (hp : p < s.allocated) (hq : q < s.allocated) (hne : q ≠ p) (hpq : (s.heap q).Present)
    (hdc : (s.heap q).hasSentDC = false) (hlisted : s.Listed q) (id : UInt32) (name' : AString) :
    (((s.admitted p name).tellAll p).heap q).knownPeers id = some name' ↔
      ∃ r < s.allocated, r ≠ q ∧ ((s.admitted p name).heap r).Present ∧ (s.heap r).uniqueID = id ∧
        ((s.admitted p name).heap r).username = name' := by
  obtain ⟨hidp, hnamep, hpresent, _, _, _⟩ := admitted_own p name s
  have hmem := hregistered q hq (present_live hpq)
  have hdiff : (s.heap q).uniqueID ≠ (s.heap p).uniqueID := fun heq => hne (hids q hq p hp heq)
  have htoldq : q ∈ (s.admitted p name).clients ∧
      ((s.admitted p name).heap q).uniqueID ≠ ((s.admitted p name).heap p).uniqueID := by
    rw [admitted_uniqueID, admitted_uniqueID]
    exact ⟨hmem, hdiff⟩
  have hlist : (((s.admitted p name).tellAll p).heap q).knownPeers =
      Function.update (s.heap q).knownPeers (s.heap p).uniqueID (some name) := by
    rw [tellAll, tellOver_other hne, if_pos htoldq, admitted_other hne, ClientHandle.knownPeers_queue, hdc,
      if_neg (by decide), ClientHandle.userInfo_present hpresent, hidp, hnamep]
  rw [hlist]
  by_cases heq : id = (s.heap p).uniqueID
  · subst heq
    rw [Function.update_self]
    constructor
    · intro hname
      exact ⟨p, hp, Ne.symm hne, hpresent, rfl, hnamep.trans (Option.some.inj hname)⟩
    · rintro ⟨r, hr, _, _, hidr, hname⟩
      rw [hids r hr p hp hidr, hnamep] at hname
      exact congrArg some hname
  · rw [Function.update_of_ne heq, hlisted id name']
    have hrest : ∀ r, (s.heap r).uniqueID = id → (s.admitted p name).heap r = s.heap r := by
      intro r hidr
      refine admitted_other (fun hrp => ?_) name s
      rw [hrp] at hidr
      exact heq hidr.symm
    constructor
    · rintro ⟨r, hr, hrq, hpr, hidr, hname⟩
      exact ⟨r, hr, hrq, by rw [hrest r hidr]; exact hpr, hidr, by rw [hrest r hidr]; exact hname⟩
    · rintro ⟨r, hr, hrq, hpr, hidr, hname⟩
      rw [hrest r hidr] at hpr hname
      exact ⟨r, hr, hrq, hpr, hidr, hname⟩

end Logins

omit [Platform] in
/-- Whoever is logged in, with nobody beside it who is not, gets the list of the others, and they get
its name. -/
theorem login_peerLists {s : Server Fifo} (hs : s.Sound) (hids : ∀ q < s.allocated, ∀ r < s.allocated,
      (s.heap q).uniqueID = (s.heap r).uniqueID → q = r)
    (hregistered : s.Registered) (h : s.PeerLists) {p : Nat} (hp : p < s.allocated)
    (hbeside : ∀ q ∈ s.clients, (s.heap q).uniqueID ≠ (s.heap p).uniqueID →
      Gate.together.beside (s.heap p).hasSentDC (s.heap q).state = true) (name : AString) :
    ((s.admitted p name).tellAll p).PeerLists := by
  have htold := fun q => tellAll_same p q (s.admitted p name)
  have hpresent : ∀ q, (((s.admitted p name).tellAll p).heap q).Present ↔
      ((s.admitted p name).heap q).Present := by
    intro q
    rw [ClientHandle.Present, (htold q).1]
    exact Iff.rfl
  intro q hq hpq hdcq
  rw [(htold q).2.2.2] at hdcq
  rw [hpresent] at hpq
  have hmembers : ∀ id name', (∃ r < s.allocated, r ≠ q ∧
        (((s.admitted p name).tellAll p).heap r).Present ∧
        (((s.admitted p name).tellAll p).heap r).uniqueID = id ∧
        (((s.admitted p name).tellAll p).heap r).username = name') ↔
      ∃ r < s.allocated, r ≠ q ∧ ((s.admitted p name).heap r).Present ∧
        (s.heap r).uniqueID = id ∧ ((s.admitted p name).heap r).username = name' := by
    intro id name'
    simp only [hpresent, (htold _).2.1, (htold _).2.2.1, admitted_uniqueID]
  intro id name'
  rw [show ((s.admitted p name).tellAll p).allocated = s.allocated from rfl, hmembers]
  rcases eq_or_ne q p with rfl | hne
  · rw [(admitted_own q name s).2.2.2.1] at hdcq
    exact login_ownList hids hregistered hs hp hbeside hdcq id name'
  · rw [admitted_other hne] at hpq hdcq
    exact login_otherList hids hregistered hp hq hne hpq hdcq (h q hq hpq hdcq) id name'

omit [Platform] in
theorem setPingStart_peerLists {s : Server Fifo} (h : s.PeerLists) (p : Nat) (time : Int) :
    (s.modify p (ClientHandle.setPingStart time)).PeerLists := by
  have hheap : ∀ q, (s.modify p (ClientHandle.setPingStart time)).heap q =
      if q = p then (s.heap q).setPingStart time else s.heap q := by
    intro q
    rw [modify_heap]
    split
    next heq => rw [heq]
    next => rfl
  intro q hq hpq hdcq
  have hq' : (s.heap q).Present ∧ (s.heap q).hasSentDC = false := by
    rw [hheap] at hpq hdcq
    split at hpq
    next heq =>
      rw [if_pos heq] at hdcq
      exact ⟨hpq, hdcq⟩
    next hne =>
      rw [if_neg hne] at hdcq
      exact ⟨hpq, hdcq⟩
  refine (h q hq hq'.1 hq'.2).congr rfl (fun r => ?_) (fun r => ?_) (fun r => ?_) ?_
  · rw [hheap]
    split <;> exact Iff.rfl
  · rw [hheap]
    split <;> rfl
  · rw [hheap]
    split <;> rfl
  · rw [hheap]
    split <;> rfl

/-- What the lists need, and the lists. -/
structure Directory (s : Server Fifo) : Prop where
  authentic : s.Authentic
  inStep : ∀ q, (s.heap q).InStep
  registered : s.Registered
  lists : s.PeerLists

theorem Effect.directory {who : Nat → Prop} {s s' : Server Fifo} (hs : s.Sound) (h : s.Directory)
    (he : Effect Gate.together who s s') : s'.Directory := by
  refine ⟨he.authentic hs h.authentic, he.inStep h.inStep, he.registered hs h.registered, ?_⟩
  have hids : ∀ q < s.allocated, ∀ r < s.allocated,
      (s.heap q).uniqueID = (s.heap r).uniqueID → q = r :=
    fun q hq r hr hid => h.authentic.id_inj hq hr hid
  cases he with
  | small _ _ hsmall => exact small_peerLists h.inStep h.lists hsmall
  | @accepted ip _ _ =>
    have hnew : ¬(ClientHandle.create ip (UInt32.ofNat (s.clientCount + 1)) s.now :
        ClientHandle Fifo).onLinkCreated.Present := by
      rintro (h | h) <;> cases h
    have hold : ∀ q, ((s.accept ip).heap q).Present → q ≠ s.allocated := by
      intro q hpq heq
      rw [accept_heap, if_pos heq] at hpq
      exact hnew hpq
    have hsame : ∀ q, q ≠ s.allocated → (s.accept ip).heap q = s.heap q := by
      intro q hne
      rw [accept_heap, if_neg hne]
    intro q hq hpq hdcq
    have hne := hold q hpq
    have hq' : q < s.allocated := by
      have hlt : q < s.allocated + 1 := hq
      omega
    rw [hsame q hne] at hpq hdcq
    intro id name
    rw [hsame q hne, h.lists q hq' hpq hdcq id name]
    constructor
    · rintro ⟨r, hr, hrest⟩
      refine ⟨r, Nat.lt_succ_of_lt hr, ?_⟩
      rw [hsame r (Nat.ne_of_lt hr)]
      exact hrest
    · rintro ⟨r, hr, hrq, hpr, hrest⟩
      have hrne := hold r hpr
      have hlt : r < s.allocated + 1 := hr
      rw [hsame r hrne] at hpr hrest
      exact ⟨r, by omega, hrq, hpr, hrest⟩
  | destroyed _ hp _ _ => exact destroyed_peerLists hids h.registered h.lists hp
  | removed _ _ => exact h.lists
  | taken _ => exact h.lists
  | @login p user _ _ _ hfound _ _ hgate =>
    have hp := hs.allocated p (findClient_some hfound).1
    have hadmitted := login_peerLists (s := { s with inFlight := none }) (answered_sound hs) hids
      h.registered h.lists hp (fun q hq hid => (hgate q hq hid).2) user.username
    exact setPingStart_peerLists hadmitted p _
  | answered => exact h.lists
  | clock elapsed => exact h.lists

theorem initial_directory : (initial : Server Fifo).Directory where
  authentic := initial_authentic
  inStep _ := ClientHandle.create_inStep _ _ _
  registered p hp := absurd hp (Nat.not_lt_zero p)
  lists p hp := absurd hp (Nat.not_lt_zero p)

/-- In a run where nobody is logged in beside somebody who is not, the list of everybody who is logged
in, and was not sent a disconnect, has exactly the others who are. -/
theorem lists_exact {s : Server ByteBuffer}
    (h : (serverMachine ByteBuffer).Reach (fun s e => s.gated Gate.together e) initial s) :
    s.PeerLists := by
  have hcontents := reach_contents h
  rw [initial_contents] at hcontents
  have hdirectory := (reach_invariant (I := Directory) initial_sound initial_directory
    (fun _ _ _ hs hi he => he.directory hs hi) hcontents).2
  intro p hp hpresent hdc
  exact hdirectory.lists p hp hpresent hdc

omit [Platform] in
/-- The second client connects when the first is logged in, and logs in too. -/
theorem lists_follow :
    letI := zeroPlatform
    ∃ s : Server ByteBuffer, ((s.heap 0).Present ∧ (s.heap 0).knownPeers 2 = some [98]) ∧ s.PeerLists := by
  let : Platform := zeroPlatform
  have hrun : ((serverMachine ByteBuffer).replay
      (fun s e => s.enabled e && decide (s.gated Gate.together e))
      (.connectionAccepted [] :: (greets 0 ++ asksLogin 0 [97] ++ isAnswered ++
        .connectionAccepted [] :: (greets 1 ++ asksLogin 1 [98] ++ isAnswered)))
      initial).map (fun s => decide ((s.heap 0).Present ∧ (s.heap 0).knownPeers 2 = some [98])) =
      some true := by
    decide +kernel
  obtain ⟨s, hs, hlist⟩ := Option.map_eq_some_iff.mp hrun
  exact ⟨s, of_decide_eq_true hlist, lists_exact (replay_gated hs)⟩

omit [Platform] in
/-- The second client has done nothing but connect when the first logs in: it is on the list, without
a name. -/
theorem lists_stranger :
    letI := zeroPlatform
    ∃ s : Server ByteBuffer, (serverMachine ByteBuffer).Reachable initial s ∧
      ((s.heap 0).Present ∧ (s.heap 0).hasSentDC = false ∧ (s.heap 0).knownPeers 2 = some []) ∧
      ∀ q < s.allocated, q ≠ 0 → ¬(s.heap q).Present := by
  let : Platform := zeroPlatform
  have hrun : ((serverMachine ByteBuffer).replay enabled
      (.connectionAccepted [] :: .connectionAccepted [] ::
        (greets 0 ++ asksLogin 0 [97] ++ isAnswered)) initial).map (fun s =>
      decide (((s.heap 0).Present ∧ (s.heap 0).hasSentDC = false ∧ (s.heap 0).knownPeers 2 = some []) ∧
        ∀ q < s.allocated, q ≠ 0 → ¬(s.heap q).Present)) = some true := by
    decide +kernel
  obtain ⟨s, hs, hall⟩ := Option.map_eq_some_iff.mp hrun
  obtain ⟨hfirst, hothers⟩ := of_decide_eq_true hall
  exact ⟨s, replay_reachable hs, hfirst, hothers⟩

end Server

end P2PChat

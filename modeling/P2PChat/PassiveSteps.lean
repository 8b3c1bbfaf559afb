import P2PChat.PacketEffects
import P2PChat.ServerRuns

namespace P2PChat

open ByteQueue Relation

namespace ClientHandle

/-- What holds between a connection before and after the server tells it of another, kicks it, logs it in
or closes it. -/
structure Passive (R : ClientHandle Fifo → ClientHandle Fifo → Prop) : Prop where
  refl : ∀ c, R c c
  trans : ∀ {c c' c'' : ClientHandle Fifo}, R c c' → R c' c'' → R c c''
  userInfo : ∀ about c : ClientHandle Fifo, about.Sound → R c (c.queue about.userInfo)
  disconnect : ∀ reason c, R c (c.disconnect reason)
  loginSucceeded : ∀ c, R c c.loginSucceeded
  same : ∀ (c : ClientHandle Fifo) username state link time, (link = true → c.link = true) →
    R c { c with username := username, state := state, link := link, pingStartTime := time }

/-- What holds between a connection before and after the handler of any packet. -/
structure Reactive (R : ClientHandle Fifo → ClientHandle Fifo → Prop) : Prop where
  refl : ∀ c, R c c
  trans : ∀ {c c' c'' : ClientHandle Fifo}, R c c' → R c' c'' → R c c''
  queue : ∀ p c, R c (c.queue p)
  disconnect : ∀ reason c, R c (c.disconnect reason)
  setProtocolState : ∀ state c, R c (c.setProtocolState state)
  setState : ∀ c, R c (c.setState .csAuthenticating)
  handleKeepAlive : ∀ id now c, R c (c.handleKeepAlive id now)

variable {R : ClientHandle Fifo → ClientHandle Fifo → Prop}

theorem Passive.queueAll (hR : Passive R) {told : List Packet}
    (htold : ∀ pkt ∈ told, ∃ about : ClientHandle Fifo, about.Sound ∧ pkt = about.userInfo)
    (c : ClientHandle Fifo) : R c (c.queueAll told) := by
  induction told generalizing c with
  | nil => exact hR.refl c
  | cons pkt told ih =>
    obtain ⟨about, habout, rfl⟩ := htold pkt List.mem_cons_self
    rw [queueAll_cons]
    exact hR.trans (hR.userInfo about c habout) (ih (fun q hq => htold q (List.mem_cons_of_mem _ hq)) _)

end ClientHandle

namespace Server

open ClientHandle (Passive)

variable {R : ClientHandle Fifo → ClientHandle Fifo → Prop} {s s' : Server Fifo} {p : Nat}

theorem modify_passive (hR : Passive R) {g : ClientHandle Fifo → ClientHandle Fifo} (q : Nat)
    (h : ∀ c, R c (g c)) : R (s.heap p) ((s.modify q g).heap p) := by
  rw [modify_heap]
  split
  next heq =>
    rw [heq]
    exact h _
  next => exact hR.refl _

theorem tellAll_passive (hR : Passive R) (hs : s.Sound) (q : Nat) :
    R (s.heap p) ((s.tellAll q).heap p) := by
  obtain ⟨told, htold, hmem⟩ := tellOver_queueAll q s.clients s p
  rw [tellAll, htold]
  refine hR.queueAll (fun pkt hpkt => ?_) _
  rcases hmem pkt hpkt with ⟨_, r, _, _, hr⟩ | ⟨_, _, _, hr⟩
  · exact ⟨s.heap r, hs.connections r, hr⟩
  · exact ⟨s.heap q, hs.connections q, hr⟩

theorem kick_passive (hR : Passive R) (hs : s.Sound) {q : Nat} {reason : Int32}
    (h : s.act q (ClientHandle.sendDisconnect reason) = .ok s') : R (s.heap p) (s'.heap p) := by
  rw [kick_modify hs] at h
  cases h
  exact modify_passive hR q (hR.disconnect reason)

theorem closed_passive (hR : Passive R) (q : Nat) : R (s.heap p) ((s.closed q).heap p) := by
  rw [closed_heap]
  split
  next heq =>
    rw [heq]
    exact hR.same _ _ _ _ _ nofun
  next => exact hR.refl _

theorem admitted_passive (hR : Passive R) (q : Nat) (name : AString) :
    R (s.heap p) ((s.admitted q name).heap p) := by
  rw [admitted, store_heap]
  split
  next heq =>
    rw [heq]
    have hname : R (s.heap q) ((s.heap q).setUsername name) := hR.same _ _ _ _ _ id
    exact hR.trans (hR.trans hname (hR.loginSucceeded _)) (hR.same _ _ _ _ _ id)
  next => exact hR.refl _

theorem destroy_passive (hR : Passive R) (hs : s.Sound) {q : Nat} (h : s.destroy q = .ok s') :
    R (s.heap p) (s'.heap p) := by
  unfold destroy at h
  split at h
  next =>
    cases h
    exact modify_passive hR q fun c => hR.same c _ _ _ _ nofun
  next =>
    have hclosed := closed_sound hs q
    have hok := broadcastUserInfo_ok hclosed.connections hclosed.nodup q
    have heq := Except.ok.inj (hok.symm.trans h)
    rw [← heq]
    exact hR.trans (closed_passive hR q) (tellAll_passive hR hclosed q)

variable [Platform]

theorem kickLoop_passive (hR : Passive R) (hs : s.Sound) {id : UInt32} {reason : Int32} {l : List Nat}
    (h : kickLoop id reason l s = .ok s') : R (s.heap p) (s'.heap p) := by
  induction l generalizing s with
  | nil =>
    cases h
    exact hR.refl _
  | cons q l ih =>
    unfold kickLoop at h
    split at h
    next =>
      obtain ⟨t, hkick, hloop⟩ := bind_ok_iff.mp h
      obtain ⟨t', hok, hleads⟩ := kick_ok hs (G := Gate.open) q reason
      have heq : t' = t := Except.ok.inj (hok.symm.trans hkick)
      have hsound := sound_of_small hs hleads.small
      rw [heq] at hsound
      exact hR.trans (kick_passive hR hs hkick) (ih hsound hloop)
    next => exact ih hs h

theorem answer_passive (hR : Passive R) (hs : s.Sound) {user : User} (hin : s.inFlight = some user)
    (h : answer user { s with inFlight := none } = .ok s') : R (s.heap p) (s'.heap p) := by
  have hs₁ := answered_sound hs
  have hsame : R (s.heap p) (({ s with inFlight := none } : Server Fifo).heap p) := hR.refl _
  refine hR.trans hsame ?_
  unfold answer at h
  dsimp only at h
  split at h
  next hauth =>
    have hname := accepted_length hs hin hauth
    generalize ({ s with inFlight := none } : Server Fifo) = t at *
    unfold authenticateUser at h
    split at h
    next q _ =>
      by_cases hstate : (t.heap q).state = .csAuthenticating
      · by_cases hfree : t.isPlayerInQueue user.username = false
        · rw [authenticate_login hs₁ hname hstate hfree] at h
          cases h
          have htold := tellAll_passive (p := p) hR (admitted_sound hs₁ q hname) q
          exact hR.trans (hR.trans (admitted_passive hR q _) htold)
            (modify_passive hR q fun c => hR.same c _ _ _ _ id)
        · rw [Bool.not_eq_false] at hfree
          rw [authenticate, if_neg (not_not.mpr hstate), if_pos hfree] at h
          exact kick_passive hR hs₁ h
      · rw [authenticate, if_pos hstate] at h
        cases h
        exact hR.refl _
    next =>
      cases h
      exact hR.refl _
  next => exact kickLoop_passive hR hs₁ h

/-- Every event does no more than that to a connection, but for data that comes in, and ticks. -/
theorem step_passive (hR : Passive R) (hs : s.Sound) {e : Event} (hp : p < s.allocated)
    (hreceived : ∀ data, e ≠ .receivedData p data) (htick : ∀ q, e ≠ .tickClient q)
    (h : s.step e = .ok s') : R (s.heap p) (s'.heap p) := by
  cases e with
  | connectionAccepted ip =>
    simp only [step, connectionAccepted] at h
    split at h
    next => cases h
    next =>
      cases h
      rw [accept_heap, if_neg (Nat.ne_of_lt hp)]
      exact hR.refl _
  | receivedData q data =>
    have hne : p ≠ q := fun heq => hreceived data (by rw [heq])
    cases h
    rw [receivedData, modify_heap, if_neg hne]
    exact hR.refl _
  | remoteClosed q => exact destroy_passive hR hs h
  | tickClient q => exact absurd rfl (htick q)
  | released q => exact kick_passive hR hs h
  | authenticatorTake =>
    cases h
    exact hR.refl _
  | authenticatorAnswer =>
    simp only [step, authenticatorAnswer] at h
    split at h
    next =>
      cases h
      exact hR.refl _
    next user hin => exact answer_passive hR hs hin h
  | clock elapsed =>
    cases h
    exact hR.refl _

/-- Every packet does no more than that to a connection. -/
theorem reacted_reactive (hR : ClientHandle.Reactive R) (q : Nat) (type : UInt32) (bytes : AString) :
    R (s.heap p) ((s.reacted q type bytes).heap p) := by
  have hrefl := hR.refl (s.heap p)
  have hmodify : ∀ {g : ClientHandle Fifo → ClientHandle Fifo} (r : Nat), (∀ c, R c (g c)) →
      R (s.heap p) ((s.modify r g).heap p) := by
    intro g r hg
    rw [modify_heap]
    split
    next heq =>
      rw [heq]
      exact hg _
    next => exact hrefl
  have hrefused : R (s.heap p) ((s.refused q).heap p) := hmodify q (hR.disconnect _)
  unfold reacted
  split
  next =>
    split
    next =>
      rcases (parseStatusRequest bytes).1 with _ | request
      · exact hrefl
      · refine hmodify q fun c => ?_
        unfold answered
        split
        next => exact hR.trans (hR.setProtocolState _ c) (hR.queue _ _)
        next => exact hR.disconnect _ c
    next =>
      split
      next =>
        rcases (parseBEInt64 bytes).1 with _ | timestamp
        · exact hrefl
        · exact hmodify q (hR.queue _)
      next => exact hrefused
  next =>
    split
    next =>
      split
      next =>
        rcases (parseLoginInfo bytes).1 with _ | login
        · exact hrefl
        · exact hmodify q hR.setState
      next => exact hrefused
    next =>
      split
      next =>
        split
        next =>
          rcases (parseVarInt32 bytes).1 with _ | id
          · exact hrefl
          · exact hmodify q (hR.handleKeepAlive id s.now)
        next =>
          split
          next =>
            rcases s.relay q type bytes with _ | x
            · exact hrefl
            · exact hmodify x.1 (hR.queue x.2)
          next => exact hrefused
      next =>
        split
        next => exact hrefl
        next => exact hmodify q (hR.setProtocolState 255)

end Server

end P2PChat

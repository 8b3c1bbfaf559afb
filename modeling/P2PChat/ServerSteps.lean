import P2PChat.ServerTick

namespace P2PChat

open ByteQueue Relation

namespace Server

section Conditions

variable {β : Type} [ByteQueue β] [Platform]

/-- The connection that the next answer of the authenticator logs in, and its name. -/
def admits (s : Server β) : Option (Nat × AString) :=
  s.inFlight.bind fun user =>
    (s.findClient user.clientID).bind fun p =>
      if authFromDBPoll user.username user.password = errorCodeAuthOk ∧
          (s.heap p).state = .csAuthenticating ∧ s.isPlayerInQueue user.username = false then
        some (p, user.username)
      else none

/-- The gate lets through all that the event has to tell other connections, and to a connection that
is closed all that it has to tell this one; and it lets a connection be logged in beside the others. -/
def gated (G : Gate) (s : Server β) : Event → Prop
  | .remoteClosed p => (s.heap p).state.toNat < 4 →
      ∀ q ∈ s.clients, (s.heap q).uniqueID ≠ (s.heap p).uniqueID →
        G.passes (s.heap q) ((s.closed p).heap p).userInfo ∧
          G.passes ((s.closed p).heap p) (s.heap q).userInfo
  | .authenticatorAnswer => ∀ x ∈ s.admits,
      ∀ q ∈ s.clients, (s.heap q).uniqueID ≠ (s.heap x.1).uniqueID →
        G.passes (s.heap q) ((s.admitted x.1 x.2).heap x.1).userInfo ∧
          G.beside (s.heap x.1).hasSentDC (s.heap q).state = true
  | .tickClient p => ∀ x ∈ s.relays p, G.passes (s.heap x.1) x.2
  | _ => True

instance (G : Gate) (s : Server β) : (e : Event) → Decidable (s.gated G e)
  | .remoteClosed p => inferInstanceAs (Decidable ((s.heap p).state.toNat < 4 →
      ∀ q ∈ s.clients, (s.heap q).uniqueID ≠ (s.heap p).uniqueID →
        G.passes (s.heap q) ((s.closed p).heap p).userInfo ∧
          G.passes ((s.closed p).heap p) (s.heap q).userInfo))
  | .authenticatorAnswer => inferInstanceAs (Decidable (∀ x ∈ s.admits,
      ∀ q ∈ s.clients, (s.heap q).uniqueID ≠ (s.heap x.1).uniqueID →
        G.passes (s.heap q) ((s.admitted x.1 x.2).heap x.1).userInfo ∧
          G.beside (s.heap x.1).hasSentDC (s.heap q).state = true))
  | .tickClient p =>
    inferInstanceAs (Decidable (∀ x ∈ s.relays p, G.passes (s.heap x.1) x.2))
  | .connectionAccepted _ => inferInstanceAs (Decidable True)
  | .receivedData _ _ => inferInstanceAs (Decidable True)
  | .released _ => inferInstanceAs (Decidable True)
  | .authenticatorTake => inferInstanceAs (Decidable True)
  | .clock _ => inferInstanceAs (Decidable True)

/-- The connections that an event is about. -/
def concerns (s : Server β) : Event → Nat → Prop
  | .receivedData p _ => (· = p)
  | .remoteClosed p => (· = p)
  | .tickClient p => (· = p)
  | .released p => (· = p)
  | .authenticatorAnswer => fun p => ∃ user, s.inFlight = some user ∧ (s.heap p).uniqueID = user.clientID
  | _ => fun _ => False

/-- The event is a tick that has to relay a packet that `m_OutPacketBuffer` cannot hold. -/
def ticksOverlong (s : Server β) : Event → Bool
  | .tickClient p => overlong (s.relays p)
  | _ => false

/-- The event is a connection that `s_ClientCount` cannot count. -/
def countsOver (s : Server β) : Event → Bool
  | .connectionAccepted _ => s.clientCount == 2 ^ 31 - 1
  | _ => false

end Conditions

theorem live_of_not {c : ClientHandle Fifo} (hc : c.Sound) (h : ¬c.isDestroyed = true) :
    c.state.toNat < 4 := by
  have hsettled := hc.settled
  unfold ClientHandle.isDestroyed at h
  cases hstate : c.state with
  | csConnected => decide
  | csAuthenticating => decide
  | csAuthenticated => decide
  | csWorking => decide
  | csDestroying => exact absurd hstate hsettled
  | csDestroyed =>
    rw [hstate] at h
    exact absurd rfl h

theorem unlink_change (c : ClientHandle Fifo) : ClientHandle.Change c c.unlink :=
  .quiet ⟨rfl, rfl, rfl, rfl, rfl, Or.inl rfl, rfl, rfl, rfl, rfl, nofun, rfl, rfl⟩

theorem receive_change (data : AString) (c : ClientHandle Fifo) :
    ClientHandle.Change c (c.receive data) :=
  .quiet ⟨rfl, rfl, rfl, rfl, rfl, Or.inl rfl, rfl, rfl, rfl, rfl, id, rfl, rfl⟩

theorem findClient_some {β : Type} {s : Server β} {id : UInt32} {p : Nat} (h : s.findClient id = some p) :
    p ∈ s.clients ∧ (s.heap p).uniqueID = id :=
  ⟨List.mem_of_find?_eq_some h, by simpa using List.find?_some h⟩

/-- The login itself, without the ways out before it. -/
theorem authenticate_login {s : Server Fifo} (hs : s.Sound) {p : Nat} {name : AString}
    (hname : name.length ≤ 65504) (hstate : (s.heap p).state = .csAuthenticating)
    (hfree : s.isPlayerInQueue name = false) :
    s.authenticate p name = .ok (((s.admitted p name).tellAll p).modify p
      (ClientHandle.setPingStart (s.now + 3 * 1000000000))) := by
  have hadmitted := admitted_sound hs p hname
  have hact : (s.modify p (ClientHandle.setUsername name)).act p ClientHandle.sendLoginSuccess =
      .ok (s.store p ((s.heap p).setUsername name).loginSucceeded) := by
    have hself : (s.modify p (ClientHandle.setUsername name)).heap p = (s.heap p).setUsername name :=
      if_pos rfl
    rw [act, hself, ClientHandle.sendLoginSuccess_ok (setUsername_sound (hs.connections p) hname)]
    refine congrArg Except.ok (heap_ext (fun q => ?_) rfl)
    rw [store_heap, store_heap, modify_heap]
    split <;> rfl
  have hset : (s.store p ((s.heap p).setUsername name).loginSucceeded).modify p
      (ClientHandle.setState .csAuthenticated) = s.admitted p name := by
    refine heap_ext (fun q => ?_) rfl
    rw [modify_heap, admitted, store_heap, store_heap, store_heap, if_pos rfl]
    split <;> rfl
  rw [authenticate, if_neg (by rw [hstate]; decide), if_neg (by rw [hfree]; decide), hact]
  change (do
    let s' ← broadcastUserInfo p ((s.store p ((s.heap p).setUsername name).loginSucceeded).modify p
      (ClientHandle.setState .csAuthenticated))
    .ok (s'.modify p (ClientHandle.setPingStart (s'.now + 3 * 1000000000)))) = _
  rw [hset, broadcastUserInfo_ok hadmitted.connections hadmitted.nodup]
  rfl

variable [Platform]

/-- What a step comes to. -/
def Stepped (G : Gate) (e : Event) (s : Server Fifo) (r : Except Halt (Server Fifo)) : Prop :=
  match r with
  | .ok s' => s.ticksOverlong e = false ∧ s.countsOver e = false ∧
      ReflTransGen (Effect G (s.concerns e)) s s'
  | .error h => (h = .verify ∧ s.ticksOverlong e = true) ∨ (h = .overflow ∧ s.countsOver e = true)

theorem effects_of_small {G : Gate} {who : Nat → Prop} {p : Nat} {s s' : Server Fifo} (hp : who p)
    (ha : p < s.allocated) (h : ReflTransGen (Small G p) s s') :
    ReflTransGen (Effect G who) s s' := by
  induction h with
  | refl => exact .refl
  | tail hbefore hlast ih =>
    have hsame := (framed_of_small hbefore).allocated
    exact ih.tail (.small hp (by rw [hsame]; exact ha) hlast)

theorem sound_of_effects {G : Gate} {who : Nat → Prop} {s s' : Server Fifo} (hs : s.Sound)
    (h : ReflTransGen (Effect G who) s s') : s'.Sound := by
  induction h with
  | refl => exact hs
  | tail _ hstep ih => exact hstep.sound ih

theorem Effect.allocated {G : Gate} {who : Nat → Prop} {s s' : Server Fifo}
    (h : Effect G who s s') : s.allocated ≤ s'.allocated := by
  cases h with
  | small _ _ h => exact Nat.le_of_eq h.framed.allocated.symm
  | accepted _ _ => exact Nat.le_succ _
  | destroyed _ _ _ _ => exact Nat.le_refl _
  | removed _ _ => exact Nat.le_refl _
  | taken _ => exact Nat.le_refl _
  | login _ _ _ _ _ _ _ => exact Nat.le_refl _
  | answered => exact Nat.le_refl _
  | clock elapsed => exact Nat.le_refl _

theorem effects_allocated {G : Gate} {who : Nat → Prop} {s s' : Server Fifo}
    (h : ReflTransGen (Effect G who) s s') : s.allocated ≤ s'.allocated := by
  induction h with
  | refl => exact Nat.le_refl _
  | tail _ hlast ih => exact Nat.le_trans ih hlast.allocated

theorem effects_others {G : Gate} {who : Nat → Prop} {s s' : Server Fifo}
    (h : ReflTransGen (Effect G who) s s') {q : Nat} (hq : ¬who q) (ha : q < s.allocated) :
    q < s'.allocated ∧ ∃ told, s'.heap q = (s.heap q).queueAll told ∧
      ∀ pkt ∈ told, G.passes (s.heap q) pkt := by
  refine ⟨Nat.lt_of_lt_of_le ha (effects_allocated h), ?_⟩
  induction h with
  | refl => exact ⟨[], rfl, nofun⟩
  | tail hbefore hlast ih =>
    obtain ⟨told, htold, hpass⟩ := ih
    obtain ⟨told', htold', hpass'⟩ := hlast.others hq (Nat.lt_of_lt_of_le ha (effects_allocated hbefore))
    refine ⟨told ++ told', ?_, fun pkt hpkt => ?_⟩
    · rw [htold', htold]
      exact List.foldl_append.symm
    · rcases List.mem_append.mp hpkt with hold | hnew
      · exact hpass pkt hold
      · have hnow := hpass' pkt hnew
        rw [htold, Gate.passes_queueAll] at hnow
        exact hnow

theorem destroy_stepped {G : Gate} {s : Server Fifo} {p : Nat} (hs : s.Sound) (hp : p < s.allocated)
    (hgate : s.gated G (.remoteClosed p)) :
    ∃ s', s.destroy p = .ok s' ∧ ReflTransGen (Effect G (· = p)) s s' := by
  unfold destroy
  split
  next => exact ⟨_, rfl, .single (.small rfl hp (.change (unlink_change _)))⟩
  next h =>
    have hlive : (s.heap p).state.toNat < 4 := Nat.lt_of_not_le h
    have hclosed := closed_sound hs p
    exact ⟨_, broadcastUserInfo_ok hclosed.connections hclosed.nodup p,
      .single (.destroyed rfl hp hlive (hgate hlive))⟩

theorem kickLoop_stepped {G : Gate} {who : Nat → Prop} {id : UInt32} {reason : Int32} {l : List Nat}
    {s : Server Fifo} (hs : s.Sound) (hl : ∀ p ∈ l, p < s.allocated)
    (hwho : ∀ p, (s.heap p).uniqueID = id → who p) :
    ∃ s', kickLoop id reason l s = .ok s' ∧ ReflTransGen (Effect G who) s s' := by
  induction l generalizing s with
  | nil => exact ⟨s, rfl, .refl⟩
  | cons p l ih =>
    have hp := hl p List.mem_cons_self
    have hrest := fun q hq => hl q (List.mem_cons_of_mem p hq)
    by_cases hid : (s.heap p).uniqueID = id
    · obtain ⟨s₁, hkick, hleads⟩ := kick_ok hs (G := G) p reason
      have hframed := framed_of_small hleads.small
      obtain ⟨s', hloop, heffects⟩ := ih (sound_of_small hs hleads.small)
        (by rw [hframed.allocated]; exact hrest)
        (fun q hq => hwho q (by rw [← hframed.uniqueID q]; exact hq))
      refine ⟨s', ?_, (effects_of_small (hwho p hid) hp hleads.small).trans heffects⟩
      rw [kickLoop, if_pos hid]
      change (do let s ← s.act p (ClientHandle.sendDisconnect reason); kickLoop id reason l s) = _
      rw [hkick]
      exact hloop
    · obtain ⟨s', hloop, heffects⟩ := ih hs hrest hwho
      refine ⟨s', ?_, heffects⟩
      rw [kickLoop, if_neg hid]
      exact hloop

theorem answer_stepped {G : Gate} {s : Server Fifo} {user : User} (hs : s.Sound)
    (hin : s.inFlight = some user) (hgate : s.gated G .authenticatorAnswer) :
    ∃ s', answer user { s with inFlight := none } = .ok s' ∧
      ReflTransGen (Effect G (s.concerns .authenticatorAnswer)) s s' := by
  have hs₁ := answered_sound hs
  have hanswered : Effect G (s.concerns .authenticatorAnswer) s { s with inFlight := none } := .answered
  have hwho : ∀ p, (s.heap p).uniqueID = user.clientID → s.concerns .authenticatorAnswer p :=
    fun p hp => ⟨user, hin, hp⟩
  unfold answer
  dsimp only
  split
  next hauth =>
    unfold authenticateUser
    have hfind : ({ s with inFlight := none } : Server Fifo).findClient user.clientID =
        s.findClient user.clientID := rfl
    rw [hfind]
    rcases hfound : s.findClient user.clientID with _ | p
    · exact ⟨_, rfl, .single hanswered⟩
    · obtain ⟨hmem, hid⟩ := findClient_some hfound
      dsimp only
      by_cases hstate : (s.heap p).state = .csAuthenticating
      · by_cases hfree : s.isPlayerInQueue user.username = false
        · have hadmits : s.admits = some (p, user.username) := by
            rw [admits, hin, Option.bind_some, hfound, Option.bind_some, if_pos ⟨hauth, hstate, hfree⟩]
          exact ⟨_, authenticate_login hs₁ (accepted_length hs hin hauth) hstate hfree,
            .single (.login (hwho p hid) hin hauth hfound hstate hfree (hgate _ hadmits))⟩
        · obtain ⟨s', hok, hleads⟩ := kick_ok hs₁ (G := G) p errorCodeAlreadyLogin
          refine ⟨s', ?_, (ReflTransGen.single hanswered).trans
            (effects_of_small (hwho p hid) (hs.allocated p hmem) hleads.small)⟩
          rw [authenticate, if_neg (not_not.mpr hstate), if_pos (by
            rw [Bool.not_eq_false] at hfree; exact hfree)]
          exact hok
      · refine ⟨_, ?_, .single hanswered⟩
        rw [authenticate, if_pos hstate]
  next =>
    obtain ⟨s', hok, heffects⟩ := @kickLoop_stepped _ G _ _
      (authFromDBPoll user.username user.password) s.clients _ hs₁ hs₁.allocated hwho
    exact ⟨s', hok, heffects.head hanswered⟩

/-- Every enabled step comes to effects about the connections it concerns, with the only failures
that a tick can relay a packet that is too long and a connection can be one too many. -/
theorem step_stepped {G : Gate} {s : Server Fifo} {e : Event} (hs : s.Sound)
    (he : s.enabled e = true) (hgate : s.gated G e) : Stepped G e s (s.step e) := by
  cases e with
  | connectionAccepted ip =>
    have hip : ip.length < 128 := by simpa [enabled] using he
    simp only [step, connectionAccepted]
    split
    next h =>
      refine Or.inr ⟨rfl, ?_⟩
      rw [countsOver, h]
      rfl
    next h => exact ⟨rfl, by simpa [countsOver] using h, .single (.accepted hip h)⟩
  | receivedData p data =>
    have hand : p < s.allocated ∧ (s.heap p).link = true := by simpa [enabled] using he
    exact ⟨rfl, rfl, .single (.small rfl hand.1 (.change (receive_change data _)))⟩
  | remoteClosed p =>
    have hp : p < s.allocated := by
      have hand : p < s.allocated ∧ (s.heap p).link = true := by simpa [enabled] using he
      exact hand.1
    obtain ⟨s', hok, heffects⟩ := destroy_stepped hs hp hgate
    rw [step, hok]
    exact ⟨rfl, rfl, heffects⟩
  | tickClient p =>
    have hmem : p ∈ s.clients := by simpa [enabled] using he
    have hrelays : (s.heap p).isDestroyed = true → overlong (s.relays p) = false := by
      intro hdead
      rw [relays, arriving, if_neg (fun h => by rw [hdead] at h; cases h.1)]
      rfl
    simp only [step, tickClient]
    split
    next hdead => exact ⟨hrelays hdead, rfl, .single (.removed hdead hmem)⟩
    next hnot =>
      have hhandled := serverTick_handled hs (live_of_not (hs.connections p) hnot) hgate
      rcases htick : s.serverTick p with e | s'
      · rw [htick] at hhandled
        exact Or.inl ⟨hhandled.2, hhandled.1⟩
      · rw [htick] at hhandled
        exact ⟨hhandled.1, rfl, effects_of_small rfl (hs.allocated p hmem) hhandled.2⟩
  | released p =>
    obtain ⟨s', hok, hleads⟩ := kick_ok hs (G := G) p errorCodeServerShutdown
    have hand : p < s.allocated ∧ p ∉ s.clients := by simpa [enabled] using he
    rw [step, released, hok]
    exact ⟨rfl, rfl, effects_of_small rfl hand.1 hleads.small⟩
  | authenticatorTake =>
    have hidle : s.inFlight = none := by
      have hand := (Bool.and_eq_true_iff.mp he).1
      exact Option.isNone_iff_eq_none.mp hand
    exact ⟨rfl, rfl, .single (.taken hidle)⟩
  | authenticatorAnswer =>
    obtain ⟨user, hin⟩ : ∃ user, s.inFlight = some user := Option.isSome_iff_exists.mp he
    obtain ⟨s', hok, heffects⟩ := answer_stepped hs hin hgate
    rw [step, authenticatorAnswer, hin]
    dsimp only
    rw [hok]
    exact ⟨rfl, rfl, heffects⟩
  | clock elapsed => exact ⟨rfl, rfl, .single (.clock elapsed)⟩

end Server

end P2PChat

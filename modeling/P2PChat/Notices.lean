import P2PChat.BufferRefinement
import P2PChat.KickCauses
import P2PChat.ServerRuns

namespace P2PChat

open ByteQueue

def errorCodeNotMatch : Int32 := 0

theorem authFromDBPoll_notMatch [Platform] {username password : AString}
    (h : authFromDBPoll username password ≠ errorCodeAuthOk) :
    authFromDBPoll username password = errorCodeNotMatch := by
  unfold authFromDBPoll at h ⊢
  dsimp only at h ⊢
  split
  next heq => exact absurd (if_pos heq) h
  next => rfl

namespace Server

open ClientHandle (Spares)

section Causes

variable {β : Type} [ByteQueue β] [Platform]

/-- What an event finds when it tells the client of `p` that it is disconnected for a reason. A packet is unknown
or malformed at the call of `HandlePacket` that gets it. -/
inductive Cause (s : Server β) (p : Nat) : Event → Int32 → Prop
  | timeout : 600 < (s.heap p).ticksSinceLastPacket + 1 → Cause s p (.tickClient p) errorCodeClientTimeout
  | busy : (write (s.heap p).incomingData (s.heap p).protocol.receivedData).1 = false →
      Cause s p (.tickClient p) errorCodeServerBusy
  | unknown {call : UInt32 × β × Server β} : s.TickCalls p call → call.2.2.Unknown p call.1 →
      Cause s p (.tickClient p) errorCodePacketUnknown
  | malformed {call : UInt32 × β × Server β} : s.TickCalls p call → (endpoint p).Reports call →
      Cause s p (.tickClient p) errorCodePacketError
  | taken {user : User} : s.inFlight = some user → s.findClient user.clientID = some p →
      authFromDBPoll user.username user.password = errorCodeAuthOk →
      (s.heap p).state = .csAuthenticating → s.isPlayerInQueue user.username = true →
      Cause s p .authenticatorAnswer errorCodeAlreadyLogin
  | refused {user : User} : s.inFlight = some user → (s.heap p).uniqueID = user.clientID →
      user.password ≠ md5Password user.username →
      Cause s p .authenticatorAnswer errorCodeNotMatch
  | released : Cause s p (.released p) errorCodeServerShutdown

variable {s s' : Server β} {p : Nat} {reason : Int32}

theorem answer_spares {user : User} (hin : s.inFlight = some user)
    (hno : ¬Cause s p .authenticatorAnswer reason) :
    Ends (SparesAt reason p s) (answer user { s with inFlight := none }) := by
  have hidle : SparesAt reason p s { s with inFlight := none } := Spares.refl reason _
  unfold answer
  dsimp only
  split
  next hok =>
    unfold authenticateUser
    split
    next q hfind =>
      refine Ends.mono (authenticate_spares user.username _ fun heq hstate htaken => ?_) fun _ h => hidle.trans h
      rintro rfl
      exact hno (.taken hin (heq ▸ hfind) hok (heq ▸ hstate) htaken)
    next => exact Ends.ok hidle
  next hbad =>
    refine Ends.mono (kickLoop_spares (fun hid => ?_) _) fun _ h => hidle.trans h
    rw [authFromDBPoll_notMatch hbad]
    rintro rfl
    exact hno (.refused hin hid fun hpassword => hbad (authFromDBPoll_iff.mpr hpassword))

/-- A tick of its own. -/
theorem tickClient_rests (hlive : (s.heap p).isDestroyed = false)
    (hno : reason ≠ errorCodeClientTimeout → ¬Cause s p (.tickClient p) reason) :
    Ends (fun s' => ClientHandle.Rests reason (s.heap p) (s'.heap p)) (s.tickClient p) := by
  have hreceived : Ends (SparesAt reason p s) (s.tickReceived p) := by
    apply tickReceived_spares s hlive
    · intro call _ hcall hunknown heq
      rw [heq] at hno
      exact hno (by decide) (.unknown hcall hunknown)
    · intro call _ hcall hreports heq
      rw [heq] at hno
      exact hno (by decide) (.malformed hcall hreports)
    · intro _ hfull heq
      rw [heq] at hno
      exact hno (by decide) (.busy hfull)
  unfold tickClient serverTick
  rw [hlive]
  refine Ends.bind hreceived fun t ht => ?_
  intro s' hok
  obtain ⟨c, hrest, hstore⟩ := bind_ok_iff.mp hok
  cases hstore
  have hself : (t.store p c).heap p = c := if_pos rfl
  rw [hself]
  exact Spares.rests ht (ClientHandle.tickRest_rests _ _ c hrest)

/-- A tick of another. -/
theorem tickClient_spares {q : Nat} (hne : p ≠ q) : Ends (SparesAt reason p s) (s.tickClient q) := by
  unfold tickClient
  split
  next => exact Ends.ok (Spares.refl reason _)
  next hlive =>
    rw [Bool.not_eq_true] at hlive
    have hreceived : Ends (SparesAt reason p s) (s.tickReceived q) := by
      apply tickReceived_spares s hlive
      · exact fun _ heq => absurd heq hne
      · exact fun _ heq => absurd heq hne
      · exact fun heq => absurd heq hne
    exact ends_then hreceived fun t => act_spares fun h => absurd h hne

/-- Every other event, but for data that comes in and a connection that is new. -/
theorem step_spares {e : Event} (hnew : ∀ ip, e = .connectionAccepted ip → p ≠ s.allocated)
    (hdata : ∀ data, e ≠ .receivedData p data) (htick : e ≠ .tickClient p) (hno : ¬Cause s p e reason)
    (h : s.step e = .ok s') : SparesAt reason p s s' := by
  cases e with
  | connectionAccepted ip =>
    simp only [step, connectionAccepted] at h
    split at h
    next => cases h
    next =>
      cases h
      have hother : (s.accept ip).heap p = s.heap p := if_neg (hnew ip rfl)
      rw [SparesAt, hother]
      exact Spares.refl reason _
  | receivedData q data =>
    have hne : p ≠ q := by
      rintro rfl
      exact hdata data rfl
    have hother : (s.receivedData q data).heap p = s.heap p := if_neg hne
    cases h
    rw [SparesAt, hother]
    exact Spares.refl reason _
  | remoteClosed q => exact destroy_spares q s s' h
  | tickClient q =>
    have hne : p ≠ q := by
      rintro rfl
      exact htick rfl
    exact tickClient_spares hne s' h
  | released q =>
    refine act_spares (fun heq => ?_) s' h
    refine ClientHandle.sendDisconnect_spares _ fun _ => ?_
    rintro rfl
    exact hno (heq ▸ .released)
  | authenticatorTake =>
    cases h
    exact Spares.refl reason _
  | authenticatorAnswer =>
    simp only [step, authenticatorAnswer] at h
    split at h
    next =>
      cases h
      exact Spares.refl reason _
    next user hin => exact answer_spares hin hno s' h
  | clock elapsed =>
    cases h
    exact Spares.refl reason _

theorem Cause.code {e : Event} (h : Cause s p e reason) :
    reason ∈ [errorCodeClientTimeout, errorCodeServerBusy, errorCodePacketUnknown, errorCodePacketError,
      errorCodeAlreadyLogin, errorCodeNotMatch, errorCodeServerShutdown] := by
  cases h with
  | timeout _ => simp
  | busy _ => simp
  | unknown _ _ => simp
  | malformed _ _ => simp
  | taken _ _ _ _ _ => simp
  | refused _ _ _ => simp
  | released => simp

theorem no_cause (e : Event) : ¬Cause s p e (-1) := fun h => absurd h.code (by decide)

/-- What an event adds to the log, if it does not begin it; and of what is new, a notice has a cause. -/
theorem step_notices {e : Event} (h : s.step e = .ok s') (hbegun : (s'.heap p).log ≠ []) (reason : Int32) :
    ∃ more, (s'.heap p).log = (s.heap p).log ++ more ∧
      ∀ entry ∈ more, entry.tells reason = true → Cause s p e reason := by
  by_cases hnew : ∃ ip, e = .connectionAccepted ip ∧ p = s.allocated
  · obtain ⟨ip, rfl, rfl⟩ := hnew
    simp only [step, connectionAccepted] at h
    split at h
    next => cases h
    next =>
      cases h
      have hself : (s.accept ip).heap s.allocated =
          (ClientHandle.create ip (UInt32.ofNat (s.clientCount + 1)) s.now).onLinkCreated := if_pos rfl
      rw [hself] at hbegun
      exact absurd rfl hbegun
  by_cases hdata : ∃ data, e = .receivedData p data
  · obtain ⟨data, rfl⟩ := hdata
    cases h
    have hself : (s.receivedData p data).heap p = (s.heap p).receive data := if_pos rfl
    rw [hself]
    exact ⟨[], (List.append_nil _).symm, fun _ hmem => absurd hmem List.not_mem_nil⟩
  by_cases htick : e = .tickClient p
  · subst htick
    by_cases hdead : (s.heap p).isDestroyed = true
    · simp only [step, tickClient, hdead, if_true] at h
      cases h
      exact ⟨[], (List.append_nil _).symm, fun _ hmem => absurd hmem List.not_mem_nil⟩
    · rw [Bool.not_eq_true] at hdead
      by_cases hno : Cause s p (.tickClient p) reason
      · have hrests := tickClient_rests hdead (fun _ => no_cause _) s' h
        obtain ⟨more, hlog, _⟩ := hrests.log
        exact ⟨more, hlog, fun _ _ _ => hno⟩
      · have hrests := tickClient_rests hdead (fun _ => hno) s' h
        obtain ⟨more, hlog, hmore⟩ := hrests.log
        refine ⟨more, hlog, fun entry hmem htells => ?_⟩
        obtain ⟨heq, hlate⟩ := hmore entry hmem htells
        rw [heq]
        exact .timeout hlate
  · have hspares : ∀ reason, ¬Cause s p e reason → SparesAt reason p s s' := fun reason hno =>
      step_spares (fun ip he heq => hnew ⟨ip, he, heq⟩) (fun data he => hdata ⟨data, he⟩) htick hno h
    by_cases hno : Cause s p e reason
    · obtain ⟨more, hlog, _⟩ := (hspares (-1) (no_cause e)).log
      exact ⟨more, hlog, fun _ _ _ => hno⟩
    · obtain ⟨more, hlog, hmore⟩ := (hspares reason hno).log
      exact ⟨more, hlog, fun entry hmem htells => absurd htells (hmore entry hmem)⟩

/-- Every notice that a client is disconnected tells the truth: the event of the run that queued it, at that client,
found what the notice says. No notice carries any other code. -/
theorem notices_caused (h : (serverMachine β).Reachable initial s) {i : Nat} {entry : Entry}
    (hentry : (s.heap p).log[i]? = some entry) (htells : entry.tells reason = true) :
    ∃ s₁ e s₂, (serverMachine β).Reachable initial s₁ ∧ s₁.enabled e = true ∧ s₁.step e = .ok s₂ ∧
      (serverMachine β).Reachable s₂ s ∧ (s₁.heap p).log.length ≤ i ∧ (s₂.heap p).log[i]? = some entry ∧
      Cause s₁ p e reason := by
  induction h with
  | start => exact absurd (List.mem_of_getElem? hentry) List.not_mem_nil
  | @next t t' e hr he _ hs ih =>
    have hbegun : (t'.heap p).log ≠ [] := List.ne_nil_of_mem (List.mem_of_getElem? hentry)
    obtain ⟨more, hlog, hmore⟩ := step_notices hs hbegun reason
    rcases Nat.lt_or_ge i (t.heap p).log.length with hold | hnew
    · rw [hlog, List.getElem?_append_left hold] at hentry
      obtain ⟨s₁, e₁, s₂, hr₁, he₁, hs₁, hrest, hlength, hat, hcause⟩ := ih hentry
      exact ⟨s₁, e₁, s₂, hr₁, he₁, hs₁, hrest.next he trivial hs, hlength, hat, hcause⟩
    · have hmem : entry ∈ more := by
        have hat := hentry
        rw [hlog, List.getElem?_append_right hnew] at hat
        exact List.mem_of_getElem? hat
      exact ⟨t, e, t', hr, he, hs, .start, hnew, hentry, hmore entry hmem htells⟩

omit [ByteQueue β] [Platform] in
/-- A client in the second state sends a packet that no client sends there: its tick queues the first notice. -/
theorem notices_caused_unknown :
    letI := zeroPlatform
    ∃ (s₁ : Server ByteBuffer) (e : Event) (s₂ : Server ByteBuffer), s₁.step e = .ok s₂ ∧
      (s₂.heap 0).log[3]? = some (.queued 2 ⟨0x00, [.beInt32 errorCodePacketUnknown]⟩) ∧
      s₁.Cause 0 e errorCodePacketUnknown := by
  let : Platform := zeroPlatform
  have hrun : ((serverMachine ByteBuffer).replay enabled
      (.connectionAccepted [] :: (greets 0 ++ [.receivedData 0 (frame [0x7f]), .tickClient 0]))
      initial).map (fun s => decide ((s.heap 0).log[3]? =
        some (.queued 2 ⟨0x00, [.beInt32 errorCodePacketUnknown]⟩))) = some true := by
    decide +kernel
  obtain ⟨s, hs, hentry⟩ := Option.map_eq_some_iff.mp hrun
  have htells : (Entry.queued 2 ⟨0x00, [.beInt32 errorCodePacketUnknown]⟩).tells errorCodePacketUnknown = true := by
    decide
  obtain ⟨s₁, e, s₂, _, _, hstep, _, _, hat, hcause⟩ :=
    notices_caused (replay_reachable hs) (of_decide_eq_true hentry) htells
  exact ⟨s₁, e, s₂, hstep, hat, hcause⟩

theorem Cause.tick_of_timeout {e : Event} (h : Cause s p e reason) (hreason : reason = errorCodeClientTimeout) :
    e = .tickClient p := by
  cases h with
  | timeout _ => rfl
  | busy _ => rfl
  | unknown _ _ => rfl
  | malformed _ _ => rfl
  | taken _ _ _ _ _ => exact absurd hreason (by decide)
  | refused _ _ _ => exact absurd hreason (by decide)
  | released => exact absurd hreason (by decide)

end Causes

end Server

/-- What is counted of a connection: its ticks since data last came in, and whether there ever were more than
600 in a row. -/
structure Silence where
  ticks : Nat
  expired : Bool
  deriving DecidableEq, Repr

section Silence

variable {β : Type}

def Server.recordSilence (p : Nat) (s : Server β) (x : Silence) : Event → Silence
  | .connectionAccepted _ => if s.allocated = p then ⟨0, false⟩ else x
  | .receivedData q _ => if q = p then { x with ticks := 0 } else x
  | .tickClient q =>
    if q = p ∧ (s.heap p).isDestroyed = false then
      ⟨x.ticks + 1, x.expired || decide (600 < x.ticks + 1)⟩
    else x
  | _ => x

/-- The server with the silence of one connection. -/
def silenceMachine (β : Type) [ByteQueue β] [Platform] (p : Nat) : Machine (Server β × Silence) Event Halt where
  enabled x e := x.1.enabled e = true
  step x e := (x.1.step e).map fun s => (s, x.1.recordSilence p x.2 e)

namespace Server

/-- The members of the connection agree with the count. -/
structure Counted (p : Nat) (s : Server β) (x : Silence) : Prop where
  ticks : (s.heap p).ticksSinceLastPacket = x.ticks
  late : 600 < x.ticks → x.expired = true
  expired : x.expired = true → (s.heap p).hasSentDC = true
  notices : ∀ entry ∈ (s.heap p).log, entry.tells errorCodeClientTimeout = true → x.expired = true

variable {s s' : Server β} {p : Nat} {x : Silence}

theorem Counted.spared (h : s.Counted p x) (hspares : SparesAt errorCodeClientTimeout p s s') : s'.Counted p x where
  ticks := hspares.ticks.trans h.ticks
  late := h.late
  expired hx := hspares.hasSentDC (h.expired hx)
  notices entry hmem htells := h.notices entry (hspares.mem_log hmem htells) htells

variable [ByteQueue β]

theorem Counted.accept (p : Nat) (ip : AString) (hp : s.allocated = p) : (s.accept ip).Counted p ⟨0, false⟩ := by
  have hself : (s.accept ip).heap p =
      (ClientHandle.create ip (UInt32.ofNat (s.clientCount + 1)) s.now).onLinkCreated := if_pos hp.symm
  constructor
  · rw [hself]
    rfl
  · exact fun h => absurd h (by decide)
  · rintro ⟨⟩
  · rw [hself]
    exact fun entry hmem => absurd hmem List.not_mem_nil

omit [ByteQueue β] in
theorem Counted.receive (h : s.Counted p x) (data : AString) :
    (s.receivedData p data).Counted p { x with ticks := 0 } := by
  have hself : (s.receivedData p data).heap p = (s.heap p).receive data := if_pos rfl
  constructor
  · rw [hself]
    rfl
  · exact fun h => absurd h (Nat.not_lt_zero 600)
  · rw [hself]
    exact h.expired
  · rw [hself]
    exact h.notices

variable [Platform]

theorem Counted.tick (h : s.Counted p x) (hlive : (s.heap p).isDestroyed = false)
    (hs : s.tickClient p = .ok s') :
    s'.Counted p ⟨x.ticks + 1, x.expired || decide (600 < x.ticks + 1)⟩ := by
  have hrests : ClientHandle.Rests errorCodeClientTimeout (s.heap p) (s'.heap p) :=
    tickClient_rests hlive (fun hne => absurd rfl hne) s' hs
  have hor : (x.expired || decide (600 < x.ticks + 1)) = true ↔ x.expired = true ∨ 600 < x.ticks + 1 := by
    rw [Bool.or_eq_true, decide_eq_true_iff]
  refine ⟨?_, fun hlate => hor.mpr (Or.inr hlate), fun hexpired => ?_, fun entry hmem htells => ?_⟩
  · rw [hrests.ticks, h.ticks]
  · apply hrests.hasSentDC
    rw [h.ticks]
    exact (hor.mp hexpired).imp_left h.expired
  · apply hor.mpr
    rw [← h.ticks]
    exact (hrests.mem_log hmem htells).imp (fun hold => h.notices entry hold htells) And.right

theorem Counted.step {e : Event} (h : s.Counted p x) (hs : s.step e = .ok s') :
    s'.Counted p (s.recordSilence p x e) := by
  by_cases hnew : ∃ ip, e = .connectionAccepted ip ∧ s.allocated = p
  · obtain ⟨ip, rfl, hp⟩ := hnew
    simp only [Server.step, connectionAccepted] at hs
    split at hs
    next => cases hs
    next =>
      cases hs
      rw [recordSilence, if_pos hp]
      exact Counted.accept p ip hp
  by_cases hdata : ∃ data, e = .receivedData p data
  · obtain ⟨data, rfl⟩ := hdata
    cases hs
    rw [recordSilence, if_pos rfl]
    exact h.receive data
  by_cases htick : e = .tickClient p
  · subst htick
    by_cases hdead : (s.heap p).isDestroyed = true
    · simp only [Server.step, tickClient, hdead, if_true] at hs
      cases hs
      rw [recordSilence, if_neg fun hand => Bool.eq_false_iff.mp hand.2 hdead]
      exact ⟨h.ticks, h.late, h.expired, h.notices⟩
    · rw [Bool.not_eq_true] at hdead
      rw [recordSilence, if_pos ⟨rfl, hdead⟩]
      exact h.tick hdead hs
  · have hcause : ¬Cause s p e errorCodeClientTimeout := fun hcause => htick (hcause.tick_of_timeout rfl)
    have hspares := step_spares (fun ip he heq => hnew ⟨ip, he, heq.symm⟩) (fun data he => hdata ⟨data, he⟩)
      htick hcause hs
    have hsame : s.recordSilence p x e = x := by
      cases e with
      | connectionAccepted ip => exact if_neg fun hp => hnew ⟨ip, rfl, hp⟩
      | receivedData q data => exact if_neg fun hq => hdata ⟨data, by rw [hq]⟩
      | tickClient q => exact if_neg fun hq => htick (by rw [hq.1])
      | remoteClosed q => rfl
      | released q => rfl
      | authenticatorTake => rfl
      | authenticatorAnswer => rfl
      | clock elapsed => rfl
    rw [hsame]
    exact h.spared hspares

/-- The limit on silence is kept in both directions: a connection that has had more than 600 ticks since data
last came in has been sent a disconnect, and none is told of a time-out that has not once been silent for so
long. -/
theorem timeouts_exact {y : Server β × Silence}
    (h : (silenceMachine β p).Reachable (initial, ⟨0, false⟩) y) :
    (600 < y.2.ticks → (y.1.heap p).hasSentDC = true) ∧
      ∀ entry ∈ (y.1.heap p).log, entry.tells errorCodeClientTimeout = true → y.2.expired = true := by
  have hcounted : y.1.Counted p y.2 := by
    have hstart : (initial : Server β).Counted p ⟨0, false⟩ :=
      ⟨rfl, fun hlate => absurd hlate (Nat.not_lt_zero 600), fun hexpired => absurd hexpired Bool.false_ne_true,
        fun entry hmem => absurd hmem List.not_mem_nil⟩
    refine h.invariant (I := fun y => y.1.Counted p y.2) hstart ?_
    · rintro ⟨s, x⟩ e z _ hs _ _ hstep
      change (s.step e).map (fun s' => (s', s.recordSilence p x e)) = .ok z at hstep
      rcases hok : s.step e with halt | s'
      · rw [hok] at hstep
        cases hstep
      · rw [hok] at hstep
        cases hstep
        exact hs.step hok
  exact ⟨fun hlate => hcounted.expired (hcounted.late hlate), hcounted.notices⟩

omit [ByteQueue β] [Platform] in
/-- A client that says nothing for 601 ticks, the first of which answers its greeting: the last one tells it so. -/
theorem timeouts_exact_late :
    letI := zeroPlatform
    ∃ y : Server ByteBuffer × Silence, y.2.ticks = 601 ∧ (y.1.heap 0).hasSentDC = true ∧
      .queued 2 ⟨0x00, [.beInt32 errorCodeClientTimeout]⟩ ∈ (y.1.heap 0).log ∧ y.2.expired = true := by
  let : Platform := zeroPlatform
  have hrun : ((silenceMachine ByteBuffer 0).replay (fun y e => y.1.enabled e)
      (.connectionAccepted [] :: (greets 0 ++ List.replicate 600 (.tickClient 0))) (initial, ⟨0, false⟩)).map
        (fun y => decide (y.2.ticks = 601 ∧
          .queued 2 ⟨0x00, [.beInt32 errorCodeClientTimeout]⟩ ∈ (y.1.heap 0).log)) = some true := by
    decide +kernel
  obtain ⟨y, hy, hlate⟩ := Option.map_eq_some_iff.mp hrun
  obtain ⟨hticks, hmem⟩ := of_decide_eq_true hlate
  have hreach : (silenceMachine ByteBuffer 0).Reachable (initial, ⟨0, false⟩) y :=
    Machine.replay_reach (fun _ _ he => ⟨he, trivial⟩) .start hy
  have htells : (Entry.queued 2 ⟨0x00, [.beInt32 errorCodeClientTimeout]⟩).tells errorCodeClientTimeout = true := by
    decide
  obtain ⟨hsent, hexpired⟩ := timeouts_exact hreach
  refine ⟨y, hticks, hsent ?_, hmem, hexpired _ hmem htells⟩
  rw [hticks]
  decide

end Server

end Silence

end P2PChat

import P2PChat.AuthenticatorWaits
import P2PChat.RootLifecycle

namespace P2PChat

/-- The tick thread is in a round of its loop and has not seen that it is to end. -/
def ServerTickPoint.works : ServerTickPoint → Bool
  | .testTerminate | .swap | .commands _ | .clients | .testRestarting | .assign true | .pause => true
  | _ => false

namespace Root

/-- There are no threads of a server. -/
structure Idle (s : Root) : Prop where
  ticker : s.ticker = .absent
  execute : s.authenticator.execute = .absent

/-- Nobody has asked the tick thread to end. -/
structure Fresh (s : Root) : Prop where
  restarting : s.restarting = false
  event : s.restartEvent.shouldContinue = false
  goOn : s.tickShouldTerminate = false

/-- The tick thread has had its last round. -/
inductive Leaving (s : Root) : Prop where
  | notify (hat : s.ticker = .notify)
  | assign (hat : s.ticker = .assign false)
  | pause (hat : s.ticker = .pause) (hend : s.tickShouldTerminate = true)
  | testTerminate (hat : s.ticker = .testTerminate) (hend : s.tickShouldTerminate = true)
  | ended (hat : s.ticker = .ended)

/-- The tick thread has been asked to end: it is in its last rounds, or it has set the event. -/
inductive Answering (s : Root) : Prop where
  | working (hworks : s.ticker.works = true) (hasked : s.restarting = true)
      (hevent : s.restartEvent.shouldContinue = false) (hgo : s.tickShouldTerminate = false)
  | clearing (hat : s.ticker = .clearRestarting) (hevent : s.restartEvent.shouldContinue = false)
      (hgo : s.tickShouldTerminate = false)
  | setting (hat : s.ticker = .setEvent) (hevent : s.restartEvent.shouldContinue = false)
      (hgo : s.tickShouldTerminate = false)
  | answered (hset : s.restartEvent.shouldContinue = true) (hleaving : s.Leaving)

/-- The tick thread has not been started, or has had its last round. -/
def Past (s : Root) : Prop := s.ticker = .absent ∨ s.Leaving

/-- Where the other threads can be, and what is behind `m_Server`, for each place of the main thread. -/
def Phase (s : Root) : Prop :=
  match s.main with
  | .begin | .testStop | .clearRestart | .create | .returned => s.server = .null ∧ s.Idle
  | .initServer => s.server = .live ∧ s.Idle ∧ s.Fresh ∧ s.isConnected = false
  | .startAuthenticator => s.server = .live ∧ s.Idle ∧ s.Fresh
  | .listen => s.server = .live ∧ s.ticker = .absent ∧ s.Fresh
  | .startTicks => s.server = .live ∧ s.ticker = .absent ∧ s.Fresh ∧ s.listening = true
  | .startInput | .poll | .noteTerminate | .closeHandle =>
    s.server = .live ∧ s.ticker.works = true ∧ s.Fresh ∧ s.listening = true
  | .setRestarting => s.server = .live ∧ s.ticker.works = true ∧ s.Fresh
  | .wait => s.server = .live ∧ s.Answering
  | .sleep => s.server = .live ∧ s.Answering ∧ (s.restartEvent.shouldContinue = true → s.ticker = .notify)
  | .giveUp => s.server = .live ∧ s.ticker = .absent
  | .destroyClients | .stopAuthenticator | .joinAuthenticator => s.server = .live ∧ s.Past
  | .deleteServer => s.server = .live ∧ s.Past ∧ s.authenticator.execute = .absent
  | .endTicks | .joinTicks => s.server = .dying ∧ s.Past ∧ s.authenticator.execute = .absent
  | .clearServer => s.server = .dangling ∧ s.Idle

/-- Who is in a call of the authenticator, and whose call it is. -/
structure Calls (s : Root) : Prop where
  sound : s.authenticator.Sound
  callers : ∀ t, s.authenticator.callers t ≠ .outside → t = 0 ∧ s.ticker = .clients
  owner : s.authenticator.owner = .outside ↔ s.main ≠ .joinAuthenticator
  stopping : s.main = .joinAuthenticator → s.authenticator.shouldTerminate = true

section Frames

variable {s s' : Root} {command : AString} {t : Nat}

/-- A step of a thread that has nothing to do with the start and the end of a server. -/
structure Aside (s s' : Root) : Prop where
  main : s'.main = s.main
  ticker : s'.ticker = s.ticker
  server : s'.server = s.server
  isConnected : s'.isConnected = s.isConnected
  listening : s'.listening = s.listening
  restarting : s'.restarting = s.restarting
  restartEvent : s'.restartEvent = s.restartEvent
  tickShouldTerminate : s'.tickShouldTerminate = s.tickShouldTerminate
  execute : s.authenticator.execute = .absent → s'.authenticator.execute = .absent

theorem Aside.fresh (h : Aside s s') (hfresh : s.Fresh) : s'.Fresh :=
  ⟨h.restarting.trans hfresh.restarting, by rw [h.restartEvent]; exact hfresh.event,
    h.tickShouldTerminate.trans hfresh.goOn⟩

theorem Aside.idle (h : Aside s s') (hidle : s.Idle) : s'.Idle :=
  ⟨h.ticker.trans hidle.ticker, h.execute hidle.execute⟩

theorem Leaving.of_same (h : s.Leaving) (hticker : s'.ticker = s.ticker)
    (hend : s.tickShouldTerminate = true → s'.tickShouldTerminate = true) : s'.Leaving := by
  cases h with
  | notify hat => exact .notify (hticker.trans hat)
  | assign hat => exact .assign (hticker.trans hat)
  | pause hat hended => exact .pause (hticker.trans hat) (hend hended)
  | testTerminate hat hended => exact .testTerminate (hticker.trans hat) (hend hended)
  | ended hat => exact .ended (hticker.trans hat)

theorem Past.of_same (h : s.Past) (hticker : s'.ticker = s.ticker)
    (hend : s.tickShouldTerminate = true → s'.tickShouldTerminate = true) : s'.Past := by
  rcases h with habsent | hleaving
  · exact .inl (hticker.trans habsent)
  · exact .inr (hleaving.of_same hticker hend)

theorem Answering.of_same (h : s.Answering) (hticker : s'.ticker = s.ticker)
    (hasked : s'.restarting = s.restarting) (hevent : s'.restartEvent = s.restartEvent)
    (hend : s'.tickShouldTerminate = s.tickShouldTerminate) : s'.Answering := by
  cases h with
  | working hworks hrestarting hunset hgo =>
    exact .working (by rw [hticker]; exact hworks) (hasked.trans hrestarting) (by rw [hevent]; exact hunset)
      (hend.trans hgo)
  | clearing hat hunset hgo =>
    exact .clearing (hticker.trans hat) (by rw [hevent]; exact hunset) (hend.trans hgo)
  | setting hat hunset hgo =>
    exact .setting (hticker.trans hat) (by rw [hevent]; exact hunset) (hend.trans hgo)
  | answered hset hleaving =>
    exact .answered (by rw [hevent]; exact hset) (hleaving.of_same hticker hend.trans)

theorem Aside.past (h : Aside s s') (hpast : s.Past) : s'.Past :=
  hpast.of_same h.ticker h.tickShouldTerminate.trans

theorem Aside.answering (h : Aside s s') (hanswering : s.Answering) : s'.Answering :=
  hanswering.of_same h.ticker h.restarting h.restartEvent h.tickShouldTerminate

theorem Aside.phase (h : Aside s s') (hphase : s.Phase) : s'.Phase := by
  unfold Phase at hphase ⊢
  rw [h.main, h.server, h.ticker, h.listening, h.isConnected, h.restartEvent]
  cases hmain : s.main <;> simp only [hmain] at hphase ⊢
  case begin | testStop | clearRestart | create | returned | clearServer => exact ⟨hphase.1, h.idle hphase.2⟩
  case initServer => exact ⟨hphase.1, h.idle hphase.2.1, h.fresh hphase.2.2.1, hphase.2.2.2⟩
  case startAuthenticator => exact ⟨hphase.1, h.idle hphase.2.1, h.fresh hphase.2.2⟩
  case listen | setRestarting => exact ⟨hphase.1, hphase.2.1, h.fresh hphase.2.2⟩
  case startTicks | startInput | poll | noteTerminate | closeHandle =>
    exact ⟨hphase.1, hphase.2.1, h.fresh hphase.2.2.1, hphase.2.2.2⟩
  case wait => exact ⟨hphase.1, h.answering hphase.2⟩
  case sleep => exact ⟨hphase.1, h.answering hphase.2.1, hphase.2.2⟩
  case giveUp => exact hphase
  case destroyClients | stopAuthenticator | joinAuthenticator => exact ⟨hphase.1, h.past hphase.2⟩
  case deleteServer | endTicks | joinTicks => exact ⟨hphase.1, h.past hphase.2.1, h.execute hphase.2.2⟩

theorem Aside.calls (h : Aside s s') (hsame : s'.authenticator = s.authenticator) (hcalls : s.Calls) :
    s'.Calls where
  sound := by rw [hsame]; exact hcalls.sound
  callers t ht := by
    rw [hsame] at ht
    rw [h.ticker]
    exact hcalls.callers t ht
  owner := by rw [hsame, h.main]; exact hcalls.owner
  stopping := by rw [hsame, h.main]; exact hcalls.stopping

/-- Such a step that leaves the authenticator alone changes at most the flags of the root. -/
theorem aside_rfl : Aside s s := ⟨rfl, rfl, rfl, rfl, rfl, rfl, rfl, rfl, id⟩

theorem executeConsoleCommand_ok (h : s.executeConsoleCommand command = .ok s') :
    s' = { s with shouldStop := s'.shouldStop, restart := s'.restart } := by
  unfold executeConsoleCommand at h
  split at h
  next => cases h; rfl
  next =>
    split at h
    next => cases h; rfl
    next =>
      split at h
      next => cases h
      next => cases h; rfl

theorem executeConsoleCommand_aside (h : s.executeConsoleCommand command = .ok s') :
    Aside s s' ∧ s'.authenticator = s.authenticator := by
  rw [executeConsoleCommand_ok h]
  exact ⟨⟨rfl, rfl, rfl, rfl, rfl, rfl, rfl, rfl, id⟩, rfl⟩

theorem queueBuiltIn_aside : Aside s (s.queueBuiltIn command) ∧
    (s.queueBuiltIn command).authenticator = s.authenticator := by
  unfold queueBuiltIn
  split
  next => exact ⟨⟨rfl, rfl, rfl, rfl, rfl, rfl, rfl, rfl, id⟩, rfl⟩
  next =>
    split
    next => exact ⟨⟨rfl, rfl, rfl, rfl, rfl, rfl, rfl, rfl, id⟩, rfl⟩
    next => exact ⟨aside_rfl, rfl⟩

theorem inputStep_aside {line : AString} {good : Bool} (h : s.inputStep t line good = .ok s') :
    Aside s s' ∧ s'.authenticator = s.authenticator := by
  unfold inputStep at h
  split at h
  next => cases h
  next => cases h; exact ⟨⟨rfl, rfl, rfl, rfl, rfl, rfl, rfl, rfl, id⟩, rfl⟩
  next => cases h; exact ⟨⟨rfl, rfl, rfl, rfl, rfl, rfl, rfl, rfl, id⟩, rfl⟩
  next => cases h; exact ⟨⟨rfl, rfl, rfl, rfl, rfl, rfl, rfl, rfl, id⟩, rfl⟩
  next => cases h; exact ⟨⟨rfl, rfl, rfl, rfl, rfl, rfl, rfl, rfl, id⟩, rfl⟩
  next command _ =>
    rcases hexecute : s.executeConsoleCommand command with fault | s₁
    · rw [hexecute] at h
      cases h
    · rw [hexecute] at h
      cases h
      rw [executeConsoleCommand_ok hexecute]
      exact ⟨⟨rfl, rfl, rfl, rfl, rfl, rfl, rfl, rfl, id⟩, rfl⟩
  next => cases h; exact ⟨⟨rfl, rfl, rfl, rfl, rfl, rfl, rfl, rfl, id⟩, rfl⟩
  next => cases h; exact ⟨⟨rfl, rfl, rfl, rfl, rfl, rfl, rfl, rfl, id⟩, rfl⟩
  next => cases h

end Frames

section MainThread

variable {s s' : Root} {ok : Bool}

theorem Past.no_calls (hcalls : s.Calls) (h : s.Past) (t : Nat) : s.authenticator.callers t = .outside := by
  by_contra hcall
  have hat := (hcalls.callers t hcall).2
  rcases h with habsent | hleaving
  · cases habsent.symm.trans hat
  · cases hleaving with
    | notify h => cases h.symm.trans hat
    | assign h => cases h.symm.trans hat
    | pause h _ => cases h.symm.trans hat
    | testTerminate h _ => cases h.symm.trans hat
    | ended h => cases h.symm.trans hat

/-- The main thread goes on outside the authenticator. -/
theorem Calls.main_on (hcalls : s.Calls) (hsame : s'.authenticator = s.authenticator)
    (hticker : s'.ticker = s.ticker) (hfrom : s.main ≠ .joinAuthenticator) (hto : s'.main ≠ .joinAuthenticator) :
    s'.Calls where
  sound := by rw [hsame]; exact hcalls.sound
  callers t ht := by
    rw [hsame] at ht
    rw [hticker]
    exact hcalls.callers t ht
  owner := by
    rw [hsame]
    exact ⟨fun _ => hto, fun _ => hcalls.owner.mpr hfrom⟩
  stopping h := absurd h hto

/-- The main thread goes on where the tick thread makes no call, before and after. -/
theorem Calls.main_past (hcalls : s.Calls) (hsame : s'.authenticator = s.authenticator)
    (hpast : s.Past) (hfrom : s.main ≠ .joinAuthenticator) (hto : s'.main ≠ .joinAuthenticator) :
    s'.Calls where
  sound := by rw [hsame]; exact hcalls.sound
  callers t ht := by
    rw [hsame] at ht
    exact absurd (hpast.no_calls hcalls t) ht
  owner := by
    rw [hsame]
    exact ⟨fun _ => hto, fun _ => hcalls.owner.mpr hfrom⟩
  stopping h := absurd h hto

theorem startAuthenticator_kept (hphase : s.Phase) (hcalls : s.Calls) (hmain : s.main = .startAuthenticator)
    (h : s.startAuthenticator ok = .ok s') : s'.Phase ∧ s'.Calls := by
  simp only [Phase, hmain] at hphase
  obtain ⟨hlive, hidle, hfresh⟩ := hphase
  have howner : s.authenticator.owner = .outside := hcalls.owner.mpr (by rw [hmain]; decide)
  have hnone : ∀ t, s.authenticator.callers t = .outside := Past.no_calls hcalls (.inl hidle.ticker)
  unfold startAuthenticator at h
  split at h
  next =>
    split at h
    next authenticator hstart =>
      cases h
      have hsound := hcalls.sound.start hstart
      unfold AuthenticatorQueue.start at hstart
      rw [if_pos ⟨howner, hidle.execute⟩] at hstart
      cases hstart
      refine ⟨⟨hlive, hidle.ticker, hfresh.restarting, hfresh.event, hfresh.goOn⟩, ?_⟩
      exact ⟨hsound, fun t ht => absurd (hnone t) ht, ⟨fun _ => by rintro ⟨⟩, fun _ => howner⟩, by rintro ⟨⟩⟩
    next => cases h
  next =>
    cases h
    refine ⟨⟨hlive, hidle.ticker, hfresh.restarting, hfresh.event, hfresh.goOn⟩, ?_⟩
    have hsound : ({ s.authenticator with shouldTerminate := false } : AuthenticatorQueue).Sound :=
      .of_plain (by change AuthenticatorQueue.plain s.authenticator.execute = true; rw [hidle.execute]; rfl)
        hcalls.sound.history hcalls.sound.caller_holds hcalls.sound.execute_holds
    exact ⟨hsound, fun t ht => absurd (hnone t) ht, ⟨fun _ => by rintro ⟨⟩, fun _ => howner⟩, by rintro ⟨⟩⟩

theorem stopAuthenticator_kept (hphase : s.Phase) (hcalls : s.Calls) (hmain : s.main = .stopAuthenticator)
    (h : s.mainStep ok = .ok s') : s'.Phase ∧ s'.Calls := by
  simp only [Phase, hmain] at hphase
  obtain ⟨hlive, hpast⟩ := hphase
  simp only [mainStep, hmain, onAuthenticator] at h
  rcases hstop : s.authenticator.stop with _ | authenticator
  · rw [hstop] at h
    cases h
  · rw [hstop] at h
    cases h
    have hsound := hcalls.sound.stop hstop
    unfold AuthenticatorQueue.stop at hstop
    split at hstop
    next =>
      cases hstop
      refine ⟨⟨hlive, hpast.of_same rfl id⟩, ?_⟩
      exact ⟨hsound, fun t ht => absurd (hpast.no_calls hcalls t) ht, ⟨by rintro ⟨⟩, fun hne => absurd rfl hne⟩,
        fun _ => rfl⟩
    next => cases hstop

theorem ownerStep_cases {q q' : AuthenticatorQueue} (h : q.ownerStep = some q') :
    q'.callers = q.callers ∧ q'.shouldTerminate = q.shouldTerminate ∧
      (q'.owner = .outside → q'.execute = .absent) := by
  unfold AuthenticatorQueue.ownerStep at h
  split at h
  next => cases h
  next => cases h; exact ⟨rfl, rfl, by rintro ⟨⟩⟩
  next => cases h; exact ⟨rfl, rfl, by rintro ⟨⟩⟩
  next =>
    split at h
    next => cases h; exact ⟨rfl, rfl, fun _ => rfl⟩
    next => cases h

theorem joinAuthenticator_kept (hphase : s.Phase) (hcalls : s.Calls) (hmain : s.main = .joinAuthenticator)
    (h : s.joinAuthenticator = .ok s') : s'.Phase ∧ s'.Calls := by
  simp only [Phase, hmain] at hphase
  obtain ⟨hlive, hpast⟩ := hphase
  unfold joinAuthenticator at h
  split at h
  next q howner =>
    cases h
    obtain ⟨hcallers, hterminate, hjoined⟩ := ownerStep_cases howner
    have hsound := hcalls.sound.ownerStep howner
    have hnone : ∀ t, q.callers t = .outside := fun t => by rw [hcallers]; exact hpast.no_calls hcalls t
    have hstopping : q.shouldTerminate = true := hterminate.trans (hcalls.stopping hmain)
    by_cases hout : q.owner = .outside
    · rw [if_pos hout]
      refine ⟨⟨hlive, hpast.of_same rfl id, hjoined hout⟩, ?_⟩
      exact ⟨hsound, fun t ht => absurd (hnone t) ht, ⟨fun _ => by rintro ⟨⟩, fun _ => hout⟩, by rintro ⟨⟩⟩
    · rw [if_neg hout]
      refine ⟨⟨hlive, hpast.of_same rfl id⟩, ?_⟩
      exact ⟨hsound, fun t ht => absurd (hnone t) ht, ⟨fun h => absurd h hout, fun hne => absurd rfl hne⟩,
        fun _ => hstopping⟩
  next => cases h

theorem wait_kept (hphase : s.Phase) (hcalls : s.Calls) (hmain : s.main = .wait) (h : s.mainStep ok = .ok s') :
    s'.Phase ∧ s'.Calls := by
  simp only [Phase, hmain] at hphase
  obtain ⟨hlive, hanswering⟩ := hphase
  have hfrom : s.main ≠ .joinAuthenticator := by rw [hmain]; decide
  simp only [mainStep, hmain] at h
  split at h
  next event hwait =>
    cases h
    obtain ⟨hset, _⟩ := CEvent.wait_eq_some hwait
    refine ⟨⟨hlive, ?_⟩, hcalls.main_on rfl rfl hfrom (by rintro ⟨⟩)⟩
    cases hanswering with
    | working _ _ hunset _ => cases hset.symm.trans hunset
    | clearing _ hunset _ => cases hset.symm.trans hunset
    | setting _ hunset _ => cases hset.symm.trans hunset
    | answered _ hleaving => exact .inr (hleaving.of_same rfl id)
  next hwait =>
    cases h
    have hunset := CEvent.wait_eq_none.mp hwait
    exact ⟨⟨hlive, hanswering.of_same rfl rfl rfl rfl, fun hset => absurd (hunset.symm.trans hset) (by decide)⟩,
      hcalls.main_on rfl rfl hfrom (by rintro ⟨⟩)⟩

/-- Every step of the main thread. -/
theorem mainStep_kept (hphase : s.Phase) (hcalls : s.Calls) (h : s.mainStep ok = .ok s') :
    s'.Phase ∧ s'.Calls := by
  cases hmain : s.main with
  | startAuthenticator =>
    simp only [mainStep, hmain] at h
    exact startAuthenticator_kept hphase hcalls hmain h
  | stopAuthenticator => exact stopAuthenticator_kept hphase hcalls hmain h
  | joinAuthenticator =>
    simp only [mainStep, hmain] at h
    exact joinAuthenticator_kept hphase hcalls hmain h
  | wait => exact wait_kept hphase hcalls hmain h
  | sleep =>
    simp only [mainStep, hmain] at h
    cases h
  | returned =>
    simp only [mainStep, hmain] at h
    cases h
  | begin =>
    simp only [mainStep, hmain] at h
    simp only [Phase, hmain] at hphase
    have hfrom : s.main ≠ .joinAuthenticator := by rw [hmain]; decide
    split at h
    next =>
      cases h
      exact ⟨⟨hphase.1, hphase.2.ticker, hphase.2.execute⟩, hcalls.main_on rfl rfl hfrom (by intro hat; cases hat)⟩
    next =>
      cases h
      exact ⟨⟨hphase.1, hphase.2.ticker, hphase.2.execute⟩, hcalls.main_on rfl rfl hfrom (by intro hat; cases hat)⟩
  | testStop =>
    simp only [mainStep, hmain, Except.ok.injEq] at h
    subst h
    simp only [Phase, hmain] at hphase
    have hfrom : s.main ≠ .joinAuthenticator := by rw [hmain]; decide
    by_cases hstop : s.shouldStop = true
    · rw [if_pos hstop]
      exact ⟨⟨hphase.1, hphase.2.ticker, hphase.2.execute⟩, hcalls.main_on rfl rfl hfrom (by rintro ⟨⟩)⟩
    · rw [if_neg hstop]
      exact ⟨⟨hphase.1, hphase.2.ticker, hphase.2.execute⟩, hcalls.main_on rfl rfl hfrom (by rintro ⟨⟩)⟩
  | clearRestart =>
    simp only [mainStep, hmain, Except.ok.injEq] at h
    subst h
    simp only [Phase, hmain] at hphase
    exact ⟨⟨hphase.1, hphase.2.ticker, hphase.2.execute⟩, hcalls.main_on rfl rfl (by rw [hmain]; decide) (by rintro ⟨⟩)⟩
  | create =>
    simp only [mainStep, hmain, Except.ok.injEq] at h
    subst h
    simp only [Phase, hmain] at hphase
    exact ⟨⟨rfl, ⟨hphase.2.ticker, hphase.2.execute⟩, ⟨rfl, rfl, rfl⟩, rfl⟩,
      hcalls.main_on rfl rfl (by rw [hmain]; decide) (by rintro ⟨⟩)⟩
  | initServer =>
    simp only [Phase, hmain] at hphase
    obtain ⟨hlive, hidle, hfresh, hconnected⟩ := hphase
    simp only [mainStep, hmain, hconnected, Bool.false_eq_true, if_false, Except.ok.injEq] at h
    subst h
    exact ⟨⟨hlive, ⟨hidle.ticker, hidle.execute⟩, hfresh.restarting, hfresh.event, hfresh.goOn⟩,
      hcalls.main_on rfl rfl (by rw [hmain]; decide) (by rintro ⟨⟩)⟩
  | listen =>
    simp only [Phase, hmain] at hphase
    obtain ⟨hlive, hticker, hfresh⟩ := hphase
    have hfrom : s.main ≠ .joinAuthenticator := by rw [hmain]; decide
    simp only [mainStep, hmain] at h
    split at h
    next =>
      cases h
      exact ⟨⟨hlive, hticker, ⟨hfresh.restarting, hfresh.event, hfresh.goOn⟩, rfl⟩,
        hcalls.main_on rfl rfl hfrom (by rintro ⟨⟩)⟩
    next =>
      cases h
      exact ⟨⟨hlive, hticker⟩, hcalls.main_on rfl rfl hfrom (by rintro ⟨⟩)⟩
  | startTicks =>
    simp only [Phase, hmain] at hphase
    obtain ⟨hlive, hticker, hfresh, hlistening⟩ := hphase
    have hfrom : s.main ≠ .joinAuthenticator := by rw [hmain]; decide
    simp only [mainStep, hmain, hticker, if_true] at h
    split at h
    next =>
      cases h
      exact ⟨⟨hlive, rfl, ⟨hfresh.restarting, hfresh.event, hfresh.goOn⟩, hlistening⟩,
        hcalls.main_past rfl (.inl hticker) hfrom (by rintro ⟨⟩)⟩
    next =>
      cases h
      exact ⟨⟨hlive, rfl⟩, hcalls.main_past rfl (.inl hticker) hfrom (by rintro ⟨⟩)⟩
  | startInput =>
    simp only [mainStep, hmain, Except.ok.injEq] at h
    subst h
    simp only [Phase, hmain] at hphase
    obtain ⟨hlive, hworks, hfresh, hlistening⟩ := hphase
    exact ⟨⟨hlive, hworks, ⟨hfresh.restarting, hfresh.event, hfresh.goOn⟩, hlistening⟩,
      hcalls.main_on rfl rfl (by rw [hmain]; decide) (by rintro ⟨⟩)⟩
  | poll =>
    simp only [mainStep, hmain, Except.ok.injEq] at h
    subst h
    simp only [Phase, hmain] at hphase
    obtain ⟨hlive, hworks, hfresh, hlistening⟩ := hphase
    have hfrom : s.main ≠ .joinAuthenticator := by rw [hmain]; decide
    split
    next =>
      exact ⟨⟨hlive, hworks, ⟨hfresh.restarting, hfresh.event, hfresh.goOn⟩, hlistening⟩,
        hcalls.main_on rfl rfl hfrom (by rintro ⟨⟩)⟩
    next =>
      exact ⟨⟨hlive, hworks, ⟨hfresh.restarting, hfresh.event, hfresh.goOn⟩, hlistening⟩,
        hcalls.main_on rfl rfl hfrom (by rintro ⟨⟩)⟩
  | noteTerminate =>
    simp only [mainStep, hmain, Except.ok.injEq] at h
    subst h
    simp only [Phase, hmain] at hphase
    obtain ⟨hlive, hworks, hfresh, hlistening⟩ := hphase
    exact ⟨⟨hlive, hworks, ⟨hfresh.restarting, hfresh.event, hfresh.goOn⟩, hlistening⟩,
      hcalls.main_on rfl rfl (by rw [hmain]; decide) (by rintro ⟨⟩)⟩
  | closeHandle =>
    simp only [Phase, hmain] at hphase
    obtain ⟨hlive, hworks, hfresh, hlistening⟩ := hphase
    simp only [mainStep, hmain, hlistening, if_true, Except.ok.injEq] at h
    subst h
    exact ⟨⟨hlive, hworks, hfresh.restarting, hfresh.event, hfresh.goOn⟩,
      hcalls.main_on rfl rfl (by rw [hmain]; decide) (by rintro ⟨⟩)⟩
  | setRestarting =>
    simp only [mainStep, hmain, Except.ok.injEq] at h
    subst h
    simp only [Phase, hmain] at hphase
    obtain ⟨hlive, hworks, hfresh⟩ := hphase
    exact ⟨⟨hlive, .working hworks rfl hfresh.event hfresh.goOn⟩,
      hcalls.main_on rfl rfl (by rw [hmain]; decide) (by rintro ⟨⟩)⟩
  | destroyClients =>
    simp only [mainStep, hmain, Except.ok.injEq] at h
    subst h
    simp only [Phase, hmain] at hphase
    exact ⟨⟨hphase.1, hphase.2.of_same rfl id⟩, hcalls.main_on rfl rfl (by rw [hmain]; decide) (by rintro ⟨⟩)⟩
  | giveUp =>
    simp only [mainStep, hmain, Except.ok.injEq] at h
    subst h
    simp only [Phase, hmain] at hphase
    exact ⟨⟨hphase.1, .inl hphase.2⟩, hcalls.main_on rfl rfl (by rw [hmain]; decide) (by rintro ⟨⟩)⟩
  | deleteServer =>
    simp only [mainStep, hmain, Except.ok.injEq] at h
    subst h
    simp only [Phase, hmain] at hphase
    obtain ⟨_, hpast, habsent⟩ := hphase
    exact ⟨⟨rfl, hpast.of_same rfl id, habsent⟩, hcalls.main_on rfl rfl (by rw [hmain]; decide) (by rintro ⟨⟩)⟩
  | endTicks =>
    simp only [mainStep, hmain, Except.ok.injEq] at h
    subst h
    simp only [Phase, hmain] at hphase
    obtain ⟨hdying, hpast, habsent⟩ := hphase
    exact ⟨⟨hdying, hpast.of_same rfl fun _ => rfl, habsent⟩,
      hcalls.main_on rfl rfl (by rw [hmain]; decide) (by rintro ⟨⟩)⟩
  | joinTicks =>
    simp only [Phase, hmain] at hphase
    obtain ⟨_, hpast, habsent⟩ := hphase
    simp only [mainStep, hmain] at h
    split at h
    next =>
      cases h
      exact ⟨⟨rfl, rfl, habsent⟩, hcalls.main_past rfl hpast (by rw [hmain]; decide) (by rintro ⟨⟩)⟩
    next => cases h
  | clearServer =>
    simp only [mainStep, hmain, Except.ok.injEq] at h
    subst h
    simp only [Phase, hmain] at hphase
    exact ⟨⟨rfl, hphase.2.ticker, hphase.2.execute⟩,
      hcalls.main_on rfl rfl (by rw [hmain]; decide) (by rintro ⟨⟩)⟩

end MainThread

section OtherThreads

variable {s s' : Root} {request : Option User} {q q' : AuthenticatorQueue} {t : Nat}

theorem notifyOne_absent (h : q.execute = .absent) : q.notifyOne.execute = .absent := by
  obtain heq | ⟨hsleep, _⟩ := AuthenticatorQueue.notifyOne_cases (s := q)
  · rw [heq]
    exact h
  · cases h.symm.trans hsleep

/-- What a call of `Authenticate` leaves alone. -/
structure CallFrame (q q' : AuthenticatorQueue) (t : Nat) : Prop where
  owner : q'.owner = q.owner
  shouldTerminate : q'.shouldTerminate = q.shouldTerminate
  callers : ∀ t', t' ≠ t → q'.callers t' = q.callers t'
  execute : q.execute = .absent → q'.execute = .absent

theorem authenticate_frame {user : User} (h : q.authenticate t user = some q') : CallFrame q q' t := by
  unfold AuthenticatorQueue.authenticate at h
  split at h
  next =>
    cases h
    exact ⟨rfl, rfl, fun t' ht' => Function.update_of_ne ht' _ _, id⟩
  next => cases h

theorem callerStep_frame (h : q.callerStep t = some q') : CallFrame q q' t := by
  unfold AuthenticatorQueue.callerStep at h
  split at h
  next => cases h
  next =>
    split at h
    next => cases h; exact ⟨rfl, rfl, fun t' ht' => Function.update_of_ne ht' _ _, id⟩
    next => cases h
  next => cases h; exact ⟨rfl, rfl, fun t' ht' => Function.update_of_ne ht' _ _, id⟩
  next => cases h; exact ⟨rfl, rfl, fun t' ht' => Function.update_of_ne ht' _ _, id⟩
  next => cases h; exact ⟨rfl, rfl, fun t' ht' => Function.update_of_ne ht' _ _, notifyOne_absent⟩
  next => cases h; exact ⟨rfl, rfl, fun t' ht' => Function.update_of_ne ht' _ _, id⟩

/-- What the authenticator's thread leaves alone. -/
structure ExecuteFrame (q q' : AuthenticatorQueue) : Prop where
  owner : q'.owner = q.owner
  shouldTerminate : q'.shouldTerminate = q.shouldTerminate
  callers : q'.callers = q.callers
  execute : q.execute ≠ .absent

theorem executeStep_frame (h : q.executeStep = some q') : ExecuteFrame q q' := by
  unfold AuthenticatorQueue.executeStep at h
  split at h <;> try cases h
  next hat =>
    split at h
    next => cases h; exact ⟨rfl, rfl, rfl, by rw [hat]; rintro ⟨⟩⟩
    next => cases h
  next hat => exact ⟨rfl, rfl, rfl, by rw [hat]; rintro ⟨⟩⟩
  next hat => exact ⟨rfl, rfl, rfl, by rw [hat]; rintro ⟨⟩⟩
  next hat => exact ⟨rfl, rfl, rfl, by rw [hat]; rintro ⟨⟩⟩
  next hat =>
    split at h
    next => cases h; exact ⟨rfl, rfl, rfl, by rw [hat]; rintro ⟨⟩⟩
    next => cases h; exact ⟨rfl, rfl, rfl, by rw [hat]; rintro ⟨⟩⟩
  next hat =>
    split at h
    next => cases h; exact ⟨rfl, rfl, rfl, by rw [hat]; rintro ⟨⟩⟩
    next => cases h
  next hat =>
    split at h
    next => cases h; exact ⟨rfl, rfl, rfl, by rw [hat]; rintro ⟨⟩⟩
    next => cases h; exact ⟨rfl, rfl, rfl, by rw [hat]; rintro ⟨⟩⟩
  next hat =>
    split at h
    next => cases h
    next => cases h; exact ⟨rfl, rfl, rfl, by rw [hat]; rintro ⟨⟩⟩
  next hat => exact ⟨rfl, rfl, rfl, by rw [hat]; rintro ⟨⟩⟩

theorem onAuthenticator_ok {f : AuthenticatorQueue → Option AuthenticatorQueue}
    (h : s.onAuthenticator f = .ok s') :
    ∃ q, f s.authenticator = some q ∧ s' = { s with authenticator := q } := by
  unfold onAuthenticator at h
  split at h
  next q hq =>
    cases h
    exact ⟨q, hq, rfl⟩
  next => cases h

theorem authenticatorStep_ok (h : s.authenticatorStep = .ok s') :
    ∃ q, s.authenticator.executeStep = some q ∧ s' = { s with authenticator := q } := by
  unfold authenticatorStep at h
  split at h
  next =>
    split at h
    next => exact onAuthenticator_ok h
    next => cases h
  next => exact onAuthenticator_ok h

theorem authenticatorStep_kept (hphase : s.Phase) (hcalls : s.Calls) (h : s.authenticatorStep = .ok s') :
    s'.Phase ∧ s'.Calls := by
  obtain ⟨q, hstep, rfl⟩ := authenticatorStep_ok h
  have hframe := executeStep_frame hstep
  have haside : Aside s { s with authenticator := q } :=
    ⟨rfl, rfl, rfl, rfl, rfl, rfl, rfl, rfl, fun habsent => absurd habsent hframe.execute⟩
  refine ⟨haside.phase hphase, hcalls.sound.executeStep hstep, fun t ht => ?_, ?_, fun hmain => ?_⟩
  · rw [hframe.callers] at ht
    exact hcalls.callers t ht
  · rw [hframe.owner]
    exact hcalls.owner
  · exact hframe.shouldTerminate.trans (hcalls.stopping hmain)

theorem spuriousAuthenticator_kept (hphase : s.Phase) (hcalls : s.Calls)
    (h : s.onAuthenticator AuthenticatorQueue.spurious = .ok s') : s'.Phase ∧ s'.Calls := by
  obtain ⟨q, hwake, rfl⟩ := onAuthenticator_ok h
  unfold AuthenticatorQueue.spurious at hwake
  split at hwake
  next hsleep =>
    cases hwake
    have haside : Aside s { s with authenticator := { s.authenticator with execute := .wait } } :=
      ⟨rfl, rfl, rfl, rfl, rfl, rfl, rfl, rfl, fun habsent => by cases habsent.symm.trans hsleep⟩
    exact ⟨haside.phase hphase, hcalls.sound.wake hsleep, hcalls.callers, hcalls.owner, hcalls.stopping⟩
  next => cases hwake

theorem spurious_kept (hphase : s.Phase) (hcalls : s.Calls) (h : s.spurious = .ok s') : s'.Phase ∧ s'.Calls := by
  unfold spurious at h
  split at h
  next hmain =>
    cases h
    simp only [Phase, hmain] at hphase
    exact ⟨⟨hphase.1, hphase.2.1.of_same rfl rfl rfl rfl⟩,
      hcalls.main_on rfl rfl (by rw [hmain]; decide) (by rintro ⟨⟩)⟩
  next => cases h

end OtherThreads

section TickThread

variable {s s' : Root} {request : Option User}

/-- What a step of the tick thread leaves alone while it works. -/
structure Round (s s' : Root) : Prop where
  main : s'.main = s.main
  server : s'.server = s.server
  listening : s'.listening = s.listening
  restarting : s'.restarting = s.restarting
  restartEvent : s'.restartEvent = s.restartEvent
  goOn : s'.tickShouldTerminate = false
  ticker : s'.ticker.works = true ∨ s.restarting = true ∧ s'.ticker = .clearRestarting

theorem tickerStep_ok (h : s.tickerStep request = .ok s') :
    s.tick request = .ok s' ∧ s.ticker ≠ .absent ∧ s.ticker ≠ .ended ∧ s.serverGone = false := by
  unfold tickerStep at h
  split at h
  next => cases h
  next hthere =>
    split at h
    next => cases h
    next hserver =>
      exact ⟨h, fun hat => hthere (.inl hat), fun hat => hthere (.inr hat), Bool.eq_false_iff.mpr hserver⟩

theorem tickClients_round (hgo : s.tickShouldTerminate = false) (hat : s.ticker = .clients)
    (h : s.tickClients request = .ok s') : Round s s' := by
  unfold tickClients at h
  split at h
  next =>
    split at h
    next =>
      cases h
      exact ⟨rfl, rfl, rfl, rfl, rfl, hgo, .inl rfl⟩
    next =>
      obtain ⟨q, _, rfl⟩ := onAuthenticator_ok h
      exact ⟨rfl, rfl, rfl, rfl, rfl, hgo, .inl (by rw [hat]; rfl)⟩
  next =>
    obtain ⟨q, _, rfl⟩ := onAuthenticator_ok h
    exact ⟨rfl, rfl, rfl, rfl, rfl, hgo, .inl (by rw [hat]; rfl)⟩

theorem tick_round (hworks : s.ticker.works = true) (hgo : s.tickShouldTerminate = false)
    (h : s.tick request = .ok s') : Round s s' := by
  unfold tick at h
  split at h
  next => cases h
  next =>
    cases h
    exact ⟨rfl, rfl, rfl, rfl, rfl, hgo, .inl (by simp only [hgo]; rfl)⟩
  next =>
    cases h
    exact ⟨rfl, rfl, rfl, rfl, rfl, hgo, .inl rfl⟩
  next =>
    cases h
    exact ⟨rfl, rfl, rfl, rfl, rfl, hgo, .inl rfl⟩
  next command todo _ =>
    rcases hexecute : s.executeConsoleCommand command with fault | s₁
    · rw [hexecute] at h
      cases h
    · rw [hexecute] at h
      cases h
      rw [executeConsoleCommand_ok hexecute]
      exact ⟨rfl, rfl, rfl, rfl, rfl, hgo, .inl rfl⟩
  next hat => exact tickClients_round hgo hat h
  next =>
    cases h
    refine ⟨rfl, rfl, rfl, rfl, rfl, hgo, ?_⟩
    by_cases hasked : s.restarting = true
    · exact .inr ⟨hasked, if_pos hasked⟩
    · exact .inl (by simp only [hasked]; rfl)
  next hat =>
    rw [hat] at hworks
    cases hworks
  next hat =>
    rw [hat] at hworks
    cases hworks
  next hat =>
    rw [hat] at hworks
    cases hworks
  next goOn hat =>
    cases h
    cases goOn with
    | true => exact ⟨rfl, rfl, rfl, rfl, rfl, rfl, .inl rfl⟩
    | false =>
      rw [hat] at hworks
      cases hworks
  next =>
    cases h
    exact ⟨rfl, rfl, rfl, rfl, rfl, hgo, .inl rfl⟩
  next => cases h

/-- After its last round the tick thread only notifies and ends. -/
theorem tick_leaving (hleaving : s.Leaving) (h : s.tick request = .ok s') :
    s'.Leaving ∧ s'.server = s.server ∧ s'.authenticator = s.authenticator ∧
      s'.restartEvent = s.restartEvent ∧ s'.ticker ≠ .notify ∧
      (s'.main = s.main ∨ s.ticker = .notify ∧ s.main = .sleep ∧ s'.main = .wait) := by
  cases hleaving with
  | notify hat =>
    simp only [tick, hat, notifyRestartEvent] at h
    split at h
    next =>
      cases h
      refine ⟨.assign rfl, rfl, rfl, rfl, by rintro ⟨⟩, ?_⟩
      by_cases hsleep : s.main = .sleep
      · exact .inr ⟨hat, hsleep, if_pos hsleep⟩
      · exact .inl (if_neg hsleep)
    next => cases h
  | assign hat =>
    simp only [tick, hat, Except.ok.injEq] at h
    subst h
    exact ⟨.pause rfl rfl, rfl, rfl, rfl, by rintro ⟨⟩, .inl rfl⟩
  | pause hat hend =>
    simp only [tick, hat, Except.ok.injEq] at h
    subst h
    exact ⟨.testTerminate rfl hend, rfl, rfl, rfl, by rintro ⟨⟩, .inl rfl⟩
  | testTerminate hat hend =>
    simp only [tick, hat, hend, if_true, Except.ok.injEq] at h
    subst h
    exact ⟨.ended rfl, rfl, rfl, rfl, by rintro ⟨⟩, .inl rfl⟩
  | ended hat =>
    simp only [tick, hat] at h
    cases h

/-- One step of the answer to `Shutdown`. -/
theorem tick_answering (hanswering : s.Answering) (hlive : s.server = .live) (h : s.tick request = .ok s') :
    s'.Answering ∧ s'.server = .live ∧ (s'.main = s.main ∨ s'.main = .wait) := by
  cases hanswering with
  | working hworks hasked hevent hgo =>
    have hround := tick_round hworks hgo h
    have hevent' : s'.restartEvent.shouldContinue = false := by rw [hround.restartEvent]; exact hevent
    refine ⟨?_, hround.server.trans hlive, .inl hround.main⟩
    rcases hround.ticker with hworks' | ⟨_, hat'⟩
    · exact .working hworks' (hround.restarting.trans hasked) hevent' hround.goOn
    · exact .clearing hat' hevent' hround.goOn
  | clearing hat hevent hgo =>
    simp only [tick, hat, Except.ok.injEq] at h
    subst h
    exact ⟨.setting rfl hevent hgo, hlive, .inl rfl⟩
  | setting hat hevent hgo =>
    simp only [tick, hat, setRestartEvent, hlive, if_true, Except.ok.injEq] at h
    subst h
    exact ⟨.answered rfl (.notify rfl), rfl, .inl rfl⟩
  | answered hset hleaving =>
    obtain ⟨hleaving', hserver, _, hevent, _, hmain⟩ := tick_leaving hleaving h
    exact ⟨.answered (by rw [hevent]; exact hset) hleaving', hserver.trans hlive,
      hmain.imp_right fun hwoken => hwoken.2.2⟩

/-- The main thread does not sleep through the notification. -/
theorem tick_asleep (hanswering : s.Answering) (hlive : s.server = .live) (hmain : s.main = .sleep)
    (hnotify : s.restartEvent.shouldContinue = true → s.ticker = .notify) (h : s.tick request = .ok s')
    (hmain' : s'.main = .sleep) (hset' : s'.restartEvent.shouldContinue = true) : s'.ticker = .notify := by
  cases hanswering with
  | working hworks _ hevent hgo =>
    have hround := tick_round hworks hgo h
    rw [hround.restartEvent, hevent] at hset'
    cases hset'
  | clearing hat hevent _ =>
    simp only [tick, hat, Except.ok.injEq] at h
    subst h
    cases hevent.symm.trans hset'
  | setting hat _ _ =>
    simp only [tick, hat, setRestartEvent, hlive, if_true, Except.ok.injEq] at h
    subst h
    rfl
  | answered hset _ =>
    simp only [tick, hnotify hset, notifyRestartEvent, hlive, hmain, if_true, Except.ok.injEq] at h
    subst h
    cases hmain'

/-- The tick thread makes its calls in `TickClients`, and comes back from them before it goes on. -/
theorem tick_calls (hcalls : s.Calls) (hmain : s.main ≠ .joinAuthenticator)
    (hmain' : s'.main ≠ .joinAuthenticator) (h : s.tick request = .ok s') : s'.Calls := by
  by_cases hat : s.ticker = .clients
  · simp only [tick, hat, tickClients] at h
    split at h
    next hout =>
      have hnone : ∀ t, s.authenticator.callers t = .outside := fun t => by
        by_contra hcall
        have ht := (hcalls.callers t hcall).1
        rw [ht] at hcall
        exact hcall hout
      split at h
      next =>
        cases h
        exact ⟨hcalls.sound, fun t ht => absurd (hnone t) ht, hcalls.owner, hcalls.stopping⟩
      next user =>
        obtain ⟨q, hstep, rfl⟩ := onAuthenticator_ok h
        have hframe := authenticate_frame hstep
        refine ⟨hcalls.sound.authenticate hstep, fun t ht => ⟨?_, hat⟩, ?_, fun h => absurd h hmain⟩
        · by_contra hother
          exact ht ((hframe.callers t hother).trans (hnone t))
        · rw [hframe.owner]
          exact hcalls.owner
    next =>
      obtain ⟨q, hstep, rfl⟩ := onAuthenticator_ok h
      have hframe := callerStep_frame hstep
      refine ⟨hcalls.sound.callerStep hstep, fun t ht => ⟨?_, hat⟩, ?_, fun h => absurd h hmain⟩
      · by_contra hother
        rw [hframe.callers t hother] at ht
        exact hother (hcalls.callers t ht).1
      · rw [hframe.owner]
        exact hcalls.owner
  · have hnone : ∀ t, s.authenticator.callers t = .outside := fun t => by
      by_contra hcall
      exact hat (hcalls.callers t hcall).2
    have hsame : s'.authenticator = s.authenticator := by
      unfold tick at h
      split at h
      next => cases h
      next => cases h; rfl
      next => cases h; rfl
      next => cases h; rfl
      next command todo _ =>
        rcases hexecute : s.executeConsoleCommand command with fault | s₁
        · rw [hexecute] at h
          cases h
        · rw [hexecute] at h
          cases h
          exact (executeConsoleCommand_aside hexecute).2
      next hclients => exact absurd hclients hat
      next => cases h; rfl
      next => cases h; rfl
      next =>
        unfold setRestartEvent at h
        split at h
        next => cases h; rfl
        next => cases h
      next =>
        unfold notifyRestartEvent at h
        split at h
        next => cases h; rfl
        next => cases h
      next => cases h; rfl
      next => cases h; rfl
      next => cases h
    refine ⟨by rw [hsame]; exact hcalls.sound, fun t ht => ?_, ?_, fun h => absurd h hmain'⟩
    · rw [hsame] at ht
      exact absurd (hnone t) ht
    · rw [hsame]
      exact ⟨fun _ => hmain', fun _ => hcalls.owner.mpr hmain⟩

theorem tickerStep_kept (hphase : s.Phase) (hcalls : s.Calls) (h : s.tickerStep request = .ok s') :
    s'.Phase ∧ s'.Calls := by
  obtain ⟨htick, hthere, _, _⟩ := tickerStep_ok h
  -- the phases in which the tick thread works, and nobody has asked it to end
  have hround : ∀ (_ : s.ticker.works = true) (_ : s.Fresh), Round s s' ∧ s'.ticker.works = true ∧ s'.Fresh :=
    fun hworks hfresh => by
      have hround := tick_round hworks hfresh.goOn htick
      refine ⟨hround, ?_, hround.restarting.trans hfresh.restarting, ?_, hround.goOn⟩
      · exact hround.ticker.resolve_right fun hasked => by cases hfresh.restarting.symm.trans hasked.1
      · rw [hround.restartEvent]
        exact hfresh.event
  -- the phases in which it has had its last round
  have hpast : s.main ≠ .sleep → s.Past → s'.Past ∧ s'.main = s.main ∧ s'.server = s.server ∧
      s'.authenticator = s.authenticator := fun hawake hpast => by
    have hleaving := hpast.resolve_left hthere
    obtain ⟨hleaving', hserver, hsame, _, _, hmain⟩ := tick_leaving hleaving htick
    exact ⟨.inr hleaving', hmain.resolve_right fun hwoken => hawake hwoken.2.1, hserver, hsame⟩
  have hkeep : s.main ≠ .joinAuthenticator → s'.main ≠ .joinAuthenticator → s'.Calls := fun hmain hmain' =>
    tick_calls hcalls hmain hmain' htick
  unfold Phase at hphase ⊢
  cases hmain : s.main <;> simp only [hmain] at hphase
  case begin | testStop | clearRestart | create | returned | clearServer =>
    exact absurd hphase.2.ticker hthere
  case initServer | startAuthenticator => exact absurd hphase.2.1.ticker hthere
  case listen | startTicks => exact absurd hphase.2.1 hthere
  case giveUp => exact absurd hphase.2 hthere
  case startInput | poll | noteTerminate | closeHandle =>
    obtain ⟨hlive, hworks, hfresh, hlistening⟩ := hphase
    obtain ⟨hround, hworks', hfresh'⟩ := hround hworks hfresh
    have hmain' := hround.main.trans hmain
    rw [hmain']
    exact ⟨⟨hround.server.trans hlive, hworks', hfresh', hround.listening.trans hlistening⟩,
      hkeep (by rw [hmain]; decide) (by rw [hmain']; decide)⟩
  case setRestarting =>
    obtain ⟨hlive, hworks, hfresh⟩ := hphase
    obtain ⟨hround, hworks', hfresh'⟩ := hround hworks hfresh
    have hmain' := hround.main.trans hmain
    rw [hmain']
    exact ⟨⟨hround.server.trans hlive, hworks', hfresh'⟩, hkeep (by rw [hmain]; decide) (by rw [hmain']; decide)⟩
  case wait =>
    obtain ⟨hanswering, hlive, hmain'⟩ := tick_answering hphase.2 hphase.1 htick
    have hmain' : s'.main = .wait := hmain'.elim (fun heq => heq.trans hmain) id
    rw [hmain']
    exact ⟨⟨hlive, hanswering⟩, hkeep (by rw [hmain]; decide) (by rw [hmain']; decide)⟩
  case sleep =>
    obtain ⟨hlive, hanswering, hnotify⟩ := hphase
    obtain ⟨hanswering', hlive', hmain'⟩ := tick_answering hanswering hlive htick
    rcases hmain' with heq | hmain'
    · have hmain' := heq.trans hmain
      rw [hmain']
      exact ⟨⟨hlive', hanswering', tick_asleep hanswering hlive hmain hnotify htick hmain'⟩,
        hkeep (by rw [hmain]; decide) (by rw [hmain']; decide)⟩
    · rw [hmain']
      exact ⟨⟨hlive', hanswering'⟩, hkeep (by rw [hmain]; decide) (by rw [hmain']; decide)⟩
  case destroyClients | stopAuthenticator =>
    obtain ⟨hpast', heq, hserver, _⟩ := hpast (by rw [hmain]; decide) hphase.2
    have hmain' := heq.trans hmain
    rw [hmain']
    exact ⟨⟨hserver.trans hphase.1, hpast'⟩, hkeep (by rw [hmain]; decide) (by rw [hmain']; decide)⟩
  case joinAuthenticator =>
    obtain ⟨hpast', heq, hserver, hsame⟩ := hpast (by rw [hmain]; decide) hphase.2
    rw [heq.trans hmain]
    refine ⟨⟨hserver.trans hphase.1, hpast'⟩, by rw [hsame]; exact hcalls.sound, fun t ht => ?_, ?_, fun _ => ?_⟩
    · rw [hsame] at ht
      exact absurd (hphase.2.no_calls hcalls t) ht
    · rw [hsame, heq]
      exact hcalls.owner
    · rw [hsame]
      exact hcalls.stopping hmain
  case deleteServer | endTicks | joinTicks =>
    obtain ⟨hpast', heq, hserver, hsame⟩ := hpast (by rw [hmain]; decide) hphase.2.1
    have hmain' := heq.trans hmain
    rw [hmain']
    exact ⟨⟨hserver.trans hphase.1, hpast', by rw [hsame]; exact hphase.2.2⟩,
      hkeep (by rw [hmain]; decide) (by rw [hmain']; decide)⟩

end TickThread

/-- What holds in every state of every run. -/
structure Ordered (s : Root) : Prop where
  phase : s.Phase
  calls : s.Calls

theorem initial_ordered (runAsService : Bool) : (initial runAsService).Ordered where
  phase := ⟨rfl, rfl, rfl⟩
  calls := ⟨AuthenticatorQueue.initial_sound, fun _ ht => absurd rfl ht, ⟨fun _ => by rintro ⟨⟩, fun _ => rfl⟩,
    by rintro ⟨⟩⟩

theorem step_ordered {s s' : Root} {a : RootAct} (hs : s.Ordered) (h : s.step a = .ok s') : s'.Ordered := by
  have haside : Aside s s' ∧ s'.authenticator = s.authenticator → s'.Ordered := fun h =>
    ⟨h.1.phase hs.phase, h.1.calls h.2 hs.calls⟩
  have hkept : s'.Phase ∧ s'.Calls → s'.Ordered := fun hkept => ⟨hkept.1, hkept.2⟩
  cases a with
  | main ok => exact hkept (mainStep_kept hs.phase hs.calls h)
  | ticker request => exact hkept (tickerStep_kept hs.phase hs.calls h)
  | authenticator => exact hkept (authenticatorStep_kept hs.phase hs.calls h)
  | input t line good => exact haside (inputStep_aside h)
  | spurious => exact hkept (spurious_kept hs.phase hs.calls h)
  | spuriousAuthenticator => exact hkept (spuriousAuthenticator_kept hs.phase hs.calls h)
  | terminate =>
    cases h
    exact haside ⟨⟨rfl, rfl, rfl, rfl, rfl, rfl, rfl, rfl, id⟩, rfl⟩
  | serviceStop =>
    cases h
    exact haside ⟨⟨rfl, rfl, rfl, rfl, rfl, rfl, rfl, rfl, id⟩, rfl⟩
  | queueBuiltIn command =>
    cases h
    exact haside queueBuiltIn_aside
  | queue command =>
    cases h
    exact haside ⟨⟨rfl, rfl, rfl, rfl, rfl, rfl, rfl, rfl, id⟩, rfl⟩

theorem reach_ordered {s s' : Root} {allowed : Root → RootAct → Prop} (h : rootMachine.Reach allowed s s')
    (hs : s.Ordered) : s'.Ordered :=
  h.invariant hs fun _ _ _ _ ht _ _ hstep => step_ordered ht hstep

end Root

end P2PChat

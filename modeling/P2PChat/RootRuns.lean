import P2PChat.RootPhases

namespace P2PChat

namespace Root

section Faults

variable {s s' : Root} {a : RootAct} {fault : RootFault} {ok : Bool} {request : Option User}

/-- What a thread is about to do and must not: a console thread that outlived its server passes a command on,
or the tick thread notifies through an event that is destroyed. -/
inductive Faulty (s : Root) : RootAct → Prop where
  | console {t : Nat} {line : AString} {good : Bool} {command : AString}
      (hat : s.inputs t = .execute command) (hstop : command ≠ stopCommand) (hrestart : command ≠ restartCommand)
      (hgone : s.serverGone = true) : Faulty s (.input t line good)
  | notify {request : Option User} (hat : s.ticker = .notify) (hdying : s.server = .dying) :
      Faulty s (.ticker request)

theorem serverGone_of_live (hlive : s.server = .live) : s.serverGone = false := by
  unfold serverGone
  rw [hlive]
  rfl

theorem serverGone_of_dying (hdying : s.server = .dying) : s.serverGone = false := by
  unfold serverGone
  rw [hdying]
  rfl

theorem executeConsoleCommand_fault {command : AString} (h : s.executeConsoleCommand command = .error fault) :
    command ≠ stopCommand ∧ command ≠ restartCommand ∧ s.serverGone = true := by
  unfold executeConsoleCommand at h
  split at h
  next => cases h
  next hstop =>
    split at h
    next => cases h
    next hrestart =>
      split at h
      next hgone => exact ⟨hstop, hrestart, hgone⟩
      next => cases h

theorem onAuthenticator_blocked {f : AuthenticatorQueue → Option AuthenticatorQueue}
    (h : s.onAuthenticator f = .error fault) : fault = .blocked := by
  unfold onAuthenticator at h
  split at h
  next => cases h
  next =>
    cases h
    rfl

/-- The main thread waits at most. -/
theorem mainStep_blocked (hs : s.Ordered) (h : s.mainStep ok = .error fault) : fault = .blocked := by
  have hphase := hs.phase
  unfold Phase at hphase
  unfold mainStep at h
  cases hmain : s.main <;> simp only [hmain] at hphase h
  case initServer =>
    rw [hphase.2.2.2] at h
    cases h
  case startAuthenticator =>
    have howner : s.authenticator.owner = .outside := hs.calls.owner.mpr (by rw [hmain]; decide)
    unfold startAuthenticator at h
    simp only [AuthenticatorQueue.start, howner, hphase.2.1.execute, and_self, if_true] at h
    split at h <;> cases h
  case begin | listen => split at h <;> cases h
  case startTicks =>
    simp only [hphase.2.1, if_true] at h
    split at h <;> cases h
  case closeHandle =>
    rw [hphase.2.2.2] at h
    cases h
  case wait => split at h <;> cases h
  case stopAuthenticator =>
    rcases hstop : s.onAuthenticator AuthenticatorQueue.stop with fault' | s₁
    · rw [hstop] at h
      cases h
      exact onAuthenticator_blocked hstop
    · rw [hstop] at h
      cases h
  case joinAuthenticator =>
    unfold joinAuthenticator at h
    split at h
    next => cases h
    next => cases h; rfl
  case joinTicks =>
    split at h
    next => cases h
    next => cases h; rfl
  all_goals
    cases h
  all_goals rfl

/-- Where the tick thread can be, there is a server. -/
theorem Ordered.ticker_server (hs : s.Ordered) (hthere : s.ticker ≠ .absent) :
    s.server = .live ∨ s.server = .dying ∧ s.Leaving := by
  have hphase := hs.phase
  unfold Phase at hphase
  cases hmain : s.main <;> simp only [hmain] at hphase
  case begin | testStop | clearRestart | create | returned | clearServer => exact absurd hphase.2.ticker hthere
  case endTicks | joinTicks => exact .inr ⟨hphase.1, hphase.2.1.resolve_left hthere⟩
  all_goals exact .inl hphase.1

/-- The tick thread never finds its server gone. -/
theorem tickerStep_fault (hs : s.Ordered) (h : s.tickerStep request = .error fault) (hfault : fault ≠ .blocked) :
    s.ticker = .notify ∧ s.server = .dying := by
  unfold tickerStep at h
  split at h
  next =>
    cases h
    exact absurd rfl hfault
  next hthere =>
    have hserver := hs.ticker_server fun hat => hthere (.inl hat)
    have hgone : s.serverGone = false :=
      hserver.elim serverGone_of_live fun hdying => serverGone_of_dying hdying.1
    simp only [hgone, Bool.false_eq_true, if_false] at h
    unfold tick at h
    split at h <;> try cases h
    next => exact absurd rfl hfault
    next command todo hat =>
      rcases hexecute : s.executeConsoleCommand command with fault' | s₁
      · exact absurd (executeConsoleCommand_fault hexecute).2.2 (by rw [hgone]; decide)
      · rw [hexecute] at h
        cases h
    next =>
      unfold tickClients at h
      split at h
      next =>
        split at h
        next => cases h
        next => exact absurd (onAuthenticator_blocked h) hfault
      next => exact absurd (onAuthenticator_blocked h) hfault
    next hat =>
      unfold setRestartEvent at h
      split at h
      next => cases h
      next hdead =>
        have hleaving := (hserver.resolve_left hdead).2
        cases hleaving with
        | notify hat' => cases hat.symm.trans hat'
        | assign hat' => cases hat.symm.trans hat'
        | pause hat' _ => cases hat.symm.trans hat'
        | testTerminate hat' _ => cases hat.symm.trans hat'
        | ended hat' => cases hat.symm.trans hat'
    next hat =>
      unfold notifyRestartEvent at h
      split at h
      next => cases h
      next hdead => exact ⟨hat, (hserver.resolve_left hdead).1⟩
    next => exact absurd rfl hfault

theorem Ordered.execute_server (hs : s.Ordered) (hthere : s.authenticator.execute ≠ .absent) : s.server = .live := by
  have hphase := hs.phase
  unfold Phase at hphase
  cases hmain : s.main <;> simp only [hmain] at hphase
  case begin | testStop | clearRestart | create | returned | clearServer => exact absurd hphase.2.execute hthere
  case endTicks | joinTicks => exact absurd hphase.2.2 hthere
  all_goals exact hphase.1

/-- Nor does the authenticator's thread. -/
theorem authenticatorStep_blocked (hs : s.Ordered) (h : s.authenticatorStep = .error fault) : fault = .blocked := by
  unfold authenticatorStep at h
  split at h
  next user hat =>
    have hlive := hs.execute_server (by rw [hat]; rintro ⟨⟩)
    rw [if_pos hlive] at h
    exact onAuthenticator_blocked h
  next => exact onAuthenticator_blocked h

theorem inputStep_fault {t : Nat} {line : AString} {good : Bool} (h : s.inputStep t line good = .error fault)
    (hfault : fault ≠ .blocked) : s.Faulty (.input t line good) := by
  unfold inputStep at h
  split at h <;> try cases h
  next => exact absurd rfl hfault
  next command hat =>
    rcases hexecute : s.executeConsoleCommand command with fault' | s₁
    · obtain ⟨hstop, hrestart, hgone⟩ := executeConsoleCommand_fault hexecute
      exact .console hat hstop hrestart hgone
    · rw [hexecute] at h
      cases h
  next => exact absurd rfl hfault

theorem Faulty.step_fault (h : s.Faulty a) : ∃ fault, fault ≠ .blocked ∧ s.step a = .error fault := by
  cases h with
  | @console t line good command hat hstop hrestart hgone =>
    refine ⟨.missingServer, by decide, ?_⟩
    simp only [step, inputStep, hat, executeConsoleCommand, hstop, hrestart, hgone, if_false, if_true]
    rfl
  | notify hat hdying =>
    refine ⟨.destroyedEvent, by decide, ?_⟩
    have hgone := serverGone_of_dying hdying
    simp only [step, tickerStep, tick, notifyRestartEvent, hat, hgone, hdying, reduceCtorEq, or_self,
      Bool.false_eq_true, if_false]

/-- The main thread finds every new server unconnected. -/
theorem Ordered.unconnected (hs : s.Ordered) (hmain : s.main = .initServer) : s.isConnected = false := by
  have hphase := hs.phase
  simp only [Phase, hmain] at hphase
  exact hphase.2.2.2

/-- In every order of the steps of the threads: the main thread starts no thread twice and closes no handle that
is not there, the tick thread and the authenticator's thread never find their server gone. Exactly two things can
go wrong: a console thread that is still there when the server is not passes a command on, or the tick thread has
set the event and `Shutdown` has gone on to destroy it before the notification. And `InitServer` never fails: it
finds every new server unconnected. -/
theorem faults_only {runAsService : Bool} (h : rootMachine.Reachable (initial runAsService) s) :
    ((∃ fault, fault ≠ .blocked ∧ s.step a = .error fault) ↔ s.Faulty a) ∧
      (s.main = .initServer → s.isConnected = false) := by
  have hs : s.Ordered := reach_ordered h (initial_ordered runAsService)
  refine ⟨⟨?_, Faulty.step_fault⟩, hs.unconnected⟩
  intro hfaulty
  obtain ⟨fault, hfault, hstep⟩ := hfaulty
  cases a with
  | main ok => exact absurd (mainStep_blocked hs hstep) hfault
  | ticker request =>
    obtain ⟨hat, hdying⟩ := tickerStep_fault hs hstep hfault
    exact .notify hat hdying
  | authenticator => exact absurd (authenticatorStep_blocked hs hstep) hfault
  | input t line good => exact inputStep_fault hstep hfault
  | spurious =>
    simp only [step, spurious] at hstep
    split at hstep
    next => cases hstep
    next =>
      cases hstep
      exact absurd rfl hfault
  | spuriousAuthenticator => exact absurd (onAuthenticator_blocked hstep) hfault
  | terminate => cases hstep
  | serviceStop => cases hstep
  | queueBuiltIn command => cases hstep
  | queue command => cases hstep

def goesOn (s : Root) (a : RootAct) : Bool :=
  match s.step a with
  | .ok _ => true
  | .error _ => false

theorem replay_reachable {acts : List RootAct} (h : rootMachine.replay goesOn acts s = some s') :
    rootMachine.Reachable s s' := by
  refine Machine.replay_reach (fun s a hpass => ⟨fun hblocked => ?_, trivial⟩) .start h
  simp only [goesOn, hblocked, Bool.false_eq_true] at hpass

/-- `Start` until the loop in which the main thread waits for the end of the server. -/
def startActs : List RootAct := List.replicate 9 (.main true)

/-- The tick thread from the beginning of a round to the moment when it has set the event. -/
def lastRound : List RootAct := List.replicate 7 (.ticker none)

/-- `Shutdown` before the wait. -/
def shutdownActs : List RootAct := List.replicate 4 (.main true)

/-- From the end of the wait to the destruction of the event. -/
def deleteActs : List RootAct :=
  List.replicate 4 (.main true) ++ List.replicate 3 .authenticator ++ List.replicate 4 (.main true)

/-- A console thread has read a line when the service is stopped, and goes on when the server is deleted. The
main thread finds the event set and destroys it before the tick thread has notified. And the second server is
initialised after a restart. -/
theorem faults_only_both :
    (∃ s fault, rootMachine.Reachable (initial true) s ∧ fault ≠ .blocked ∧
        s.step (.input 1 [] true) = .error fault) ∧
      (∃ s fault, rootMachine.Reachable (initial true) s ∧ fault ≠ .blocked ∧
        s.step (.ticker none) = .error fault) ∧
      ∃ s, rootMachine.Reachable (initial true) s ∧ s.servers = 2 ∧ s.main = .initServer ∧
        s.isConnected = false := by
  refine ⟨?_, ?_, ?_⟩
  · have hrun : (rootMachine.replay goesOn
        (startActs ++ List.replicate 4 (.input 1 [120] true) ++ [.serviceStop] ++ shutdownActs ++ lastRound ++
          List.replicate 4 (.ticker none) ++ deleteActs ++ List.replicate 3 (.main true)) (initial true)).map
        (fun s => decide (s.inputs 1 = .execute [120] ∧ s.serverGone = true)) = some true := by
      decide +kernel
    obtain ⟨s, hs, hend⟩ := Option.map_eq_some_iff.mp hrun
    obtain ⟨hat, hgone⟩ := of_decide_eq_true hend
    have hfaulty : s.Faulty (.input 1 [] true) := .console hat (by decide) (by decide) hgone
    obtain ⟨fault, hfault, hstep⟩ := (faults_only (replay_reachable hs)).1.mpr hfaulty
    exact ⟨s, fault, replay_reachable hs, hfault, hstep⟩
  · have hrun : (rootMachine.replay goesOn
        (startActs ++ [.serviceStop] ++ shutdownActs ++ lastRound ++ deleteActs) (initial true)).map
        (fun s => decide (s.ticker = .notify ∧ s.server = .dying)) = some true := by
      decide +kernel
    obtain ⟨s, hs, hend⟩ := Option.map_eq_some_iff.mp hrun
    obtain ⟨hat, hdying⟩ := of_decide_eq_true hend
    have hfaulty : s.Faulty (.ticker none) := .notify hat hdying
    obtain ⟨fault, hfault, hstep⟩ := (faults_only (replay_reachable hs)).1.mpr hfaulty
    exact ⟨s, fault, replay_reachable hs, hfault, hstep⟩
  · have hrun : (rootMachine.replay goesOn
        (startActs ++ [.queueBuiltIn restartCommand] ++ shutdownActs ++ lastRound ++ List.replicate 4 (.ticker none) ++
          deleteActs ++ List.replicate 5 (.main true)) (initial true)).map
        (fun s => decide (s.servers = 2 ∧ s.main = .initServer)) = some true := by
      decide +kernel
    obtain ⟨s, hs, hend⟩ := Option.map_eq_some_iff.mp hrun
    obtain ⟨hservers, hmain⟩ := of_decide_eq_true hend
    exact ⟨s, replay_reachable hs, hservers, hmain,
      (faults_only (a := .main true) (replay_reachable hs)).2 hmain⟩

end Faults

section Calm

variable {s s' : Root} {a : RootAct} {command : AString} {t : Nat}

/-- Nobody asks the program to stop, its input does not end, and the system gives it what it needs to start: its log
file, a port to listen on, its threads. -/
def Calm (s : Root) : RootAct → Prop
  | .main ok => ok = true
  | .ticker _ => ∀ todo, s.ticker ≠ .commands (stopCommand :: todo)
  | .input t _ good => s.inputs t ≠ .execute stopCommand ∧ (good = true ∨ s.runAsService = true)
  | .terminate | .serviceStop => False
  | .queueBuiltIn command => command ≠ stopCommand
  | _ => True

/-- The program is running. -/
structure Running (s : Root) : Prop where
  shouldStop : s.shouldStop = false
  terminateEventRaised : s.terminateEventRaised = false
  main : s.main ≠ .giveUp ∧ s.main ≠ .returned
  inputs : ∀ t, s.inputs t ≠ .stop
  cin : s.cinGood = true ∨ s.runAsService = true

/-- What a step leaves that does not concern the end of the program. -/
theorem Running.of_same (hs : s.Running) (hstop : s'.shouldStop = s.shouldStop)
    (hterminate : s'.terminateEventRaised = s.terminateEventRaised)
    (hmain : s'.main ≠ .giveUp ∧ s'.main ≠ .returned) (hinputs : s'.inputs = s.inputs)
    (hcin : s'.cinGood = s.cinGood) (hservice : s'.runAsService = s.runAsService) : s'.Running where
  shouldStop := hstop.trans hs.shouldStop
  terminateEventRaised := hterminate.trans hs.terminateEventRaised
  main := hmain
  inputs t := by rw [hinputs]; exact hs.inputs t
  cin := by rw [hcin, hservice]; exact hs.cin

theorem executeConsoleCommand_restart (hcommand : command ≠ stopCommand)
    (h : s.executeConsoleCommand command = .ok s') : s' = { s with restart := s'.restart } := by
  unfold executeConsoleCommand at h
  rw [if_neg hcommand] at h
  split at h
  next => cases h; rfl
  next =>
    split at h
    next => cases h
    next => cases h; rfl

theorem Running.moveInput (hs : s.Running) {point : InputPoint} (hpoint : point ≠ .stop) :
    (s.moveInput t point).Running where
  shouldStop := hs.shouldStop
  terminateEventRaised := hs.terminateEventRaised
  main := hs.main
  inputs t' := by
    by_cases ht' : t' = t
    · rw [ht']
      change Function.update s.inputs t point t ≠ .stop
      rw [Function.update_self]
      exact hpoint
    · change Function.update s.inputs t point t' ≠ .stop
      rw [Function.update_of_ne ht']
      exact hs.inputs t'
  cin := hs.cin

theorem Running.inputStep (hs : s.Running) {line : AString} {good : Bool} (hcalm : s.Calm (.input t line good))
    (h : s.inputStep t line good = .ok s') : s'.Running := by
  unfold Root.inputStep at h
  split at h
  next => cases h
  next =>
    cases h
    rw [hs.shouldStop]
    exact hs.moveInput (by rintro ⟨⟩)
  next =>
    cases h
    exact hs.moveInput (by split <;> rintro ⟨⟩)
  next =>
    cases h
    exact hs.moveInput (by split <;> rintro ⟨⟩)
  next =>
    cases h
    have hread : ({ s with cinGood := s.cinGood && good } : Root).Running := by
      refine ⟨hs.shouldStop, hs.terminateEventRaised, hs.main, hs.inputs, ?_⟩
      rcases hs.cin with hcin | hservice
      · exact hcalm.2.imp_left fun hgood => by simp only [hcin, hgood, Bool.and_self]
      · exact .inr hservice
    refine hread.moveInput ?_
    generalize (if s.cinGood = true then line else []) = command
    split <;> rintro ⟨⟩
  next command hat =>
    rcases hexecute : s.executeConsoleCommand command with fault | s₁
    · rw [hexecute] at h
      cases h
    · rw [hexecute] at h
      cases h
      have hcommand : command ≠ stopCommand := fun heq => hcalm.1 (heq ▸ hat)
      have hrestart : s₁.Running := by
        rw [executeConsoleCommand_restart hcommand hexecute]
        exact hs.of_same rfl rfl hs.main rfl rfl rfl
      have hmoved : (s₁.moveInput t .testStop).Running := hrestart.moveInput (by rintro ⟨⟩)
      exact hmoved
  next =>
    cases h
    have hover : (s.inputOver && !s.runAsService) = false := by
      unfold inputOver
      rcases hs.cin with hcin | hservice
      · simp only [hs.terminateEventRaised, hcin, Bool.not_true, Bool.or_self, Bool.false_and]
      · simp only [hservice, Bool.not_true, Bool.and_false]
    rw [hover]
    exact hs.moveInput (by rintro ⟨⟩)
  next hat => exact absurd hat (hs.inputs t)
  next => cases h

theorem Running.onAuthenticator (hs : s.Running) {f : AuthenticatorQueue → Option AuthenticatorQueue}
    (h : s.onAuthenticator f = .ok s') : s'.Running := by
  obtain ⟨q, _, rfl⟩ := onAuthenticator_ok h
  exact hs.of_same rfl rfl hs.main rfl rfl rfl

theorem Running.mainStep (hs : s.Running) (hordered : s.Ordered) (h : s.mainStep true = .ok s') : s'.Running := by
  have hphase := hordered.phase
  unfold Phase at hphase
  unfold Root.mainStep at h
  cases hmain : s.main <;> simp only [hmain] at hphase h
  case giveUp => exact absurd hmain hs.main.1
  case sleep | returned => cases h
  case testStop =>
    cases h
    refine hs.of_same rfl rfl ?_ rfl rfl rfl
    rw [if_neg (by rw [hs.shouldStop]; decide)]
    exact ⟨by rintro ⟨⟩, by rintro ⟨⟩⟩
  case begin =>
    simp only [if_true] at h
    cases h
    exact hs.of_same hs.shouldStop.symm rfl ⟨by rintro ⟨⟩, by rintro ⟨⟩⟩ rfl rfl rfl
  case initServer =>
    rw [hphase.2.2.2] at h
    cases h
    exact hs.of_same rfl rfl ⟨by rintro ⟨⟩, by rintro ⟨⟩⟩ rfl rfl rfl
  case startAuthenticator =>
    unfold startAuthenticator at h
    simp only [if_true] at h
    split at h
    next =>
      cases h
      exact hs.of_same rfl rfl ⟨by rintro ⟨⟩, by rintro ⟨⟩⟩ rfl rfl rfl
    next => cases h
  case startTicks =>
    simp only [hphase.2.1, if_true] at h
    cases h
    exact hs.of_same rfl rfl ⟨by rintro ⟨⟩, by rintro ⟨⟩⟩ rfl rfl rfl
  case startInput =>
    simp only [if_true] at h
    cases h
    have hmoved : (s.moveInput s.servers .testStop).Running := hs.moveInput (by rintro ⟨⟩)
    exact hmoved.of_same rfl rfl ⟨by rintro ⟨⟩, by rintro ⟨⟩⟩ rfl rfl rfl
  case poll =>
    cases h
    exact hs.of_same rfl rfl (by split <;> exact ⟨by rintro ⟨⟩, by rintro ⟨⟩⟩) rfl rfl rfl
  case noteTerminate =>
    cases h
    refine hs.of_same ?_ rfl ⟨by rintro ⟨⟩, by rintro ⟨⟩⟩ rfl rfl rfl
    simp only [hs.terminateEventRaised, Bool.or_false]
  case closeHandle =>
    rw [hphase.2.2.2] at h
    cases h
    exact hs.of_same rfl rfl ⟨by rintro ⟨⟩, by rintro ⟨⟩⟩ rfl rfl rfl
  case wait =>
    split at h
    next => cases h; exact hs.of_same rfl rfl ⟨by rintro ⟨⟩, by rintro ⟨⟩⟩ rfl rfl rfl
    next => cases h; exact hs.of_same rfl rfl ⟨by rintro ⟨⟩, by rintro ⟨⟩⟩ rfl rfl rfl
  case stopAuthenticator =>
    rcases hstop : s.onAuthenticator AuthenticatorQueue.stop with fault | s₁
    · rw [hstop] at h
      cases h
    · rw [hstop] at h
      cases h
      exact (hs.onAuthenticator hstop).of_same rfl rfl ⟨by rintro ⟨⟩, by rintro ⟨⟩⟩ rfl rfl rfl
  case joinAuthenticator =>
    unfold joinAuthenticator at h
    split at h
    next =>
      cases h
      exact hs.of_same rfl rfl (by split <;> exact ⟨by rintro ⟨⟩, by rintro ⟨⟩⟩) rfl rfl rfl
    next => cases h
  case joinTicks =>
    split at h
    next => cases h; exact hs.of_same rfl rfl ⟨by rintro ⟨⟩, by rintro ⟨⟩⟩ rfl rfl rfl
    next => cases h
  all_goals
    cases h
    exact hs.of_same rfl rfl ⟨by rintro ⟨⟩, by rintro ⟨⟩⟩ rfl rfl rfl

theorem Running.tick (hs : s.Running) {request : Option User} (hcalm : s.Calm (.ticker request))
    (h : s.tick request = .ok s') : s'.Running := by
  unfold Root.tick at h
  split at h
  next => cases h
  next => cases h; exact hs.of_same rfl rfl hs.main rfl rfl rfl
  next => cases h; exact hs.of_same rfl rfl hs.main rfl rfl rfl
  next => cases h; exact hs.of_same rfl rfl hs.main rfl rfl rfl
  next command todo hat =>
    rcases hexecute : s.executeConsoleCommand command with fault | s₁
    · rw [hexecute] at h
      cases h
    · rw [hexecute] at h
      cases h
      have hcommand : command ≠ stopCommand := fun heq => hcalm todo (heq ▸ hat)
      rw [executeConsoleCommand_restart hcommand hexecute]
      exact hs.of_same rfl rfl hs.main rfl rfl rfl
  next =>
    unfold tickClients at h
    split at h
    next =>
      split at h
      next => cases h; exact hs.of_same rfl rfl hs.main rfl rfl rfl
      next => exact hs.onAuthenticator h
    next => exact hs.onAuthenticator h
  next => cases h; exact hs.of_same rfl rfl hs.main rfl rfl rfl
  next => cases h; exact hs.of_same rfl rfl hs.main rfl rfl rfl
  next =>
    unfold setRestartEvent at h
    split at h
    next => cases h; exact hs.of_same rfl rfl hs.main rfl rfl rfl
    next => cases h
  next =>
    unfold notifyRestartEvent at h
    split at h
    next =>
      cases h
      refine hs.of_same rfl rfl ?_ rfl rfl rfl
      by_cases hsleep : s.main = .sleep
      · rw [if_pos hsleep]
        exact ⟨by rintro ⟨⟩, by rintro ⟨⟩⟩
      · rw [if_neg hsleep]
        exact hs.main
    next => cases h
  next => cases h; exact hs.of_same rfl rfl hs.main rfl rfl rfl
  next => cases h; exact hs.of_same rfl rfl hs.main rfl rfl rfl
  next => cases h

theorem step_running (hs : s.Running) (hordered : s.Ordered) (hcalm : s.Calm a) (h : s.step a = .ok s') :
    s'.Running := by
  cases a with
  | main ok =>
    rw [show ok = true from hcalm] at h
    exact hs.mainStep hordered h
  | ticker request => exact hs.tick hcalm (tickerStep_ok h).1
  | authenticator =>
    obtain ⟨q, _, rfl⟩ := authenticatorStep_ok h
    exact hs.of_same rfl rfl hs.main rfl rfl rfl
  | input t line good => exact hs.inputStep hcalm h
  | spurious =>
    simp only [step, spurious] at h
    split at h
    next =>
      cases h
      exact hs.of_same rfl rfl ⟨by rintro ⟨⟩, by rintro ⟨⟩⟩ rfl rfl rfl
    next => cases h
  | spuriousAuthenticator => exact hs.onAuthenticator h
  | terminate => exact hcalm.elim
  | serviceStop => exact hcalm.elim
  | queueBuiltIn command =>
    cases h
    unfold queueBuiltIn
    rw [if_neg hcalm]
    split
    next => exact hs.of_same rfl rfl hs.main rfl rfl rfl
    next => exact hs
  | queue command =>
    cases h
    exact hs.of_same rfl rfl hs.main rfl rfl rfl

theorem initial_running (runAsService : Bool) : (initial runAsService).Running :=
  ⟨rfl, rfl, ⟨by rintro ⟨⟩, by rintro ⟨⟩⟩, fun _ => by rintro ⟨⟩, .inl rfl⟩

/-- The program does not stop by itself, however often it is restarted and whatever the other commands are: it
has returned or is asked to stop only after a stop command, a signal, the end of its input where it is no
service, or the failure of a system call that it starts with. -/
theorem runs_on {runAsService : Bool} (h : rootMachine.Reach Calm (initial runAsService) s) :
    s.shouldStop = false ∧ s.main ≠ .giveUp ∧ s.main ≠ .returned := by
  have hrunning : s.Running := by
    refine h.invariant (initial_running runAsService) ?_
    intro t a t' hreach hrunning _ hcalm hstep
    exact step_running hrunning (reach_ordered hreach (initial_ordered runAsService)) hcalm hstep
  exact ⟨hrunning.shouldStop, hrunning.main⟩

def calmly (s : Root) (a : RootAct) : Bool :=
  s.goesOn a &&
    match a, s.ticker with
    | .main ok, _ => ok
    | .ticker _, .commands (_ :: _) => false
    | .ticker _, _ => true
    | .input t _ good, _ => decide (s.inputs t ≠ .execute stopCommand) && good
    | .authenticator, _ => true
    | _, _ => false

theorem calmly_calm (h : s.calmly a = true) : rootMachine.enabled s a ∧ s.Calm a := by
  obtain ⟨hgoes, hcalm⟩ := Bool.and_eq_true_iff.mp h
  refine ⟨fun hblocked => ?_, ?_⟩
  · simp only [goesOn, hblocked, Bool.false_eq_true] at hgoes
  · cases a with
    | main ok => exact hcalm
    | ticker request =>
      intro todo hat
      rw [hat] at hcalm
      cases hcalm
    | input t line good =>
      obtain ⟨hat, hgood⟩ := Bool.and_eq_true_iff.mp hcalm
      exact ⟨of_decide_eq_true hat, .inl hgood⟩
    | authenticator => trivial
    | spurious => trivial
    | spuriousAuthenticator => trivial
    | terminate => cases hcalm
    | serviceStop => cases hcalm
    | queueBuiltIn command => cases hcalm
    | queue command => trivial

/-- The server is restarted from the console, and the second one is there. -/
theorem runs_on_restart :
    ∃ s, rootMachine.Reach Calm (initial false) s ∧ s.servers = 2 ∧ s.shouldStop = false := by
  have hrun : (rootMachine.replay calmly
      (startActs ++ List.replicate 5 (.input 1 restartCommand true) ++ shutdownActs ++ lastRound ++
        List.replicate 4 (.ticker none) ++ deleteActs ++ List.replicate 5 (.main true)) (initial false)).map
      (fun s => decide (s.servers = 2)) = some true := by
    decide +kernel
  obtain ⟨s, hs, hend⟩ := Option.map_eq_some_iff.mp hrun
  have hreach : rootMachine.Reach Calm (initial false) s :=
    Machine.replay_reach (fun _ _ hpass => calmly_calm hpass) .start hs
  exact ⟨s, hreach, of_decide_eq_true hend, (runs_on hreach).1⟩

end Calm

end Root

end P2PChat

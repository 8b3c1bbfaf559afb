import P2PChat.Threads

namespace P2PChat

namespace Threads

/-- The tick thread has seen that the connection is authenticated, and has not yet acted upon it. -/
def tickRelies (p : Nat) (s : Threads) : Bool :=
  match s.tick with
  | .storeWorking q _ => q == p
  | _ => false

/-- The authenticator has seen that the connection waits for it, and is going to let it in. -/
def authenticatorRelies (p : Nat) (s : Threads) : Bool :=
  match s.authenticator with
  | .checkMultiLogin q name => q == p && !s.isPlayerInQueue name
  | .welcome q _ => q == p
  | .storeAuthenticated q => q == p
  | _ => false

/-- `Destroy` comes between what another thread has seen of `m_State` and what it stores to it, or a
login comes from a connection that is destroyed. -/
def overtakes (s : Threads) : Act → Bool
  | .network =>
    match s.network with
    | .storeDestroying p => s.tickRelies p || s.authenticatorRelies p
    | _ => false
  | .login _ _ =>
    match s.tick with
    | .packets p _ => decide (EState.csDestroying.toNat ≤ (s.shared p).state.toNat)
    | _ => false
  | _ => false

/-- The connection is destroyed, or about to be. -/
def dead (p : Nat) (s : Threads) : Prop := EState.csDestroying.toNat ≤ (s.shared p).state.toNat

instance (p : Nat) (s : Threads) : Decidable (s.dead p) := inferInstanceAs (Decidable (_ ≤ _))

/-- The authenticator is where it holds `m_CSClients`. -/
def inAuthenticate (s : Threads) : Bool :=
  match s.authenticator with
  | .idle => false
  | .took _ => false
  | _ => true

/-- Who holds `m_CSClients`, and what is known of `m_State` where a store relies on it. -/
structure Ordered (s : Threads) : Prop where
  tick : s.csClients = some .tick ↔ s.tick ≠ .idle
  authenticator : s.csClients = some .authenticator ↔ s.inAuthenticate = true
  network : s.csClients = some .network ↔ s.network = .broadcasting
  working : ∀ p, s.tickRelies p = true → (s.shared p).state = .csAuthenticated
  waiting : ∀ p, s.authenticatorRelies p = true → (s.shared p).state = .csAuthenticating
  destroying : ∀ p, s.network = .storeDestroying p → ¬s.dead p
  destroyed : ∀ p, s.network = .storeDestroyed p → (s.shared p).state = .csDestroying
  dying : ∀ p, (s.shared p).state = .csDestroying → s.network = .storeDestroyed p

section Changes

variable {s : Threads} {p q : Nat}

theorem change_shared (f : Shared → Shared) :
    (s.change p f).shared q = if q = p then f (s.shared p) else s.shared q := rfl

theorem store_state (state : EState) :
    ((s.store p state).shared q).state = if q = p then state else (s.shared q).state := by
  rw [store, change_shared]
  split
  next => rfl
  next => rfl

theorem store_username (state : EState) :
    ((s.store p state).shared q).username = (s.shared q).username := by
  rw [store, change_shared]
  split
  next h => rw [h]
  next => rfl

theorem isPlayerInQueue_congr {s' : Threads} (hclients : s'.clients = s.clients)
    (hnames : ∀ r, (s'.shared r).username = (s.shared r).username) (name : AString) :
    s'.isPlayerInQueue name = s.isPlayerInQueue name := by
  simp only [isPlayerInQueue, hclients, hnames]

/-- Only the names and the point the authenticator is at say whether it relies on a state. -/
theorem authenticatorRelies_congr {s' : Threads} (hpoint : s'.authenticator = s.authenticator)
    (hclients : s'.clients = s.clients)
    (hnames : ∀ r, (s'.shared r).username = (s.shared r).username) :
    s'.authenticatorRelies q = s.authenticatorRelies q := by
  simp only [authenticatorRelies, hpoint, isPlayerInQueue_congr hclients hnames]

end Changes

variable [Platform] {s s' : Threads} {p : Nat}

omit [Platform] in
theorem initial_ordered : initial.Ordered where
  tick := ⟨nofun, fun h => absurd rfl h⟩
  authenticator := ⟨nofun, nofun⟩
  network := ⟨nofun, nofun⟩
  working _ h := by cases h
  waiting _ h := by cases h
  destroying _ h := by cases h
  destroyed _ h := by cases h
  dying _ h := by cases h

omit [Platform] in
/-- Where a thread needs `m_CSClients` it holds it, and so nowhere else. -/
theorem Ordered.tick_idle (hs : s.Ordered) (hother : s.csClients ≠ some .tick) : s.tick = .idle := by
  by_contra hne
  exact hother (hs.tick.mpr hne)

omit [Platform] in
theorem Ordered.not_inAuthenticate (hs : s.Ordered) (hother : s.csClients ≠ some .authenticator) :
    s.inAuthenticate = false :=
  Bool.eq_false_iff.mpr fun hin => hother (hs.authenticator.mpr hin)

omit [Platform] in
theorem Ordered.not_broadcasting (hs : s.Ordered) (hother : s.csClients ≠ some .network) :
    s.network ≠ .broadcasting := fun hnet => hother (hs.network.mpr hnet)

omit [Platform] in
theorem Ordered.networkStep (hs : s.Ordered) (hcalm : s.overtakes .network = false)
    (h : s.networkStep = some s') : s'.Ordered := by
  have hfree : s.network ≠ .broadcasting → s.csClients ≠ some .network :=
    fun hno hheld => hno (hs.network.mp hheld)
  have hnone : (∀ q, s.network ≠ .storeDestroyed q) → ∀ q, (s.shared q).state ≠ .csDestroying :=
    fun hno q hq => hno q (hs.dying q hq)
  unfold Threads.networkStep at h
  split at h
  next => cases h
  next p hnet =>
    have hnot := hfree (by rw [hnet]; nofun)
    split at h
    next =>
      cases h
      exact ⟨hs.tick, hs.authenticator, ⟨fun hheld => absurd hheld hnot, nofun⟩, hs.working, hs.waiting,
        nofun, nofun, fun q hq => absurd hq (hnone (by rw [hnet]; nofun) q)⟩
    next hlive =>
      cases h
      refine ⟨hs.tick, hs.authenticator, ⟨fun hheld => absurd hheld hnot, nofun⟩, hs.working, hs.waiting,
        fun q hq => ?_, nofun, fun q hq => absurd hq (hnone (by rw [hnet]; nofun) q)⟩
      cases hq
      exact hlive
  next p hnet =>
    cases h
    have hnot := hfree (by rw [hnet]; nofun)
    rw [overtakes, hnet] at hcalm
    obtain ⟨htick, hauth⟩ := Bool.or_eq_false_iff.mp hcalm
    refine ⟨hs.tick, hs.authenticator, ⟨fun hheld => absurd hheld hnot, nofun⟩, fun q hq => ?_,
      fun q hq => ?_, nofun, fun q hq => ?_, fun q hq => ?_⟩
    · have hne : q ≠ p := fun heq => by
        rw [heq] at hq
        exact Bool.noConfusion (htick.symm.trans hq)
      exact ((store_state _).trans (if_neg hne)).trans (hs.working q hq)
    · have hsame : s.authenticatorRelies q = true := by
        refine Eq.trans (Eq.symm ?_) hq
        exact authenticatorRelies_congr rfl rfl fun r => @store_username s p r _
      have hne : q ≠ p := fun heq => by
        rw [heq] at hsame
        exact Bool.noConfusion (hauth.symm.trans hsame)
      exact ((store_state _).trans (if_neg hne)).trans (hs.waiting q hsame)
    · cases hq
      exact (store_state _).trans (if_pos rfl)
    · by_cases heq : q = p
      · rw [heq]
      · have hother := ((store_state .csDestroying).trans (if_neg heq)).symm.trans hq
        exact absurd hother (hnone (by rw [hnet]; nofun) q)
  next p hnet =>
    cases h
    have hnot := hfree (by rw [hnet]; nofun)
    have hstate := hs.destroyed p hnet
    refine ⟨hs.tick, hs.authenticator, ⟨fun hheld => absurd hheld hnot, nofun⟩, fun q hq => ?_,
      fun q hq => ?_, nofun, nofun, fun q hq => ?_⟩
    · have hne : q ≠ p := fun heq => by
        have hworking := hs.working q hq
        rw [heq, hstate] at hworking
        cases hworking
      exact ((store_state _).trans (if_neg hne)).trans (hs.working q hq)
    · have hsame : s.authenticatorRelies q = true := by
        refine Eq.trans (Eq.symm ?_) hq
        exact authenticatorRelies_congr rfl rfl fun r => @store_username s p r _
      have hne : q ≠ p := fun heq => by
        have hwaiting := hs.waiting q hsame
        rw [heq, hstate] at hwaiting
        cases hwaiting
      exact ((store_state _).trans (if_neg hne)).trans (hs.waiting q hsame)
    · have hstored := (store_state .csDestroyed).symm.trans hq
      split at hstored
      next => cases hstored
      next hne =>
        have hnet' := hnet.symm.trans (hs.dying q hstored)
        cases hnet'
        exact absurd rfl hne
  next hnet =>
    split at h
    next hopen =>
      cases h
      have hidle := hs.tick_idle (by rw [hopen]; nofun)
      have hin := hs.not_inAuthenticate (by rw [hopen]; nofun)
      exact ⟨⟨nofun, fun hne => absurd hidle hne⟩, ⟨nofun, fun h => Bool.noConfusion (hin.symm.trans h)⟩,
        ⟨fun _ => rfl, fun _ => rfl⟩, hs.working, hs.waiting, nofun, nofun,
        fun q hq => absurd hq (hnone (by rw [hnet]; nofun) q)⟩
    next => cases h
  next hnet =>
    cases h
    have hheld := hs.network.mpr hnet
    have hidle := hs.tick_idle (by rw [hheld]; nofun)
    have hin := hs.not_inAuthenticate (by rw [hheld]; nofun)
    exact ⟨⟨nofun, fun hne => absurd hidle hne⟩, ⟨nofun, fun h => Bool.noConfusion (hin.symm.trans h)⟩,
      ⟨nofun, nofun⟩, hs.working, hs.waiting, nofun, nofun,
      fun q hq => absurd hq (hnone (by rw [hnet]; nofun) q)⟩

omit [Platform] in
theorem Ordered.apart (hs : s.Ordered) (htick : s.tick ≠ .idle) :
    s.csClients = some .tick ∧ s.inAuthenticate = false ∧ s.network ≠ .broadcasting := by
  have hheld := hs.tick.mpr htick
  exact ⟨hheld, hs.not_inAuthenticate (by rw [hheld]; nofun), hs.not_broadcasting (by rw [hheld]; nofun)⟩

omit [Platform] in
theorem not_relies (hin : s.inAuthenticate = false) : s.authenticatorRelies p = false := by
  unfold inAuthenticate at hin
  unfold authenticatorRelies
  split
  next h => simp [h] at hin
  next h => simp [h] at hin
  next h => simp [h] at hin
  next => rfl

omit [Platform] in
/-- A store to a connection that is not destroyed, by another thread, leaves alone what the network thread destroys. -/
theorem Ordered.kept (hs : s.Ordered) {t : Threads} (hnetwork : t.network = s.network)
    (hstate : ∀ q, (t.shared q).state = (s.shared q).state ∨ ¬s.dead q ∧ ¬t.dead q) :
    (∀ q, t.network = .storeDestroying q → ¬t.dead q) ∧
      (∀ q, t.network = .storeDestroyed q → (t.shared q).state = .csDestroying) ∧
        ∀ q, (t.shared q).state = .csDestroying → t.network = .storeDestroyed q := by
  refine ⟨fun q hq => ?_, fun q hq => ?_, fun q hq => ?_⟩
  · rcases hstate q with hsame | ⟨_, hlive⟩
    · show ¬_ ≤ _
      rw [hsame]
      exact hs.destroying q (hnetwork ▸ hq)
    · exact hlive
  · have hdestroying := hs.destroyed q (hnetwork ▸ hq)
    rcases hstate q with hsame | ⟨hlive, _⟩
    · rw [hsame, hdestroying]
    · exact absurd (by simp [dead, hdestroying, EState.toNat]) hlive
  · rcases hstate q with hsame | ⟨_, hlive⟩
    · exact hnetwork.trans (hs.dying q (hsame.symm.trans hq))
    · exact absurd (by simp [dead, hq, EState.toNat]) hlive

omit [Platform] in
/-- A step of the tick thread while it holds `m_CSClients`: it stores only to connections that are not
destroyed. -/
theorem Ordered.tick_next (hs : s.Ordered) (htick : s.tick ≠ .idle) {t : Threads}
    (hclients : t.csClients = s.csClients) (hnetwork : t.network = s.network)
    (hauthenticator : t.authenticator = s.authenticator) (hnext : t.tick ≠ .idle)
    (hstate : ∀ q, (t.shared q).state = (s.shared q).state ∨ ¬s.dead q ∧ ¬t.dead q)
    (hworking : ∀ q, t.tickRelies q = true → (t.shared q).state = .csAuthenticated) : t.Ordered := by
  obtain ⟨hheld, hin, hnot⟩ := hs.apart htick
  have hin' : t.inAuthenticate = false := by
    rw [← hin, inAuthenticate, inAuthenticate, hauthenticator]
  have hheld' : t.csClients = some .tick := hclients.trans hheld
  obtain ⟨hdestroying, hdestroyed, hdying⟩ := hs.kept hnetwork hstate
  refine ⟨⟨fun _ => hnext, fun _ => hheld'⟩, ⟨fun h => ?_, fun h => ?_⟩, ⟨fun h => ?_, fun h => ?_⟩,
    hworking, fun q hq => ?_, hdestroying, hdestroyed, hdying⟩
  · rw [hheld'] at h
    cases h
  · rw [hin'] at h
    cases h
  · rw [hheld'] at h
    cases h
  · exact absurd (hnetwork ▸ h) hnot
  · rw [not_relies hin'] at hq
    cases hq

omit [Platform] in
theorem Ordered.tickStep (hs : s.Ordered) (h : s.tickStep = some s') : s'.Ordered := by
  have hsame : ∀ {t : Threads}, t.shared = s.shared →
      ∀ q, (t.shared q).state = (s.shared q).state ∨ ¬s.dead q ∧ ¬t.dead q :=
    fun hshared q => Or.inl (by rw [hshared])
  unfold Threads.tickStep at h
  split at h
  next htick =>
    split at h
    next hnone =>
      cases h
      have hin := hs.not_inAuthenticate (by rw [hnone]; nofun)
      have hnot := hs.not_broadcasting (by rw [hnone]; nofun)
      exact ⟨⟨nofun, fun _ => rfl⟩, ⟨nofun, fun h => Bool.noConfusion (hin.symm.trans h)⟩,
        ⟨nofun, fun h => absurd h hnot⟩, nofun, fun q hq => Bool.noConfusion ((not_relies hin).symm.trans hq),
        hs.destroying, hs.destroyed, hs.dying⟩
    next => cases h
  next htick =>
    cases h
    obtain ⟨_, hin, hnot⟩ := hs.apart (by rw [htick]; nofun)
    refine ⟨⟨nofun, fun h => absurd rfl h⟩, ⟨nofun, fun h => ?_⟩, ⟨nofun, fun h => absurd h hnot⟩, nofun,
      fun q hq => ?_, hs.destroying, hs.destroyed, hs.dying⟩
    · exact Bool.noConfusion (hin.symm.trans h)
    · exact Bool.noConfusion ((not_relies hin).symm.trans hq)
  next p todo htick =>
    have hne : s.tick ≠ .idle := by rw [htick]; nofun
    split at h
    next =>
      cases h
      exact hs.tick_next hne rfl rfl rfl nofun (hsame rfl) nofun
    next =>
      cases h
      exact hs.tick_next hne rfl rfl rfl nofun (hsame rfl) nofun
  next => cases h
  next p user todo htick =>
    cases h
    exact hs.tick_next (by rw [htick]; nofun) rfl rfl rfl nofun (hsame rfl) nofun
  next p todo htick =>
    have hne : s.tick ≠ .idle := by rw [htick]; nofun
    split at h
    next hstate =>
      cases h
      refine hs.tick_next hne rfl rfl rfl nofun (hsame rfl) fun q hq => ?_
      rw [tickRelies, beq_iff_eq] at hq
      rw [← hq]
      exact hstate
    next =>
      cases h
      exact hs.tick_next hne rfl rfl rfl nofun (hsame rfl) nofun
  next p todo htick =>
    cases h
    have hstate := hs.working p (by simp [tickRelies, htick])
    refine hs.tick_next (by rw [htick]; nofun) rfl rfl rfl nofun (fun q => ?_) nofun
    by_cases heq : q = p
    · right
      rw [heq]
      exact ⟨by simp [dead, hstate, EState.toNat], by simp [dead, store_state, EState.toNat]⟩
    · exact Or.inl ((store_state _).trans (if_neg heq))

omit [Platform] in
theorem Ordered.packet (hs : s.Ordered) {a : Act} (hcalm : s.overtakes a = false)
    (h : (∃ state, a = .status state ∧ s.status state = some s') ∨
      (∃ username password, a = .login username password ∧ s.login username password = some s') ∨
        a = .handled ∧ s.handled = some s') : s'.Ordered := by
  rcases h with ⟨state, rfl, h⟩ | ⟨username, password, rfl, h⟩ | ⟨rfl, h⟩
  · unfold Threads.status at h
    split at h
    next p todo htick =>
      split at h
      next =>
        cases h
        refine hs.tick_next (by rw [htick]; nofun) rfl rfl rfl (by simp [change, htick]) (fun q => Or.inl ?_)
          (fun q hq => by simp [tickRelies, change, htick] at hq)
        simp only [change]
        split
        next heq => rw [heq]
        next => rfl
      next => cases h
    next => cases h
  · unfold Threads.login at h
    split at h
    next p todo htick =>
      rw [overtakes, htick] at hcalm
      have hlive : ¬s.dead p := of_decide_eq_false hcalm
      split at h
      next =>
        cases h
        refine hs.tick_next (by rw [htick]; nofun) rfl rfl rfl nofun (fun q => ?_) nofun
        by_cases heq : q = p
        · right
          rw [heq]
          exact ⟨hlive, by simp [dead, store_state, EState.toNat]⟩
        · exact Or.inl ((store_state _).trans (if_neg heq))
      next => cases h
    next => cases h
  · unfold Threads.handled at h
    split at h
    next p todo htick =>
      cases h
      exact hs.tick_next (by rw [htick]; nofun) rfl rfl rfl nofun (fun q => Or.inl rfl) nofun
    next => cases h

omit [Platform] in
theorem Ordered.alone (hs : s.Ordered) (hin : s.inAuthenticate = true) :
    s.csClients = some .authenticator ∧ s.tick = .idle ∧ s.network ≠ .broadcasting := by
  have hheld := hs.authenticator.mpr hin
  exact ⟨hheld, hs.tick_idle (by rw [hheld]; nofun), hs.not_broadcasting (by rw [hheld]; nofun)⟩

omit [Platform] in
/-- A step of the authenticator while it holds `m_CSClients`. -/
theorem Ordered.authenticator_next (hs : s.Ordered) (hin : s.inAuthenticate = true) {t : Threads}
    (hclients : t.csClients = s.csClients) (hnetwork : t.network = s.network) (htick : t.tick = s.tick)
    (hnext : t.inAuthenticate = true)
    (hstate : ∀ q, (t.shared q).state = (s.shared q).state ∨ ¬s.dead q ∧ ¬t.dead q)
    (hwaiting : ∀ q, t.authenticatorRelies q = true → (t.shared q).state = .csAuthenticating) :
    t.Ordered := by
  obtain ⟨hheld, hidle, hnot⟩ := hs.alone hin
  have hheld' : t.csClients = some .authenticator := hclients.trans hheld
  have hidle' : t.tick = .idle := htick.trans hidle
  obtain ⟨hdestroying, hdestroyed, hdying⟩ := hs.kept hnetwork hstate
  refine ⟨⟨fun h => ?_, fun h => absurd hidle' h⟩, ⟨fun _ => hnext, fun _ => hheld'⟩,
    ⟨fun h => ?_, fun h => absurd (hnetwork ▸ h) hnot⟩, fun q hq => ?_, hwaiting, hdestroying, hdestroyed,
    hdying⟩
  · rw [hheld'] at h
    cases h
  · rw [hheld'] at h
    cases h
  · simp [tickRelies, hidle'] at hq

omit [Platform] in
theorem Ordered.answered (hs : s.Ordered) (hin : s.inAuthenticate = true) : s.answered.Ordered := by
  obtain ⟨_, hidle, hnot⟩ := hs.alone hin
  exact ⟨⟨nofun, fun h => absurd hidle h⟩, ⟨nofun, nofun⟩, ⟨nofun, fun h => absurd h hnot⟩,
    hs.working, nofun, hs.destroying, hs.destroyed, hs.dying⟩

theorem Ordered.authenticatorStep (hs : s.Ordered) (h : s.authenticatorStep = some s') :
    s'.Ordered := by
  have hsame : ∀ {t : Threads}, t.shared = s.shared →
      ∀ q, (t.shared q).state = (s.shared q).state ∨ ¬s.dead q ∧ ¬t.dead q :=
    fun hshared q => Or.inl (by rw [hshared])
  have hfree : s.inAuthenticate = false → s.csClients ≠ some .authenticator :=
    fun hin hheld => Bool.noConfusion (hin.symm.trans (hs.authenticator.mp hheld))
  unfold Threads.authenticatorStep at h
  split at h
  next hpoint =>
    obtain ⟨user, _, rfl⟩ := Option.map_eq_some_iff.mp h
    have hnot := hfree (by simp [inAuthenticate, hpoint])
    exact ⟨hs.tick, ⟨fun hheld => absurd hheld hnot, nofun⟩, hs.network, hs.working, nofun, hs.destroying,
      hs.destroyed, hs.dying⟩
  next user hpoint =>
    split at h
    next hnone =>
      have hidle := hs.tick_idle (by rw [hnone]; nofun)
      have hnot := hs.not_broadcasting (by rw [hnone]; nofun)
      split at h
      next =>
        cases h
        exact ⟨⟨nofun, fun h => absurd hidle h⟩, ⟨fun _ => rfl, fun _ => rfl⟩,
          ⟨nofun, fun h => absurd h hnot⟩, hs.working, nofun, hs.destroying, hs.destroyed, hs.dying⟩
      next =>
        cases h
        exact ⟨⟨nofun, fun h => absurd hidle h⟩, ⟨fun _ => rfl, fun _ => rfl⟩,
          ⟨nofun, fun h => absurd h hnot⟩, hs.working, nofun, hs.destroying, hs.destroyed, hs.dying⟩
    next => cases h
  next hpoint =>
    cases h
    exact hs.answered (by simp [inAuthenticate, hpoint])
  next user hpoint =>
    have hin : s.inAuthenticate = true := by simp [inAuthenticate, hpoint]
    split at h
    next =>
      cases h
      exact hs.authenticator_next hin rfl rfl rfl rfl (hsame rfl) nofun
    next =>
      cases h
      exact hs.answered hin
  next p name hpoint =>
    have hin : s.inAuthenticate = true := by simp [inAuthenticate, hpoint]
    split at h
    next =>
      cases h
      exact hs.answered hin
    next hstate =>
      cases h
      refine hs.authenticator_next hin rfl rfl rfl rfl (hsame rfl) fun q hq => ?_
      obtain ⟨heq, _⟩ := Bool.and_eq_true_iff.mp hq
      rw [← beq_iff_eq.mp heq]
      exact not_not.mp hstate
  next p name hpoint =>
    have hin : s.inAuthenticate = true := by simp [inAuthenticate, hpoint]
    split at h
    next =>
      cases h
      exact hs.answered hin
    next hname =>
      cases h
      refine hs.authenticator_next hin rfl rfl rfl rfl (hsame rfl) fun q hq => ?_
      refine hs.waiting q ?_
      simp only [authenticatorRelies, hpoint, Bool.and_eq_true, Bool.not_eq_true']
      exact ⟨hq, Bool.eq_false_iff.mpr hname⟩
  next p name hpoint =>
    cases h
    have hin : s.inAuthenticate = true := by simp [inAuthenticate, hpoint]
    have hkeep : ∀ q, ((s.change p fun c => { c with username := name, protocolState := 3 }).shared
        q).state = (s.shared q).state := by
      intro q
      simp only [change]
      split
      next heq => rw [heq]
      next => rfl
    refine hs.authenticator_next hin rfl rfl rfl rfl (fun q => Or.inl (hkeep q)) fun q hq => ?_
    refine (hkeep q).trans (hs.waiting q ?_)
    simp only [authenticatorRelies, hpoint]
    exact hq
  next p hpoint =>
    cases h
    have hin : s.inAuthenticate = true := by simp [inAuthenticate, hpoint]
    have hstate := hs.waiting p (by simp [authenticatorRelies, hpoint])
    refine hs.authenticator_next hin rfl rfl rfl rfl (fun q => ?_) nofun
    by_cases heq : q = p
    · right
      rw [heq]
      exact ⟨by simp [dead, hstate, EState.toNat], by simp [dead, store_state, EState.toNat]⟩
    · exact Or.inl ((store_state _).trans (if_neg heq))
  next hpoint =>
    cases h
    exact hs.answered (by simp [inAuthenticate, hpoint])

omit [Platform] in
theorem Ordered.accept (hs : s.Ordered) (h : s.accept = some s') : s'.Ordered := by
  unfold Threads.accept at h
  split at h
  next hidle =>
    cases h
    obtain ⟨hnet, hopen, _⟩ := hidle
    have hstate : ∀ q, ((s.change s.allocated fun _ =>
        ⟨.csConnected, 1, [], UInt32.ofNat (s.clientCount + 1)⟩).shared q).state =
          if q = s.allocated then .csConnected else (s.shared q).state := by
      intro q
      rw [change_shared]
      split
      next => rfl
      next => rfl
    have hin := hs.not_inAuthenticate (by rw [hopen]; nofun)
    have htick := hs.tick_idle (by rw [hopen]; nofun)
    refine ⟨hs.tick, hs.authenticator, hs.network, fun q hq => ?_, fun q hq => ?_, fun q hq => ?_,
      fun q hq => ?_, fun q hq => ?_⟩
    · simp [tickRelies, change, htick] at hq
    · rw [not_relies (by exact hin)] at hq
      cases hq
    · exact absurd (hnet.symm.trans hq) nofun
    · exact absurd (hnet.symm.trans hq) nofun
    · have hold := (hstate q).symm.trans hq
      split at hold
      next => cases hold
      next => exact hs.dying q hold
  next => cases h

omit [Platform] in
theorem Ordered.close (hs : s.Ordered) (h : s.close p = some s') : s'.Ordered := by
  unfold Threads.close at h
  split at h
  next hidle =>
    cases h
    have hnot : s.csClients ≠ some .network := fun hheld => by
      have hnet := hs.network.mp hheld
      rw [hidle.1] at hnet
      cases hnet
    refine ⟨hs.tick, hs.authenticator, ⟨fun hheld => absurd hheld hnot, nofun⟩, hs.working, hs.waiting,
      nofun, nofun, fun q hq => ?_⟩
    have hnet := hs.dying q hq
    rw [hidle.1] at hnet
    cases hnet
  next => cases h

theorem Ordered.step (hs : s.Ordered) {a : Act} (hcalm : s.overtakes a = false)
    (h : s.step a = some s') : s'.Ordered := by
  cases a with
  | accepted => exact hs.accept h
  | closed q => exact hs.close h
  | network => exact hs.networkStep hcalm h
  | tick => exact hs.tickStep h
  | status state => exact hs.packet hcalm (Or.inl ⟨state, rfl, h⟩)
  | login username password => exact hs.packet hcalm (Or.inr (Or.inl ⟨username, password, rfl, h⟩))
  | handled => exact hs.packet hcalm (Or.inr (Or.inr ⟨rfl, h⟩))
  | authenticator => exact hs.authenticatorStep h

omit [Platform] in
/-- A store to `m_State` is to that of one connection. -/
theorem store_state_or (q : Nat) (state : EState) : ((s.store q state).shared p).state = (s.shared p).state ∨
    p = q ∧ ((s.store q state).shared p).state = state := by
  by_cases heq : p = q
  · exact Or.inr ⟨heq, (store_state state).trans (if_pos heq)⟩
  · exact Or.inl ((store_state state).trans (if_neg heq))

omit [Platform] in
theorem change_state {q : Nat} {f : Shared → Shared} (hf : ∀ c, (f c).state = c.state) :
    ((s.change q f).shared p).state = (s.shared p).state := by
  rw [change_shared]
  split
  next heq => rw [hf, heq]
  next => rfl

omit [Platform] in
theorem networkStep_state (h : s.networkStep = some s') : (s'.shared p).state = (s.shared p).state ∨
    (s.network = .storeDestroying p ∧ (s'.shared p).state = .csDestroying) ∨
    (s.network = .storeDestroyed p ∧ (s'.shared p).state = .csDestroyed) := by
  unfold Threads.networkStep at h
  split at h
  next => cases h
  next =>
    split at h
    next =>
      cases h
      exact Or.inl rfl
    next =>
      cases h
      exact Or.inl rfl
  next q hnet =>
    cases h
    rw [hnet]
    exact (store_state_or q .csDestroying).imp_right fun hstored => Or.inl ⟨by rw [hstored.1], hstored.2⟩
  next q hnet =>
    cases h
    rw [hnet]
    exact (store_state_or q .csDestroyed).imp_right fun hstored => Or.inr ⟨by rw [hstored.1], hstored.2⟩
  next =>
    split at h
    next =>
      cases h
      exact Or.inl rfl
    next => cases h
  next =>
    cases h
    exact Or.inl rfl

omit [Platform] in
theorem tickStep_state (h : s.tickStep = some s') :
    (s'.shared p).state = (s.shared p).state ∨ s.tickRelies p = true := by
  unfold Threads.tickStep at h
  split at h
  next =>
    split at h
    next =>
      cases h
      exact Or.inl rfl
    next => cases h
  next =>
    cases h
    exact Or.inl rfl
  next =>
    split at h
    next =>
      cases h
      exact Or.inl rfl
    next =>
      cases h
      exact Or.inl rfl
  next => cases h
  next =>
    cases h
    exact Or.inl rfl
  next =>
    split at h
    next =>
      cases h
      exact Or.inl rfl
    next =>
      cases h
      exact Or.inl rfl
  next q todo htick =>
    cases h
    refine (store_state_or q .csWorking).imp_right fun hstored => ?_
    simp [tickRelies, htick, hstored.1]

omit [Platform] in
theorem login_state {username password : AString} (h : s.login username password = some s') :
    (s'.shared p).state = (s.shared p).state ∨ ∃ todo, s.tick = .packets p todo := by
  unfold Threads.login at h
  split at h
  next q todo htick =>
    split at h
    next =>
      cases h
      exact (store_state_or q .csAuthenticating).imp_right fun hstored => ⟨todo, by rw [htick, hstored.1]⟩
    next => cases h
  next => cases h

theorem authenticatorStep_state (h : s.authenticatorStep = some s') :
    (s'.shared p).state = (s.shared p).state ∨ s.authenticatorRelies p = true := by
  unfold Threads.authenticatorStep at h
  split at h
  next =>
    obtain ⟨user, _, rfl⟩ := Option.map_eq_some_iff.mp h
    exact Or.inl rfl
  next =>
    split at h
    next =>
      split at h
      next =>
        cases h
        exact Or.inl rfl
      next =>
        cases h
        exact Or.inl rfl
    next => cases h
  next =>
    cases h
    exact Or.inl rfl
  next =>
    split at h
    next =>
      cases h
      exact Or.inl rfl
    next =>
      cases h
      exact Or.inl rfl
  next =>
    split at h
    next =>
      cases h
      exact Or.inl rfl
    next =>
      cases h
      exact Or.inl rfl
  next =>
    split at h
    next =>
      cases h
      exact Or.inl rfl
    next =>
      cases h
      exact Or.inl rfl
  next q name _ =>
    cases h
    exact Or.inl (@change_state s p q (fun c => { c with username := name, protocolState := 3 }) fun _ => rfl)
  next q hpoint =>
    cases h
    refine (store_state_or q .csAuthenticated).imp_right fun hstored => ?_
    simp [authenticatorRelies, hpoint, hstored.1]
  next =>
    cases h
    exact Or.inl rfl

/-- Which steps store to `m_State` of a connection. -/
theorem step_state {a : Act} (h : s.step a = some s') (hp : p < s.allocated) :
    (s'.shared p).state = (s.shared p).state ∨
      (a = .network ∧ s.network = .storeDestroying p ∧ (s'.shared p).state = .csDestroying) ∨
      (a = .network ∧ s.network = .storeDestroyed p ∧ (s'.shared p).state = .csDestroyed) ∨
      (a = .tick ∧ s.tickRelies p = true) ∨
      (∃ username password todo, a = .login username password ∧ s.tick = .packets p todo) ∨
      (a = .authenticator ∧ s.authenticatorRelies p = true) := by
  cases a with
  | accepted =>
    have h : s.accept = some s' := h
    unfold Threads.accept at h
    split at h
    next =>
      cases h
      exact Or.inl (congrArg Shared.state (if_neg (Nat.ne_of_lt hp)))
    next => cases h
  | closed q =>
    have h : s.close q = some s' := h
    unfold Threads.close at h
    split at h
    next =>
      cases h
      exact Or.inl rfl
    next => cases h
  | network =>
    rcases networkStep_state h with hsame | hdestroying | hdestroyed
    · exact Or.inl hsame
    · exact Or.inr (Or.inl ⟨rfl, hdestroying⟩)
    · exact Or.inr (Or.inr (Or.inl ⟨rfl, hdestroyed⟩))
  | tick => exact (tickStep_state h).imp_right fun hrelies => Or.inr (Or.inr (Or.inl ⟨rfl, hrelies⟩))
  | status state =>
    have h : s.status state = some s' := h
    unfold Threads.status at h
    split at h
    next =>
      split at h
      next =>
        cases h
        exact Or.inl (change_state fun _ => rfl)
      next => cases h
    next => cases h
  | login username password =>
    refine (login_state h).imp_right fun hlogin => ?_
    obtain ⟨todo, htick⟩ := hlogin
    exact Or.inr (Or.inr (Or.inr (Or.inl ⟨username, password, todo, rfl, htick⟩)))
  | handled =>
    have h : s.handled = some s' := h
    unfold Threads.handled at h
    split at h
    next =>
      cases h
      exact Or.inl rfl
    next => cases h
  | authenticator =>
    exact (authenticatorStep_state h).imp_right fun hrelies => Or.inr (Or.inr (Or.inr (Or.inr ⟨rfl, hrelies⟩)))

/-- A connection that is destroyed stays so. -/
theorem Ordered.stays (hs : s.Ordered) {a : Act} (hcalm : s.overtakes a = false)
    (hp : p < s.allocated) (hdead : s.dead p) (h : s.step a = some s') :
    s'.dead p ∧ ((s.shared p).state = .csDestroyed → (s'.shared p).state = .csDestroyed) := by
  have hlive : ∀ {state : EState}, (s.shared p).state = state → state.toNat < 4 → False := by
    intro state hstate hlt
    rw [dead, hstate, EState.toNat] at hdead
    exact absurd hlt (Nat.not_lt_of_le hdead)
  rcases step_state h hp with hsame | ⟨_, hnet, _⟩ | ⟨_, _, hnew⟩ | ⟨_, hrelies⟩ |
    ⟨username, password, todo, rfl, htick⟩ | ⟨_, hrelies⟩
  · rw [dead, hsame]
    exact ⟨hdead, fun h => h⟩
  · exact absurd hdead (hs.destroying p hnet)
  · exact ⟨by simp [dead, hnew, EState.toNat], fun _ => hnew⟩
  · exact (hlive (hs.working p hrelies) (by decide)).elim
  · rw [overtakes, htick] at hcalm
    exact absurd hdead (of_decide_eq_false hcalm)
  · exact (hlive (hs.waiting p hrelies) (by decide)).elim

/-- `m_Clients` has every connection at most once, and only connections that there are. -/
structure Listed (s : Threads) : Prop where
  nodup : s.clients.Nodup
  allocated : ∀ p ∈ s.clients, p < s.allocated

/-- The connections that the tick thread has still to come to. -/
def todo (s : Threads) : List Nat :=
  match s.tick with
  | .idle => []
  | .loop todo => todo
  | .packets _ todo => todo
  | .request _ _ todo => todo
  | .checkAuthenticated _ todo => todo
  | .storeWorking _ todo => todo

omit [Platform] in
theorem tickStep_clients (h : s.tickStep = some s') : s'.allocated = s.allocated ∧
    ((∃ q todo, s.tick = .loop (q :: todo) ∧ s'.todo = todo ∧ (s.shared q).state = .csDestroyed ∧
        s'.clients = s.clients.erase q) ∨
      s'.clients = s.clients ∧
        (s.tick = .idle ∧ s'.todo = s.clients ∨ s'.todo = s.todo ∨
          ∃ q todo, s.tick = .loop (q :: todo) ∧ s'.todo = todo ∧
            (s.shared q).state ≠ .csDestroyed)) := by
  unfold Threads.tickStep at h
  split at h
  next htick =>
    split at h
    next =>
      cases h
      exact ⟨rfl, Or.inr ⟨rfl, Or.inl ⟨htick, rfl⟩⟩⟩
    next => cases h
  next htick =>
    cases h
    exact ⟨rfl, Or.inr ⟨rfl, Or.inr (Or.inl (by simp [todo, htick]))⟩⟩
  next p rest htick =>
    split at h
    next hstate =>
      cases h
      exact ⟨rfl, Or.inl ⟨p, rest, htick, rfl, hstate, rfl⟩⟩
    next hstate =>
      cases h
      exact ⟨rfl, Or.inr ⟨rfl, Or.inr (Or.inr ⟨p, rest, htick, rfl, hstate⟩)⟩⟩
  next => cases h
  next p user rest htick =>
    cases h
    exact ⟨rfl, Or.inr ⟨rfl, Or.inr (Or.inl (by simp [todo, htick]))⟩⟩
  next p rest htick =>
    split at h
    next =>
      cases h
      exact ⟨rfl, Or.inr ⟨rfl, Or.inr (Or.inl (by simp [todo, htick]))⟩⟩
    next =>
      cases h
      exact ⟨rfl, Or.inr ⟨rfl, Or.inr (Or.inl (by simp [todo, htick]))⟩⟩
  next p rest htick =>
    cases h
    exact ⟨rfl, Or.inr ⟨rfl, Or.inr (Or.inl (by simp [todo, htick]))⟩⟩

theorem authenticatorStep_clients (h : s.authenticatorStep = some s') :
    s'.allocated = s.allocated ∧ s'.clients = s.clients ∧ s'.todo = s.todo := by
  unfold Threads.authenticatorStep at h
  split at h
  next =>
    obtain ⟨user, _, rfl⟩ := Option.map_eq_some_iff.mp h
    exact ⟨rfl, rfl, rfl⟩
  all_goals (repeat' split at h)
  all_goals cases h
  all_goals exact ⟨rfl, rfl, rfl⟩

/-- The other steps leave `m_Clients` alone, but for a connection that is new. -/
theorem step_clients {a : Act} (hne : a ≠ .tick) (h : s.step a = some s') : s'.todo = s.todo ∧
    (s'.clients = s.clients ∧ s'.allocated = s.allocated ∨
      s'.clients = s.clients ++ [s.allocated] ∧ s'.allocated = s.allocated + 1) := by
  cases a with
  | accepted =>
    have h : s.accept = some s' := h
    unfold Threads.accept at h
    split at h
    next =>
      cases h
      exact ⟨rfl, Or.inr ⟨rfl, rfl⟩⟩
    next => cases h
  | closed q =>
    have h : s.close q = some s' := h
    unfold Threads.close at h
    split at h
    next =>
      cases h
      exact ⟨rfl, Or.inl ⟨rfl, rfl⟩⟩
    next => cases h
  | network =>
    have h : s.networkStep = some s' := h
    unfold Threads.networkStep at h
    split at h
    all_goals (repeat' split at h)
    all_goals cases h
    all_goals exact ⟨rfl, Or.inl ⟨rfl, rfl⟩⟩
  | tick => exact absurd rfl hne
  | status state =>
    have h : s.status state = some s' := h
    unfold Threads.status at h
    split at h
    next =>
      split at h
      next =>
        cases h
        exact ⟨rfl, Or.inl ⟨rfl, rfl⟩⟩
      next => cases h
    next => cases h
  | login username password =>
    have h : s.login username password = some s' := h
    unfold Threads.login at h
    split at h
    next q rest htick =>
      split at h
      next =>
        cases h
        exact ⟨by simp [todo, htick], Or.inl ⟨rfl, rfl⟩⟩
      next => cases h
    next => cases h
  | handled =>
    have h : s.handled = some s' := h
    unfold Threads.handled at h
    split at h
    next q rest htick =>
      cases h
      exact ⟨by simp [todo, htick], Or.inl ⟨rfl, rfl⟩⟩
    next => cases h
  | authenticator =>
    obtain ⟨hallocated, hclients, htodo⟩ := authenticatorStep_clients h
    exact ⟨htodo, Or.inl ⟨hclients, hallocated⟩⟩

omit [Platform] in
theorem Listed.append (hl : s.Listed) (hclients : s'.clients = s.clients ++ [s.allocated])
    (hallocated : s'.allocated = s.allocated + 1) : s'.Listed := by
  refine ⟨?_, fun p hp => ?_⟩
  · rw [hclients]
    refine List.nodup_append.mpr ⟨hl.nodup, by simp, fun a ha b hb => ?_⟩
    have hlt := hl.allocated a ha
    simp at hb
    omega
  · rw [hclients, List.mem_append, List.mem_singleton] at hp
    rcases hp with hp | rfl
    · have hlt := hl.allocated p hp
      omega
    · omega

theorem Listed.step (hl : s.Listed) {a : Act} (h : s.step a = some s') :
    s'.Listed ∧ s.allocated ≤ s'.allocated := by
  by_cases htick : a = .tick
  · rw [htick] at h
    obtain ⟨hallocated, ⟨q, _, _, _, _, hclients⟩ | ⟨hclients, _⟩⟩ := tickStep_clients h
    · refine ⟨⟨?_, fun p hp => ?_⟩, by omega⟩
      · rw [hclients]
        exact hl.nodup.erase q
      · rw [hclients] at hp
        rw [hallocated]
        exact hl.allocated p (List.mem_of_mem_erase hp)
    · refine ⟨⟨by rw [hclients]; exact hl.nodup, fun p hp => ?_⟩, by omega⟩
      rw [hallocated]
      exact hl.allocated p (hclients ▸ hp)
  · obtain ⟨_, ⟨hclients, hallocated⟩ | ⟨hclients, hallocated⟩⟩ := step_clients htick h
    · refine ⟨⟨by rw [hclients]; exact hl.nodup, fun p hp => ?_⟩, by omega⟩
      rw [hallocated]
      exact hl.allocated p (hclients ▸ hp)
    · exact ⟨hl.append hclients hallocated, by omega⟩

/-- A connection that is out of `m_Clients` does not come back. -/
theorem gone_stays (hp : p < s.allocated) {a : Act} (hgone : p ∉ s.clients)
    (h : s.step a = some s') : p ∉ s'.clients := by
  by_cases htick : a = .tick
  · rw [htick] at h
    obtain ⟨_, ⟨q, _, _, _, _, hclients⟩ | ⟨hclients, _⟩⟩ := tickStep_clients h
    · rw [hclients]
      exact fun hmem => hgone (List.mem_of_mem_erase hmem)
    · rw [hclients]
      exact hgone
  · obtain ⟨_, ⟨hclients, _⟩ | ⟨hclients, _⟩⟩ := step_clients htick h
    · rw [hclients]
      exact hgone
    · rw [hclients, List.mem_append, List.mem_singleton]
      rintro (hmem | rfl)
      · exact hgone hmem
      · exact Nat.lt_irrefl _ hp

/-- A connection that is destroyed is still ahead of the tick thread, or removed. -/
theorem ahead_next (hl : s.Listed) (hp : p < s.allocated) {a : Act}
    (hdestroyed : (s.shared p).state = .csDestroyed) (hahead : p ∈ s.todo ∨ p ∉ s.clients)
    (h : s.step a = some s') : p ∈ s'.todo ∨ p ∉ s'.clients := by
  rcases hahead with hmem | hgone
  · by_cases htick : a = .tick
    · rw [htick] at h
      obtain ⟨_, ⟨q, rest, hloop, htodo, _, hclients⟩ | ⟨hclients, hidle | hsame | hround⟩⟩ :=
        tickStep_clients h
      · rw [todo, hloop] at hmem
        rcases List.mem_cons.mp hmem with heq | hrest
        · right
          rw [hclients, heq]
          exact hl.nodup.not_mem_erase
        · left
          rw [htodo]
          exact hrest
      · simp [todo, hidle.1] at hmem
      · left
        rw [hsame]
        exact hmem
      · obtain ⟨q, rest, hloop, htodo, hstate⟩ := hround
        rw [todo, hloop] at hmem
        rcases List.mem_cons.mp hmem with heq | hrest
        · exact absurd (heq ▸ hdestroyed) hstate
        · left
          rw [htodo]
          exact hrest
    · left
      rw [(step_clients htick h).1]
      exact hmem
  · exact Or.inr (gone_stays hp hgone h)

section Runs

variable {t u u' v v' w : Threads}

/-- No other thread overtakes `Destroy`. -/
def undisturbed (s : Threads) (a : Act) : Prop := s.overtakes a = false

theorem step_ok {a : Act} : threadMachine.step s a = .ok s' ↔ s.step a = some s' := by
  show (s.step a).elim (Except.error ()) Except.ok = Except.ok s' ↔ _
  rcases s.step a with _ | t
  · simp
  · simp

theorem reach_step {a : Act} (hcalm : undisturbed s a) (h : s.step a = some s') :
    threadMachine.Reach undisturbed s s' :=
  .next .start trivial hcalm (step_ok.mpr h)

theorem reach_ordered (h : threadMachine.Reach undisturbed initial s) : s.Ordered ∧ s.Listed := by
  refine h.invariant (I := fun s => s.Ordered ∧ s.Listed) ?_ ?_
  · exact ⟨initial_ordered, ⟨List.nodup_nil, nofun⟩⟩
  · intro t a t' _ ht _ hcalm hstep
    exact ⟨ht.1.step hcalm (step_ok.mp hstep), (ht.2.step (step_ok.mp hstep)).1⟩

/-- What is kept of a connection once it is destroyed. -/
structure Finished (p : Nat) (s : Threads) : Prop where
  ordered : s.Ordered
  listed : s.Listed
  allocated : p < s.allocated
  dead : s.dead p

theorem Finished.run (hs : s.Finished p) (h : threadMachine.Reach undisturbed s t) :
    t.Finished p ∧ ((s.shared p).state = .csDestroyed → (t.shared p).state = .csDestroyed) ∧
      (p ∉ s.clients → p ∉ t.clients) := by
  refine h.invariant (I := fun t => t.Finished p ∧
    ((s.shared p).state = .csDestroyed → (t.shared p).state = .csDestroyed) ∧
      (p ∉ s.clients → p ∉ t.clients)) ⟨hs, id, id⟩ ?_
  rintro t a t' _ ⟨ht, hdestroyed, hgone⟩ _ hcalm hstep
  have hstep := step_ok.mp hstep
  obtain ⟨hdead, hstays⟩ := ht.ordered.stays hcalm ht.allocated ht.dead hstep
  obtain ⟨hlisted, hle⟩ := ht.listed.step hstep
  exact ⟨⟨ht.ordered.step hcalm hstep, hlisted, Nat.lt_of_lt_of_le ht.allocated hle, hdead⟩,
    fun h => hstays (hdestroyed h), fun h => gone_stays ht.allocated (hgone h) hstep⟩

/-- A round of `TickClients` that is over has removed it. -/
theorem Finished.removed (hu : u.Finished p) (hdestroyed : (u.shared p).state = .csDestroyed)
    (hidle : u.tick = .idle) (hbegin : u.step .tick = some u')
    (h : threadMachine.Reach undisturbed u' v) (hover : v.tick = .loop []) : p ∉ v.clients := by
  have hcalm : undisturbed u .tick := rfl
  have hu' : u'.Finished p := (hu.run (reach_step hcalm hbegin)).1
  have hstays := (hu.ordered.stays hcalm hu.allocated hu.dead hbegin).2 hdestroyed
  have hbegun : p ∈ u'.todo ∨ p ∉ u'.clients := by
    obtain ⟨_, ⟨q, rest, hloop, _⟩ | ⟨hclients, ⟨_, htodo⟩ | hsame | ⟨q, rest, hloop, _⟩⟩⟩ :=
      tickStep_clients hbegin
    · rw [hidle] at hloop
      cases hloop
    · rw [htodo, hclients]
      exact Decidable.em _
    · have hbegin : u.tickStep = some u' := hbegin
      unfold Threads.tickStep at hbegin
      rw [hidle] at hbegin
      simp only at hbegin
      split at hbegin
      next =>
        cases hbegin
        exact Decidable.em (p ∈ u.clients)
      next => cases hbegin
    · rw [hidle] at hloop
      cases hloop
  have hend := h.invariant (I := fun v => v.Finished p ∧ (v.shared p).state = .csDestroyed ∧
    (p ∈ v.todo ∨ p ∉ v.clients)) ⟨hu', hstays, hbegun⟩ ?_
  · obtain ⟨_, _, hmem | hgone⟩ := hend
    · simp [todo, hover] at hmem
    · exact hgone
  · rintro t a t' _ ⟨ht, hstate, hahead⟩ _ hcalm hstep
    have hnext := ht.run (.next .start trivial hcalm hstep)
    exact ⟨hnext.1, hnext.2.1 hstate,
      ahead_next ht.listed ht.allocated hstate hahead (step_ok.mp hstep)⟩

/-- In every run in which no thread overtakes `Destroy`, a connection that is destroyed stays so; the
network thread goes on to its last state, and from then on a round of `TickClients` removes it, and its
name is free. -/
theorem destruction_final (h : threadMachine.Reach undisturbed initial s) (hp : p < s.allocated)
    (hdead : s.dead p) (h' : threadMachine.Reach undisturbed s t) :
    t.dead p ∧ ((t.shared p).state = .csDestroyed ∨ t.network = .storeDestroyed p) ∧
      ∀ {u u' v v' w : Threads}, (t.shared p).state = .csDestroyed →
        threadMachine.Reach undisturbed t u → u.tick = .idle → u.step .tick = some u' →
          threadMachine.Reach undisturbed u' v → v.tick = .loop [] → v.step .tick = some v' →
            threadMachine.Reach undisturbed v' w → p ∉ w.clients ∧ ∀ name,
              w.isPlayerInQueue name = true → ∃ q ∈ w.clients, q ≠ p ∧ (w.shared q).username = name := by
  obtain ⟨hordered, hlisted⟩ := reach_ordered h
  obtain ⟨ht, _, _⟩ := Finished.run ⟨hordered, hlisted, hp, hdead⟩ h'
  refine ⟨ht.dead, ?_, ?_⟩
  · cases hstate : (t.shared p).state with
    | csDestroyed => exact Or.inl rfl
    | csDestroying => exact Or.inr (ht.ordered.dying p hstate)
    | csConnected => exact absurd ht.dead (by simp [dead, hstate, EState.toNat])
    | csAuthenticating => exact absurd ht.dead (by simp [dead, hstate, EState.toNat])
    | csAuthenticated => exact absurd ht.dead (by simp [dead, hstate, EState.toNat])
    | csWorking => exact absurd ht.dead (by simp [dead, hstate, EState.toNat])
  · intro u u' v v' w hdestroyed hu hidle hbegin hv hover hend hw
    obtain ⟨hu, hstays, _⟩ := ht.run hu
    have hgone := hu.removed (hstays hdestroyed) hidle hbegin hv hover
    have hnext : ∀ {x x' : Threads}, x.step .tick = some x' →
        threadMachine.Reach undisturbed x x' := fun {x _} hstep => by
      have hcalm : undisturbed x .tick := rfl
      exact reach_step hcalm hstep
    have hv : v.Finished p := ((hu.run (hnext hbegin)).1.run hv).1
    have hv' := hv.run (hnext hend)
    have hw := (hv'.1.run hw).2.2 (hv'.2.2 hgone)
    refine ⟨hw, fun name hname => ?_⟩
    obtain ⟨q, hq, heq⟩ := List.any_eq_true.mp hname
    exact ⟨q, hq, fun hqp => hw (hqp ▸ hq), beq_iff_eq.mp heq⟩

theorem replay_undisturbed {acts : List Act}
    (h : threadMachine.replay (fun s a => !s.overtakes a) acts s = some s') :
    threadMachine.Reach undisturbed s s' :=
  Machine.replay_reach (fun _ _ hpass => ⟨trivial, by simpa [undisturbed] using hpass⟩) .start h

omit [Platform] in
/-- A connection is accepted, closed by the other side, and removed. -/
theorem destruction_final_closed :
    letI := zeroPlatform
    ∃ s t w : Threads, threadMachine.Reach undisturbed initial s ∧ s.dead 0 ∧
      threadMachine.Reach undisturbed s t ∧ (t.shared 0).state = .csDestroyed ∧
        threadMachine.Reach undisturbed t w ∧ 0 ∉ w.clients := by
  let : Platform := zeroPlatform
  have hruns : (threadMachine.replay (fun s a => !s.overtakes a)
      [.accepted, .closed 0, .network, .network] initial).bind (fun s =>
        (threadMachine.replay (fun s a => !s.overtakes a) [.network] s).bind fun t =>
          (t.step .tick).bind fun u =>
            (threadMachine.replay (fun s a => !s.overtakes a) [.tick] u).bind fun v =>
              (v.step .tick).map fun _ => decide
                (0 < s.allocated ∧ s.dead 0 ∧ (t.shared 0).state = .csDestroyed ∧ t.tick = .idle ∧
                  v.tick = .loop [])) = some true := by
    decide +kernel
  obtain ⟨s, hs, hruns⟩ := Option.bind_eq_some_iff.mp hruns
  obtain ⟨t, ht, hruns⟩ := Option.bind_eq_some_iff.mp hruns
  obtain ⟨u, hbegin, hruns⟩ := Option.bind_eq_some_iff.mp hruns
  obtain ⟨v, hv, hruns⟩ := Option.bind_eq_some_iff.mp hruns
  obtain ⟨w, hend, hall⟩ := Option.map_eq_some_iff.mp hruns
  obtain ⟨hp, hdead, hdestroyed, hidle, hover⟩ := of_decide_eq_true hall
  have hs := replay_undisturbed hs
  have ht := replay_undisturbed ht
  have hv := replay_undisturbed hv
  have hfinal := destruction_final hs hp hdead ht
  have hcalm : ∀ x : Threads, undisturbed x .tick := fun _ => rfl
  refine ⟨s, t, w, hs, hdead, ht, hdestroyed, ?_, ?_⟩
  · exact ((reach_step (hcalm t) hbegin).trans hv).trans (reach_step (hcalm v) hend)
  · exact (hfinal.2.2 hdestroyed .start hidle hbegin hv hover hend .start).1

omit [Platform] in
/-- The tick thread has seen that the connection is authenticated; then it is closed and destroyed; then
the tick thread sets it to work. -/
theorem destroyed_works :
    letI := zeroPlatform
    ∃ s t : Threads, threadMachine.Reachable initial s ∧ (s.shared 0).state = .csDestroyed ∧
      threadMachine.Reachable s t ∧ (t.shared 0).state = .csWorking := by
  let : Platform := zeroPlatform
  have hruns : (threadMachine.replay (fun _ _ => true)
      [.accepted, .tick, .tick, .status 2, .login [97] (md5Password [97]), .tick, .handled, .tick, .tick,
        .authenticator, .authenticator, .authenticator, .authenticator, .authenticator, .authenticator,
        .authenticator, .authenticator, .tick, .tick, .handled, .tick, .closed 0, .network, .network,
        .network] initial).bind (fun s =>
          (threadMachine.replay (fun _ _ => true) [.tick] s).map fun t => decide
            ((s.shared 0).state = .csDestroyed ∧ (t.shared 0).state = .csWorking)) = some true := by
    decide +kernel
  obtain ⟨s, hs, hruns⟩ := Option.bind_eq_some_iff.mp hruns
  obtain ⟨t, ht, hall⟩ := Option.map_eq_some_iff.mp hruns
  obtain ⟨hdestroyed, hworking⟩ := of_decide_eq_true hall
  exact ⟨s, t, Machine.replay_reach (fun _ _ _ => ⟨trivial, trivial⟩) .start hs, hdestroyed,
    Machine.replay_reach (fun _ _ _ => ⟨trivial, trivial⟩) .start ht, hworking⟩

end Runs

end Threads

end P2PChat

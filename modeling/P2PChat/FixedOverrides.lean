import P2PChat.Repository

namespace P2PChat

section Definitions

/-- `operator[]` for a key: it is made when there is none. -/
def MemorySettings.touch (keyName : AString) (settings : MemorySettings) : MemorySettings :=
  settings.modifyKey keyName (settings.demand keyName)

/-- The queries for every key and name have the same answers. -/
structure MemorySettings.SameAnswers (settings other : MemorySettings) : Prop where
  keyExists : ∀ k, settings.keyExists k = other.keyExists k
  hasValue : ∀ k n, settings.hasValue k n = other.hasValue k n
  getValue : ∀ k n defValue, settings.getValue k n defValue = other.getValue k n defValue
  getValues : ∀ k, (settings.getValues k).1 = (other.getValues k).1

/-- A call of the overrides themselves, or of the `cOverridesSettingsRepository` that owns them. -/
inductive OwnedCall where
  | direct (call : RepositoryCall)
  | owner (call : RepositoryCall)
  deriving DecidableEq, Repr

/-- The key that a call may make. -/
def OwnedCall.touched : OwnedCall → Option AString
  | .direct (.settings (.getValues k)) | .owner (.settings (.getValues k)) | .direct (.addKeyName k) => some k
  | _ => none

variable {σ : Type}

def OwnedCall.after (M : Repository σ) (order : HashOrder) (s : Overrides σ MemorySettings) :
    OwnedCall → Overrides σ MemorySettings
  | .direct call => (Overrides.toOverrides (MemorySettings.repository order) call s).2
  | .owner call => (Overrides.repository M (MemorySettings.repository order) call s).2

def Overrides.run (M : Repository σ) (order : HashOrder) (calls : List OwnedCall) (s : Overrides σ MemorySettings) :
    Overrides σ MemorySettings :=
  calls.foldl (OwnedCall.after M order) s

end Definitions

section Keys

variable {settings : MemorySettings} {keyName : AString}

theorem MemorySettings.touch_existing (h : settings.keyExists keyName = true) : settings.touch keyName = settings := by
  obtain ⟨values, hvalues⟩ := Option.isSome_iff_exists.mp h
  rw [touch, modifyKey, demand, hvalues, Option.getD_some, ← hvalues, Function.update_eq_self]

theorem MemorySettings.addKeyName_touch (keyName : AString) (settings : MemorySettings) :
    settings.addKeyName keyName = settings.touch keyName := by
  unfold addKeyName
  split
  next hthere => rw [touch_existing hthere]
  next hmissing =>
    have hnone : settings.map keyName = none := by simpa [keyExists] using hmissing
    rw [touch, demand, hnone]
    rfl

theorem MemorySettings.touch_keyExists (other : AString) :
    (settings.touch keyName).keyExists other = (settings.keyExists other || decide (other = keyName)) := by
  unfold keyExists touch modifyKey
  by_cases hname : other = keyName
  · simp [hname]
  · simp [hname]

/-- Read-only settings can only get new keys. -/
theorem MemorySettings.readOnly_call (h : settings.writable = false) (order : HashOrder) (call : RepositoryCall) :
    (repository order call settings).2 =
      ((OwnedCall.direct call).touched).elim settings fun keyName => settings.touch keyName := by
  have hadd : ∀ k n v, settings.addValue order k n v = settings := fun k n v => by rw [addValue, if_neg (by simp [h])]
  have hget : ∀ {α : Type} (get : SValue → Option α) put k n d,
      (settings.getOrSet get put order k n d).2 = settings := by
    intro α get put k n d
    unfold getOrSet
    split
    next => exact hadd k n (put d)
    next => rfl
  have hstore : ∀ k n v create, settings.store order k n v create = (false, settings) := fun k n v create => by
    rw [store, h]
    rfl
  cases call with
  | addKeyName k => exact addKeyName_touch k settings
  | addKeyComment k comment => rfl
  | getKeyComment k commentID => rfl
  | deleteKeyComment k commentID => rfl
  | addValue k n v => exact hadd k n (.string v)
  | flush => rfl
  | settings call =>
    cases call with
    | keyExists k => rfl
    | hasValue k n => rfl
    | getValue k n d => rfl
    | getValues k => rfl
    | getValueSet k n d => exact hget SValue.getStringValue .string k n d
    | getValueSetI k n d =>
      exact hget (fun value => value.getIntValue.map Int64.toInt32) (fun defValue => .int64 defValue.toInt64) k n d
    | getValueSetI64 k n d => exact hget SValue.getIntValue .int64 k n d
    | getValueSetB k n d => exact hget SValue.getBoolValue .bool k n d
    | setValue k n v create => exact congrArg Prod.snd (hstore k n (.string v) create)
    | setValueI k n v create => exact congrArg Prod.snd (hstore k n (.int64 v.toInt64) create)
    | deleteValue k n =>
      show (settings.deleteValue k n).2 = settings
      rw [deleteValue, h]
      rfl

end Keys

section Runs

variable {σ : Type} {M : Repository σ} {order : HashOrder} {s : Overrides σ MemorySettings}

theorem Repository.getValues_state {τ : Type} (repository : Repository τ) (keyName : AString) (state : τ) :
    (repository.getValues keyName state).2 = (repository (.settings (.getValues keyName)) state).2 := by
  unfold getValues
  split
  next h => rw [h]
  next h => rw [h]

/-- The owner gives the overrides their own calls, and changes them by no other. -/
theorem OwnedCall.after_overrides (M : Repository σ) (order : HashOrder) (h : s.overrides.writable = false)
    (call : OwnedCall) :
    (call.after M order s).overrides =
      call.touched.elim s.overrides fun keyName => s.overrides.touch keyName := by
  have hcall := MemorySettings.readOnly_call h order
  have hchoose : ∀ overridden call, (OwnedCall.direct call).touched = none →
      (Overrides.choose M (MemorySettings.repository order) overridden call s).2.overrides = s.overrides := by
    intro overridden call hnone
    unfold Overrides.choose
    split
    next =>
      show (MemorySettings.repository order call s.overrides).2 = s.overrides
      rw [hcall call, hnone]
      rfl
    next => rfl
  cases call with
  | direct call => exact hcall call
  | owner call =>
    cases call with
    | addKeyName k =>
      show (Overrides.addKeyName M (MemorySettings.repository order) k s).2.overrides = s.overrides
      unfold Overrides.addKeyName
      split
      next hthere =>
        have hexists : s.overrides.keyExists k = true := by
          simpa [Repository.keyExists, MemorySettings.repository, MemorySettings.call,
            RepositoryAnswer.bool] using hthere
        show (MemorySettings.repository order (.addKeyName k) s.overrides).2 = s.overrides
        rw [hcall]
        exact MemorySettings.touch_existing hexists
      next => rfl
    | addKeyComment k comment => exact hchoose _ _ rfl
    | getKeyComment k commentID => exact hchoose _ _ rfl
    | deleteKeyComment k commentID => exact hchoose _ _ rfl
    | addValue k n v => exact hchoose _ _ rfl
    | flush =>
      show (Overrides.flush M (MemorySettings.repository order) s).2.overrides = s.overrides
      unfold Overrides.flush
      dsimp only
      split
      next => exact hcall .flush
      next => exact hcall .flush
    | settings call =>
      cases call with
      | getValues k =>
        show ((MemorySettings.repository order).getValues k s.overrides).2 = _
        rw [Repository.getValues_state, hcall]
        rfl
      | keyExists k => rfl
      | hasValue k n => rfl
      | _ => exact hchoose _ _ rfl

/-- A run makes keys, one after another. -/
theorem Overrides.run_overrides (h : s.overrides.writable = false) (calls : List OwnedCall) :
    (run M order calls s).overrides =
      (calls.filterMap OwnedCall.touched).foldl (fun settings k => settings.touch k) s.overrides := by
  induction calls generalizing s with
  | nil => rfl
  | cons call calls ih =>
    have hafter := OwnedCall.after_overrides M order h call
    have hreadOnly : (call.after M order s).overrides.writable = false := by
      rw [hafter]
      rcases call.touched with _ | k
      · exact h
      · exact h
    show (run M order calls (call.after M order s)).overrides = _
    rw [ih hreadOnly, hafter, List.filterMap_cons]
    rcases call.touched with _ | k
    · rfl
    · rfl

theorem MemorySettings.touches_keyExists (ks : List AString) (settings : MemorySettings) (other : AString) :
    (ks.foldl (fun settings k => settings.touch k) settings).keyExists other =
      (settings.keyExists other || decide (other ∈ ks)) := by
  induction ks generalizing settings with
  | nil => simp
  | cons k ks ih =>
    rw [List.foldl_cons, ih, touch_keyExists, Bool.or_assoc]
    simp

theorem MemorySettings.touches_existing {settings : MemorySettings} {ks : List AString}
    (h : ∀ k ∈ ks, settings.keyExists k = true) :
    ks.foldl (fun settings k => settings.touch k) settings = settings := by
  induction ks with
  | nil => rfl
  | cons k ks ih =>
    obtain ⟨hk, hks⟩ := List.forall_mem_cons.mp h
    rw [List.foldl_cons, touch_existing hk, ih hks]

/-- Read-only overrides give the same answers after a run, with any main repository, if and only if no call of the run
makes a key: `GetValues`, of them or of their owner, and their own `AddKeyName` come with keys that there are. -/
theorem readOnly_sameAnswers_iff (M : Repository σ) (order : HashOrder) (settings : MemorySettings) (main : σ)
    (calls : List OwnedCall) :
    settings.setReadOnly.SameAnswers (Overrides.run M order calls ⟨main, settings.setReadOnly⟩).overrides ↔
      ∀ call ∈ calls, ∀ k, call.touched = some k → settings.keyExists k = true := by
  have hrun : (Overrides.run M order calls ⟨main, settings.setReadOnly⟩).overrides = _ :=
    Overrides.run_overrides rfl calls
  rw [hrun]
  constructor
  · intro hsame call hmem k hk
    have hthere : k ∈ calls.filterMap OwnedCall.touched := List.mem_filterMap.mpr ⟨call, hmem, hk⟩
    have hkey := hsame.keyExists k
    rw [MemorySettings.touches_keyExists, decide_eq_true hthere, Bool.or_true] at hkey
    exact hkey
  · intro hharmless
    rw [MemorySettings.touches_existing]
    · exact ⟨fun _ => rfl, fun _ _ => rfl, fun _ _ _ => rfl, fun _ => rfl⟩
    · intro k hmem
      obtain ⟨call, hcall, hk⟩ := List.mem_filterMap.mp hmem
      exact hharmless call hcall k hk

/-- A key that is only asked for exists afterwards. -/
theorem getValues_makes_key :
    ¬∀ (M : Repository IniFile) order (settings : MemorySettings) main calls,
      settings.setReadOnly.SameAnswers (Overrides.run M order calls ⟨main, settings.setReadOnly⟩).overrides := by
  intro h
  have hkey := (h (IniFile.repository true) .front .create .create [.owner (.settings (.getValues [0x53]))]).keyExists
    [0x53]
  revert hkey
  decide

end Runs

end P2PChat

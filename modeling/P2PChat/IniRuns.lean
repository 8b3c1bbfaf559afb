import P2PChat.IniAccess
import P2PChat.MemorySettings
import P2PChat.TransitionSystem

namespace P2PChat

/-- A call of a `cIniFile`. The functions for numbers call those for their texts. -/
inductive IniCall where
  | caseSensitive
  | caseInsensitive
  | readFile (file exampleFile : Option AString) (allowExampleRedirect : Bool)
  | clear
  | addKeyName (keyName : AString)
  | addValue (keyName valueName value : AString)
  | deleteKey (keyName : AString)
  | addHeaderComment (comment : AString)
  | deleteHeaderComments
  | settings (call : SettingsCall)
  | byID (call : IniFile.IDCall)
  deriving DecidableEq, Repr

namespace IniFile

/-- `none` when an element is accessed that does not exist. -/
def after (call : IniCall) (ini : IniFile) : Option IniFile :=
  match call with
  | .caseSensitive => some ini.caseSensitive
  | .caseInsensitive => some ini.caseInsensitive
  | .readFile file exampleFile allow => some (ini.readFileOr file exampleFile allow).2
  | .clear => some ini.clear
  | .addKeyName k => some (ini.addKeyName k).2
  | .addValue k n v => some (ini.addValue k n v)
  | .deleteKey k => some (ini.deleteKey k).2
  | .addHeaderComment comment => some (ini.addHeaderComment comment)
  | .deleteHeaderComments => some ini.deleteHeaderComments
  | .settings call => some (ini.call call).2
  | .byID call => (ByID.access call ini).map Prod.snd

/-- Any calls in any order; nothing follows an access outside a vector. -/
def machine : Machine IniFile IniCall Unit where
  enabled _ _ := True
  step ini call := (ini.after call).elim (.error ()) .ok

section Alignment

variable {ini ini' : IniFile}

theorem Aligned.deleteKey (h : ini.Aligned) (keyName : AString) : (ini.deleteKey keyName).2.Aligned := by
  unfold IniFile.deleteKey
  split
  next => exact h
  next keyID _ =>
    constructor
    · show (ini.keys.eraseIdx keyID).length = (ini.names.eraseIdx keyID).length
      rw [List.length_eraseIdx, List.length_eraseIdx, h.keys]
    · exact fun key hmem => h.values key (List.mem_of_mem_eraseIdx hmem)

theorem Aligned.addKeyComment (h : ini.Aligned) (keyName comment : AString) :
    (ini.addKeyComment keyName comment).2.Aligned := by
  unfold IniFile.addKeyComment
  split
  next =>
    split
    next => exact h.modifyKey fun key hkey => hkey
    next => exact h
  next => exact h

theorem Aligned.call (h : ini.Aligned) (call : SettingsCall) : (ini.call call).2.Aligned := by
  have hset : ∀ k n d, (ini.getValueSet k n d).2.Aligned := by
    intro k n d
    rw [h.getValueSet]
    split
    next => exact h.addValue
    next => exact h
  have hwrite : ∀ k n v create, (ini.setValue k n v create).2.Aligned := by
    intro k n v create
    rcases hfind : ini.find k n with _ | old
    · rw [h.setValue_new hfind]
      rcases create with _ | _
      · exact h
      · exact h.addValue
    · exact (h.setValue_found hfind v create).2.1
  cases call
  case getValueSet k n d => exact hset k n d
  case getValueSetI k n d => exact hset k n (decimal d.toInt)
  case getValueSetI64 k n d => exact hset k n (decimal d.toInt)
  case getValueSetB k n d => exact hset k n _
  case setValue k n v create => exact hwrite k n v create
  case setValueI k n v create => exact hwrite k n (decimal v.toInt) create
  case deleteValue k n =>
    show (ini.deleteValue k n).2.Aligned
    rcases hfind : ini.find k n with _ | old
    · rw [Aligned.deleteValue_new hfind h]
      exact h
    · exact (h.deleteValue_found hfind).2.1
  all_goals exact h

end Alignment

section Reading

variable {ini ini' : IniFile} {line keyname keyname' : AString}

theorem Aligned.readLine (h : ini.Aligned) (hread : readLine line keyname ini = some (keyname', ini')) :
    ini'.Aligned := by
  obtain ⟨_, rfl⟩ | ⟨_, _, _, _, _, ⟨_, _, rfl⟩ | ⟨_, rfl | rfl | rfl⟩⟩ := readLine_cases hread
  · exact h
  · exact h.addKeyName keyname'
  · exact h.addValue
  · exact ⟨h.keys, h.values⟩
  · exact h.addKeyComment keyname _

theorem Aligned.readLines (h : ini.Aligned) (lines : List AString) (keyname : AString) :
    (readLines lines keyname ini).2.Aligned := by
  induction lines generalizing keyname ini with
  | nil => exact h
  | cons line lines ih =>
    unfold IniFile.readLines
    split
    next => exact h
    next keyname₁ ini₁ hread => exact ih (h.readLine hread) keyname₁

theorem Aligned.readFileOr (h : ini.Aligned) (file exampleFile : Option AString) (allow : Bool) :
    (ini.readFileOr file exampleFile allow).2.Aligned := by
  unfold IniFile.readFileOr
  split
  next => exact h
  next text => exact h.readLines _ []

end Reading

section Accesses

open ByID

variable {ini ini' : IniFile}

theorem guarded_cases {α : Type} {id : Int} {size : Nat} {failure answer : α} {access : Option α}
    (h : guarded id size failure access = some answer) : answer = failure ∨ access = some answer := by
  unfold guarded at h
  split at h
  next => exact .inr h
  next => exact .inl (Option.some.inj h).symm

/-- Whatever file there is after a call is in order. -/
def Keeps (result : Option (Bool × IniFile)) : Prop := ∀ answer ini', result = some (answer, ini') → ini'.Aligned

theorem Keeps.guarded {α : Type} {id : Int} {size : Nat} {found : Option α} {f : α → Option (Bool × IniFile)}
    (h : ini.Aligned) (hf : ∀ x, Keeps (f x)) : Keeps (guarded id size (false, ini) (found.bind f)) := by
  intro answer ini' hresult
  rcases guarded_cases hresult with hfailed | hdone
  · cases hfailed
    exact h
  · obtain ⟨x, _, hx⟩ := Option.bind_eq_some_iff.mp hdone
    exact hf x answer ini' hx

theorem Keeps.named {keyName : AString} {f : Int → Option (Bool × IniFile)} (h : ini.Aligned)
    (hf : ∀ keyID, Keeps (f keyID)) : Keeps (named keyName (false, ini) f ini) := by
  intro answer ini' hresult
  unfold ByID.named at hresult
  split at hresult
  next =>
    cases hresult
    exact h
  next keyID _ => exact hf keyID answer ini' hresult

theorem Keeps.changeKey {keyID : Int} {f : IniKey → IniKey} (h : ini.Aligned)
    (hf : ∀ key, key.names.length = key.values.length → (f key).names.length = (f key).values.length) :
    Keeps (some (true, changeKey keyID f ini)) := by
  intro answer ini' hresult
  cases hresult
  exact h.modifyKey hf

theorem Keeps.setValue (h : ini.Aligned) (keyID valueID : Int) (value : AString) :
    Keeps (ByID.setValue keyID valueID value ini) := by
  have hset : Keeps (some (true, ByID.changeKey keyID (IniKey.setValue valueID.toNat value) ini)) :=
    .changeKey h fun key hkey => by simpa [IniKey.setValue] using hkey
  intro answer ini' hresult
  unfold ByID.setValue at hresult
  split at hresult
  next =>
    cases hresult
    exact h
  next =>
    split at hresult
    next =>
      cases hresult
      exact h
    next =>
      obtain ⟨_, _, hdone⟩ := Option.bind_eq_some_iff.mp hresult
      exact hset answer ini' hdone

theorem Keeps.deleteValueByID (h : ini.Aligned) (keyID valueID : Int) :
    Keeps (ByID.deleteValueByID keyID valueID ini) := by
  apply Keeps.guarded h
  intro key
  apply Keeps.guarded h
  intro name answer ini' hresult
  obtain ⟨_, _, hdone⟩ := Option.bind_eq_some_iff.mp hresult
  refine Keeps.changeKey h (fun key hkey => ?_) answer ini' hdone
  simp [IniKey.deleteValue, List.length_eraseIdx, hkey]

theorem Keeps.addKeyComment (h : ini.Aligned) (keyID : Int) (comment : AString) :
    Keeps (ByID.addKeyComment keyID comment ini) :=
  .guarded h fun _ => .changeKey h fun _ hkey => hkey

theorem Keeps.deleteKeyComment (h : ini.Aligned) (keyID commentID : Int) :
    Keeps (deleteKeyComment keyID commentID ini) :=
  .guarded h fun _ => .guarded h fun _ => .changeKey h fun _ hkey => hkey

theorem Keeps.deleteKeyComments (h : ini.Aligned) (keyID : Int) : Keeps (deleteKeyComments keyID ini) :=
  .guarded h fun _ => .changeKey h fun _ hkey => hkey

theorem Keeps.deleteHeaderComment (h : ini.Aligned) (commentID : Int) : Keeps (deleteHeaderComment commentID ini) := by
  apply Keeps.guarded h
  intro _ answer ini' hresult
  cases hresult
  exact ⟨h.keys, h.values⟩

theorem Aligned.access {answer : IDAnswer} (h : ini.Aligned) (call : IDCall)
    (hresult : access call ini = some (answer, ini')) : ini'.Aligned := by
  have hread : ∀ {α : Type} {result : Option α} {f : α → IDAnswer},
      (result.map fun answer => (f answer, ini)) = some (answer, ini') → ini'.Aligned := by
    intro α result f hmap
    obtain ⟨_, _, hsame⟩ := Option.map_eq_some_iff.mp hmap
    cases hsame
    exact h
  have hchange : ∀ {result : Option (Bool × IniFile)}, Keeps result →
      result.map (Prod.map IDAnswer.bool id) = some (answer, ini') → ini'.Aligned := by
    intro result hkeeps hmap
    obtain ⟨⟨done, ini₁⟩, hdone, hsame⟩ := Option.map_eq_some_iff.mp hmap
    cases hsame
    exact hkeeps done _ hdone
  cases call
  case setValue keyID valueID value => exact hchange (.setValue h keyID valueID value) hresult
  case deleteValueByID keyID valueID => exact hchange (.deleteValueByID h keyID valueID) hresult
  case deleteHeaderComment commentID => exact hchange (.deleteHeaderComment h commentID) hresult
  case addKeyComment keyID comment => exact hchange (.addKeyComment h keyID comment) hresult
  case addKeyCommentIn _ comment => exact hchange (.named h fun keyID => .addKeyComment h keyID comment) hresult
  case deleteKeyComment keyID commentID => exact hchange (.deleteKeyComment h keyID commentID) hresult
  case deleteKeyCommentIn _ commentID =>
    exact hchange (.named h fun keyID => .deleteKeyComment h keyID commentID) hresult
  case deleteKeyComments keyID => exact hchange (.deleteKeyComments h keyID) hresult
  case deleteKeyCommentsIn => exact hchange (.named h fun keyID => .deleteKeyComments h keyID) hresult
  all_goals exact hread hresult

end Accesses

section Runs

variable {ini ini' : IniFile}

theorem Aligned.after (h : ini.Aligned) {call : IniCall} (hafter : ini.after call = some ini') : ini'.Aligned := by
  rcases call with _ | _ | ⟨file, exampleFile, allow⟩ | _ | k | _ | k | _ | _ | call | call
  case byID =>
    obtain ⟨⟨answer, _⟩, hresult, rfl⟩ := Option.map_eq_some_iff.mp hafter
    exact h.access call hresult
  all_goals
    cases hafter
  case caseSensitive => exact ⟨h.keys, h.values⟩
  case caseInsensitive => exact ⟨h.keys, h.values⟩
  case readFile => exact h.readFileOr file exampleFile allow
  case clear => exact ⟨rfl, nofun⟩
  case addKeyName => exact h.addKeyName k
  case addValue => exact h.addValue
  case deleteKey => exact h.deleteKey k
  case addHeaderComment => exact ⟨h.keys, h.values⟩
  case deleteHeaderComments => exact ⟨h.keys, h.values⟩
  case settings => exact h.call call

/-- In every state the vectors that belong together have the same length. -/
theorem reachable_aligned (h : machine.Reachable create ini) : ini.Aligned := by
  refine Machine.Reach.invariant ⟨rfl, fun key hmem => absurd hmem List.not_mem_nil⟩ ?_ h
  intro ini call ini' _ haligned _ _ hstep
  rcases hafter : ini.after call with _ | ini₁
  · simp [machine, hafter] at hstep
  · simp only [machine, hafter, Option.elim_some, Except.ok.injEq] at hstep
    exact hstep ▸ haligned.after hafter

open ByID in
/-- In every state a call with numbers stays in the vectors and does what it is to do, but for a negative number that
comes to a vector. -/
theorem reachable_access_iff (h : machine.Reachable create ini) :
    ini.Aligned ∧ ∀ call, access call ini = some (documented call ini) ↔ InRange ini call :=
  ⟨reachable_aligned h, access_iff (reachable_aligned h)⟩

theorem oneKey_reachable : machine.Reachable create ⟨true, [IniKey.empty], [[0x61]], []⟩ :=
  .next (e := .addKeyName [0x61]) .start trivial trivial rfl

open ByID in
theorem oneKey_access_iff :
    (⟨true, [IniKey.empty], [[0x61]], []⟩ : IniFile).Aligned ∧
      ∀ call, access call ⟨true, [IniKey.empty], [[0x61]], []⟩ =
        some (documented call ⟨true, [IniKey.empty], [[0x61]], []⟩) ↔
          InRange ⟨true, [IniKey.empty], [[0x61]], []⟩ call :=
  reachable_access_iff oneKey_reachable

open ByID in
/-- The name of the key that `FindKey` does not find is read from before the first one. -/
theorem getKeyName_noID :
    ¬∀ ini, machine.Reachable create ini → ini.Aligned ∧ ∀ call, access call ini = some (documented call ini) := by
  intro h
  have hread := (h _ oneKey_reachable).2 (.getKeyName (toID (findKey [0x62] ⟨true, [IniKey.empty], [[0x61]], []⟩)))
  revert hread
  decide

end Runs

end IniFile

end P2PChat

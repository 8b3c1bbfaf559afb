import P2PChat.IniAccess
import P2PChat.MemorySettings
import P2PChat.OverridesMerge

namespace P2PChat

/-- A call of `cSettingsRepositoryInterface`. -/
inductive RepositoryCall where
  | settings (call : SettingsCall)
  | addKeyName (keyName : AString)
  | addKeyComment (keyName comment : AString)
  | getKeyComment (keyName : AString) (commentID : Int)
  | deleteKeyComment (keyName : AString) (commentID : Int)
  | addValue (keyName valueName value : AString)
  | flush
  deriving DecidableEq, Repr

inductive RepositoryAnswer where
  | settings (answer : SettingsAnswer)
  | id (answer : Int)
  | nothing
  deriving DecidableEq, Repr

/-- What a repository answers to a call in a state, and its next state; `none` where the answer is undefined or an
`ASSERT` fails. -/
abbrev Repository (σ : Type) : Type := RepositoryCall → σ → Option RepositoryAnswer × σ

def RepositoryAnswer.bool (answer : Bool) : RepositoryAnswer := .settings (.bool answer)

namespace Repository

variable {σ : Type}

def keyExists (repository : Repository σ) (keyName : AString) (state : σ) : Bool :=
  (repository (.settings (.keyExists keyName)) state).1 = some (.bool true)

def hasValue (repository : Repository σ) (keyName valueName : AString) (state : σ) : Bool :=
  (repository (.settings (.hasValue keyName valueName)) state).1 = some (.bool true)

def getValues (repository : Repository σ) (keyName : AString) (state : σ) : Option (List (AString × AString)) × σ :=
  match repository (.settings (.getValues keyName)) state with
  | (some (.settings (.pairs values)), state) => (some values, state)
  | (_, state) => (none, state)

end Repository

/-- `emplace` keeps a key that there is. -/
def MemorySettings.addKeyName (keyName : AString) (settings : MemorySettings) : MemorySettings :=
  if settings.keyExists keyName then settings else settings.modifyKey keyName []

def MemorySettings.repository (order : HashOrder) : Repository MemorySettings
  | .settings call, settings => (settings.call order call).map (Option.map .settings) id
  | .addKeyName k, settings => (some (.id 0), settings.addKeyName k)
  | .addKeyComment _ _, settings => (some (.bool false), settings)
  | .getKeyComment _ _, settings => (some (.settings (.string [])), settings)
  | .deleteKeyComment _ _, settings => (some (.bool false), settings)
  | .addValue k n v, settings => (some .nothing, settings.addValue order k n (.string v))
  | .flush, settings => (some (.bool true), settings)

/-- `written` tells whether `WriteFile` can open the file. -/
def IniFile.repository (written : Bool) : Repository IniFile
  | .settings call, ini => (ini.call call).map (Option.map .settings) id
  | .addKeyName k, ini => (some (.id (ini.addKeyName k).1), (ini.addKeyName k).2)
  | .addKeyComment k comment, ini => (ini.addKeyComment k comment).map (some ∘ .bool) id
  | .getKeyComment k commentID, ini => ((ByID.getKeyCommentIn k commentID ini).map (.settings ∘ .string), ini)
  | .deleteKeyComment k commentID, ini =>
    match ByID.deleteKeyCommentIn k commentID ini with
    | none => (none, ini)
    | some (done, ini) => (some (.bool done), ini)
  | .addValue k n v, ini => (some .nothing, ini.addValue k n v)
  | .flush, ini => (some (.bool written), ini)

/-- A `cOverridesSettingsRepository`. -/
structure Overrides (σ τ : Type) where
  main : σ
  overrides : τ
  deriving DecidableEq, Repr

namespace Overrides

/-- `char_traits` compares characters as unsigned numbers. -/
scoped instance : LinearOrder UInt8 where
  le_refl := UInt8.le_refl
  le_trans _ _ _ := UInt8.le_trans
  lt_iff_le_not_ge a b := by
    rw [UInt8.lt_iff_toNat_lt, UInt8.le_iff_toNat_le, UInt8.le_iff_toNat_le]
    omega
  le_antisymm _ _ := UInt8.le_antisymm
  le_total := UInt8.le_total
  toDecidableLE := inferInstance
  toDecidableLT := inferInstance
  toDecidableEq := inferInstance
  compare := compare
  compare_eq_compareOfLessAndEq _ _ := rfl

section Calls

variable {σ τ : Type} (M : Repository σ) (O : Repository τ)

def toMain (call : RepositoryCall) (s : Overrides σ τ) : Option RepositoryAnswer × Overrides σ τ :=
  (M call s.main).map id fun main => { s with main := main }

def toOverrides (call : RepositoryCall) (s : Overrides σ τ) : Option RepositoryAnswer × Overrides σ τ :=
  (O call s.overrides).map id fun overrides => { s with overrides := overrides }

/-- What the functions have in common that ask one of the two repositories. -/
def choose (overridden : Bool) (call : RepositoryCall) (s : Overrides σ τ) :
    Option RepositoryAnswer × Overrides σ τ :=
  if overridden then toOverrides O call s else toMain M call s

def keyExists (keyName : AString) (s : Overrides σ τ) : Bool :=
  O.keyExists keyName s.overrides || M.keyExists keyName s.main

def hasValue (keyName valueName : AString) (s : Overrides σ τ) : Bool :=
  O.hasValue keyName valueName s.overrides || M.hasValue keyName valueName s.main

def addKeyName (keyName : AString) (s : Overrides σ τ) : Option RepositoryAnswer × Overrides σ τ :=
  if O.keyExists keyName s.overrides then (some (.id 0), (toOverrides O (.addKeyName keyName) s).2)
  else toMain M (.addKeyName keyName) s

def getValues (keyName : AString) (s : Overrides σ τ) : Option (List (AString × AString)) × Overrides σ τ :=
  let (overrides, overridesState) := O.getValues keyName s.overrides
  let (main, mainState) := M.getValues keyName s.main
  (overrides.bind fun overrides => main.bind fun main => OverridesMerge.mergeValues overrides main,
    ⟨mainState, overridesState⟩)

def flush (s : Overrides σ τ) : Option RepositoryAnswer × Overrides σ τ :=
  let (answer, s) := toOverrides O .flush s
  if answer = some (.bool true) then toMain M .flush s else (answer, s)

def repository : Repository (Overrides σ τ)
  | .settings (.keyExists k), s => (some (.bool (keyExists M O k s)), s)
  | .settings (.hasValue k n), s => (some (.bool (hasValue M O k n s)), s)
  | .settings (.getValues k), s => (getValues M O k s).map (Option.map (.settings ∘ .pairs)) id
  | .settings (.getValue k n d), s => choose M O (O.hasValue k n s.overrides) (.settings (.getValue k n d)) s
  | .settings (.getValueSet k n d), s => choose M O (O.hasValue k n s.overrides) (.settings (.getValueSet k n d)) s
  | .settings (.getValueSetI k n d), s => choose M O (O.hasValue k n s.overrides) (.settings (.getValueSetI k n d)) s
  | .settings (.getValueSetI64 k n d), s =>
    choose M O (O.hasValue k n s.overrides) (.settings (.getValueSetI64 k n d)) s
  | .settings (.getValueSetB k n d), s => choose M O (O.hasValue k n s.overrides) (.settings (.getValueSetB k n d)) s
  | .settings (.setValue k n v create), s =>
    choose M O (O.hasValue k n s.overrides) (.settings (.setValue k n v create)) s
  | .settings (.setValueI k n v create), s =>
    choose M O (O.hasValue k n s.overrides) (.settings (.setValueI k n v create)) s
  | .settings (.deleteValue k n), s => choose M O (O.hasValue k n s.overrides) (.settings (.deleteValue k n)) s
  | .addValue k n v, s => choose M O (O.hasValue k n s.overrides) (.addValue k n v) s
  | .addKeyName k, s => addKeyName M O k s
  | .addKeyComment k comment, s => choose M O (O.keyExists k s.overrides) (.addKeyComment k comment) s
  | .getKeyComment k commentID, s => choose M O (O.keyExists k s.overrides) (.getKeyComment k commentID) s
  | .deleteKeyComment k commentID, s => choose M O (O.keyExists k s.overrides) (.deleteKeyComment k commentID) s
  | .flush, s => flush M O s

end Calls

end Overrides

end P2PChat

import P2PChat.IniFile
import P2PChat.NamedValues
import Mathlib.Logic.Function.Basic

namespace P2PChat

/-- `sValue`. -/
inductive SValue where
  | string (value : AString)
  | int64 (value : Int64)
  | bool (value : Bool)
  deriving DecidableEq, Repr

/-- A getter of `SValue` has no value where its `ASSERT` fails. -/
def SValue.getStringValue : SValue → Option AString
  | .string value => some value
  | _ => none

def SValue.getIntValue : SValue → Option Int64
  | .int64 value => some value
  | _ => none

def SValue.getBoolValue : SValue → Option Bool
  | .bool value => some value
  | _ => none

/-- Where an `unordered_multimap` has its values after one more: it may move all of them. -/
structure HashOrder where
  place : List (AString × SValue) → AString × SValue → List (AString × SValue)
  perm : ∀ values value, (place values value).Perm (value :: values)

def HashOrder.front : HashOrder := ⟨fun values value => value :: values, fun _ _ => List.Perm.refl _⟩

structure MemorySettings where
  writable : Bool
  map : AString → Option (List (AString × SValue))

namespace MemorySettings

def create : MemorySettings := ⟨true, fun _ => none⟩

def setReadOnly (settings : MemorySettings) : MemorySettings := { settings with writable := false }

def modifyKey (keyName : AString) (values : List (AString × SValue)) (settings : MemorySettings) : MemorySettings :=
  { settings with map := Function.update settings.map keyName (some values) }

/-- `m_Map[keyName]`, which makes the key when there is none, has these values. -/
def demand (keyName : AString) (settings : MemorySettings) : List (AString × SValue) :=
  (settings.map keyName).getD []

def find (keyName valueName : AString) (settings : MemorySettings) : Option SValue :=
  (settings.map keyName).bind fun values => values.lookup valueName

def keyExists (keyName : AString) (settings : MemorySettings) : Bool := (settings.map keyName).isSome

def hasValue (keyName valueName : AString) (settings : MemorySettings) : Bool :=
  (settings.find keyName valueName).isSome

def addValue (order : HashOrder) (keyName valueName : AString) (value : SValue) (settings : MemorySettings) :
    MemorySettings :=
  if settings.writable then
    settings.modifyKey keyName (order.place (settings.demand keyName) (valueName, value))
  else settings

def getValues (keyName : AString) (settings : MemorySettings) :
    Option (List (AString × AString)) × MemorySettings :=
  ((settings.demand keyName).mapM fun pair => pair.2.getStringValue.map fun value => (pair.1, value),
    settings.modifyKey keyName (settings.demand keyName))

def getValue (keyName valueName defValue : AString) (settings : MemorySettings) : Option AString :=
  match settings.find keyName valueName with
  | none => some defValue
  | some value => value.getStringValue

section Getters

variable {α : Type} (get : SValue → Option α) (put : α → SValue)

/-- What the getters that set a default have in common. -/
def getOrSet (order : HashOrder) (keyName valueName : AString) (defValue : α) (settings : MemorySettings) :
    Option α × MemorySettings :=
  match settings.find keyName valueName with
  | none => (some defValue, settings.addValue order keyName valueName (put defValue))
  | some value => (get value, settings)

end Getters

def getValueSet : HashOrder → AString → AString → AString → MemorySettings → Option AString × MemorySettings :=
  getOrSet SValue.getStringValue .string

def getValueSetI : HashOrder → AString → AString → Int32 → MemorySettings → Option Int32 × MemorySettings :=
  getOrSet (fun value => value.getIntValue.map Int64.toInt32) fun defValue => .int64 defValue.toInt64

/-- The overload for `Int64`. -/
def getValueSetI64 : HashOrder → AString → AString → Int64 → MemorySettings → Option Int64 × MemorySettings :=
  getOrSet SValue.getIntValue .int64

def getValueSetB : HashOrder → AString → AString → Bool → MemorySettings → Option Bool × MemorySettings :=
  getOrSet SValue.getBoolValue .bool

/-- What `SetValue` and `SetValueI` have in common. -/
def store (order : HashOrder) (keyName valueName : AString) (value : SValue) (createIfNotExists : Bool)
    (settings : MemorySettings) : Bool × MemorySettings :=
  if !settings.writable then (false, settings)
  else
    match settings.find keyName valueName with
    | none =>
      (createIfNotExists,
        if createIfNotExists then settings.addValue order keyName valueName value else settings)
    | some _ => (true, settings.modifyKey keyName (NamedValues.assign valueName value (settings.demand keyName)))

def setValue (order : HashOrder) (keyName valueName value : AString) :
    Bool → MemorySettings → Bool × MemorySettings :=
  store order keyName valueName (.string value)

def setValueI (order : HashOrder) (keyName valueName : AString) (value : Int32) :
    Bool → MemorySettings → Bool × MemorySettings :=
  store order keyName valueName (.int64 value.toInt64)

def deleteValue (keyName valueName : AString) (settings : MemorySettings) : Bool × MemorySettings :=
  if !settings.writable then (false, settings)
  else
    match settings.find keyName valueName with
    | none => (false, settings)
    | some _ => (true, settings.modifyKey keyName (NamedValues.remove valueName (settings.demand keyName)))

end MemorySettings

/-- A call of `cSettingsRepositoryInterface`. -/
inductive SettingsCall where
  | keyExists (keyName : AString)
  | hasValue (keyName valueName : AString)
  | getValue (keyName valueName defValue : AString)
  | getValues (keyName : AString)
  | getValueSet (keyName valueName defValue : AString)
  | getValueSetI (keyName valueName : AString) (defValue : Int32)
  | getValueSetI64 (keyName valueName : AString) (defValue : Int64)
  | getValueSetB (keyName valueName : AString) (defValue : Bool)
  | setValue (keyName valueName value : AString) (createIfNotExists : Bool)
  | setValueI (keyName valueName : AString) (value : Int32) (createIfNotExists : Bool)
  | deleteValue (keyName valueName : AString)
  deriving DecidableEq, Repr

inductive SettingsAnswer where
  | bool (answer : Bool)
  | string (answer : AString)
  | int (answer : Int32)
  | int64 (answer : Int64)
  | pairs (answer : List (AString × AString))
  deriving DecidableEq, Repr

/-- `none` when the call fails an `ASSERT`. -/
def MemorySettings.call (order : HashOrder) (call : SettingsCall) (settings : MemorySettings) :
    Option SettingsAnswer × MemorySettings :=
  match call with
  | .keyExists k => (some (.bool (settings.keyExists k)), settings)
  | .hasValue k n => (some (.bool (settings.hasValue k n)), settings)
  | .getValue k n d => ((settings.getValue k n d).map .string, settings)
  | .getValues k => (settings.getValues k).map (Option.map .pairs) id
  | .getValueSet k n d => (settings.getValueSet order k n d).map (Option.map .string) id
  | .getValueSetI k n d => (settings.getValueSetI order k n d).map (Option.map .int) id
  | .getValueSetI64 k n d => (settings.getValueSetI64 order k n d).map (Option.map .int64) id
  | .getValueSetB k n d => (settings.getValueSetB order k n d).map (Option.map .bool) id
  | .setValue k n v create => (settings.setValue order k n v create).map (some ∘ .bool) id
  | .setValueI k n v create => (settings.setValueI order k n v create).map (some ∘ .bool) id
  | .deleteValue k n => (settings.deleteValue k n).map (some ∘ .bool) id

/-- `none` when what the call does with a number is undefined. -/
def IniFile.call (call : SettingsCall) (ini : IniFile) : Option SettingsAnswer × IniFile :=
  match call with
  | .keyExists k => (some (.bool (ini.keyExists k)), ini)
  | .hasValue k n => (some (.bool (ini.hasValue k n)), ini)
  | .getValue k n d => (some (.string (ini.getValue k n d)), ini)
  | .getValues k => (some (.pairs (ini.getValues k)), ini)
  | .getValueSet k n d => (ini.getValueSet k n d).map (some ∘ .string) id
  | .getValueSetI k n d => (ini.getValueSetI k n d).map (Option.map .int) id
  | .getValueSetI64 k n d => (ini.getValueSetI64 k n d).map (Option.map .int64) id
  | .getValueSetB k n d => (ini.getValueSetB k n d).map (Option.map .bool) id
  | .setValue k n v create => (ini.setValue k n v create).map (some ∘ .bool) id
  | .setValueI k n v create => (ini.setValueI k n v create).map (some ∘ .bool) id
  | .deleteValue k n => (ini.deleteValue k n).map (some ∘ .bool) id

end P2PChat

import P2PChat.IniEntries
import P2PChat.MemorySettings
import Mathlib.Data.Option.Basic

namespace P2PChat

section Definitions

/-- How a `cIniFile` keeps the value. -/
def SValue.text : SValue → AString
  | .string value => value
  | .int64 value => decimal value.toInt
  | .bool value => decimal (if value then 1 else 0)

/-- A value that `AddValue` puts in at start-up. -/
structure StartValue where
  order : HashOrder
  keyName : AString
  valueName : AString
  value : SValue

def MemorySettings.start (values : List StartValue) : MemorySettings :=
  values.foldl (fun settings v => settings.addValue v.order v.keyName v.valueName v.value) create

def IniFile.start (values : List StartValue) : IniFile :=
  values.foldl (fun ini v => ini.addValue v.keyName v.valueName v.value.text) create.caseSensitive

/-- The order of pairs does not matter. -/
def SettingsAnswer.Same : SettingsAnswer → SettingsAnswer → Prop
  | .pairs answer, .pairs other => answer.Perm other
  | answer, other => answer = other

/-- Both calls have an answer, and it is the same. -/
def Alike : Option SettingsAnswer → Option SettingsAnswer → Prop
  | some answer, some other => answer.Same other
  | _, _ => False

/-- All of the calls are alike; the hash map places what a call puts in by the order that stands with it. -/
def Agree : List (HashOrder × SettingsCall) → MemorySettings → IniFile → Prop
  | [], _, _ => True
  | (order, call) :: calls, settings, ini =>
    Alike (settings.call order call).1 (ini.call call).1 ∧ Agree calls (settings.call order call).2 (ini.call call).2

/-- The keys that only `GetValues` made, after this call: nothing has been put in them. -/
def SettingsCall.conjured (call : SettingsCall) (order : HashOrder) (settings : MemorySettings)
    (conjured : List AString) : List AString :=
  (match call with
    | .getValues k => if settings.keyExists k then conjured else k :: conjured
    | _ => conjured).filter fun k => (settings.call order call).2.map k = some []

/-- The call asks for a value as the type that it has, and not after a key that `GetValues` made. -/
def SettingsCall.Careful (settings : MemorySettings) (conjured : List AString) : SettingsCall → Prop
  | .keyExists k => k ∉ conjured
  | .getValues k => ∀ values, settings.map k = some values → ∀ v ∈ values, ∃ text, v.2 = .string text
  | .getValue k n _ => ∀ value, settings.find k n = some value → ∃ text, value = .string text
  | .getValueSet k n _ => ∀ value, settings.find k n = some value → ∃ text, value = .string text
  | .getValueSetI k n _ => ∀ value, settings.find k n = some value →
      ∃ number : Int64, value = .int64 number ∧ number.toInt = number.toInt32.toInt
  | .getValueSetI64 k n _ => ∀ value, settings.find k n = some value → ∃ number, value = .int64 number
  | .getValueSetB k n _ => ∀ value, settings.find k n = some value → ∃ flag, value = .bool flag
  | _ => True

/-- Each of the calls is careful in the state that it comes to. -/
def CarefulRun : List (HashOrder × SettingsCall) → MemorySettings → List AString → Prop
  | [], _, _ => True
  | (order, call) :: calls, settings, conjured =>
    call.Careful settings conjured ∧
      CarefulRun calls (settings.call order call).2 (call.conjured order settings conjured)

/-- The values of a key in the two stores. -/
def Stored (values : List (AString × SValue)) (rows : List (AString × AString)) : Prop :=
  (values.map Prod.fst).Nodup ∧ (values.map (Prod.map id SValue.text)).Perm rows

structure Simulates (conjured : List AString) (settings : MemorySettings) (ini : IniFile) : Prop where
  writable : settings.writable = true
  aligned : ini.Aligned
  caseSensitive : ini.checkCase = id
  onlyMade : ∀ k ∈ conjured, settings.map k = some [] ∧ ini.rows k = none
  kept : ∀ k ∉ conjured, Option.Rel Stored (settings.map k) (ini.rows k)

end Definitions

section Values

variable {values : List (AString × SValue)} {rows : List (AString × AString)} {name : AString} {value : SValue}

theorem Stored.lookup (h : Stored values rows) : rows.lookup name = (values.lookup name).map SValue.text := by
  have hnames : (values.map (Prod.map id SValue.text)).map Prod.fst = values.map Prod.fst := by simp
  rw [← NamedValues.lookup_map, NamedValues.lookup_perm (hnames ▸ h.1) h.2]

theorem Stored.place (h : Stored values rows) (hnew : values.lookup name = none) (order : HashOrder) :
    Stored (order.place values (name, value)) (rows ++ [(name, value.text)]) := by
  have hperm := order.perm values (name, value)
  have hfresh : name ∉ values.map Prod.fst := by
    intro hmem
    obtain ⟨⟨n, v⟩, hthere, rfl⟩ := List.mem_map.mp hmem
    cases hnew.symm.trans ((NamedValues.lookup_iff_mem h.1).mpr hthere)
  refine ⟨(hperm.map Prod.fst).nodup_iff.mpr (List.nodup_cons.mpr ⟨hfresh, h.1⟩), ?_⟩
  exact (hperm.map _).trans ((h.2.cons _).trans (List.perm_append_singleton _ _).symm)

theorem Stored.assign (h : Stored values rows) :
    Stored (NamedValues.assign name value values) (NamedValues.assign name value.text rows) := by
  have hnames : (values.map (Prod.map id SValue.text)).map Prod.fst = values.map Prod.fst := by simp
  refine ⟨by rw [NamedValues.assign_names]; exact h.1, ?_⟩
  rw [NamedValues.assign_map]
  exact NamedValues.assign_perm (hnames ▸ h.1) h.2 name value.text

theorem Stored.remove (h : Stored values rows) :
    Stored (NamedValues.remove name values) (NamedValues.remove name rows) := by
  have hnames : (values.map (Prod.map id SValue.text)).map Prod.fst = values.map Prod.fst := by simp
  refine ⟨h.1.sublist (List.eraseP_sublist.map Prod.fst), ?_⟩
  rw [NamedValues.remove_map]
  exact NamedValues.remove_perm (hnames ▸ h.1) h.2 name

end Values

section Simulation

variable {conjured : List AString} {settings : MemorySettings} {ini : IniFile} {keyName valueName : AString}

/-- The keys that are still empty. -/
theorem Simulates.unchanged (h : Simulates conjured settings ini) :
    conjured.filter (fun k => settings.map k = some []) = conjured :=
  List.filter_eq_self.mpr fun k hmem => decide_eq_true (h.onlyMade k hmem).1

/-- A key was only made by `GetValues`, or both have it or not. -/
theorem Simulates.key_cases (h : Simulates conjured settings ini) (keyName : AString) :
    keyName ∈ conjured ∧ settings.map keyName = some [] ∧ ini.rows keyName = none ∨
      keyName ∉ conjured ∧ (settings.map keyName = none ∧ ini.rows keyName = none ∨
        ∃ values rows, settings.map keyName = some values ∧ ini.rows keyName = some rows ∧ Stored values rows) := by
  by_cases hmade : keyName ∈ conjured
  · exact .inl ⟨hmade, h.onlyMade keyName hmade⟩
  · refine .inr ⟨hmade, ?_⟩
    have hkept := h.kept keyName hmade
    generalize settings.map keyName = values at hkept ⊢
    generalize ini.rows keyName = rows at hkept ⊢
    cases hkept with
    | none => exact .inl ⟨rfl, rfl⟩
    | some hstored => exact .inr ⟨_, _, rfl, rfl, hstored⟩

theorem Simulates.find (h : Simulates conjured settings ini) :
    ini.find keyName valueName = (settings.find keyName valueName).map SValue.text := by
  rw [IniFile.find, MemorySettings.find, h.caseSensitive]
  obtain ⟨_, hmap, hrows⟩ | ⟨_, ⟨hmap, hrows⟩ | ⟨values, rows, hmap, hrows, hstored⟩⟩ := h.key_cases keyName
  · rw [hmap, hrows]
    rfl
  · rw [hmap, hrows]
    rfl
  · rw [hmap, hrows]
    exact hstored.lookup

/-- What both have under a key that they change. -/
theorem Simulates.demand (h : Simulates conjured settings ini) (keyName : AString) :
    Stored (settings.demand keyName) ((ini.rows keyName).getD []) := by
  have hnothing : Stored [] [] := ⟨List.nodup_nil, List.Perm.nil⟩
  rw [MemorySettings.demand]
  obtain ⟨_, hmap, hrows⟩ | ⟨_, ⟨hmap, hrows⟩ | ⟨values, rows, hmap, hrows, hstored⟩⟩ := h.key_cases keyName
  · rw [hmap, hrows]
    exact hnothing
  · rw [hmap, hrows]
    exact hnothing
  · rw [hmap, hrows]
    exact hstored

/-- A found value is in a key that both have. -/
theorem Simulates.found {value : SValue} (h : Simulates conjured settings ini)
    (hfind : settings.find keyName valueName = some value) : keyName ∉ conjured := by
  intro hmade
  rw [MemorySettings.find, (h.onlyMade keyName hmade).1] at hfind
  cases hfind

/-- Both change one key, which is not left empty when only `GetValues` made it. -/
theorem Simulates.change {values : List (AString × SValue)} {rows : List (AString × AString)} {ini' : IniFile}
    (h : Simulates conjured settings ini) (hstored : Stored values rows) (hmade : values = [] → keyName ∉ conjured)
    (haligned : ini'.Aligned) (hcase : ini'.checkCase = ini.checkCase)
    (hrows : ∀ other, ini'.rows other =
      if ini.checkCase other = ini.checkCase keyName then some rows else ini.rows other) :
    Simulates (conjured.filter fun k => (settings.modifyKey keyName values).map k = some [])
      (settings.modifyKey keyName values) ini' := by
  have hrows : ∀ other, ini'.rows other = if other = keyName then some rows else ini.rows other := fun other => by
    rw [hrows, h.caseSensitive]
    rfl
  have hmap : ∀ other, (settings.modifyKey keyName values).map other =
      if other = keyName then some values else settings.map other :=
    fun other => Function.update_apply settings.map keyName (some values) other
  refine ⟨h.writable, haligned, hcase.trans h.caseSensitive, fun k hmem => ?_, fun k hnot => ?_⟩
  · obtain ⟨hconjured, hdecide⟩ := List.mem_filter.mp hmem
    have hempty := of_decide_eq_true hdecide
    refine ⟨hempty, ?_⟩
    rw [hmap] at hempty
    rw [hrows]
    split at hempty
    next hkey =>
      subst hkey
      exact absurd hconjured (hmade (Option.some.inj hempty))
    next hother =>
      rw [if_neg hother]
      exact (h.onlyMade k hconjured).2
  · rw [hmap, hrows]
    split
    next => exact .some hstored
    next hother =>
      refine h.kept k fun hconjured => hnot (List.mem_filter.mpr ⟨hconjured, decide_eq_true ?_⟩)
      rw [hmap, if_neg hother]
      exact (h.onlyMade k hconjured).1

/-- `GetValues` makes the key when there is none. -/
theorem Simulates.getValues (h : Simulates conjured settings ini) :
    Simulates
      ((if settings.keyExists keyName then conjured else keyName :: conjured).filter fun k =>
        (settings.getValues keyName).2.map k = some [])
      (settings.getValues keyName).2 ini := by
  have hmap : ∀ other, (settings.getValues keyName).2.map other =
      if other = keyName then some (settings.demand keyName) else settings.map other :=
    fun other => Function.update_apply settings.map keyName (some (settings.demand keyName)) other
  rcases hkey : settings.map keyName with _ | values
  · have hmissing : ini.rows keyName = none := by
      obtain ⟨_, hmap, _⟩ | ⟨_, ⟨_, hrows⟩ | ⟨values, _, hmap, _⟩⟩ := h.key_cases keyName
      · cases hmap.symm.trans hkey
      · exact hrows
      · cases hmap.symm.trans hkey
    have hdemand : settings.demand keyName = [] := by
      rw [MemorySettings.demand, hkey]
      rfl
    rw [MemorySettings.keyExists, hkey, Option.isSome_none, if_neg Bool.false_ne_true]
    refine ⟨h.writable, h.aligned, h.caseSensitive, fun k hmem => ?_, fun k hnot => ?_⟩
    · obtain ⟨hconjured, hdecide⟩ := List.mem_filter.mp hmem
      refine ⟨of_decide_eq_true hdecide, ?_⟩
      rcases List.mem_cons.mp hconjured with rfl | hold
      · exact hmissing
      · exact (h.onlyMade k hold).2
    · rw [hmap]
      split
      next hsame =>
        subst hsame
        have hempty : (settings.getValues k).2.map k = some [] := by rw [hmap, if_pos rfl, hdemand]
        exact (hnot (List.mem_filter.mpr ⟨List.mem_cons_self, decide_eq_true hempty⟩)).elim
      next hother =>
        refine h.kept k fun hold => hnot (List.mem_filter.mpr ⟨List.mem_cons_of_mem _ hold, decide_eq_true ?_⟩)
        rw [hmap, if_neg hother]
        exact (h.onlyMade k hold).1
  · have hsame : (settings.getValues keyName).2 = settings := by
      have hdemand : settings.demand keyName = values := by
        rw [MemorySettings.demand, hkey]
        rfl
      show settings.modifyKey keyName (settings.demand keyName) = settings
      rw [hdemand, MemorySettings.modifyKey, ← hkey, Function.update_eq_self]
    rw [hsame, MemorySettings.keyExists, hkey, Option.isSome_some, if_pos rfl, h.unchanged]
    exact h

theorem Simulates.addValue (h : Simulates conjured settings ini) (hnew : settings.find keyName valueName = none)
    (order : HashOrder) (value : SValue) :
    Simulates (conjured.filter fun k => (settings.addValue order keyName valueName value).map k = some [])
      (settings.addValue order keyName valueName value) (ini.addValue keyName valueName value.text) := by
  have hnone : (settings.demand keyName).lookup valueName = none := by
    rw [MemorySettings.demand]
    rw [MemorySettings.find] at hnew
    rcases hkey : settings.map keyName with _ | values
    · rfl
    · rw [hkey] at hnew
      exact hnew
  have hadd : settings.addValue order keyName valueName value =
      settings.modifyKey keyName (order.place (settings.demand keyName) (valueName, value)) := if_pos h.writable
  rw [hadd]
  refine h.change ((h.demand keyName).place hnone order) (fun hnil => ?_) h.aligned.addValue h.aligned.addValue_case
    fun other => ?_
  · have hlength := (order.perm (settings.demand keyName) (valueName, value)).length_eq
    rw [hnil] at hlength
    cases hlength
  · rw [h.aligned.addValue_rows, h.caseSensitive]
    rfl

theorem Simulates.getOrSet {α : Type} (h : Simulates conjured settings ini) (get : SValue → Option α)
    (put : α → SValue) (order : HashOrder) (keyName valueName : AString) (defValue : α) :
    Simulates
      (conjured.filter fun k =>
        (settings.getOrSet get put order keyName valueName defValue).2.map k = some [])
      (settings.getOrSet get put order keyName valueName defValue).2
      (ini.getValueSet keyName valueName (put defValue).text).2 := by
  unfold MemorySettings.getOrSet
  rw [h.aligned.getValueSet, h.find]
  rcases hfind : settings.find keyName valueName with _ | value
  · exact h.addValue hfind order (put defValue)
  · dsimp only [Option.map_some]
    rw [h.unchanged]
    exact h

theorem Simulates.store (h : Simulates conjured settings ini) (order : HashOrder) (keyName valueName : AString)
    (value : SValue) (create : Bool) :
    (settings.store order keyName valueName value create).1 =
        (ini.setValue keyName valueName value.text create).1 ∧
      Simulates
        (conjured.filter fun k => (settings.store order keyName valueName value create).2.map k = some [])
        (settings.store order keyName valueName value create).2
        (ini.setValue keyName valueName value.text create).2 := by
  have hfound : ini.find keyName valueName = _ := h.find
  unfold MemorySettings.store
  rw [h.writable]
  rcases hfind : settings.find keyName valueName with _ | old
  · rw [hfind] at hfound
    rw [h.aligned.setValue_new hfound]
    refine ⟨rfl, ?_⟩
    rcases create with _ | _
    · show Simulates (conjured.filter fun k => settings.map k = some []) settings ini
      rw [h.unchanged]
      exact h
    · exact h.addValue hfind order value
  · rw [hfind] at hfound
    obtain ⟨hanswer, haligned, hcase, hrows⟩ := h.aligned.setValue_found hfound value.text create
    refine ⟨hanswer.symm, h.change (h.demand keyName).assign (fun _ => h.found hfind) haligned hcase fun other => ?_⟩
    rw [hrows, h.caseSensitive]
    rfl

theorem Simulates.deleteValue (h : Simulates conjured settings ini) :
    (settings.deleteValue keyName valueName).1 = (ini.deleteValue keyName valueName).1 ∧
      Simulates (conjured.filter fun k => (settings.deleteValue keyName valueName).2.map k = some [])
        (settings.deleteValue keyName valueName).2 (ini.deleteValue keyName valueName).2 := by
  have hfound : ini.find keyName valueName = _ := h.find
  unfold MemorySettings.deleteValue
  rw [h.writable]
  rcases hfind : settings.find keyName valueName with _ | old
  · rw [hfind] at hfound
    rw [IniFile.Aligned.deleteValue_new hfound h.aligned]
    refine ⟨rfl, ?_⟩
    show Simulates (conjured.filter fun k => settings.map k = some []) settings ini
    rw [h.unchanged]
    exact h
  · rw [hfind] at hfound
    obtain ⟨hanswer, haligned, hcase, hrows⟩ := h.aligned.deleteValue_found hfound
    refine ⟨hanswer.symm, h.change (h.demand keyName).remove (fun _ => h.found hfind) haligned hcase fun other => ?_⟩
    rw [hrows, h.caseSensitive]
    rfl

end Simulation

section Answers

variable {conjured : List AString} {settings : MemorySettings} {ini : IniFile} {keyName valueName : AString}

/-- The values are read when all of them are strings. -/
theorem getStringValue_mapM (values : List (AString × SValue)) :
    (∀ v ∈ values, ∃ text, v.2 = .string text) ∧
        (values.mapM fun pair => pair.2.getStringValue.map fun value => (pair.1, value)) =
          some (values.map (Prod.map id SValue.text)) ∨
      ¬ (∀ v ∈ values, ∃ text, v.2 = .string text) ∧
        (values.mapM fun pair => pair.2.getStringValue.map fun value => (pair.1, value)) = none := by
  induction values with
  | nil => exact .inl ⟨nofun, rfl⟩
  | cons first rest ih =>
    obtain ⟨name, value⟩ := first
    rw [List.mapM_cons]
    rcases value with text | number | flag
    · rcases ih with ⟨hall, hread⟩ | ⟨hsome, hfail⟩
      · refine .inl ⟨List.forall_mem_cons.mpr ⟨⟨text, rfl⟩, hall⟩, ?_⟩
        rw [hread]
        rfl
      · refine .inr ⟨fun hall => hsome (List.forall_mem_cons.mp hall).2, ?_⟩
        rw [hfail]
        rfl
    · refine .inr ⟨fun hall => ?_, rfl⟩
      obtain ⟨_, htext⟩ := (List.forall_mem_cons.mp hall).1
      cases htext
    · refine .inr ⟨fun hall => ?_, rfl⟩
      obtain ⟨_, htext⟩ := (List.forall_mem_cons.mp hall).1
      cases htext

theorem Simulates.pairs (h : Simulates conjured settings ini) :
    ini.getValues keyName = (ini.rows keyName).getD [] := by
  rw [IniFile.getValues, IniFile.rows]
  rcases ini.findKey keyName with _ | keyID
  · rfl
  · rw [h.caseSensitive]
    simp [IniKey.entries]

/-- What is asked for is in neither store, or both read it as the same. -/
theorem alike_read {α : Type} {get : SValue → Option α} {read : AString → Option α} {P : SValue → Prop} {defValue : α}
    {text : AString} (answer : α → SettingsAnswer) (hsame : ∀ a b, (answer a).Same (answer b) ↔ a = b)
    (hdefault : read text = some defValue)
    (hread : ∀ value, P value ↔ ∃ a, get value = some a ∧ read value.text = some a) (value : Option SValue) :
    Alike ((match value with | none => some defValue | some value => get value).map answer)
        ((read ((value.map SValue.text).getD text)).map answer) ↔
      ∀ v, value = some v → P v := by
  rcases value with _ | value
  · rw [Option.map_none, Option.getD_none, hdefault]
    exact ⟨fun _ => nofun, fun _ => (hsame defValue _).mpr rfl⟩
  · simp only [Option.some.injEq, forall_eq', hread, Option.map_some, Option.getD_some]
    rcases hget : get value with _ | a
    · simp [Alike]
    · rcases hother : read value.text with _ | b
      · simp [Alike]
      · simp only [Alike, Option.map_some, hsame, Option.some.injEq]
        constructor
        · rintro rfl
          exact ⟨a, rfl, rfl⟩
        · rintro ⟨_, rfl, hb⟩
          exact hb.symm

theorem Simulates.keyExists (h : Simulates conjured settings ini) :
    settings.keyExists keyName = ini.keyExists keyName ↔ keyName ∉ conjured := by
  rw [IniFile.keyExists_rows, MemorySettings.keyExists]
  obtain ⟨hmade, hmap, hrows⟩ | ⟨hmade, ⟨hmap, hrows⟩ | ⟨values, rows, hmap, hrows, _⟩⟩ := h.key_cases keyName
  · simp [hmap, hrows, hmade]
  · simp [hmap, hrows, hmade]
  · simp [hmap, hrows, hmade]

theorem Simulates.alike_getValues (h : Simulates conjured settings ini) :
    Alike ((settings.getValues keyName).1.map .pairs) (some (.pairs (ini.getValues keyName))) ↔
      ∀ values, settings.map keyName = some values → ∀ v ∈ values, ∃ text, v.2 = .string text := by
  have hdemand : (∀ values, settings.map keyName = some values → ∀ v ∈ values, ∃ text, v.2 = .string text) ↔
      ∀ v ∈ settings.demand keyName, ∃ text, v.2 = .string text := by
    rw [MemorySettings.demand]
    rcases settings.map keyName with _ | values
    · simp
    · simp
  rw [hdemand, h.pairs, MemorySettings.getValues]
  rcases getStringValue_mapM (settings.demand keyName) with ⟨hall, hread⟩ | ⟨hsome, hfail⟩
  · rw [hread]
    exact ⟨fun _ => hall, fun _ => (h.demand keyName).2⟩
  · rw [hfail]
    exact ⟨False.elim, fun hall => (hsome hall).elim⟩

theorem Simulates.alike_getOrSet {α : Type} {P : SValue → Prop} {defValue : α} (h : Simulates conjured settings ini)
    (get : SValue → Option α) (put : α → SValue) (read : AString → Option α) (answer : α → SettingsAnswer)
    (hsame : ∀ a b, (answer a).Same (answer b) ↔ a = b) (hput : read (put defValue).text = some defValue)
    (hread : ∀ value, P value ↔ ∃ a, get value = some a ∧ read value.text = some a) (order : HashOrder)
    (keyName valueName : AString) :
    Alike ((settings.getOrSet get put order keyName valueName defValue).1.map answer)
        ((read (ini.getValueSet keyName valueName (put defValue).text).1).map answer) ↔
      ∀ v, settings.find keyName valueName = some v → P v := by
  have hmemory : (settings.getOrSet get put order keyName valueName defValue).1 =
      match settings.find keyName valueName with
      | none => some defValue
      | some value => get value := by
    unfold MemorySettings.getOrSet
    rcases settings.find keyName valueName with _ | value
    · rfl
    · rfl
  have hini : (ini.getValueSet keyName valueName (put defValue).text).1 =
      ((settings.find keyName valueName).map SValue.text).getD (put defValue).text := by
    rw [h.aligned.getValueSet, h.find]
    rcases settings.find keyName valueName with _ | value
    · rfl
    · rfl
  rw [hmemory, hini]
  exact alike_read answer hsame hput hread _

theorem atoi_int64 (n : Int64) (m : Int32) : atoi (decimal n.toInt) = some m ↔ m = n.toInt32 ∧ n.toInt = m.toInt := by
  rw [atoi, parseDecimal_decimal]
  dsimp only
  rw [Int32.ofInt_int64ToInt]
  split
  next hfits =>
    rw [Option.some.injEq]
    constructor
    · rintro rfl
      exact ⟨rfl, hfits⟩
    · rintro ⟨rfl, _⟩
      rfl
  next hlarge =>
    constructor
    · intro hnone
      cases hnone
    · rintro ⟨rfl, hfits⟩
      exact absurd hfits hlarge

theorem getStringValue_text (value : SValue) :
    (∃ text, value = .string text) ↔ ∃ text, value.getStringValue = some text ∧ some value.text = some text := by
  rcases value with text | number | flag
  · simp [SValue.getStringValue, SValue.text]
  · simp [SValue.getStringValue]
  · simp [SValue.getStringValue]

theorem getIntValue_text32 (value : SValue) :
    (∃ number : Int64, value = .int64 number ∧ number.toInt = number.toInt32.toInt) ↔
      ∃ n, value.getIntValue.map Int64.toInt32 = some n ∧ atoi value.text = some n := by
  rcases value with text | number | flag
  · simp [SValue.getIntValue]
  · simp [SValue.getIntValue, SValue.text, atoi_int64]
  · simp [SValue.getIntValue]

theorem getIntValue_text (defValue : Int64) (value : SValue) :
    (∃ number, value = .int64 number) ↔
      ∃ n, value.getIntValue = some n ∧ scanInt64 value.text defValue = some n := by
  rcases value with text | number | flag
  · simp [SValue.getIntValue]
  · simp [SValue.getIntValue, SValue.text, scanInt64_decimal]
  · simp [SValue.getIntValue]

theorem atoi_bool (flag : Bool) : (atoi (SValue.bool flag).text).map (fun n => n != 0) = some flag := by
  have hone : decimal 1 = decimal (1 : Int32).toInt := rfl
  have hzero : decimal 0 = decimal (0 : Int32).toInt := rfl
  rcases flag with _ | _
  · rw [SValue.text, if_neg Bool.false_ne_true, hzero, atoi_decimal]
    rfl
  · rw [SValue.text, if_pos rfl, hone, atoi_decimal]
    rfl

theorem getBoolValue_text (value : SValue) :
    (∃ flag, value = .bool flag) ↔
      ∃ flag, value.getBoolValue = some flag ∧ (atoi value.text).map (fun n => n != 0) = some flag := by
  rcases value with text | number | flag
  · simp [SValue.getBoolValue]
  · simp [SValue.getBoolValue]
  · rw [atoi_bool]
    simp [SValue.getBoolValue]

theorem int32_text (n : Int32) : (SValue.int64 n.toInt64).text = decimal n.toInt := by
  rw [SValue.text, Int32.toInt_toInt64]

theorem bool_text (flag : Bool) : (SValue.bool flag).text = decimal (if flag then 1 else 0 : Int32).toInt := by
  rcases flag with _ | _
  · rfl
  · rfl

/-- The answers are alike when the call is careful, and only then. -/
theorem Simulates.alike (h : Simulates conjured settings ini) (order : HashOrder) (call : SettingsCall) :
    Alike (settings.call order call).1 (ini.call call).1 ↔ call.Careful settings conjured := by
  cases call with
  | keyExists k =>
    rw [SettingsCall.Careful, ← h.keyExists]
    exact ⟨SettingsAnswer.bool.inj, congrArg _⟩
  | hasValue k n =>
    refine ⟨fun _ => trivial, fun _ => ?_⟩
    show SettingsAnswer.bool (settings.hasValue k n) = .bool (ini.hasValue k n)
    rw [h.aligned.hasValue, h.find, Option.isSome_map]
    rfl
  | getValues k => exact h.alike_getValues
  | getValue k n defValue =>
    show Alike ((settings.getValue k n defValue).map .string) ((some (ini.getValue k n defValue)).map .string) ↔ _
    rw [h.aligned.getValue, h.find]
    exact alike_read .string (fun _ _ => ⟨SettingsAnswer.string.inj, congrArg _⟩) rfl getStringValue_text _
  | getValueSet k n defValue =>
    exact h.alike_getOrSet SValue.getStringValue .string some .string
      (fun _ _ => ⟨SettingsAnswer.string.inj, congrArg _⟩) rfl getStringValue_text order k n
  | getValueSetI k n defValue =>
    have hput : atoi (SValue.int64 defValue.toInt64).text = some defValue := by rw [int32_text, atoi_decimal]
    have halike := h.alike_getOrSet (fun value => value.getIntValue.map Int64.toInt32)
      (fun defValue : Int32 => .int64 defValue.toInt64) atoi .int (fun _ _ => ⟨SettingsAnswer.int.inj, congrArg _⟩) hput
      getIntValue_text32 order k n
    rw [int32_text] at halike
    exact halike
  | getValueSetI64 k n defValue =>
    exact h.alike_getOrSet SValue.getIntValue .int64 (fun text => scanInt64 text defValue) .int64
      (fun _ _ => ⟨SettingsAnswer.int64.inj, congrArg _⟩) (scanInt64_decimal _ _) (getIntValue_text defValue) order
      k n
  | getValueSetB k n defValue =>
    have halike := h.alike_getOrSet SValue.getBoolValue .bool (fun text => (atoi text).map fun n => n != 0) .bool
      (fun _ _ => ⟨SettingsAnswer.bool.inj, congrArg _⟩) (atoi_bool defValue) getBoolValue_text order
      k n
    rw [bool_text] at halike
    exact halike
  | setValue k n value create =>
    refine ⟨fun _ => trivial, fun _ => ?_⟩
    exact congrArg SettingsAnswer.bool (h.store order k n (.string value) create).1
  | setValueI k n value create =>
    refine ⟨fun _ => trivial, fun _ => ?_⟩
    have hanswer := (h.store order k n (.int64 value.toInt64) create).1
    rw [int32_text] at hanswer
    exact congrArg SettingsAnswer.bool hanswer
  | deleteValue k n =>
    refine ⟨fun _ => trivial, fun _ => ?_⟩
    exact congrArg SettingsAnswer.bool h.deleteValue.1

theorem Simulates.call (h : Simulates conjured settings ini) (order : HashOrder) (call : SettingsCall) :
    Simulates (call.conjured order settings conjured) (settings.call order call).2 (ini.call call).2 := by
  have hsame : Simulates (conjured.filter fun k => settings.map k = some []) settings ini := by
    rw [h.unchanged]
    exact h
  cases call with
  | keyExists k => exact hsame
  | hasValue k n => exact hsame
  | getValue k n defValue => exact hsame
  | getValues k => exact h.getValues
  | getValueSet k n defValue => exact h.getOrSet _ .string order k n defValue
  | getValueSetI k n defValue =>
    have hset := h.getOrSet (fun value => value.getIntValue.map Int64.toInt32)
      (fun defValue => .int64 defValue.toInt64) order k n defValue
    rw [int32_text] at hset
    exact hset
  | getValueSetI64 k n defValue => exact h.getOrSet _ .int64 order k n defValue
  | getValueSetB k n defValue =>
    have hset := h.getOrSet SValue.getBoolValue .bool order k n defValue
    rw [bool_text] at hset
    exact hset
  | setValue k n value create => exact (h.store order k n (.string value) create).2
  | setValueI k n value create =>
    have hset := (h.store order k n (.int64 value.toInt64) create).2
    rw [int32_text] at hset
    exact hset
  | deleteValue k n => exact h.deleteValue.2

end Answers

section Runs

variable {conjured : List AString} {settings : MemorySettings} {ini : IniFile}

theorem Simulates.agree_iff (h : Simulates conjured settings ini) (calls : List (HashOrder × SettingsCall)) :
    Agree calls settings ini ↔ CarefulRun calls settings conjured := by
  induction calls generalizing conjured settings ini with
  | nil => exact Iff.rfl
  | cons first calls ih =>
    obtain ⟨order, call⟩ := first
    rw [Agree, CarefulRun, h.alike, ih (h.call order call)]

/-- Values that are put in once each are in both stores. -/
theorem Simulates.addValues {values : List StartValue} (h : Simulates [] settings ini)
    (honce : (values.map fun v => (v.keyName, v.valueName)).Nodup)
    (hnew : ∀ v ∈ values, settings.find v.keyName v.valueName = none) :
    Simulates [] (values.foldl (fun settings v => settings.addValue v.order v.keyName v.valueName v.value) settings)
      (values.foldl (fun ini v => ini.addValue v.keyName v.valueName v.value.text) ini) := by
  induction values generalizing settings ini with
  | nil => exact h
  | cons first rest ih =>
    obtain ⟨hfresh, honce⟩ := List.nodup_cons.mp honce
    obtain ⟨hfirst, hrest⟩ := List.forall_mem_cons.mp hnew
    have hadded := h.addValue hfirst first.order first.value
    refine ih hadded honce fun v hmem => ?_
    have hother : ¬ (v.keyName = first.keyName ∧ v.valueName = first.valueName) := fun heq =>
      hfresh (List.mem_map.mpr ⟨v, hmem, Prod.ext heq.1 heq.2⟩)
    have hnone : (ini.addValue first.keyName first.valueName first.value.text).find v.keyName v.valueName = none := by
      rw [h.aligned.addValue_find, h.find, hrest v hmem, h.caseSensitive]
      exact if_neg hother
    rw [hadded.find] at hnone
    exact Option.map_eq_none_iff.mp hnone

/-- The two stores agree in a run exactly when every call in it is careful. -/
theorem settings_agree_iff {start : List StartValue} (honce : (start.map fun v => (v.keyName, v.valueName)).Nodup)
    (calls : List (HashOrder × SettingsCall)) :
    Agree calls (MemorySettings.start start) (IniFile.start start) ↔
      CarefulRun calls (MemorySettings.start start) [] := by
  have hcreate : Simulates [] MemorySettings.create IniFile.create.caseSensitive :=
    ⟨rfl, ⟨rfl, nofun⟩, rfl, nofun, fun _ _ => .none⟩
  exact (hcreate.addValues honce fun _ _ => rfl).agree_iff calls

/-- The port of a command line, in the key `Server`. -/
def StartValue.port : StartValue :=
  ⟨.front, [0x53, 0x65, 0x72, 0x76, 0x65, 0x72], [0x50, 0x6f, 0x72, 0x74], .int64 7777⟩

/-- The port is read as the number that it is. -/
theorem settings_agree_port :
    Agree [(.front, .getValueSetI StartValue.port.keyName StartValue.port.valueName 6666)] (MemorySettings.start [.port])
      (IniFile.start [.port]) := by
  refine (settings_agree_iff (by decide) _).mpr ⟨fun value hvalue => ?_, trivial⟩
  obtain rfl : SValue.int64 7777 = value := Option.some.inj hvalue
  exact ⟨7777, rfl, by decide⟩

/-- The port is not read as a string. -/
theorem settings_disagree :
    ¬ ∀ (start : List StartValue) (calls : List (HashOrder × SettingsCall)),
      (start.map fun v => (v.keyName, v.valueName)).Nodup →
        Agree calls (MemorySettings.start start) (IniFile.start start) := by
  intro hclaim
  exact (hclaim [.port] [(.front, .getValue StartValue.port.keyName StartValue.port.valueName [])] (by decide)).1

end Runs

end P2PChat

import P2PChat.IniRuns

namespace P2PChat

namespace IniFile

section Definitions

/-- The pair that `CheckCase` makes of these names is the same. -/
def SamePair (ini : IniFile) (keyName valueName otherKey otherValue : AString) : Prop :=
  ini.checkCase otherKey = ini.checkCase keyName ∧ ini.checkCase otherValue = ini.checkCase valueName

instance (ini : IniFile) (keyName valueName otherKey otherValue : AString) :
    Decidable (ini.SamePair keyName valueName otherKey otherValue) :=
  inferInstanceAs (Decidable (_ ∧ _))

/-- The first of these names that is the same as this one but for the case. -/
structure FirstMatch (ini : IniFile) (name : AString) (names : List AString) (i : Nat) : Prop where
  found : ∃ match', names[i]? = some match' ∧ ini.checkCase match' = ini.checkCase name
  first : ∀ j earlier, j < i → names[j]? = some earlier → ini.checkCase earlier ≠ ini.checkCase name

end Definitions

section Pairs

variable {ini : IniFile} {keyName valueName otherKey otherValue value defValue : AString}

theorem SamePair.find (h : ini.SamePair keyName valueName otherKey otherValue) :
    ini.find otherKey otherValue = ini.find keyName valueName := by
  rw [IniFile.find, IniFile.find, rows, rows, findKey, findKey, h.1, h.2]

/-- What a value that was stored changes: this pair. -/
def Sets (ini ini' : IniFile) (keyName valueName value : AString) : Prop :=
  ∀ otherKey otherValue, ini'.find otherKey otherValue =
    if ini.SamePair keyName valueName otherKey otherValue then some value else ini.find otherKey otherValue

theorem Aligned.addValue_sets (h : ini.Aligned) (hnew : ini.find keyName valueName = none) :
    ini.Sets (ini.addValue keyName valueName value) keyName valueName value := by
  intro otherKey otherValue
  rw [h.addValue_find]
  by_cases hsame : ini.SamePair keyName valueName otherKey otherValue
  · rw [if_pos hsame, hsame.find, hnew, if_pos ⟨hsame.1, hsame.2⟩]
    rfl
  · rw [if_neg hsame, if_neg fun h => hsame ⟨h.1, h.2⟩, Option.or_none]

theorem Aligned.setValue_sets (h : ini.Aligned) (value : AString) {create : Bool}
    (hmay : create = true ∨ ini.hasValue keyName valueName = true) :
    (ini.setValue keyName valueName value create).1 = true ∧
      (ini.setValue keyName valueName value create).2.Aligned ∧
      ini.Sets (ini.setValue keyName valueName value create).2 keyName valueName value := by
  rcases hfind : ini.find keyName valueName with _ | old
  · rw [h.hasValue, hfind] at hmay
    obtain rfl : create = true := by simpa using hmay
    rw [h.setValue_new hfind]
    exact ⟨rfl, h.addValue, h.addValue_sets hfind⟩
  · obtain ⟨hdone, haligned, hcase, hrows⟩ := h.setValue_found hfind value create
    refine ⟨hdone, haligned, fun otherKey otherValue => ?_⟩
    rw [IniFile.find, hrows, hcase]
    by_cases hkey : ini.checkCase otherKey = ini.checkCase keyName
    · have hlookup : ((ini.rows keyName).getD []).lookup (ini.checkCase valueName) = some old := by
        obtain ⟨values, hvalues, hvalue⟩ := Option.bind_eq_some_iff.mp hfind
        rw [hvalues]
        exact hvalue
      have hbefore : ini.find otherKey otherValue = ((ini.rows keyName).getD []).lookup (ini.checkCase otherValue) := by
        obtain ⟨values, hvalues, _⟩ := Option.bind_eq_some_iff.mp hfind
        have hsame : ini.rows otherKey = ini.rows keyName := by rw [rows, rows, findKey, findKey, hkey]
        rw [IniFile.find, hsame, hvalues]
        rfl
      rw [if_pos hkey, Option.bind_some, NamedValues.lookup_assign hlookup, hbefore]
      simp [SamePair, hkey]
    · rw [if_neg hkey, if_neg fun hsame => hkey hsame.1, IniFile.find]

theorem Sets.getValue {ini' : IniFile} (hsets : ini.Sets ini' keyName valueName value) (h : ini.Aligned)
    (h' : ini'.Aligned) (otherKey otherValue defValue : AString) :
    ini'.getValue otherKey otherValue defValue =
      if ini.SamePair keyName valueName otherKey otherValue then value
      else ini.getValue otherKey otherValue defValue := by
  rw [h.getValue, h'.getValue, hsets otherKey otherValue]
  split
  next => rfl
  next => rfl

theorem Aligned.getValueSet_sets (h : ini.Aligned) (keyName valueName defValue : AString) :
    (ini.getValueSet keyName valueName defValue).1 = ini.getValue keyName valueName defValue ∧
      (ini.getValueSet keyName valueName defValue).2.Aligned ∧
      ini.Sets (ini.getValueSet keyName valueName defValue).2 keyName valueName
        (ini.getValue keyName valueName defValue) := by
  rw [h.getValueSet, h.getValue]
  rcases hfind : ini.find keyName valueName with _ | old
  · exact ⟨rfl, h.addValue, h.addValue_sets hfind⟩
  · refine ⟨rfl, h, fun otherKey otherValue => ?_⟩
    show ini.find otherKey otherValue = if _ then some old else _
    split
    next hsame => exact hsame.find.trans hfind
    next => rfl

theorem firstMatch_of_findIdx {names : List AString} {name : AString} {i : Nat}
    (h : (names.findIdx? fun n => ini.checkCase n == ini.checkCase name) = some i) : ini.FirstMatch name names i := by
  obtain ⟨hlt, hsame, hearlier⟩ := List.findIdx?_eq_some_iff_getElem.mp h
  constructor
  · exact ⟨names[i], List.getElem?_eq_getElem hlt, beq_iff_eq.mp hsame⟩
  · intro j earlier hj hthere heq
    obtain ⟨hjlt, rfl⟩ := List.getElem?_eq_some_iff.mp hthere
    exact hearlier j hj (beq_iff_eq.mpr heq)

/-- What `DeleteValue` takes away. -/
theorem Aligned.deleteValue_first (h : ini.Aligned) :
    (ini.deleteValue keyName valueName).1 = ini.hasValue keyName valueName ∧
      if ini.hasValue keyName valueName then
        ∃ keyID key valueID, ini.FirstMatch keyName ini.names keyID ∧ ini.keys[keyID]? = some key ∧
          ini.FirstMatch valueName key.names valueID ∧ (ini.deleteValue keyName valueName).2 =
            { ini with keys := ini.keys.set keyID (key.deleteValue valueID) }
      else (ini.deleteValue keyName valueName).2 = ini := by
  rcases hfind : ini.find keyName valueName with _ | old
  · rw [h.hasValue, hfind, Aligned.deleteValue_new hfind h]
    exact ⟨rfl, rfl⟩
  · rw [h.hasValue, hfind]
    refine ⟨(h.deleteValue_found hfind).1, ?_⟩
    rcases hkey : ini.findKey keyName with _ | keyID
    · cases (find_missing hkey).symm.trans hfind
    · rw [h.find hkey] at hfind
      obtain ⟨valueID, hvalue, _⟩ := Option.map_eq_some_iff.mp hfind
      obtain ⟨hthere, _⟩ := h.keyAt hkey
      have hplace := (h.findValue hkey).symm.trans hvalue
      obtain ⟨hlt, _⟩ := List.findIdx?_eq_some_iff_getElem.mp hplace
      refine ⟨keyID, ini.keyAt keyID, valueID, firstMatch_of_findIdx hkey, hthere, firstMatch_of_findIdx hplace, ?_⟩
      simp only [IniFile.deleteValue, hkey, hvalue, deleteValueByID, (List.getElem?_eq_some_iff.mp hthere).1, hlt,
        and_self, if_true, IniFile.modifyKey]
      rw [List.modify_eq_set_getElem?, hthere]
      rfl

end Pairs

section Map

variable {ini : IniFile}

/-- In every state, whatever calls led to it and in either mode, values are found by the first match. -/
theorem reachable_firstMatch (h : machine.Reachable create ini) (k n v : AString) :
    ((ini.setValue k n v true).1 = true ∧ ∀ k' n' d, (ini.setValue k n v true).2.getValue k' n' d =
      if ini.SamePair k n k' n' then v else ini.getValue k' n' d) ∧
    ((ini.setValue k n v false).1 = ini.hasValue k n ∧
      if ini.hasValue k n then ∀ k' n' d, (ini.setValue k n v false).2.getValue k' n' d =
        if ini.SamePair k n k' n' then v else ini.getValue k' n' d
      else (ini.setValue k n v false).2 = ini) ∧
    ((ini.getValueSet k n v).1 = ini.getValue k n v ∧ (ini.hasValue k n = true → (ini.getValueSet k n v).2 = ini) ∧
      ∀ k' n' d, (ini.getValueSet k n v).2.getValue k' n' d =
        if ini.SamePair k n k' n' then ini.getValue k n v else ini.getValue k' n' d) ∧
    ((ini.deleteValue k n).1 = ini.hasValue k n ∧
      if ini.hasValue k n then
        ∃ keyID key valueID, ini.FirstMatch k ini.names keyID ∧ ini.keys[keyID]? = some key ∧
          ini.FirstMatch n key.names valueID ∧ (ini.deleteValue k n).2 =
            { ini with keys := ini.keys.set keyID (key.deleteValue valueID) }
      else (ini.deleteValue k n).2 = ini) := by
  have haligned := reachable_aligned h
  refine ⟨?_, ?_, ?_, haligned.deleteValue_first⟩
  · obtain ⟨hdone, hkept, hsets⟩ := haligned.setValue_sets v (.inl rfl : true = true ∨ ini.hasValue k n = true)
    exact ⟨hdone, fun k' n' d => hsets.getValue haligned hkept k' n' d⟩
  · rcases hhas : ini.hasValue k n with _ | _
    · have hnew : ini.find k n = none := by simpa [haligned.hasValue] using hhas
      rw [haligned.setValue_new hnew]
      exact ⟨rfl, rfl⟩
    · obtain ⟨hdone, hkept, hsets⟩ := haligned.setValue_sets v (.inr hhas)
      exact ⟨hdone, fun k' n' d => hsets.getValue haligned hkept k' n' d⟩
  · obtain ⟨hanswer, hkept, hsets⟩ := haligned.getValueSet_sets k n v
    refine ⟨hanswer, fun hhas => ?_, fun k' n' d => hsets.getValue haligned hkept k' n' d⟩
    rw [haligned.hasValue] at hhas
    obtain ⟨old, hold⟩ := Option.isSome_iff_exists.mp hhas
    rw [haligned.getValueSet, hold]

/-- Two keys of one name, the first of them with two values of one name. -/
def duplicates : IniFile :=
  ⟨true, [⟨[[0x62], [0x42]], [[0x31], [0x32]], []⟩, ⟨[[0x62]], [[0x33]], []⟩], [[0x61], [0x41]], []⟩

theorem duplicates_reachable : machine.Reachable create duplicates := by
  have hkeys : machine.Reachable create ⟨true, [IniKey.empty, IniKey.empty], [[0x61], [0x41]], []⟩ :=
    .next (e := .addKeyName [0x41]) (.next (e := .addKeyName [0x61]) .start trivial trivial rfl) trivial trivial rfl
  have hvalues : machine.Reachable create
      ⟨true, [⟨[[0x62], [0x42]], [[0x31], [0x32]], []⟩, IniKey.empty], [[0x61], [0x41]], []⟩ :=
    .next (e := .addValue [0x41] [0x42] [0x32]) (.next (e := .addValue [0x61] [0x62] [0x31]) hkeys trivial trivial rfl)
      trivial trivial rfl
  have hsecond : machine.Reachable create
      ⟨false, [⟨[[0x62], [0x42]], [[0x31], [0x32]], []⟩, ⟨[[0x62]], [[0x33]], []⟩], [[0x61], [0x41]], []⟩ :=
    .next (e := .addValue [0x41] [0x62] [0x33]) (.next (e := .caseSensitive) hvalues trivial trivial rfl)
      trivial trivial rfl
  exact .next (e := .caseInsensitive) hsecond trivial trivial rfl

/-- The first value of the first key is set, and deleted. -/
theorem duplicates_firstMatch :
    (∀ d, (setValue [0x41] [0x42] [0x39] true duplicates).2.getValue [0x61] [0x62] d = [0x39]) ∧
      ∃ keyID key valueID, duplicates.FirstMatch [0x41] duplicates.names keyID ∧
        duplicates.keys[keyID]? = some key ∧ duplicates.FirstMatch [0x42] key.names valueID ∧
          (deleteValue [0x41] [0x42] duplicates).2 =
            { duplicates with keys := duplicates.keys.set keyID (key.deleteValue valueID) } := by
  obtain ⟨⟨_, hset⟩, _, _, ⟨_, hdeleted⟩⟩ := reachable_firstMatch duplicates_reachable [0x41] [0x42] [0x39]
  have hsame : SamePair duplicates [0x41] [0x42] [0x61] [0x62] := by decide
  have hthere : duplicates.hasValue [0x41] [0x42] = true := by decide
  rw [if_pos hthere] at hdeleted
  exact ⟨fun d => (hset _ _ d).trans (if_pos hsame), hdeleted⟩

end Map

end IniFile

end P2PChat

import P2PChat.FoldedValues
import P2PChat.IniFile
import Mathlib.Tactic.Common

namespace P2PChat

section Keys

/-- The values of a key with their names as they are spelled. -/
def IniKey.pairs (key : IniKey) : List (AString × AString) := key.names.zip key.values

/-- The values of a key under their names, as `CheckCase` writes these. -/
def IniKey.entries (checkCase : AString → AString) (key : IniKey) : List (AString × AString) :=
  (key.names.map checkCase).zip key.values

variable {checkCase : AString → AString} {key : IniKey} {name value : AString} {i : Nat}

theorem IniKey.addValue_pairs (h : key.names.length = key.values.length) :
    (key.addValue name value).pairs = key.pairs ++ [(name, value)] := by
  rw [IniKey.pairs, IniKey.addValue, List.zip_append h]
  rfl

theorem IniKey.entries_pairs (checkCase : AString → AString) (key : IniKey) :
    key.entries checkCase = key.pairs.map (Prod.map checkCase id) :=
  List.zip_map_left

theorem IniKey.addValue_entries (h : key.names.length = key.values.length) :
    (key.addValue name value).entries checkCase = key.entries checkCase ++ [(checkCase name, value)] := by
  rw [IniKey.entries_pairs, IniKey.addValue_pairs h, List.map_append, ← IniKey.entries_pairs]
  rfl

private theorem entries_cons {n v : AString} {ns vs cs : List AString} :
    (⟨n :: ns, v :: vs, cs⟩ : IniKey).entries checkCase =
      (checkCase n, v) :: (⟨ns, vs, cs⟩ : IniKey).entries checkCase := rfl

/-- What is found at a place is the value there. -/
theorem IniKey.lookup_entries (h : key.names.length = key.values.length) :
    (key.entries checkCase).lookup (checkCase name) =
      (key.names.findIdx? fun n => checkCase n == checkCase name).map fun i => key.values.getD i [] := by
  obtain ⟨names, values, comments⟩ := key
  induction names generalizing values with
  | nil => rfl
  | cons n ns ih =>
    obtain ⟨v, vs, rfl⟩ := List.exists_cons_of_length_eq_add_one h.symm
    have hrest := ih vs (Nat.succ.inj h)
    rw [entries_cons, List.lookup_cons, List.findIdx?_cons]
    by_cases hname : checkCase n = checkCase name
    · simp [hname]
    · have hne : ¬ checkCase name = checkCase n := fun h => hname h.symm
      simp only [beq_eq_false_iff_ne.mpr hne, beq_eq_false_iff_ne.mpr hname, hrest]
      simp [Function.comp_def]

/-- The search for a name goes along the names and the values at once. -/
theorem findIdx?_induct {P : List AString → List AString → Nat → Prop}
    (here : ∀ n ns v vs, checkCase n = checkCase name → P (n :: ns) (v :: vs) 0)
    (later : ∀ n ns v vs i, checkCase n ≠ checkCase name → P ns vs i → P (n :: ns) (v :: vs) (i + 1))
    {names values : List AString} {i : Nat} (h : names.length = values.length)
    (hfind : (names.findIdx? fun n => checkCase n == checkCase name) = some i) : P names values i := by
  induction names generalizing values i with
  | nil => cases hfind
  | cons n ns ih =>
    obtain ⟨v, vs, rfl⟩ := List.exists_cons_of_length_eq_add_one h.symm
    rw [List.findIdx?_cons] at hfind
    by_cases hname : checkCase n = checkCase name
    · rw [if_pos (by simpa using hname)] at hfind
      obtain rfl := Option.some.inj hfind
      exact here n ns v vs hname
    · rw [if_neg (by simpa using hname)] at hfind
      obtain ⟨j, hj, rfl⟩ := Option.map_eq_some_iff.mp hfind
      exact later n ns v vs j hname (ih (Nat.succ.inj h) hj)

theorem IniKey.setValue_pairs (h : key.names.length = key.values.length)
    (hfind : (key.names.findIdx? fun n => checkCase n == checkCase name) = some i) :
    (key.setValue i value).pairs = FoldedValues.put checkCase name value key.pairs := by
  refine findIdx?_induct (P := fun names values i =>
    names.zip (values.set i value) = FoldedValues.put checkCase name value (names.zip values)) ?_ ?_ h hfind
  · intro n ns v vs hname
    rw [List.set_cons_zero, List.zip_cons_cons, List.zip_cons_cons, FoldedValues.put, if_pos hname]
  · intro n ns v vs i hname ih
    rw [List.set_cons_succ, List.zip_cons_cons, List.zip_cons_cons, FoldedValues.put, if_neg hname, ih]

theorem IniKey.deleteValue_pairs (h : key.names.length = key.values.length)
    (hfind : (key.names.findIdx? fun n => checkCase n == checkCase name) = some i) :
    (key.deleteValue i).pairs = FoldedValues.remove checkCase name key.pairs := by
  refine findIdx?_induct (P := fun names values i =>
    (names.eraseIdx i).zip (values.eraseIdx i) = FoldedValues.remove checkCase name (names.zip values)) ?_ ?_ h hfind
  · intro n ns v vs hname
    rw [List.eraseIdx_cons_zero, List.eraseIdx_cons_zero, List.zip_cons_cons, FoldedValues.remove_cons, if_pos hname]
  · intro n ns v vs i hname ih
    rw [List.eraseIdx_cons_succ, List.eraseIdx_cons_succ, List.zip_cons_cons, List.zip_cons_cons,
      FoldedValues.remove_cons, if_neg hname, ih]

theorem IniKey.setValue_entries (h : key.names.length = key.values.length)
    (hfind : (key.names.findIdx? fun n => checkCase n == checkCase name) = some i) :
    (key.setValue i value).entries checkCase = NamedValues.assign (checkCase name) value (key.entries checkCase) := by
  have hthere : FoldedValues.find checkCase name key.pairs ≠ none := by
    intro hnone
    have hlookup := @FoldedValues.lookup_fold _ _ _ _ checkCase _ _ name key.pairs
    rw [hnone, ← IniKey.entries_pairs, IniKey.lookup_entries h, hfind] at hlookup
    cases hlookup
  rw [IniKey.entries_pairs, IniKey.setValue_pairs h hfind, FoldedValues.put_map hthere, ← IniKey.entries_pairs]

theorem IniKey.deleteValue_entries (h : key.names.length = key.values.length)
    (hfind : (key.names.findIdx? fun n => checkCase n == checkCase name) = some i) :
    (key.deleteValue i).entries checkCase = NamedValues.remove (checkCase name) (key.entries checkCase) := by
  rw [IniKey.entries_pairs, IniKey.deleteValue_pairs h hfind, FoldedValues.remove_map, ← IniKey.entries_pairs]

end Keys

namespace IniFile

/-- Each key has its name, and each name in it its value. -/
structure Aligned (ini : IniFile) : Prop where
  keys : ini.keys.length = ini.names.length
  values : ∀ key ∈ ini.keys, key.names.length = key.values.length

/-- The values of the key with this name. -/
def rows (keyName : AString) (ini : IniFile) : Option (List (AString × AString)) :=
  (ini.findKey keyName).map fun keyID => (ini.keyAt keyID).entries ini.checkCase

def find (keyName valueName : AString) (ini : IniFile) : Option AString :=
  (ini.rows keyName).bind fun values => values.lookup (ini.checkCase valueName)

variable {ini : IniFile} {keyName valueName value : AString} {keyID : Nat}

section Places

theorem Aligned.keyAt (h : ini.Aligned) (hfind : ini.findKey keyName = some keyID) :
    ini.keys[keyID]? = some (ini.keyAt keyID) ∧
      (ini.keyAt keyID).names.length = (ini.keyAt keyID).values.length := by
  obtain ⟨hlt, _⟩ := List.findIdx?_eq_some_iff_getElem.mp hfind
  have hthere : ini.keys[keyID]? = some (ini.keyAt keyID) := by
    rw [IniFile.keyAt, List.getD_eq_getElem?_getD, List.getElem?_eq_getElem (h.keys ▸ hlt)]
    rfl
  exact ⟨hthere, h.values _ (List.mem_of_getElem? hthere)⟩

theorem Aligned.findValue (h : ini.Aligned) (hfind : ini.findKey keyName = some keyID) :
    ini.findValue keyID valueName =
      (ini.keyAt keyID).names.findIdx? fun name => ini.checkCase name == ini.checkCase valueName := by
  rw [IniFile.findValue, (h.keyAt hfind).1]
  rfl

theorem Aligned.find (h : ini.Aligned) (hfind : ini.findKey keyName = some keyID) :
    ini.find keyName valueName = (ini.findValue keyID valueName).map (ini.valueAt keyID) := by
  rw [IniFile.find, rows, hfind, h.findValue hfind]
  exact IniKey.lookup_entries (h.keyAt hfind).2

theorem rows_found (hfind : ini.findKey keyName = some keyID) :
    ini.rows keyName = some ((ini.keyAt keyID).entries ini.checkCase) := by
  rw [rows, hfind, Option.map_some]

theorem demandKey_found (hfind : ini.findKey keyName = some keyID) : ini.demandKey keyName = (keyID, ini) := by
  rw [IniFile.demandKey, hfind]

theorem find_missing (hfind : ini.findKey keyName = none) : ini.find keyName valueName = none := by
  rw [IniFile.find, rows, hfind]
  rfl

end Places

section Changes

theorem Aligned.modifyKey {f : IniKey → IniKey} (h : ini.Aligned)
    (hf : ∀ key, key.names.length = key.values.length → (f key).names.length = (f key).values.length) :
    (ini.modifyKey keyID f).Aligned := by
  refine ⟨?_, fun key hmem => ?_⟩
  · show (ini.keys.modify keyID f).length = ini.names.length
    rw [List.length_modify, h.keys]
  · obtain ⟨i, hi⟩ := List.mem_iff_getElem?.mp hmem
    have hi : (ini.keys.modify keyID f)[i]? = some key := hi
    rw [List.getElem?_modify] at hi
    obtain ⟨old, hold, rfl⟩ := Option.map_eq_some_iff.mp hi
    have hkey := h.values old (List.mem_of_getElem? hold)
    split
    next => exact hf old hkey
    next => exact hkey

/-- A change of the first key with a name shows under this name only. -/
theorem Aligned.modifyKey_rows {f : IniKey → IniKey} (h : ini.Aligned) (hfind : ini.findKey keyName = some keyID)
    (other : AString) :
    (ini.modifyKey keyID f).rows other =
      if ini.checkCase other = ini.checkCase keyName then some ((f (ini.keyAt keyID)).entries ini.checkCase)
      else ini.rows other := by
  have hsame : (ini.modifyKey keyID f).findKey other = ini.findKey other := rfl
  have hcase : (ini.modifyKey keyID f).checkCase = ini.checkCase := rfl
  have hget : ∀ i, (ini.modifyKey keyID f).keyAt i = ((ini.keys.modify keyID f)[i]?).getD IniKey.empty := fun i => by
    rw [IniFile.keyAt, List.getD_eq_getElem?_getD]
    rfl
  rw [rows, hsame, hcase]
  split
  next hname =>
    have hthis : ini.findKey other = some keyID := by
      rw [← hfind, findKey, findKey, hname]
    rw [hthis, Option.map_some, hget, List.getElem?_modify_eq, (h.keyAt hfind).1]
    rfl
  next hname =>
    rw [rows]
    rcases hother : ini.findKey other with _ | i
    · rfl
    · have hne : keyID ≠ i := by
        rintro rfl
        obtain ⟨_, hthis, _⟩ := List.findIdx?_eq_some_iff_getElem.mp hother
        obtain ⟨_, hthat, _⟩ := List.findIdx?_eq_some_iff_getElem.mp hfind
        exact hname ((beq_iff_eq.mp hthis).symm.trans (beq_iff_eq.mp hthat))
      rw [Option.map_some, Option.map_some, hget, List.getElem?_modify_ne _ _ hne, ← List.getD_eq_getElem?_getD]
      rfl

theorem addKeyName_findKey (keyName other : AString) (ini : IniFile) :
    (ini.addKeyName keyName).2.findKey other =
      (ini.findKey other).or (if ini.checkCase keyName = ini.checkCase other then some ini.names.length else none) := by
  have hcase : (ini.addKeyName keyName).2.checkCase = ini.checkCase := rfl
  rw [findKey, findKey, hcase]
  show (ini.names ++ [keyName]).findIdx? _ = _
  rw [List.findIdx?_append, List.findIdx?_singleton]
  split
  next hname => simp [beq_iff_eq.mp hname]
  next hname => simp [ne_of_beq_false (Bool.not_eq_true _ ▸ hname)]

theorem Aligned.addKeyName (h : ini.Aligned) (keyName : AString) : (ini.addKeyName keyName).2.Aligned := by
  constructor
  · show (ini.keys ++ [IniKey.empty]).length = (ini.names ++ [keyName]).length
    rw [List.length_append, List.length_append, h.keys]
    rfl
  · exact List.forall_mem_append.mpr ⟨h.values, List.forall_mem_singleton.mpr rfl⟩

/-- The key that is demanded is there, and nothing else is changed. -/
theorem Aligned.demandKey (h : ini.Aligned) (keyName : AString) :
    (ini.demandKey keyName).2.Aligned ∧
      (ini.demandKey keyName).2.findKey keyName = some (ini.demandKey keyName).1 ∧
      (ini.demandKey keyName).2.checkCase = ini.checkCase ∧
      ((ini.demandKey keyName).2.keyAt (ini.demandKey keyName).1).entries ini.checkCase =
        (ini.rows keyName).getD [] ∧
      ∀ other, ini.checkCase other ≠ ini.checkCase keyName →
        (ini.demandKey keyName).2.rows other = ini.rows other := by
  unfold IniFile.demandKey
  rcases hfind : ini.findKey keyName with _ | keyID
  · have hfound : (ini.addKeyName keyName).2.findKey keyName = some ini.names.length := by
      rw [addKeyName_findKey, hfind, if_pos rfl]
      rfl
    refine ⟨h.addKeyName keyName, hfound, rfl, ?_, fun other hother => ?_⟩
    · rw [rows, hfind]
      show ((ini.keys ++ [IniKey.empty]).getD ini.names.length IniKey.empty).entries ini.checkCase = []
      rw [← h.keys, List.getD_eq_getElem?_getD, List.getElem?_concat_length]
      rfl
    · have hlast : (ini.addKeyName keyName).2.findKey other = ini.findKey other := by
        rw [addKeyName_findKey, if_neg fun h => hother h.symm, Option.or_none]
      rw [rows, rows, hlast]
      refine Option.map_congr fun i hi => ?_
      obtain ⟨hlt, _⟩ := List.findIdx?_eq_some_iff_getElem.mp hi
      show ((ini.keys ++ [IniKey.empty]).getD i IniKey.empty).entries ini.checkCase = _
      rw [IniFile.keyAt, List.getD_eq_getElem?_getD, List.getD_eq_getElem?_getD,
        List.getElem?_append_left (h.keys ▸ hlt)]
  · refine ⟨h, hfind, rfl, ?_, fun _ _ => rfl⟩
    rw [rows, hfind]
    rfl

end Changes

section Operations

theorem keyExists_rows (ini : IniFile) : ini.keyExists keyName = (ini.rows keyName).isSome := by
  rw [keyExists, rows, Option.isSome_map]

theorem Aligned.hasValue (h : ini.Aligned) :
    ini.hasValue keyName valueName = (ini.find keyName valueName).isSome := by
  unfold IniFile.hasValue
  split
  next hfind => rw [find_missing hfind, Option.isSome_none]
  next keyID hfind => rw [h.find hfind, Option.isSome_map]

theorem Aligned.getValue (h : ini.Aligned) {defValue : AString} :
    ini.getValue keyName valueName defValue = (ini.find keyName valueName).getD defValue := by
  unfold IniFile.getValue
  split
  next hfind => rw [find_missing hfind, Option.getD_none]
  next keyID hfind =>
    rw [h.find hfind]
    rcases ini.findValue keyID valueName with _ | valueID
    · rfl
    · rfl

theorem Aligned.addValue (h : ini.Aligned) : (ini.addValue keyName valueName value).Aligned := by
  refine (h.demandKey keyName).1.modifyKey fun key hkey => ?_
  simp [IniKey.addValue, hkey]

theorem Aligned.addValue_case (h : ini.Aligned) :
    (ini.addValue keyName valueName value).checkCase = ini.checkCase :=
  (h.demandKey keyName).2.2.1

theorem Aligned.addValue_rows (h : ini.Aligned) (other : AString) :
    (ini.addValue keyName valueName value).rows other =
      if ini.checkCase other = ini.checkCase keyName then
        some ((ini.rows keyName).getD [] ++ [(ini.checkCase valueName, value)])
      else ini.rows other := by
  obtain ⟨haligned, hfind, hcase, hentries, hrest⟩ := h.demandKey keyName
  unfold IniFile.addValue
  rw [haligned.modifyKey_rows hfind, hcase]
  split
  next => rw [IniKey.addValue_entries (haligned.keyAt hfind).2, hentries]
  next hother => exact hrest other hother

theorem Aligned.addValue_find {otherKey otherValue : AString} (h : ini.Aligned) :
    (ini.addValue keyName valueName value).find otherKey otherValue =
      (ini.find otherKey otherValue).or
        (if ini.checkCase otherKey = ini.checkCase keyName ∧ ini.checkCase otherValue = ini.checkCase valueName then
          some value
        else none) := by
  rw [IniFile.find, IniFile.find, h.addValue_rows, h.addValue_case]
  by_cases hkey : ini.checkCase otherKey = ini.checkCase keyName
  · have hrows : ini.rows otherKey = ini.rows keyName := by
      rw [rows, rows, findKey, findKey, hkey]
    rw [if_pos hkey, hrows, Option.bind_some, List.lookup_append]
    have hlast : [(ini.checkCase valueName, value)].lookup (ini.checkCase otherValue) =
        if ini.checkCase otherValue = ini.checkCase valueName then some value else none := by
      rw [List.lookup_cons]
      by_cases hvalue : ini.checkCase otherValue = ini.checkCase valueName
      · simp [hvalue]
      · simp [beq_eq_false_iff_ne.mpr hvalue, hvalue]
    rw [hlast]
    rcases ini.rows keyName with _ | values
    · simp [hkey]
    · simp [hkey]
  · rw [if_neg hkey, if_neg fun h => hkey h.1, Option.or_none]

/-- A new value is added to its key when it may be. -/
theorem Aligned.setValue_new (h : ini.Aligned) (hnew : ini.find keyName valueName = none) (create : Bool) :
    ini.setValue keyName valueName value create =
      (create, if create then ini.addValue keyName valueName value else ini) := by
  obtain ⟨haligned, hfind, hcase, hentries, hrest⟩ := h.demandKey keyName
  have hnone : (ini.demandKey keyName).2.findValue (ini.demandKey keyName).1 valueName = none := by
    have hlookup : (ini.demandKey keyName).2.find keyName valueName = none := by
      rw [IniFile.find, rows, hfind, hcase, Option.map_some, hentries]
      rw [IniFile.find] at hnew
      rcases hrows : ini.rows keyName with _ | values
      · rfl
      · rw [hrows] at hnew
        exact hnew
    rw [haligned.find hfind] at hlookup
    exact Option.map_eq_none_iff.mp hlookup
  unfold IniFile.setValue
  split
  next hmissing =>
    obtain ⟨_, hno⟩ := Bool.and_eq_true_iff.mp hmissing
    obtain rfl : create = false := by simpa using hno
    rfl
  next hthere =>
    dsimp only
    rw [hnone]
    rcases create with _ | _
    · have hsome : ini.findKey keyName ≠ none := by simpa using hthere
      obtain ⟨keyID, hkey⟩ := Option.ne_none_iff_exists'.mp hsome
      rw [demandKey_found hkey]
      rfl
    · rfl

/-- A value that is there is written over. -/
theorem Aligned.setValue_found {old : AString} (h : ini.Aligned) (hold : ini.find keyName valueName = some old)
    (value : AString) (create : Bool) :
    (ini.setValue keyName valueName value create).1 = true ∧
      (ini.setValue keyName valueName value create).2.Aligned ∧
      (ini.setValue keyName valueName value create).2.checkCase = ini.checkCase ∧
      ∀ other, (ini.setValue keyName valueName value create).2.rows other =
        if ini.checkCase other = ini.checkCase keyName then
          some (NamedValues.assign (ini.checkCase valueName) value ((ini.rows keyName).getD []))
        else ini.rows other := by
  rcases hkey : ini.findKey keyName with _ | keyID
  · rw [find_missing hkey] at hold
    cases hold
  · rw [h.find hkey] at hold
    obtain ⟨valueID, hvalue, rfl⟩ := Option.map_eq_some_iff.mp hold
    have hset : ini.setValue keyName valueName value create =
        (true, ini.modifyKey keyID (IniKey.setValue valueID value)) := by
      simp [IniFile.setValue, demandKey_found hkey, hkey, hvalue]
    rw [hset]
    refine ⟨rfl, h.modifyKey fun key hpaired => ?_, rfl, fun other => ?_⟩
    · simpa [IniKey.setValue] using hpaired
    · rw [h.findValue hkey] at hvalue
      rw [h.modifyKey_rows hkey, IniKey.setValue_entries (h.keyAt hkey).2 hvalue, rows_found hkey]
      rfl

theorem Aligned.getValueSet (h : ini.Aligned) {defValue : AString} :
    ini.getValueSet keyName valueName defValue =
      match ini.find keyName valueName with
      | none => (defValue, ini.addValue keyName valueName defValue)
      | some value => (value, ini) := by
  unfold IniFile.getValueSet
  split
  next hkey =>
    rw [h.setValue_new (find_missing hkey), find_missing hkey]
    rfl
  next keyID hkey =>
    have hfind : ini.find keyName valueName = _ := h.find hkey
    split
    next hvalue =>
      rw [hvalue] at hfind
      rw [h.setValue_new hfind, hfind]
      rfl
    next valueID hvalue =>
      rw [hfind, hvalue]
      rfl

theorem Aligned.deleteValue_new (hnew : ini.find keyName valueName = none) (h : ini.Aligned) :
    ini.deleteValue keyName valueName = (false, ini) := by
  unfold IniFile.deleteValue
  split
  next => rfl
  next keyID hkey =>
    rw [h.find hkey] at hnew
    rw [Option.map_eq_none_iff.mp hnew]

theorem Aligned.deleteValue_found {old : AString} (h : ini.Aligned) (hold : ini.find keyName valueName = some old) :
    (ini.deleteValue keyName valueName).1 = true ∧
      (ini.deleteValue keyName valueName).2.Aligned ∧
      (ini.deleteValue keyName valueName).2.checkCase = ini.checkCase ∧
      ∀ other, (ini.deleteValue keyName valueName).2.rows other =
        if ini.checkCase other = ini.checkCase keyName then
          some (NamedValues.remove (ini.checkCase valueName) ((ini.rows keyName).getD []))
        else ini.rows other := by
  rcases hkey : ini.findKey keyName with _ | keyID
  · rw [find_missing hkey] at hold
    cases hold
  · rw [h.find hkey] at hold
    obtain ⟨valueID, hvalue, rfl⟩ := Option.map_eq_some_iff.mp hold
    obtain ⟨hthere, hpaired⟩ := h.keyAt hkey
    have hplace := (h.findValue hkey).symm.trans hvalue
    obtain ⟨hlt, _⟩ := List.findIdx?_eq_some_iff_getElem.mp hplace
    have hdelete : ini.deleteValue keyName valueName =
        (true, ini.modifyKey keyID (IniKey.deleteValue valueID)) := by
      unfold IniFile.deleteValue
      rw [hkey]
      dsimp only
      rw [hvalue]
      dsimp only
      rw [deleteValueByID, if_pos ⟨(List.getElem?_eq_some_iff.mp hthere).1, hlt⟩]
    rw [hdelete]
    refine ⟨rfl, h.modifyKey fun key hpaired => ?_, rfl, fun other => ?_⟩
    · simp [IniKey.deleteValue, List.length_eraseIdx, hpaired]
    · rw [h.modifyKey_rows hkey, IniKey.deleteValue_entries hpaired hplace, rows_found hkey]
      rfl

end Operations

section Lines

variable {ini' : IniFile} {line keyname keyname' : AString}

/-- A line that is read changes nothing, or it is printable and what stands around its first special character is
added. -/
theorem readLine_cases (hread : readLine line keyname ini = some (keyname', ini')) :
    keyname' = keyname ∧ ini' = ini ∨
      ∃ first pLeft, line.head? = some first ∧ isprint first = true ∧ line.findIdx? special = some pLeft ∧
        ((∃ pRight, keyname' = (line.drop (pLeft + 1)).take (pRight - pLeft - 1) ∧
            ini' = (ini.addKeyName keyname').2) ∨
          keyname' = keyname ∧
            (ini' = ini.addValue keyname (line.take pLeft) (line.drop (pLeft + 1)) ∨
              ini' = ini.addHeaderComment (line.drop (pLeft + 1)) ∨
                ini' = (ini.addKeyComment keyname (line.drop (pLeft + 1))).2)) := by
  unfold readLine at hread
  split at hread
  next =>
    cases hread
    exact .inl ⟨rfl, rfl⟩
  next first hfirst =>
    split at hread
    next => cases hread
    next hprint =>
      split at hread
      next =>
        cases hread
        exact .inl ⟨rfl, rfl⟩
      next pLeft hleft =>
        have hentry := Option.some.inj hread
        have hprint : isprint first = true := by simpa using hprint
        unfold readEntry at hentry
        split at hentry
        next =>
          split at hentry
          next pRight _ =>
            split at hentry
            next =>
              cases hentry
              exact .inr ⟨first, pLeft, hfirst, hprint, hleft, .inl ⟨pRight, rfl, rfl⟩⟩
            next =>
              cases hentry
              exact .inl ⟨rfl, rfl⟩
          next =>
            cases hentry
            exact .inl ⟨rfl, rfl⟩
        next =>
          split at hentry
          next =>
            cases hentry
            exact .inr ⟨first, pLeft, hfirst, hprint, hleft, .inr ⟨rfl, .inl rfl⟩⟩
          next =>
            split at hentry
            next =>
              cases hentry
              exact .inr ⟨first, pLeft, hfirst, hprint, hleft, .inr ⟨rfl, .inr (.inl rfl)⟩⟩
            next =>
              cases hentry
              exact .inr ⟨first, pLeft, hfirst, hprint, hleft, .inr ⟨rfl, .inr (.inr rfl)⟩⟩

end Lines

end IniFile

end P2PChat

import P2PChat.IniRuns
import P2PChat.PortUpgrade

namespace P2PChat

namespace IniFile

section Values

variable {ini : IniFile} {keyName valueName value : AString} {keyID : Nat}

theorem getValues_found (hfind : ini.findKey keyName = some keyID) :
    ini.getValues keyName = (ini.keyAt keyID).pairs := by
  rw [getValues, hfind]
  rfl

theorem getValues_missing (hfind : ini.findKey keyName = none) : ini.getValues keyName = [] := by
  rw [getValues, hfind]

/-- The values of a key are found under their folded names. -/
theorem find_getValues (ini : IniFile) (keyName valueName : AString) :
    ini.find keyName valueName =
      (FoldedValues.find ini.checkCase valueName (ini.getValues keyName)).map Prod.snd := by
  rcases hfind : ini.findKey keyName with _ | keyID
  · rw [find_missing hfind, getValues_missing hfind]
    rfl
  · rw [IniFile.find, rows_found hfind, getValues_found hfind, Option.bind_some, IniKey.entries_pairs,
      FoldedValues.lookup_fold]

/-- The first key with a name is changed, and what it has is then what `GetValues` returns. -/
theorem Aligned.modifyKey_getValues {f : IniKey → IniKey} (h : ini.Aligned) (hfind : ini.findKey keyName = some keyID) :
    (ini.modifyKey keyID f).getValues keyName = (f (ini.keyAt keyID)).pairs := by
  have hsame : (ini.modifyKey keyID f).findKey keyName = some keyID := hfind
  rw [getValues_found hsame, IniFile.keyAt, List.getD_eq_getElem?_getD]
  show (((ini.keys.modify keyID f)[keyID]?).getD IniKey.empty).pairs = _
  rw [List.getElem?_modify_eq, (h.keyAt hfind).1]
  rfl

theorem modifyKey_eq_self {f : IniKey → IniKey} (hkey : f (ini.keyAt keyID) = ini.keyAt keyID) :
    ini.modifyKey keyID f = ini := by
  have hkeys : ini.keys.modify keyID f = ini.keys := by
    apply List.ext_getElem?
    intro i
    rw [List.getElem?_modify]
    rcases hthere : ini.keys[i]? with _ | key
    · rfl
    · by_cases hplace : keyID = i
      · have hat : ini.keyAt keyID = key := by
          rw [keyAt, List.getD_eq_getElem?_getD, hplace, hthere, Option.getD_some]
        show some (if keyID = i then f key else key) = some key
        rw [if_pos hplace, ← hat, hkey]
      · show some (if keyID = i then f key else key) = some key
        rw [if_neg hplace]
  rw [modifyKey, hkeys]

/-- What `DeleteValue` leaves, and that it leaves all when it has nothing to delete. -/
theorem Aligned.deleteValue_values (h : ini.Aligned) (keyName valueName : AString) :
    (ini.deleteValue keyName valueName).2.Aligned ∧
      (ini.deleteValue keyName valueName).2.checkCase = ini.checkCase ∧
      (ini.deleteValue keyName valueName).2.getValues keyName =
        FoldedValues.remove ini.checkCase valueName (ini.getValues keyName) ∧
      (FoldedValues.find ini.checkCase valueName (ini.getValues keyName) = none →
        (ini.deleteValue keyName valueName).2 = ini) := by
  rcases hfind : FoldedValues.find ini.checkCase valueName (ini.getValues keyName) with _ | old
  · have hnew : ini.find keyName valueName = none := by rw [find_getValues, hfind]; rfl
    rw [Aligned.deleteValue_new hnew h]
    exact ⟨h, rfl, (FoldedValues.remove_eq_self.mpr hfind).symm, fun _ => rfl⟩
  · have hold : ini.find keyName valueName = some old.2 := by rw [find_getValues, hfind]; rfl
    obtain ⟨_, haligned, hcase, _⟩ := h.deleteValue_found hold
    refine ⟨haligned, hcase, ?_, nofun⟩
    rcases hkey : ini.findKey keyName with _ | keyID
    · cases (find_missing hkey).symm.trans hold
    · rw [h.find hkey] at hold
      obtain ⟨valueID, hvalue, _⟩ := Option.map_eq_some_iff.mp hold
      obtain ⟨hthere, hpaired⟩ := h.keyAt hkey
      have hplace := (h.findValue hkey).symm.trans hvalue
      obtain ⟨hlt, _⟩ := List.findIdx?_eq_some_iff_getElem.mp hplace
      have hdelete : (ini.deleteValue keyName valueName).2 = ini.modifyKey keyID (IniKey.deleteValue valueID) := by
        simp [IniFile.deleteValue, hkey, hvalue, deleteValueByID, (List.getElem?_eq_some_iff.mp hthere).1, hlt]
      rw [hdelete, h.modifyKey_getValues hkey, IniKey.deleteValue_pairs hpaired hplace, getValues_found hkey]

/-- What `AddValue` leaves of the values of its key. -/
theorem Aligned.addValue_getValues (h : ini.Aligned) (keyName valueName value : AString) :
    (ini.addValue keyName valueName value).getValues keyName = ini.getValues keyName ++ [(valueName, value)] := by
  obtain ⟨haligned, hfind, _⟩ := h.demandKey keyName
  have hdemanded : (ini.demandKey keyName).2.getValues keyName = ini.getValues keyName := by
    rcases hkey : ini.findKey keyName with _ | keyID
    · rw [getValues_missing hkey, getValues_found hfind, IniFile.demandKey, hkey]
      show ((ini.keys ++ [IniKey.empty]).getD ini.names.length IniKey.empty).pairs = []
      rw [← h.keys, List.getD_eq_getElem?_getD, List.getElem?_concat_length]
      rfl
    · rw [demandKey_found hkey]
  rw [IniFile.addValue, haligned.modifyKey_getValues hfind, IniKey.addValue_pairs (haligned.keyAt hfind).2,
    ← getValues_found hfind, hdemanded]

/-- What `SetValue` leaves, and that it leaves all when the value is there. -/
theorem Aligned.setValue_values (h : ini.Aligned) (keyName valueName value : AString) :
    (ini.setValue keyName valueName value true).2.Aligned ∧
      (ini.setValue keyName valueName value true).2.checkCase = ini.checkCase ∧
      (ini.setValue keyName valueName value true).2.getValues keyName =
        FoldedValues.put ini.checkCase valueName value (ini.getValues keyName) ∧
      ∀ old, FoldedValues.find ini.checkCase valueName (ini.getValues keyName) = some old → old.2 = value →
        (ini.setValue keyName valueName value true).2 = ini := by
  rcases hfind : FoldedValues.find ini.checkCase valueName (ini.getValues keyName) with _ | old
  · have hnew : ini.find keyName valueName = none := by rw [find_getValues, hfind]; rfl
    rw [h.setValue_new hnew, if_pos rfl]
    refine ⟨h.addValue, h.addValue_case, ?_, nofun⟩
    rw [h.addValue_getValues, FoldedValues.put_new hfind]
  · have hold : ini.find keyName valueName = some old.2 := by rw [find_getValues, hfind]; rfl
    obtain ⟨_, haligned, hcase, _⟩ := h.setValue_found hold value true
    refine ⟨haligned, hcase, ?_⟩
    rcases hkey : ini.findKey keyName with _ | keyID
    · cases (find_missing hkey).symm.trans hold
    · rw [h.find hkey] at hold
      obtain ⟨valueID, hvalue, hat⟩ := Option.map_eq_some_iff.mp hold
      obtain ⟨_, hpaired⟩ := h.keyAt hkey
      have hplace := (h.findValue hkey).symm.trans hvalue
      obtain ⟨hlt, _⟩ := List.findIdx?_eq_some_iff_getElem.mp hplace
      have hset : (ini.setValue keyName valueName value true).2 =
          ini.modifyKey keyID (IniKey.setValue valueID value) := by
        simp [IniFile.setValue, hkey, demandKey_found hkey, hvalue]
      rw [hset, h.modifyKey_getValues hkey, IniKey.setValue_pairs hpaired hplace, getValues_found hkey]
      refine ⟨rfl, fun found hfound hsame => modifyKey_eq_self ?_⟩
      cases hfound
      have hlt' : valueID < (ini.keyAt keyID).values.length := hpaired ▸ hlt
      have hthere : (ini.keyAt keyID).values[valueID] = value := by
        rw [valueAt, List.getD_eq_getElem?_getD, List.getElem?_eq_getElem hlt', Option.getD_some] at hat
        rw [hat, hsame]
      rw [IniKey.setValue, ← hthere, List.set_getElem_self]

end Values

section Ports

variable {ini : IniFile} {keyName : AString} {names : PortNames}

/-- `ReadUpgradeIniPorts`. -/
def readUpgradeIniPorts (keyName : AString) (names : PortNames) (ini : IniFile) : List AString × IniFile :=
  let ports := (ini.getValues keyName).flatMap fun pair =>
    if pair.1 = names.portsValueName then splitPorts pair.2 else []
  if ports.isEmpty then
    let ports4 := ini.getValue keyName names.oldIPv4ValueName names.defaultValue
    let ports6 := ini.getValue keyName names.oldIPv6ValueName []
    let ports := mergeStringVectors (splitPorts ports4) (splitPorts ports6)
    let ini := (ini.deleteValue keyName names.oldIPv4ValueName).2
    let ini := (ini.deleteValue keyName names.oldIPv6ValueName).2
    let ports := if ports.isEmpty then splitPorts names.defaultValue else ports
    (ports, (ini.setValue keyName names.portsValueName (joinPorts ports) true).2)
  else (ports, ini)

/-- `ReadUpgradeIniPorts` is the upgrade of the values of its key; when these stay the same, so does the file. -/
theorem Aligned.readUpgradeIniPorts_upgrade (h : ini.Aligned) (keyName : AString) (hd : names.Distinct ini.checkCase) :
    (ini.readUpgradeIniPorts keyName names).1 = (names.upgrade ini.checkCase (ini.getValues keyName)).1 ∧
      (ini.readUpgradeIniPorts keyName names).2.Aligned ∧
      (ini.readUpgradeIniPorts keyName names).2.checkCase = ini.checkCase ∧
      (ini.readUpgradeIniPorts keyName names).2.getValues keyName =
        (names.upgrade ini.checkCase (ini.getValues keyName)).2 ∧
      ((names.upgrade ini.checkCase (ini.getValues keyName)).2 = ini.getValues keyName →
        (ini.readUpgradeIniPorts keyName names).2 = ini) := by
  by_cases hstored : names.stored (ini.getValues keyName) = []
  · obtain ⟨h4, hcase4, hvalues4, hsame4⟩ := h.deleteValue_values keyName names.oldIPv4ValueName
    obtain ⟨h6, hcase6, hvalues6, hsame6⟩ := h4.deleteValue_values keyName names.oldIPv6ValueName
    rw [hcase4, hvalues4] at hvalues6 hsame6
    rw [hcase4] at hcase6
    obtain ⟨hset, hcase, hvalues, hsame⟩ := h6.setValue_values keyName names.portsValueName
      (joinPorts (names.wanted ini.checkCase (ini.getValues keyName)))
    rw [hcase6, hvalues6] at hvalues hsame
    rw [hcase6] at hcase
    have hrun : ini.readUpgradeIniPorts keyName names =
        (names.wanted ini.checkCase (ini.getValues keyName),
          (setValue keyName names.portsValueName (joinPorts (names.wanted ini.checkCase (ini.getValues keyName))) true
            (deleteValue keyName names.oldIPv6ValueName (deleteValue keyName names.oldIPv4ValueName ini).2).2).2) := by
      rw [IniFile.readUpgradeIniPorts, if_pos (by simpa [PortNames.stored] using hstored)]
      simp only [PortNames.wanted, h.getValue, find_getValues]
    rw [hrun, PortNames.upgrade_migrated hstored]
    refine ⟨rfl, hset, hcase, hvalues, fun hkept => ?_⟩
    have hports : FoldedValues.find ini.checkCase names.portsValueName (ini.getValues keyName) ≠ none := by
      rw [← hkept, PortNames.find_migrated_ports hd]
      exact Option.some_ne_none _
    obtain ⟨found, hfound⟩ := Option.ne_none_iff_exists'.mp hports
    obtain ⟨hnone4, hnone6, hvalue⟩ := (PortNames.migrated_eq_self hd hfound).mp hkept
    rw [hsame found ?_ hvalue, hsame6 ?_, hsame4 hnone4]
    · rw [FoldedValues.remove_eq_self.mpr hnone4, hnone6]
    · rw [FoldedValues.find_remove_other hd.ports6, FoldedValues.find_remove_other hd.ports4, hfound]
  · have hrun : ini.readUpgradeIniPorts keyName names = (names.stored (ini.getValues keyName), ini) := by
      rw [IniFile.readUpgradeIniPorts, if_neg (by simpa [PortNames.stored] using hstored)]
      rfl
    rw [hrun, PortNames.upgrade_stored hstored]
    exact ⟨rfl, h, rfl, rfl, fun _ => rfl⟩

/-- A second call returns the same ports and changes nothing, and a ports value with a port in it is left with the old
ones. -/
def UpgradesOnce (keyName : AString) (names : PortNames) (ini : IniFile) : Prop :=
  (ini.readUpgradeIniPorts keyName names).2.readUpgradeIniPorts keyName names = ini.readUpgradeIniPorts keyName names ∧
    (ini.hasValue keyName names.portsValueName →
      splitPorts (ini.getValue keyName names.portsValueName []) ≠ [] →
      ∀ name ∈ [names.portsValueName, names.oldIPv4ValueName, names.oldIPv6ValueName], ∀ defValue,
        (ini.readUpgradeIniPorts keyName names).2.getValue keyName name defValue = ini.getValue keyName name defValue)

theorem getD_inj {x y : Option AString} : (∀ defValue, x.getD defValue = y.getD defValue) ↔ x = y := by
  refine ⟨fun hall => ?_, fun hsame _ => by rw [hsame]⟩
  rcases x with _ | v
  · rcases y with _ | w
    · rfl
    · have hlonger : 0 :: w = w := hall (0 :: w)
      simp at hlonger
  · rcases y with _ | w
    · have hlonger : v = 0 :: v := hall (0 :: v)
      simp at hlonger
    · exact congrArg some (hall v)

theorem Aligned.upgradesOnce_iff (h : ini.Aligned) (hd : names.Distinct ini.checkCase) :
    ini.UpgradesOnce keyName names ↔ names.Stable ini.checkCase (ini.getValues keyName) := by
  obtain ⟨hports, haligned, hcase, hvalues, _⟩ := h.readUpgradeIniPorts_upgrade keyName hd
  have hd' : names.Distinct (ini.readUpgradeIniPorts keyName names).2.checkCase := hcase ▸ hd
  have hagain := haligned.readUpgradeIniPorts_upgrade keyName hd'
  rw [hcase, hvalues] at hagain
  obtain ⟨hports', _, _, hvalues', hsame'⟩ := hagain
  have htwice : (ini.readUpgradeIniPorts keyName names).2.readUpgradeIniPorts keyName names =
      ini.readUpgradeIniPorts keyName names ↔
      names.upgrade ini.checkCase (names.upgrade ini.checkCase (ini.getValues keyName)).2 =
        names.upgrade ini.checkCase (ini.getValues keyName) := by
    rw [Prod.ext_iff, Prod.ext_iff, hports', hports]
    refine and_congr_right fun _ => ⟨fun hfile => ?_, hsame'⟩
    rw [← hvalues', hfile, hvalues]
  unfold UpgradesOnce PortNames.Stable
  rw [htwice]
  refine and_congr_right fun _ => ?_
  rw [h.hasValue, h.getValue, find_getValues, Option.isSome_map]
  rcases hfind : FoldedValues.find ini.checkCase names.portsValueName (ini.getValues keyName) with _ | pair
  · exact iff_of_true nofun nofun
  · have hread : ∀ name, (∀ defValue, (ini.readUpgradeIniPorts keyName names).2.getValue keyName name defValue =
        ini.getValue keyName name defValue) ↔
        (FoldedValues.find ini.checkCase name (names.upgrade ini.checkCase (ini.getValues keyName)).2).map Prod.snd =
          (FoldedValues.find ini.checkCase name (ini.getValues keyName)).map Prod.snd := by
      intro name
      simp only [haligned.getValue, h.getValue, find_getValues, hcase, hvalues]
      exact getD_inj
    refine ⟨fun hkept pair' hpair hsplit name hname => ?_, fun hkept _ hsplit name hname => ?_⟩
    · cases hpair
      exact (hread name).mp (hkept rfl hsplit name hname)
    · exact (hread name).mpr (hkept pair rfl hsplit name hname)

/-- In every state an upgrade is made once and for all in just the settled cases. -/
theorem reachable_upgradesOnce_iff (h : machine.Reachable create ini) (keyName : AString)
    (hd : names.Distinct ini.checkCase) :
    ini.UpgradesOnce keyName names ↔ names.Settled ini.checkCase (ini.getValues keyName) := by
  rw [(reachable_aligned h).upgradesOnce_iff hd]
  exact PortNames.stable_iff hd

/-- `p=1` under `[S]`. -/
def lowerPorts : IniFile := ⟨true, [⟨[[0x70]], [[0x31]], []⟩], [[0x53]], []⟩

/-- `P`, `A` and `B`, and `2` for the default. -/
def someNames : PortNames := ⟨[0x50], [0x41], [0x42], [0x32]⟩

theorem lowerPorts_reachable : machine.Reachable create lowerPorts :=
  .next (e := .addValue [0x53] [0x70] [0x31]) .start trivial trivial rfl

theorem someNames_distinct : someNames.Distinct lowerPorts.checkCase := ⟨by decide, by decide, by decide⟩

theorem lowerPorts_upgradesOnce_iff :
    lowerPorts.UpgradesOnce [0x53] someNames ↔
      someNames.Settled lowerPorts.checkCase (lowerPorts.getValues [0x53]) :=
  reachable_upgradesOnce_iff lowerPorts_reachable [0x53] someNames_distinct

/-- Ports under a name in small letters are written over with the default. -/
theorem lowerPorts_lost :
    ¬∀ ini keyName, ∀ names : PortNames, machine.Reachable create ini → ini.isCaseInsensitive = true →
      names.Distinct ini.checkCase → ini.UpgradesOnce keyName names := by
  intro h
  obtain ⟨_, hkept⟩ := h lowerPorts [0x53] someNames lowerPorts_reachable rfl someNames_distinct
  have hports := hkept (by decide) (by decide) [0x50] List.mem_cons_self []
  revert hports
  decide

end Ports

end IniFile

end P2PChat

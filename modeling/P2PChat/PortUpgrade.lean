import P2PChat.FoldedValues
import P2PChat.StringUtils

namespace P2PChat

/-- `";,"`. -/
def portDelimiters : AString := [0x3b, 0x2c]

def splitPorts (str : AString) : List AString := stringSplitAndTrim str portDelimiters

def joinPorts (ports : List AString) : AString := stringsConcat ports 0x2c

theorem splitPorts_joinPorts {ports : List AString} (h : ∀ port ∈ ports, Piece portDelimiters port)
    (hne : ports ≠ []) :
    splitPorts (joinPorts ports) = if ports.getLast? = some [] then ports.dropLast else ports :=
  stringSplitAndTrim_concat h (by decide) hne

/-- What `ReadUpgradeIniPorts` is called with, but for the key. -/
structure PortNames where
  portsValueName : AString
  oldIPv4ValueName : AString
  oldIPv6ValueName : AString
  defaultValue : AString
  deriving DecidableEq, Repr

namespace PortNames

open FoldedValues

section Definitions

variable (fold : AString → AString) (names : PortNames) (values : List (AString × AString))

/-- The ports of the values with just this name. -/
def stored : List AString :=
  values.flatMap fun pair => if pair.1 = names.portsValueName then splitPorts pair.2 else []

/-- The ports of the two old values, or those of the default. -/
def wanted : List AString :=
  let ports4 := ((find fold names.oldIPv4ValueName values).map Prod.snd).getD names.defaultValue
  let ports6 := ((find fold names.oldIPv6ValueName values).map Prod.snd).getD []
  let ports := mergeStringVectors (splitPorts ports4) (splitPorts ports6)
  if ports.isEmpty then splitPorts names.defaultValue else ports

/-- The values when the old ones are removed and these ports are put in. -/
def migrated (ports : List AString) : List (AString × AString) :=
  put fold names.portsValueName (joinPorts ports)
    (remove fold names.oldIPv6ValueName (remove fold names.oldIPv4ValueName values))

/-- What `ReadUpgradeIniPorts` returns, and makes of the values of its key. -/
def upgrade : List AString × List (AString × AString) :=
  if (names.stored values).isEmpty then
    (names.wanted fold values, names.migrated fold values (names.wanted fold values))
  else (names.stored values, values)

/-- A second upgrade returns and leaves the same, and a ports value with a port in it is kept with the old ones. -/
def Stable : Prop :=
  names.upgrade fold (names.upgrade fold values).2 = names.upgrade fold values ∧
    ∀ pair, find fold names.portsValueName values = some pair → splitPorts pair.2 ≠ [] →
      ∀ name ∈ [names.portsValueName, names.oldIPv4ValueName, names.oldIPv6ValueName],
        (find fold name (names.upgrade fold values).2).map Prod.snd = (find fold name values).map Prod.snd

/-- The first ports value is spelled as it is asked for. -/
def Exact : Prop := ∀ pair, find fold names.portsValueName values = some pair → pair.1 = names.portsValueName

def AtMostOne (name : AString) : Prop := (values.filter fun pair => fold pair.1 = fold name).length ≤ 1

/-- The upgrade comes to the ports of the default, and does so again. -/
structure Default : Prop where
  once4 : AtMostOne fold values names.oldIPv4ValueName
  once6 : AtMostOne fold values names.oldIPv6ValueName
  wanted : names.wanted fold values = splitPorts names.defaultValue
  exact : names.Exact fold values → joinPorts (splitPorts names.defaultValue) = []
  other : ∀ pair, find fold names.portsValueName values = some pair → pair.1 ≠ names.portsValueName →
    splitPorts pair.2 ≠ [] → find fold names.oldIPv4ValueName values = none ∧
      find fold names.oldIPv6ValueName values = none ∧ pair.2 = joinPorts (splitPorts names.defaultValue)

/-- There are ports under the name as it is spelled; or the name is not spelled in another way and the ports that are
put in do not end with an empty one; or they are those of the default. -/
def Settled : Prop :=
  names.stored values ≠ [] ∨
    names.Exact fold values ∧ names.wanted fold values ≠ [] ∧ (names.wanted fold values).getLast? ≠ some [] ∨
      names.Default fold values

/-- The three names are different ones. -/
structure Distinct : Prop where
  ports4 : fold names.portsValueName ≠ fold names.oldIPv4ValueName
  ports6 : fold names.portsValueName ≠ fold names.oldIPv6ValueName
  old : fold names.oldIPv4ValueName ≠ fold names.oldIPv6ValueName

end Definitions

section Stored

variable {fold : AString → AString} {names : PortNames} {values : List (AString × AString)}

theorem stored_eq_nil :
    names.stored values = [] ↔ ∀ pair ∈ values, pair.1 = names.portsValueName → splitPorts pair.2 = [] := by
  rw [stored, List.flatMap_eq_nil_iff]
  refine forall₂_congr fun pair _ => ?_
  split
  next h => simp [h]
  next h => simp [h]

theorem stored_remove {name : AString} (h : names.stored values = []) :
    names.stored (remove fold name values) = [] :=
  stored_eq_nil.mpr fun pair hmem => stored_eq_nil.mp h pair (List.eraseP_sublist.subset hmem)

theorem stored_cons (first : AString × AString) (rest : List (AString × AString)) :
    names.stored (first :: rest) =
      (if first.1 = names.portsValueName then splitPorts first.2 else []) ++ names.stored rest := rfl

/-- The value that is put in counts when its name is spelled as it is asked for. -/
theorem stored_put (fold : AString → AString) (h : names.stored values = []) (value : AString) :
    (names.Exact fold values → names.stored (put fold names.portsValueName value values) = splitPorts value) ∧
      (¬names.Exact fold values → names.stored (put fold names.portsValueName value values) = []) := by
  induction values with
  | nil =>
    have hexact : names.Exact fold [] := fun _ hfind => by cases hfind
    refine ⟨fun _ => ?_, fun hnot => absurd hexact hnot⟩
    simp [put, stored]
  | cons first rest ih =>
    have hrest : names.stored rest = [] :=
      stored_eq_nil.mpr fun pair hmem => stored_eq_nil.mp h pair (List.mem_cons_of_mem _ hmem)
    by_cases hname : fold first.1 = fold names.portsValueName
    · have hexact : names.Exact fold (first :: rest) ↔ first.1 = names.portsValueName := by
        unfold Exact
        rw [find_cons, if_pos hname]
        exact ⟨fun hall => hall first rfl, fun heq pair hpair => Option.some.inj hpair ▸ heq⟩
      rw [hexact, put, if_pos hname, stored_cons, hrest, List.append_nil]
      exact ⟨fun heq => if_pos heq, fun hne => if_neg hne⟩
    · have hexact : names.Exact fold (first :: rest) ↔ names.Exact fold rest := by
        unfold Exact
        rw [find_cons, if_neg hname]
      have hne : first.1 ≠ names.portsValueName := fun heq => hname (heq ▸ rfl)
      rw [hexact, put, if_neg hname, stored_cons, if_neg hne, List.nil_append]
      exact ih hrest

theorem wanted_pieces : ∀ port ∈ names.wanted fold values, Piece portDelimiters port := by
  unfold wanted
  dsimp only
  split
  next => exact stringSplitAndTrim_pieces _ _
  next => exact mergeStringVectors_pieces (stringSplitAndTrim_pieces _ _) (stringSplitAndTrim_pieces _ _)

/-- Without old values there is the default. -/
theorem wanted_default (h4 : find fold names.oldIPv4ValueName values = none)
    (h6 : find fold names.oldIPv6ValueName values = none) :
    names.wanted fold values = splitPorts names.defaultValue := by
  have hmerge : ∀ ports, mergeStringVectors ports (splitPorts []) = ports := fun _ => rfl
  simp only [wanted, h4, h6, Option.map_none, Option.getD_none, hmerge]
  split
  next => rfl
  next => rfl

end Stored

section Upgrade

variable {fold : AString → AString} {names : PortNames} {values : List (AString × AString)} {ports : List AString}

theorem find_migrated_ports (h : names.Distinct fold) :
    find fold names.portsValueName (names.migrated fold values ports) =
      some (((find fold names.portsValueName values).elim names.portsValueName Prod.fst), joinPorts ports) := by
  rw [migrated, find_put_self, find_remove_other h.ports6, find_remove_other h.ports4]

/-- Old values are left when there was more than one. -/
theorem find_migrated4 (h : names.Distinct fold) :
    find fold names.oldIPv4ValueName (names.migrated fold values ports) = none ↔
      AtMostOne fold values names.oldIPv4ValueName := by
  rw [migrated, find_put_other h.ports4.symm, find_remove_other h.old, find_remove_self]
  rfl

theorem find_migrated6 (h : names.Distinct fold) :
    find fold names.oldIPv6ValueName (names.migrated fold values ports) = none ↔
      AtMostOne fold values names.oldIPv6ValueName := by
  rw [migrated, find_put_other h.ports6.symm, find_remove_self, filter_remove_other h.old.symm]
  rfl

theorem migrated_eq_self {found : AString × AString} (h : names.Distinct fold)
    (hports : find fold names.portsValueName values = some found) :
    names.migrated fold values ports = values ↔ find fold names.oldIPv4ValueName values = none ∧
      find fold names.oldIPv6ValueName values = none ∧ found.2 = joinPorts ports :=
  put_remove_eq_self h.ports4 h.ports6 hports

theorem upgrade_stored (h : names.stored values ≠ []) :
    names.upgrade fold values = (names.stored values, values) := by
  rw [upgrade, if_neg (by simpa using h)]

theorem upgrade_migrated (h : names.stored values = []) :
    names.upgrade fold values =
      (names.wanted fold values, names.migrated fold values (names.wanted fold values)) := by
  rw [upgrade, if_pos (by simpa using h)]

theorem stored_migrated (hd : names.Distinct fold) (h : names.stored values = []) (ports : List AString) :
    (names.Exact fold values → names.stored (names.migrated fold values ports) = splitPorts (joinPorts ports)) ∧
      (¬names.Exact fold values → names.stored (names.migrated fold values ports) = []) := by
  have hkept : names.stored (remove fold names.oldIPv6ValueName (remove fold names.oldIPv4ValueName values)) = [] :=
    stored_remove (stored_remove h)
  have hput := stored_put fold hkept (joinPorts ports)
  have hexact : names.Exact fold (remove fold names.oldIPv6ValueName (remove fold names.oldIPv4ValueName values)) ↔
      names.Exact fold values := by
    unfold Exact
    rw [find_remove_other hd.ports6, find_remove_other hd.ports4]
  rw [hexact] at hput
  exact hput

/-- A second migration gives the same just when the first left no old value and came to the default. -/
theorem migrated_again_iff (hd : names.Distinct fold)
    (hagain : names.stored (names.migrated fold values (names.wanted fold values)) = []) :
    names.upgrade fold (names.migrated fold values (names.wanted fold values)) =
        (names.wanted fold values, names.migrated fold values (names.wanted fold values)) ↔
      AtMostOne fold values names.oldIPv4ValueName ∧ AtMostOne fold values names.oldIPv6ValueName ∧
        names.wanted fold values = splitPorts names.defaultValue := by
  rw [upgrade_migrated hagain, Prod.mk.injEq, migrated_eq_self hd (find_migrated_ports hd), find_migrated4 hd,
    find_migrated6 hd]
  constructor
  · rintro ⟨hwanted, h4, h6, _⟩
    rw [wanted_default ((find_migrated4 hd).mpr h4) ((find_migrated6 hd).mpr h6)] at hwanted
    exact ⟨h4, h6, hwanted.symm⟩
  · rintro ⟨h4, h6, hwanted⟩
    have hsame : names.wanted fold (names.migrated fold values (names.wanted fold values)) =
        names.wanted fold values := by
      rw [wanted_default ((find_migrated4 hd).mpr h4) ((find_migrated6 hd).mpr h6), hwanted]
    exact ⟨hsame, h4, h6, by rw [hsame]⟩

/-- Ports that are put in are found again, all of them, but when the last is empty. -/
theorem splitPorts_eq_wanted (hne : joinPorts (names.wanted fold values) ≠ []) :
    splitPorts (joinPorts (names.wanted fold values)) ≠ [] ∧
      (splitPorts (joinPorts (names.wanted fold values)) = names.wanted fold values ↔
        (names.wanted fold values).getLast? ≠ some []) := by
  have hpieces : ∀ port ∈ names.wanted fold values, Piece portDelimiters port := wanted_pieces
  generalize names.wanted fold values = ports at hne hpieces
  have hports : ports ≠ [] ∧ ports ≠ [[]] := by
    rw [← not_or, ← stringsConcat_eq_nil]
    exact hne
  rw [splitPorts_joinPorts hpieces hports.1]
  split
  next hlast =>
    obtain ⟨first, hfirst⟩ := List.getLast?_eq_some_iff.mp hlast
    subst hfirst
    rw [List.dropLast_concat]
    refine ⟨fun hnil => hports.2 (by rw [hnil]; rfl), iff_of_false (fun hsame => ?_) (fun h => h hlast)⟩
    exact absurd (congrArg List.length hsame) (by simp)
  next hlast => exact ⟨hports.1, iff_of_true rfl hlast⟩

/-- What is kept of a ports value that is spelled in another way: it must be what is put in, beside no old values. -/
theorem kept_iff (hd : names.Distinct fold) (h4 : AtMostOne fold values names.oldIPv4ValueName)
    (h6 : AtMostOne fold values names.oldIPv6ValueName) {pair : AString × AString}
    (hpair : find fold names.portsValueName values = some pair) :
    (∀ name ∈ [names.portsValueName, names.oldIPv4ValueName, names.oldIPv6ValueName],
        (find fold name (names.migrated fold values ports)).map Prod.snd = (find fold name values).map Prod.snd) ↔
      find fold names.oldIPv4ValueName values = none ∧ find fold names.oldIPv6ValueName values = none ∧
        pair.2 = joinPorts ports := by
  simp only [List.forall_mem_cons, List.not_mem_nil, false_imp_iff, implies_true, and_true, find_migrated_ports hd,
    (find_migrated4 hd).mpr h4, (find_migrated6 hd).mpr h6, hpair, Option.map_some, Option.map_none, Option.some.injEq]
  constructor
  · rintro ⟨hports, hold4, hold6⟩
    exact ⟨Option.map_eq_none_iff.mp hold4.symm, Option.map_eq_none_iff.mp hold6.symm, hports.symm⟩
  · rintro ⟨hold4, hold6, hports⟩
    exact ⟨hports.symm, by rw [hold4]; rfl, by rw [hold6]; rfl⟩

/-- An upgrade is stable in just the settled cases. -/
theorem stable_iff (hd : names.Distinct fold) : names.Stable fold values ↔ names.Settled fold values := by
  by_cases hstored : names.stored values = []
  · have hup : names.upgrade fold values = _ := upgrade_migrated hstored
    obtain ⟨hspelled, hunspelled⟩ := stored_migrated hd hstored (names.wanted fold values)
    unfold Stable Settled
    rw [hup]
    by_cases hexact : names.Exact fold values
    · -- no port is lost: the first ports value has none
      have hlost : ∀ pair, find fold names.portsValueName values = some pair → splitPorts pair.2 = [] :=
        fun pair hpair => stored_eq_nil.mp hstored pair (List.mem_of_find?_eq_some hpair) (hexact pair hpair)
      by_cases hjoin : joinPorts (names.wanted fold values) = []
      · have hagain : names.stored (names.migrated fold values (names.wanted fold values)) = [] := by
          rw [hspelled hexact, hjoin]
          rfl
        rw [migrated_again_iff hd hagain]
        constructor
        · rintro ⟨⟨h4, h6, hwanted⟩, _⟩
          exact .inr (.inr ⟨h4, h6, hwanted, fun _ => hwanted ▸ hjoin,
            fun pair hpair hne => absurd (hexact pair hpair) hne⟩)
        · rintro (hports | ⟨_, hne, hlast⟩ | hdefault)
          · exact absurd hstored hports
          · rcases stringsConcat_eq_nil.mp hjoin with hnil | hempty
            · exact absurd hnil hne
            · exact absurd (by rw [hempty]; rfl) hlast
          · exact ⟨⟨hdefault.once4, hdefault.once6, hdefault.wanted⟩,
              fun pair hpair hsplit => absurd (hlost pair hpair) hsplit⟩
      · obtain ⟨hsome, hsame⟩ := splitPorts_eq_wanted hjoin
        have hthere : names.stored (names.migrated fold values (names.wanted fold values)) ≠ [] := by
          rw [hspelled hexact]
          exact hsome
        rw [upgrade_stored hthere, hspelled hexact, Prod.mk.injEq, hsame]
        constructor
        · rintro ⟨⟨hlast, _⟩, _⟩
          exact .inr (.inl ⟨hexact, fun hnil => hjoin (by rw [hnil]; rfl), hlast⟩)
        · rintro (hports | ⟨_, _, hlast⟩ | hdefault)
          · exact absurd hstored hports
          · exact ⟨⟨hlast, rfl⟩, fun pair hpair hsplit => absurd (hlost pair hpair) hsplit⟩
          · exact absurd (hdefault.wanted ▸ hdefault.exact hexact) hjoin
    · rw [migrated_again_iff hd (hunspelled hexact)]
      constructor
      · rintro ⟨⟨h4, h6, hwanted⟩, hkept⟩
        refine .inr (.inr ⟨h4, h6, hwanted, fun h => absurd h hexact, fun pair hpair _ hsplit => ?_⟩)
        rw [← hwanted]
        exact (kept_iff hd h4 h6 hpair).mp (hkept pair hpair hsplit)
      · rintro (hports | ⟨h, _, _⟩ | hdefault)
        · exact absurd hstored hports
        · exact absurd h hexact
        · refine ⟨⟨hdefault.once4, hdefault.once6, hdefault.wanted⟩, fun pair hpair hsplit => ?_⟩
          have hother : pair.1 ≠ names.portsValueName := by
            intro heq
            exact hsplit (stored_eq_nil.mp hstored pair (List.mem_of_find?_eq_some hpair) heq)
          rw [kept_iff hd hdefault.once4 hdefault.once6 hpair, hdefault.wanted]
          exact hdefault.other pair hpair hother hsplit
  · have hup : names.upgrade fold values = _ := upgrade_stored hstored
    refine iff_of_true ⟨?_, fun _ _ _ _ _ => ?_⟩ (.inl hstored)
    · rw [hup, hup]
    · rw [hup]

end Upgrade

end PortNames

end P2PChat

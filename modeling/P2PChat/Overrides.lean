import P2PChat.Repository

namespace P2PChat

/-- A repository that agrees with the values that it returns for a key: just their names it has, and what it returns for
one of them is a value of this name. -/
def Repository.Lists {σ : Type} (repository : Repository σ) (keyName : AString) (state : σ)
    (values : List (AString × AString)) : Prop :=
  ∀ valueName, (repository.hasValue keyName valueName state = true ↔ valueName ∈ values.map Prod.fst) ∧
    (valueName ∈ values.map Prod.fst → ∀ defValue, ∃ value, (valueName, value) ∈ values ∧
      (repository (.settings (.getValue keyName valueName defValue)) state).1 = some (.settings (.string value)))

namespace Overrides

open OverridesMerge

variable {σ τ : Type} {M : Repository σ} {O : Repository τ} {keyName : AString} {s : Overrides σ τ}
  {overrides main ret : List (AString × AString)}

theorem getValues_merge (ho : (O.getValues keyName s.overrides).1 = some overrides)
    (hm : (M.getValues keyName s.main).1 = some main) :
    (getValues M O keyName s).1 = mergeValues overrides main := by
  simp [getValues, ho, hm]

theorem mem_overridden_names {name : AString} :
    name ∈ (overridden overrides main).map Prod.fst ↔ name ∈ overrides.map Prod.fst ∨ name ∈ main.map Prod.fst := by
  simp only [overridden, List.map_append, List.mem_append, List.mem_map, List.mem_filter, decide_eq_true_eq]
  constructor
  · rintro (h | ⟨pair, ⟨hmem, _⟩, hname⟩)
    · exact .inl h
    · exact .inr ⟨pair, hmem, hname⟩
  · rintro (h | ⟨pair, hmem, hname⟩)
    · exact .inl h
    · by_cases hover : ∃ a ∈ overrides, a.1 = name
      · exact .inl hover
      · refine .inr ⟨pair, ⟨hmem, ?_⟩, hname⟩
        rw [hname]
        exact hover

/-- The right listing agrees with the other queries, when those of the two repositories do. -/
theorem lists_overridden (ho : O.Lists keyName s.overrides overrides) (hm : M.Lists keyName s.main main)
    (hperm : ret.Perm (overridden overrides main)) : (repository M O).Lists keyName s ret := by
  have hhas : ∀ name, (repository M O).hasValue keyName name s =
      (O.hasValue keyName name s.overrides || M.hasValue keyName name s.main) := by
    intro name
    simp [Repository.hasValue, repository, hasValue, RepositoryAnswer.bool]
  intro name
  have hnames : name ∈ ret.map Prod.fst ↔ name ∈ overrides.map Prod.fst ∨ name ∈ main.map Prod.fst := by
    rw [(hperm.map Prod.fst).mem_iff, mem_overridden_names]
  rw [hnames, hhas, Bool.or_eq_true, (ho name).1, (hm name).1]
  refine ⟨Iff.rfl, fun hname defValue => ?_⟩
  show ∃ value, _ ∧ (choose M O (O.hasValue keyName name s.overrides) _ s).1 = _
  by_cases hover : name ∈ overrides.map Prod.fst
  · obtain ⟨value, hmem, hget⟩ := (ho name).2 hover defValue
    refine ⟨value, hperm.mem_iff.mpr (List.mem_append_left _ hmem), ?_⟩
    rw [(ho name).1.mpr hover]
    exact hget
  · obtain ⟨value, hmem, hget⟩ := (hm name).2 (hname.resolve_left hover) defValue
    have hkept : (name, value) ∈ overridden overrides main :=
      List.mem_append_right _ (List.mem_filter.mpr ⟨hmem, by simpa using hover⟩)
    refine ⟨value, hperm.mem_iff.mpr hkept, ?_⟩
    have hnone : O.hasValue keyName name s.overrides = false :=
      Bool.eq_false_iff.mpr fun h => hover ((ho name).1.mp h)
    rw [hnone]
    exact hget

/-- Whatever the two repositories return for a key, the merged values are the right ones only without overrides or by
a coincidence; where they are right they agree with the other queries, if those of the two do. -/
theorem getValues_right_iff (ho : (O.getValues keyName s.overrides).1 = some overrides)
    (hm : (M.getValues keyName s.main).1 = some main) :
    ((∃ ret, (getValues M O keyName s).1 = some ret ∧ ret.Perm (overridden overrides main)) ↔
        overrides = [] ∨ Coincides overrides main) ∧
      ∀ ret, (getValues M O keyName s).1 = some ret → ret.Perm (overridden overrides main) →
        O.Lists keyName s.overrides overrides → M.Lists keyName s.main main →
          (repository M O).Lists keyName s ret := by
  rw [getValues_merge ho hm]
  exact ⟨mergeValues_right_iff overrides main, fun ret _ hperm ho hm => lists_overridden ho hm hperm⟩

/-- The index of the merge stays below the number of overrides, whatever the two repositories return, if and only if
there are none or one of their names stands at or after every main name. -/
theorem getValues_inside_iff (ho : (O.getValues keyName s.overrides).1 = some overrides)
    (hm : (M.getValues keyName s.main).1 = some main) :
    (getValues M O keyName s).1.isSome = true ↔ overrides = [] ∨ ∀ m ∈ main, ∃ o ∈ overrides, m.1 ≤ o.1 := by
  rw [getValues_merge ho hm, mergeValues_isSome]

section CommandLine

/-- A file with these values of the key `Server`, behind overrides that a command line gave for it. -/
def commandLine (values overrides : List (AString × AString)) : Overrides IniFile MemorySettings where
  main := values.foldl (fun ini v => ini.addValue [0x53] v.1 v.2) IniFile.create
  overrides := (overrides.foldl (fun settings v => MemorySettings.addValue .front [0x53] v.1 (.string v.2) settings)
    MemorySettings.create).setReadOnly

theorem commandLine_overrides :
    ((MemorySettings.repository .front).getValues [0x53]
      (commandLine [([0x50], [0x31])] [([0x50], [0x32])]).overrides).1 = some [([0x50], [0x32])] := by
  decide

theorem commandLine_main :
    ((IniFile.repository true).getValues [0x53] (commandLine [([0x50], [0x31])] [([0x50], [0x32])]).main).1 =
      some [([0x50], [0x31])] := by
  decide

/-- A value that both have. -/
theorem commandLine_right_iff :
    ((∃ ret, (getValues (IniFile.repository true) (MemorySettings.repository .front) [0x53]
          (commandLine [([0x50], [0x31])] [([0x50], [0x32])])).1 = some ret ∧
        ret.Perm (overridden [([0x50], [0x32])] [([0x50], [0x31])])) ↔
      [([0x50], [0x32])] = ([] : List (AString × AString)) ∨
        Coincides [(([0x50], [0x32]) : AString × AString)] [([0x50], [0x31])]) ∧
    ∀ ret, (getValues (IniFile.repository true) (MemorySettings.repository .front) [0x53]
        (commandLine [([0x50], [0x31])] [([0x50], [0x32])])).1 = some ret →
      ret.Perm (overridden [([0x50], [0x32])] [([0x50], [0x31])]) →
      (MemorySettings.repository .front).Lists [0x53] (commandLine [([0x50], [0x31])] [([0x50], [0x32])]).overrides
        [([0x50], [0x32])] →
      (IniFile.repository true).Lists [0x53] (commandLine [([0x50], [0x31])] [([0x50], [0x32])]).main
        [([0x50], [0x31])] →
      (repository (IniFile.repository true) (MemorySettings.repository .front)).Lists [0x53]
        (commandLine [([0x50], [0x31])] [([0x50], [0x32])]) ret :=
  getValues_right_iff commandLine_overrides commandLine_main

theorem commandLine_inside_iff :
    (getValues (IniFile.repository true) (MemorySettings.repository .front) [0x53]
        (commandLine [([0x50], [0x31])] [([0x50], [0x32])])).1.isSome = true ↔
      [([0x50], [0x32])] = ([] : List (AString × AString)) ∨
        ∀ m ∈ [(([0x50], [0x31]) : AString × AString)], ∃ o ∈ [(([0x50], [0x32]) : AString × AString)], m.1 ≤ o.1 :=
  getValues_inside_iff commandLine_overrides commandLine_main

/-- An override of a value that the file does not have is lost. -/
theorem getValues_loses_override :
    ¬∀ (M : Repository IniFile) (O : Repository MemorySettings) keyName s overrides main,
      (O.getValues keyName s.overrides).1 = some overrides → (M.getValues keyName s.main).1 = some main →
        ∃ ret, (getValues M O keyName s).1 = some ret ∧ ret.Perm (overridden overrides main) := by
  intro h
  have ho : ((MemorySettings.repository .front).getValues [0x53] (commandLine [] [([0x50], [0x32])]).overrides).1 =
      some [([0x50], [0x32])] := by decide
  have hm : ((IniFile.repository true).getValues [0x53] (commandLine [] [([0x50], [0x32])]).main).1 = some [] := by
    decide
  have hright := h _ _ _ _ _ _ ho hm
  rw [getValues_merge ho hm, mergeValues_right_iff] at hright
  rcases hright with hnone | ⟨last, _, hleaks⟩
  · cases hnone
  · exact List.not_mem_nil ((hleaks last).mpr rfl).1

/-- The index goes past the one override that there is. -/
theorem getValues_reads_past :
    ¬∀ (M : Repository IniFile) (O : Repository MemorySettings) keyName s overrides main,
      (O.getValues keyName s.overrides).1 = some overrides → (M.getValues keyName s.main).1 = some main →
        (getValues M O keyName s).1.isSome = true := by
  intro h
  have ho : ((MemorySettings.repository .front).getValues [0x53]
      (commandLine [([0x51], [0x31])] [([0x50], [0x32])]).overrides).1 = some [([0x50], [0x32])] := by decide
  have hm : ((IniFile.repository true).getValues [0x53] (commandLine [([0x51], [0x31])] [([0x50], [0x32])]).main).1 =
      some [([0x51], [0x31])] := by decide
  have hsome := h _ _ _ _ _ _ ho hm
  rw [getValues_merge ho hm, mergeValues_isSome] at hsome
  revert hsome
  decide

end CommandLine

end Overrides

end P2PChat

import P2PChat.SharedQueue

namespace P2PChat

namespace SharedQueue

section Ledger

variable {ι α : Type} {s s' : SharedQueue ι α} {funcs : QueueFuncs α}

/-- Whatever has been put into the queue, wherever it is now. -/
def everything (s : SharedQueue ι α) : List (Numbered α) :=
  s.returned ++ s.removed ++ s.deleted ++ s.contents

/-- Each number is in one place, once; what is returned and what is still in the queue are in the order in
which they were put into it; and an item is what was put in under its number, with what was combined into it. -/
structure Conserved (funcs : QueueFuncs α) (s : SharedQueue ι α) : Prop where
  once : (s.everything.map Numbered.number).Perm (List.range s.enqueued.length)
  ordered : ((s.returned ++ s.contents).map Numbered.number).Pairwise (· < ·)
  items : ∀ numbered ∈ s.everything, ∃ (item : α) (merged : List α),
    s.enqueued[numbered.number]? = some item ∧ numbered.item = merged.foldl funcs.combine item

theorem create_conserved : (create : SharedQueue ι α).Conserved funcs where
  once := .refl _
  ordered := .nil
  items _ h := nomatch h

/-- What was put into the queue stays the same, and goes to another place at most. -/
theorem Conserved.rearranged (hs : s.Conserved funcs) (henqueued : s'.enqueued = s.enqueued)
    (hperm : s'.everything.Perm s.everything)
    (hsub : (s'.returned ++ s'.contents).Sublist (s.returned ++ s.contents)) : s'.Conserved funcs where
  once := by
    rw [henqueued]
    exact (hperm.map _).trans hs.once
  ordered := hs.ordered.sublist (hsub.map _)
  items numbered hmem := by
    rw [henqueued]
    exact hs.items numbered (hperm.mem_iff.mp hmem)

theorem Conserved.number_lt (hs : s.Conserved funcs) {numbered : Numbered α} (hmem : numbered ∈ s.everything) :
    numbered.number < s.enqueued.length :=
  List.mem_range.mp (hs.once.mem_iff.mp (List.mem_map_of_mem hmem))

theorem everything_pushBack (item : α) :
    (s.pushBack item).everything = s.everything ++ [⟨s.enqueued.length, item⟩] :=
  (List.append_assoc _ _ _).symm

theorem Conserved.pushBack (hs : s.Conserved funcs) (item : α) : (s.pushBack item).Conserved funcs where
  once := by
    rw [everything_pushBack, List.map_append]
    change List.Perm _ (List.range (s.enqueued ++ [item]).length)
    rw [List.length_append, List.length_singleton, List.range_succ]
    exact hs.once.append_right _
  ordered := by
    change (List.map Numbered.number (s.returned ++ (s.contents ++ [⟨s.enqueued.length, item⟩]))).Pairwise _
    rw [← List.append_assoc, List.map_append]
    refine List.pairwise_append.mpr ⟨hs.ordered, List.pairwise_singleton _ _, fun a ha b hb => ?_⟩
    obtain ⟨numbered, hmem, rfl⟩ := List.mem_map.mp ha
    rw [List.mem_singleton.mp hb]
    apply hs.number_lt
    obtain hreturned | hcontents := List.mem_append.mp hmem
    · simp only [everything, List.mem_append]
      exact .inl (.inl (.inl hreturned))
    · exact List.mem_append_right _ hcontents
  items numbered hmem := by
    change ∃ (item' : α) (merged : List α), (s.enqueued ++ [item])[numbered.number]? = some item' ∧ _
    rw [everything_pushBack] at hmem
    obtain hold | hnew := List.mem_append.mp hmem
    · obtain ⟨item', merged, hitem, hmerged⟩ := hs.items numbered hold
      exact ⟨item', merged, by rw [List.getElem?_append_left (hs.number_lt hold), hitem], hmerged⟩
    · rw [List.mem_singleton.mp hnew]
      exact ⟨item, [], List.getElem?_concat_length, rfl⟩

theorem head_tail (contents : List (Numbered α)) : contents.head?.toList ++ contents.tail = contents := by
  cases contents with
  | nil => rfl
  | cons front rest => rfl

theorem Conserved.popFront (hs : s.Conserved funcs) : s.popFront.Conserved funcs := by
  refine hs.rearranged rfl ?_ ?_
  · change (s.returned ++ s.contents.head?.toList ++ s.removed ++ s.deleted ++ s.contents.tail).Perm
      (s.returned ++ s.removed ++ s.deleted ++ s.contents)
    nth_rewrite 3 [← head_tail s.contents]
    simp only [List.append_assoc]
    refine .append_left _ ?_
    exact (List.perm_append_comm_assoc _ _ _).trans (.append_left _ (List.perm_append_comm_assoc _ _ _))
  · change (s.returned ++ s.contents.head?.toList ++ s.contents.tail).Sublist _
    rw [List.append_assoc, head_tail]

theorem eraseIdx_perm (contents : List (Numbered α)) (i : Nat) :
    (contents[i]?.toList ++ contents.eraseIdx i).Perm contents := by
  induction contents generalizing i with
  | nil => exact .refl _
  | cons numbered rest ih =>
    cases i with
    | zero => exact .refl _
    | succ i =>
      exact (List.perm_append_comm_assoc _ [numbered] _).trans (.cons numbered (ih i))

theorem Conserved.erase (hs : s.Conserved funcs) (i : Nat) : (s.erase i).Conserved funcs := by
  refine hs.rearranged rfl ?_ (.append_left (List.eraseIdx_sublist _ _) _)
  change (s.returned ++ (s.removed ++ s.contents[i]?.toList) ++ s.deleted ++ s.contents.eraseIdx i).Perm
    (s.returned ++ s.removed ++ s.deleted ++ s.contents)
  simp only [List.append_assoc]
  refine .append_left _ (.append_left _ ?_)
  exact (List.perm_append_comm_assoc _ _ _).trans (.append_left _ (eraseIdx_perm _ _))

theorem Conserved.deleteAll (hs : s.Conserved funcs) : s.deleteAll.Conserved funcs := by
  refine hs.rearranged rfl ?_ (.append_left (List.nil_sublist _) _)
  change (s.returned ++ s.removed ++ (s.deleted ++ s.contents) ++ []).Perm _
  rw [List.append_nil, ← List.append_assoc]
  exact .refl _

theorem modify_numbers {f : Numbered α → Numbered α} (hf : ∀ numbered, (f numbered).number = numbered.number)
    (contents : List (Numbered α)) (i : Nat) :
    (contents.modify i f).map Numbered.number = contents.map Numbered.number := by
  induction contents generalizing i with
  | nil => cases i <;> rfl
  | cons numbered rest ih =>
    cases i with
    | zero => simp [hf]
    | succ i => simp [ih]

theorem mem_modify {f : Numbered α → Numbered α} {contents : List (Numbered α)} {i : Nat} {numbered : Numbered α}
    (h : numbered ∈ contents.modify i f) : numbered ∈ contents ∨ ∃ old ∈ contents, numbered = f old := by
  induction contents generalizing i with
  | nil => cases i <;> exact .inl h
  | cons front rest ih =>
    cases i with
    | zero =>
      rw [List.modify_zero_cons] at h
      obtain rfl | hrest := List.mem_cons.mp h
      · exact .inr ⟨front, List.mem_cons_self, rfl⟩
      · exact .inl (List.mem_cons_of_mem _ hrest)
    | succ i =>
      rw [List.modify_succ_cons] at h
      obtain rfl | hrest := List.mem_cons.mp h
      · exact .inl List.mem_cons_self
      · obtain hold | ⟨old, hold, heq⟩ := ih hrest
        · exact .inl (List.mem_cons_of_mem _ hold)
        · exact .inr ⟨old, List.mem_cons_of_mem _ hold, heq⟩

theorem combineAt_numbers (i : Nat) (item : α) :
    (s.combineAt funcs i item).contents.map Numbered.number = s.contents.map Numbered.number :=
  modify_numbers (f := fun numbered => { numbered with item := funcs.combine numbered.item item }) (fun _ => rfl) _ _

theorem Conserved.combineAt (hs : s.Conserved funcs) (i : Nat) (item : α) :
    (s.combineAt funcs i item).Conserved funcs where
  once := by
    change (List.map Numbered.number
      (s.returned ++ s.removed ++ s.deleted ++ (s.combineAt funcs i item).contents)).Perm _
    rw [List.map_append, combineAt_numbers, ← List.map_append]
    exact hs.once
  ordered := by
    change (List.map Numbered.number (s.returned ++ (s.combineAt funcs i item).contents)).Pairwise _
    rw [List.map_append, combineAt_numbers, ← List.map_append]
    exact hs.ordered
  items numbered hmem := by
    obtain helsewhere | hcontents := List.mem_append.mp hmem
    · exact hs.items numbered (List.mem_append_left _ helsewhere)
    · obtain hold | ⟨old, hold, rfl⟩ := mem_modify hcontents
      · exact hs.items numbered (List.mem_append_right _ hold)
      · obtain ⟨item', merged, hitem, hmerged⟩ := hs.items old (List.mem_append_right _ hold)
        refine ⟨item', merged ++ [item], hitem, ?_⟩
        rw [List.foldl_append, ← hmerged]
        rfl

theorem popFront_length (hfull : s.contents.isEmpty = false) :
    s.popFront.contents.length + 1 = s.contents.length := by
  cases hcontents : s.contents with
  | nil =>
    rw [hcontents] at hfull
    cases hfull
  | cons front rest =>
    simp only [popFront, hcontents, List.tail_cons, List.length_cons]

theorem erase_length {i : Nat} (hi : i < s.contents.length) :
    (s.erase i).contents.length + 1 = s.contents.length := by
  simp only [erase, List.length_eraseIdx, if_pos hi]
  omega

theorem findEqual_lt {item : α} {i : Nat} (h : s.findEqual funcs item = some i) : i < s.contents.length :=
  (List.findIdx?_eq_some_iff_getElem.mp h).1

end Ledger

section Steps

variable {ι α : Type} [DecidableEq ι] {s s' : SharedQueue ι α} {funcs : QueueFuncs α} {t : ι}

theorem Conserved.moveTo (hs : s.Conserved funcs) (point : QueuePoint α) : (s.moveTo t point).Conserved funcs :=
  hs.rearranged rfl (.refl _) (.refl _)

theorem Conserved.run (hs : s.Conserved funcs) (op : QueueOp α) : (s.run funcs t op).Conserved funcs := by
  unfold SharedQueue.run
  split
  next item => exact (hs.pushBack item).moveTo _
  next item =>
    split
    next i _ => exact (hs.combineAt i item).moveTo _
    next => exact (hs.pushBack item).moveTo _
  next =>
    split
    next => exact hs.moveTo _
    next => exact hs.popFront.moveTo _
  next =>
    split
    next => exact hs.moveTo _
    next => exact hs.popFront.moveTo _
  next =>
    split
    next => exact hs.moveTo _
    next => exact hs.moveTo _
  next => exact hs.deleteAll.moveTo _
  next item =>
    split
    next i _ => exact (hs.erase i).moveTo _
    next => exact hs.moveTo _
  next => exact hs.moveTo _

theorem Conserved.scan (hs : s.Conserved funcs) (predicate : α → Bool) (i : Nat) :
    (s.scan t predicate i).Conserved funcs := by
  unfold SharedQueue.scan
  split
  next => exact hs.moveTo _
  next =>
    split
    next => exact (hs.erase i).moveTo _
    next => exact hs.moveTo _

theorem Conserved.go (hs : s.Conserved funcs) (h : s.go funcs t = some s') : s'.Conserved funcs := by
  unfold SharedQueue.go at h
  split at h
  next => cases h
  next =>
    split at h
    next =>
      cases h
      exact hs.rearranged rfl (.refl _) (.refl _)
    next => cases h
  next op _ =>
    cases h
    exact hs.run op
  next predicate i _ =>
    cases h
    exact hs.scan predicate i
  next =>
    cases h
    exact hs.rearranged rfl (.refl _) (.refl _)
  next => cases h
  next =>
    cases h
    exact hs.rearranged rfl (.refl _) (.refl _)
  next =>
    cases h
    exact hs.rearranged rfl (.refl _) (.refl _)
  next =>
    split at h
    next =>
      cases h
      exact hs.rearranged rfl (.refl _) (.refl _)
    next =>
      cases h
      exact hs.moveTo _
  next => cases h
  next =>
    split at h
    next =>
      cases h
      exact hs.rearranged rfl (.refl _) (.refl _)
    next => cases h

variable [Fintype ι]

theorem Conserved.notify (hs : s.Conserved funcs) {woken : Option ι} (h : s.notify t woken = some s') :
    s'.Conserved funcs := by
  unfold SharedQueue.notify at h
  split at h
  next =>
    split at h
    next =>
      split at h
      next =>
        cases h
        exact (hs.moveTo _).moveTo _
      next => cases h
    next =>
      split at h
      next =>
        cases h
        exact hs.moveTo _
      next => cases h
  next => cases h

theorem Conserved.step (hs : s.Conserved funcs) {a : SharedAct ι α} (h : s.step funcs a = some s') :
    s'.Conserved funcs := by
  cases a with
  | call t op =>
    simp only [SharedQueue.step] at h
    split at h
    next =>
      cases h
      exact hs.moveTo _
    next => cases h
  | go t => exact hs.go h
  | notify t woken => exact hs.notify h
  | spurious t =>
    simp only [SharedQueue.step] at h
    split at h
    next =>
      cases h
      exact hs.moveTo _
    next => cases h

theorem machine_step {a : SharedAct ι α} :
    (sharedQueueMachine ι funcs).step s a = .ok s' ↔ s.step funcs a = some s' := by
  simp only [sharedQueueMachine]
  cases s.step funcs a with
  | none => exact ⟨nofun, nofun⟩
  | some u => simp

theorem reach_conserved {allowed : SharedQueue ι α → SharedAct ι α → Prop}
    (h : (sharedQueueMachine ι funcs).Reach allowed create s) : s.Conserved funcs :=
  h.invariant create_conserved fun _ _ _ _ hs _ _ hstep => hs.step (machine_step.mp hstep)

end Steps

end SharedQueue

end P2PChat

import P2PChat.SharedContents

namespace P2PChat

namespace QueuePoint

variable {α : Type}

/-- The thread has seen that it has to wait for the event, and the event has not released it. -/
def registered (e : QueueEvent) (point : QueuePoint α) : Bool :=
  match point with
  | .release e' | .wait e' | .sleep e' => e' == e
  | _ => false

/-- The thread is in `DequeueItem` and comes to look whether there is an item. -/
def looks (point : QueuePoint α) : Bool :=
  match point with
  | .relock .added | .run .dequeueItem => true
  | _ => false

/-- The thread comes to set the event. -/
def sets (e : QueueEvent) (point : QueuePoint α) : Bool :=
  match point with
  | .set e' _ => e' == e
  | _ => false

end QueuePoint

namespace SharedQueue

variable {ι α : Type} [Fintype ι]

def registered (e : QueueEvent) (s : SharedQueue ι α) : Nat := Tally.count (QueuePoint.registered e) s.points

def looks (s : SharedQueue ι α) : Nat := Tally.count QueuePoint.looks s.points

def sets (e : QueueEvent) (s : SharedQueue ι α) : Nat := Tally.count (QueuePoint.sets e) s.points

def isSet (e : QueueEvent) (s : SharedQueue ι α) : Bool := (s.evt e).shouldContinue

omit [Fintype ι] in
theorem setEvent_isSet {s : SharedQueue ι α} {e : QueueEvent} {event : CEvent} :
    (s.setEvent e event).isSet e = event.shouldContinue := by
  change (Function.update s.evt e event e).shouldContinue = _
  rw [Function.update_self]

omit [Fintype ι] in
theorem setEvent_isSet_ne {s : SharedQueue ι α} {e e' : QueueEvent} {event : CEvent} (hne : e' ≠ e) :
    (s.setEvent e event).isSet e' = s.isSet e' := by
  change (Function.update s.evt e event e').shouldContinue = _
  rw [Function.update_of_ne hne]
  rfl

/-- Nobody waits for an item in vain: at most as many threads as the event releases, or for every item there
is a thread that comes to look, or that the event releases, or a `Set` to come. And when the queue is empty,
the event and the `Set`s to come release all who wait for that. -/
structure Signalled (s : SharedQueue ι α) : Prop where
  added : s.registered .added ≤ (s.isSet .added).toNat ∨
    s.contents.length ≤ (s.isSet .added).toNat + s.looks + s.sets .added
  removed : s.contents.length = 0 → s.registered .removed ≤ (s.isSet .removed).toNat + s.sets .removed

/-- The step from this point takes an item out of the queue, and is not that of `Clear`. -/
def takes (funcs : QueueFuncs α) (point : QueuePoint α) (s : SharedQueue ι α) : Bool :=
  match point with
  | .run .tryDequeueItem | .run .dequeueItem => !s.contents.isEmpty
  | .run (.remove item) => (s.findEqual funcs item).isSome
  | .scan predicate i => (s.contents[i]?).any fun numbered => predicate numbered.item
  | _ => false

/-- A `Set` of `m_evtAdded` is not lost on an event that is set already while two threads wait and there are
items for both; nor one of `m_evtRemoved` while two threads wait and the queue is empty. The last item is taken
out while at most one thread waits for that that `m_evtRemoved` does not release already, and `Clear` takes
items out while there is none. -/
def calmAt (funcs : QueueFuncs α) (point : QueuePoint α) (s : SharedQueue ι α) : Bool :=
  match point with
  | .set .added _ => decide (s.isSet .added = true →
      s.registered .added ≤ 1 ∨ s.contents.length < 1 + s.looks + s.sets .added)
  | .set .removed _ => decide (s.isSet .removed = true → s.contents.length = 0 → s.registered .removed ≤ 1)
  | .run .clear => decide (s.contents.length ≠ 0 → s.registered .removed ≤ (s.isSet .removed).toNat)
  | point => decide (s.takes funcs point = true → s.contents.length = 1 →
      s.registered .removed ≤ (s.isSet .removed).toNat + 1)

def calm (funcs : QueueFuncs α) (s : SharedQueue ι α) (a : SharedAct ι α) : Bool :=
  match a with
  | .go t => s.calmAt funcs (s.points t)
  | _ => true

/-- What a thread that waits for the event waits for. -/
def ready (e : QueueEvent) (s : SharedQueue ι α) : Prop :=
  match e with
  | .added => s.contents ≠ []
  | .removed => s.contents = []

/-- A thread waits for what is there, the event is not set, and nobody goes on: who is not outside waits, too. -/
structure Lost (e : QueueEvent) (s : SharedQueue ι α) : Prop where
  waiting : ∃ t, (s.points t).waits e = true
  still : ∀ t, (s.points t).isOutside = true ∨ ∃ e', (s.points t).waits e' = true
  unset : s.isSet e = false
  ready : s.ready e

section Steps

variable [DecidableEq ι] {s s' : SharedQueue ι α} {funcs : QueueFuncs α} {t : ι} {old point : QueuePoint α}

/-- How many threads are where, after one of them has gone on. -/
theorem counts_update {u : SharedQueue ι α} (hat : s.points t = old)
    (hpoints : u.points = Function.update s.points t point) :
    (∀ e, u.registered e + (old.registered e).toNat = s.registered e + (point.registered e).toNat) ∧
      u.looks + old.looks.toNat = s.looks + point.looks.toNat ∧
      ∀ e, u.sets e + (old.sets e).toNat = s.sets e + (point.sets e).toNat := by
  simp only [registered, looks, sets, hpoints, ← hat]
  exact ⟨fun _ => Tally.count_update _ _ _ _, Tally.count_update _ _ _ _,
    fun _ => Tally.count_update _ _ _ _⟩

/-- A step that neither puts items into the queue nor takes them out, and touches no event. -/
theorem Signalled.kept (hs : s.Signalled) (hat : s.points t = old)
    (hpoints : s'.points = Function.update s.points t point)
    (hlength : s'.contents.length = s.contents.length) (hevt : s'.evt = s.evt)
    (hregistered : ∀ e, point.registered e = old.registered e)
    (hlooks : old.looks = true → point.looks = true) (hsets : ∀ e, point.sets e = old.sets e) :
    s'.Signalled := by
  obtain ⟨hr, hl, hset⟩ := counts_update hat hpoints
  have hle : old.looks.toNat ≤ point.looks.toNat := Bool.toNat_le_toNat hlooks
  have hisSet : ∀ e, s'.isSet e = s.isSet e := fun e => by rw [isSet, hevt]; rfl
  have hr' : ∀ e, s'.registered e = s.registered e := fun e => by
    have h := hr e
    rw [hregistered e] at h
    omega
  have hset' : ∀ e, s'.sets e = s.sets e := fun e => by
    have h := hset e
    rw [hsets e] at h
    omega
  constructor
  · rw [hr', hisSet, hset', hlength]
    obtain hfew | hmany := hs.added
    · exact .inl hfew
    · exact .inr (by omega)
  · rw [hr', hisSet, hset', hlength]
    exact hs.removed

/-- An item is put into the queue, and the event is to be set. -/
theorem Signalled.pushed (hs : s.Signalled) (hat : s.points t = old)
    (hpoints : s'.points = Function.update s.points t (.set .added none))
    (hlength : s'.contents.length = s.contents.length + 1) (hevt : s'.evt = s.evt)
    (hregistered : ∀ e, old.registered e = false) (hlooks : old.looks = false)
    (hsets : ∀ e, old.sets e = false) : s'.Signalled := by
  obtain ⟨hr, hl, hset⟩ := counts_update hat hpoints
  have hisSet : ∀ e, s'.isSet e = s.isSet e := fun e => by rw [isSet, hevt]; rfl
  have hradded := hr .added
  have hsetadded := hset .added
  rw [hregistered .added] at hradded
  rw [hsets .added] at hsetadded
  rw [hlooks] at hl
  change s'.registered .added + 0 = s.registered .added + 0 at hradded
  change s'.looks + 0 = s.looks + 0 at hl
  change s'.sets .added + 0 = s.sets .added + 1 at hsetadded
  constructor
  · rw [hisSet, hlength]
    obtain hfew | hmany := hs.added
    · exact .inl (by omega)
    · exact .inr (by omega)
  · intro hempty
    omega

/-- An item is taken out of the queue, and `m_evtRemoved` is to be set. -/
theorem Signalled.taken (hs : s.Signalled) {loop : Option ((α → Bool) × Nat)} (hat : s.points t = old)
    (hpoints : s'.points = Function.update s.points t (.set .removed loop))
    (hlength : s'.contents.length + 1 = s.contents.length) (hevt : s'.evt = s.evt)
    (hregistered : ∀ e, old.registered e = false) (hsets : ∀ e, old.sets e = false)
    (hlast : s.contents.length = 1 → s.registered .removed ≤ (s.isSet .removed).toNat + 1) :
    s'.Signalled := by
  obtain ⟨hr, hl, hset⟩ := counts_update hat hpoints
  have hisSet : ∀ e, s'.isSet e = s.isSet e := fun e => by rw [isSet, hevt]; rfl
  have hradded := hr .added
  have hrremoved := hr .removed
  have hsetadded := hset .added
  have hsetremoved := hset .removed
  rw [hregistered] at hradded hrremoved
  rw [hsets] at hsetadded hsetremoved
  change s'.registered .added + 0 = s.registered .added + 0 at hradded
  change s'.registered .removed + 0 = s.registered .removed + 0 at hrremoved
  change s'.looks + old.looks.toNat = s.looks + 0 at hl
  change s'.sets .added + 0 = s.sets .added + 0 at hsetadded
  change s'.sets .removed + 0 = s.sets .removed + 1 at hsetremoved
  have hone := Bool.toNat_le old.looks
  constructor
  · rw [hisSet]
    obtain hfew | hmany := hs.added
    · exact .inl (by omega)
    · exact .inr (by omega)
  · intro hempty
    have hlast := hlast (by omega)
    rw [hisSet]
    omega

/-- `Clear` sets no event. -/
theorem Signalled.cleared (hs : s.Signalled) (hat : s.points t = .run .clear)
    (hcalm : s.contents.length ≠ 0 → s.registered .removed ≤ (s.isSet .removed).toNat) :
    (s.deleteAll.moveTo t .unlock).Signalled := by
  let s' := s.deleteAll.moveTo t .unlock
  obtain ⟨hr, _, hset⟩ := counts_update (u := s') hat rfl
  have hrremoved : s'.registered .removed + 0 = s.registered .removed + 0 := hr .removed
  have hsetremoved : s'.sets .removed + 0 = s.sets .removed + 0 := hset .removed
  have hisSet : s'.isSet .removed = s.isSet .removed := rfl
  change s'.Signalled
  refine ⟨.inr (Nat.zero_le _), fun _ => ?_⟩
  rw [hisSet]
  by_cases hempty : s.contents.length = 0
  · have hremoved := hs.removed hempty
    omega
  · have hcalm := hcalm hempty
    omega

/-- A thread that has looked at the queue is going to wait. -/
theorem Signalled.released (hs : s.Signalled) {e : QueueEvent} (hat : s.points t = .run e.op)
    (hunready : e = .added ∧ s.contents.length = 0 ∨ e = .removed ∧ s.contents.length ≠ 0) :
    (s.moveTo t (.release e)).Signalled := by
  obtain ⟨hr, hl, hset⟩ := counts_update (u := s.moveTo t (.release e)) hat rfl
  obtain ⟨rfl, hempty⟩ | ⟨rfl, hfull⟩ := hunready
  · have hrremoved := hr .removed
    have hsetremoved := hset .removed
    change _ + 0 = _ + 0 at hrremoved
    change _ + 0 = _ + 0 at hsetremoved
    constructor
    · right
      change s.contents.length ≤ _
      omega
    · intro _
      have hremoved := hs.removed hempty
      change _ ≤ (s.isSet .removed).toNat + _
      omega
  · have hradded := hr .added
    have hsetadded := hset .added
    change _ + 0 = _ + 0 at hradded
    change _ + 0 = _ + 0 at hsetadded
    change _ + 0 = _ + 0 at hl
    constructor
    · change _ ≤ (s.isSet .added).toNat ∨ s.contents.length ≤ (s.isSet .added).toNat + _ + _
      have hadded := hs.added
      omega
    · intro hempty
      exact absurd hempty hfull

/-- A `Set` of an event that is set already releases nobody. -/
theorem Signalled.setAdded (hs : s.Signalled) {loop : Option ((α → Bool) × Nat)}
    (hat : s.points t = .set .added loop)
    (hcalm : s.isSet .added = true → s.registered .added ≤ 1 ∨ s.contents.length < 1 + s.looks + s.sets .added) :
    ((s.setEvent .added (s.evt .added).set).moveTo t (.notify .added loop)).Signalled := by
  let s' := (s.setEvent .added (s.evt .added).set).moveTo t (.notify .added loop)
  obtain ⟨hr, hl, hset⟩ := counts_update (u := s') hat rfl
  have hnow : s'.isSet .added = true := setEvent_isSet
  have hother : s'.isSet .removed = s.isSet .removed := setEvent_isSet_ne nofun
  have hradded : s'.registered .added + 0 = s.registered .added + 0 := hr .added
  have hrremoved : s'.registered .removed + 0 = s.registered .removed + 0 := hr .removed
  have hlooks : s'.looks + 0 = s.looks + 0 := hl
  have hsetadded : s'.sets .added + 1 = s.sets .added + 0 := hset .added
  have hsetremoved : s'.sets .removed + 0 = s.sets .removed + 0 := hset .removed
  have hlength : s'.contents.length = s.contents.length := rfl
  change s'.Signalled
  constructor
  · rw [hnow, Bool.toNat_true, hlength]
    cases hbefore : s.isSet .added with
    | true =>
      have hcalm := hcalm hbefore
      omega
    | false =>
      have hadded := hs.added
      rw [hbefore, Bool.toNat_false] at hadded
      omega
  · intro hempty
    have hremoved := hs.removed hempty
    rw [hother]
    omega

theorem Signalled.setRemoved (hs : s.Signalled) {loop : Option ((α → Bool) × Nat)}
    (hat : s.points t = .set .removed loop)
    (hcalm : s.isSet .removed = true → s.contents.length = 0 → s.registered .removed ≤ 1) :
    ((s.setEvent .removed (s.evt .removed).set).moveTo t (.notify .removed loop)).Signalled := by
  let s' := (s.setEvent .removed (s.evt .removed).set).moveTo t (.notify .removed loop)
  obtain ⟨hr, hl, hset⟩ := counts_update (u := s') hat rfl
  have hnow : s'.isSet .removed = true := setEvent_isSet
  have hother : s'.isSet .added = s.isSet .added := setEvent_isSet_ne nofun
  have hradded : s'.registered .added + 0 = s.registered .added + 0 := hr .added
  have hrremoved : s'.registered .removed + 0 = s.registered .removed + 0 := hr .removed
  have hlooks : s'.looks + 0 = s.looks + 0 := hl
  have hsetadded : s'.sets .added + 0 = s.sets .added + 0 := hset .added
  have hsetremoved : s'.sets .removed + 1 = s.sets .removed + 0 := hset .removed
  have hlength : s'.contents.length = s.contents.length := rfl
  change s'.Signalled
  constructor
  · rw [hother, hlength]
    have hadded := hs.added
    omega
  · intro hempty
    rw [hnow, Bool.toNat_true]
    cases hbefore : s.isSet .removed with
    | true =>
      have hcalm := hcalm hbefore hempty
      omega
    | false =>
      have hremoved := hs.removed hempty
      rw [hbefore, Bool.toNat_false] at hremoved
      omega

/-- The event releases a thread, which comes to look. -/
theorem Signalled.woken (hs : s.Signalled) {e : QueueEvent} {event : CEvent} (hat : s.points t = .wait e)
    (hevent : (s.evt e).wait = some event) : ((s.setEvent e event).moveTo t (.relock e)).Signalled := by
  let s' := (s.setEvent e event).moveTo t (.relock e)
  obtain ⟨hset, hunset⟩ := CEvent.wait_eq_some hevent
  obtain ⟨hr, hl, hsets⟩ := counts_update (u := s') hat rfl
  have hbefore : s.isSet e = true := hset
  have hnow : s'.isSet e = false := setEvent_isSet.trans hunset
  have hsetadded : s'.sets .added + 0 = s.sets .added + 0 := hsets .added
  have hsetremoved : s'.sets .removed + 0 = s.sets .removed + 0 := hsets .removed
  have hlength : s'.contents.length = s.contents.length := rfl
  have hadded := hs.added
  have hremoved := hs.removed
  change s'.Signalled
  cases e with
  | added =>
    have hother : s'.isSet .removed = s.isSet .removed := setEvent_isSet_ne nofun
    have hradded : s'.registered .added + 1 = s.registered .added + 0 := hr .added
    have hrremoved : s'.registered .removed + 0 = s.registered .removed + 0 := hr .removed
    have hlooks : s'.looks + 0 = s.looks + 1 := hl
    rw [hbefore, Bool.toNat_true] at hadded
    constructor
    · rw [hnow, Bool.toNat_false, hlength]
      omega
    · intro hempty
      have hremoved := hremoved hempty
      rw [hother]
      omega
  | removed =>
    have hother : s'.isSet .added = s.isSet .added := setEvent_isSet_ne nofun
    have hradded : s'.registered .added + 0 = s.registered .added + 0 := hr .added
    have hrremoved : s'.registered .removed + 1 = s.registered .removed + 0 := hr .removed
    have hlooks : s'.looks + 0 = s.looks + 0 := hl
    rw [hbefore, Bool.toNat_true] at hremoved
    constructor
    · rw [hother, hlength]
      omega
    · intro hempty
      have hremoved := hremoved hempty
      rw [hnow, Bool.toNat_false]
      omega

/-- The thread goes on, and the queue and the events stay as they are. -/
theorem Signalled.moveTo (hs : s.Signalled) (hat : s.points t = old)
    (hregistered : ∀ e, point.registered e = old.registered e)
    (hlooks : old.looks = true → point.looks = true) (hsets : ∀ e, point.sets e = old.sets e) :
    (s.moveTo t point).Signalled :=
  hs.kept hat rfl rfl rfl hregistered hlooks hsets

theorem Signalled.run (hs : s.Signalled) {op : QueueOp α} (hat : s.points t = .run op)
    (hcalm : s.calmAt funcs (.run op) = true) : (s.run funcs t op).Signalled := by
  cases op with
  | enqueueItem item =>
    change ((s.pushBack item).moveTo t (.set .added none)).Signalled
    exact hs.pushed hat rfl List.length_append rfl (fun _ => rfl) rfl fun _ => rfl
  | enqueueItemIfNotPresent item =>
    simp only [SharedQueue.run]
    split
    next i _ =>
      have hlength : ((s.combineAt funcs i item).moveTo t .unlock).contents.length = s.contents.length :=
        List.length_modify _ _ _
      exact hs.kept hat rfl hlength rfl (fun _ => rfl) nofun fun _ => rfl
    next => exact hs.pushed hat rfl List.length_append rfl (fun _ => rfl) rfl fun _ => rfl
  | tryDequeueItem =>
    simp only [SharedQueue.run]
    split
    next => exact hs.moveTo hat (fun _ => rfl) nofun fun _ => rfl
    next hfull =>
      have hfull := Bool.eq_false_iff.mpr hfull
      have htakes : s.takes funcs (.run .tryDequeueItem) = true := by rw [takes, hfull]; rfl
      exact hs.taken hat rfl (popFront_length hfull) rfl (fun _ => rfl) (fun _ => rfl)
        (of_decide_eq_true hcalm htakes)
  | dequeueItem =>
    simp only [SharedQueue.run]
    split
    next hempty =>
      have hempty := List.isEmpty_iff_length_eq_zero.mp hempty
      exact hs.released hat (.inl ⟨rfl, hempty⟩)
    next hfull =>
      have hfull := Bool.eq_false_iff.mpr hfull
      have htakes : s.takes funcs (.run .dequeueItem) = true := by rw [takes, hfull]; rfl
      exact hs.taken hat rfl (popFront_length hfull) rfl (fun _ => rfl) (fun _ => rfl)
        (of_decide_eq_true hcalm htakes)
  | blockTillEmpty =>
    simp only [SharedQueue.run]
    split
    next => exact hs.moveTo hat (fun _ => rfl) nofun fun _ => rfl
    next hfull =>
      have hfull : s.contents.length ≠ 0 := fun hzero => hfull (List.isEmpty_iff_length_eq_zero.mpr hzero)
      exact hs.released hat (.inr ⟨rfl, hfull⟩)
  | clear => exact hs.cleared hat (of_decide_eq_true hcalm)
  | remove item =>
    simp only [SharedQueue.run]
    split
    next i hfound =>
      have htakes : s.takes funcs (.run (.remove item)) = true := by rw [takes, hfound]; rfl
      exact hs.taken hat rfl (erase_length (findEqual_lt hfound)) rfl (fun _ => rfl) (fun _ => rfl)
        (of_decide_eq_true hcalm htakes)
    next => exact hs.moveTo hat (fun _ => rfl) nofun fun _ => rfl
  | removeIf predicate => exact hs.moveTo hat (fun _ => rfl) nofun fun _ => rfl

theorem Signalled.scan (hs : s.Signalled) {predicate : α → Bool} {i : Nat}
    (hat : s.points t = .scan predicate i) (hcalm : s.calmAt funcs (.scan predicate i) = true) :
    (s.scan t predicate i).Signalled := by
  unfold SharedQueue.scan
  split
  next => exact hs.moveTo hat (fun _ => rfl) nofun fun _ => rfl
  next numbered hstored =>
    split
    next hpass =>
      have htakes : s.takes funcs (.scan predicate i) = true := by rw [takes, hstored]; exact hpass
      have hi : i < s.contents.length := (List.getElem?_eq_some_iff.mp hstored).1
      exact hs.taken hat rfl (erase_length hi) rfl (fun _ => rfl) (fun _ => rfl)
        (of_decide_eq_true hcalm htakes)
    next => exact hs.moveTo hat (fun _ => rfl) nofun fun _ => rfl

theorem Signalled.go (hs : s.Signalled) (hcalm : s.calm funcs (.go t) = true) (h : s.go funcs t = some s') :
    s'.Signalled := by
  unfold SharedQueue.go at h
  change s.calmAt funcs (s.points t) = true at hcalm
  split at h
  next => cases h
  next hat =>
    split at h
    next =>
      cases h
      exact hs.kept hat rfl rfl rfl (fun _ => rfl) nofun fun _ => rfl
    next => cases h
  next op hat =>
    cases h
    rw [hat] at hcalm
    exact hs.run hat hcalm
  next predicate i hat =>
    cases h
    rw [hat] at hcalm
    exact hs.scan hat hcalm
  next e loop hat =>
    cases h
    rw [hat] at hcalm
    cases e with
    | added => exact hs.setAdded hat (of_decide_eq_true hcalm)
    | removed => exact hs.setRemoved hat (of_decide_eq_true hcalm)
  next => cases h
  next hat =>
    cases h
    exact hs.kept hat rfl rfl rfl (fun _ => rfl) nofun fun _ => rfl
  next e hat =>
    cases h
    exact hs.kept hat rfl rfl rfl (fun _ => rfl) nofun fun _ => rfl
  next e hat =>
    split at h
    next event hevent =>
      cases h
      exact hs.woken hat hevent
    next =>
      cases h
      exact hs.moveTo hat (fun _ => rfl) nofun fun _ => rfl
  next => cases h
  next e hat =>
    split at h
    next =>
      cases h
      refine hs.kept hat rfl rfl rfl (fun _ => rfl) (fun hlooks => ?_) fun _ => rfl
      cases e with
      | added => rfl
      | removed => cases hlooks
    next => cases h

theorem Signalled.afterSet (hs : s.Signalled) {e : QueueEvent} {loop : Option ((α → Bool) × Nat)}
    (hat : s.points t = .notify e loop) : (s.moveTo t (afterSet loop)).Signalled := by
  cases loop with
  | none => exact hs.moveTo hat (fun _ => rfl) nofun fun _ => rfl
  | some loop => exact hs.moveTo hat (fun _ => rfl) nofun fun _ => rfl

/-- A thread that sleeps may wake up at any time. -/
theorem Signalled.wakes (hs : s.Signalled) {e : QueueEvent} (hat : s.points t = .sleep e) :
    (s.moveTo t (.wait e)).Signalled :=
  hs.moveTo hat (fun _ => rfl) nofun fun _ => rfl

theorem sleeps_eq {e : QueueEvent} (h : point.sleeps e = true) : point = .sleep e := by
  cases point with
  | sleep e' => rw [beq_iff_eq.mp h]
  | _ => cases h

theorem Signalled.notify (hs : s.Signalled) {woken : Option ι} (h : s.notify t woken = some s') :
    s'.Signalled := by
  unfold SharedQueue.notify at h
  split at h
  next e loop hat =>
    split at h
    next t' =>
      split at h
      next hsleeps =>
        cases h
        have hsleep := sleeps_eq hsleeps
        have hne : t ≠ t' := by
          rintro rfl
          rw [hat] at hsleep
          cases hsleep
        exact (hs.wakes hsleep).afterSet ((Function.update_of_ne hne _ _).trans hat)
      next => cases h
    next =>
      split at h
      next =>
        cases h
        exact hs.afterSet hat
      next => cases h
  next => cases h

theorem Signalled.step (hs : s.Signalled) {a : SharedAct ι α} (hcalm : s.calm funcs a = true)
    (h : s.step funcs a = some s') : s'.Signalled := by
  cases a with
  | call t op =>
    simp only [SharedQueue.step] at h
    split at h
    next houtside =>
      cases h
      have hat : s.points t = .outside := by
        cases hpoint : s.points t <;> rw [hpoint] at houtside <;> first | rfl | cases houtside
      exact hs.moveTo hat (fun _ => rfl) (by rintro ⟨⟩) fun _ => rfl
    next => cases h
  | go t => exact hs.go hcalm h
  | notify t woken => exact hs.notify h
  | spurious t =>
    simp only [SharedQueue.step] at h
    split at h
    next e hat =>
      cases h
      exact hs.wakes hat
    next => cases h

omit [DecidableEq ι] in
theorem create_signalled : (create : SharedQueue ι α).Signalled where
  added := .inr (Nat.zero_le _)
  removed _ := by
    have hzero : (create : SharedQueue ι α).registered .removed = 0 := Tally.count_eq_zero fun _ => rfl
    omega

omit [DecidableEq ι] in
/-- Where nobody goes on, who waits for what is there has the event set. -/
theorem Signalled.not_lost (hs : s.Signalled) (e : QueueEvent) : ¬s.Lost e := by
  rintro ⟨⟨t, hwaits⟩, hstill, hunset, hready⟩
  have hregistered : 0 < s.registered e := by
    apply Tally.count_pos (i := t)
    cases hpoint : s.points t <;> rw [hpoint] at hwaits <;> first | exact hwaits | cases hwaits
  have hsets : ∀ e', s.sets e' = 0 := fun e' => Tally.count_eq_zero fun t => by
    obtain h | ⟨_, h⟩ := hstill t <;> cases hpoint : s.points t <;> rw [hpoint] at h <;>
      first | rfl | cases h
  have hlooks : s.looks = 0 := Tally.count_eq_zero fun t => by
    obtain h | ⟨_, h⟩ := hstill t <;> cases hpoint : s.points t <;> rw [hpoint] at h <;>
      first | rfl | cases h
  cases e with
  | added =>
    have hlength : s.contents.length ≠ 0 := fun hzero => hready (List.eq_nil_of_length_eq_zero hzero)
    have hadded := hs.added
    rw [hunset, hsets, hlooks] at hadded
    simp only [Bool.toNat_false] at hadded
    omega
  | removed =>
    have hremoved := hs.removed (congrArg List.length hready)
    rw [hunset, hsets] at hremoved
    simp only [Bool.toNat_false] at hremoved
    omega

theorem reach_signalled
    (h : (sharedQueueMachine ι funcs).Reach (fun s a => s.calm funcs a = true) create s) : s.Signalled :=
  h.invariant create_signalled fun _ _ _ _ hs _ hcalm hstep => hs.step hcalm (machine_step.mp hstep)

end Steps

end SharedQueue

end P2PChat

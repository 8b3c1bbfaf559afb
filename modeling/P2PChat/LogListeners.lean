import Mathlib.Data.List.Basic
import Mathlib.Data.List.Nodup
import Mathlib.Logic.Function.Basic
import P2PChat.TransitionSystem

namespace P2PChat

/-- A `cListener` by its address, which may be that of one that is deleted. -/
structure Listener where
  address : Nat
  serial : Nat
  deriving DecidableEq, Repr

/-- A `cAttachment` with its `m_listener`. No code reads the other fields. -/
structure Attachment where
  listener : Nat
  serial : Nat
  alive : Bool
  deriving DecidableEq, Repr

/-- `m_LogListeners`, where a pointer that was moved from is `none`, and the attachments by the order in which they
were constructed. The rest no code reads: the listeners that were attached, the attachment that each was last moved
to, and how many times it was detached. -/
structure Logger where
  logListeners : List (Option Listener)
  attachments : Nat → Attachment
  constructed : Nat
  attached : List Listener
  current : Nat → Nat
  detaches : Nat → Nat

/-- `erase` is given the end iterator. -/
inductive EraseHalt where
  | erasesEnd
  deriving DecidableEq, Repr

inductive LoggerEvent where
  | attach (address : Nat)
  | move (other : Nat)
  | destroy (attachment : Nat)
  deriving DecidableEq, Repr

/-- `std::remove_if` on unique pointers: what is kept moves to the front, and behind it stays what was there and was
not moved. The second part is the iterator that it returns. -/
def removeIf {α : Type} (p : Option α → Bool) (l : List (Option α)) : List (Option α) × Nat :=
  let kept := l.filter fun x => !p x
  (kept ++ (l.drop kept.length).map fun x => if p x then x else none, kept.length)

namespace Logger

def create : Logger where
  logListeners := []
  attachments _ := ⟨0, 0, false⟩
  constructed := 0
  attached := []
  current _ := 0
  detaches _ := 0

/-- An attachment is constructed, and is the one that its listener was last moved to. -/
def construct (attachment : Attachment) (s : Logger) : Logger :=
  { s with
    attachments := Function.update s.attachments s.constructed attachment
    constructed := s.constructed + 1
    current := Function.update s.current attachment.serial s.constructed }

/-- `AttachListener`; the attachment is constructed where its caller has it. -/
def attachListener (address : Nat) (s : Logger) : Logger :=
  construct ⟨address, s.attached.length, true⟩
    { s with
      logListeners := s.logListeners ++ [some ⟨address, s.attached.length⟩]
      attached := s.attached ++ [⟨address, s.attached.length⟩] }

def detachListener (address : Nat) (s : Logger) : Except EraseHalt Logger :=
  let (logListeners, last) := removeIf (fun x => x.map Listener.address == some address) s.logListeners
  if last = logListeners.length then .error .erasesEnd
  else .ok { s with logListeners := logListeners.eraseIdx last }

/-- The move constructor of an attachment. -/
def moveAttachment (other : Nat) (s : Logger) : Logger := s.construct { s.attachments other with alive := true }

/-- The destructor of an attachment. -/
def destroyAttachment (a : Nat) (s : Logger) : Except EraseHalt Logger := do
  let s ← s.detachListener (s.attachments a).listener
  let serial := (s.attachments a).serial
  .ok { s with
    attachments := Function.update s.attachments a { s.attachments a with alive := false }
    detaches := Function.update s.detaches serial (s.detaches serial + 1) }

/-- A listener that is attached is not at the address of one that the logger owns. -/
def enabled (s : Logger) : LoggerEvent → Bool
  | .attach address => s.logListeners.all fun x => x.map Listener.address != some address
  | .move other => other < s.constructed && (s.attachments other).alive
  | .destroy a => a < s.constructed && (s.attachments a).alive

def step (s : Logger) : LoggerEvent → Except EraseHalt Logger
  | .attach address => .ok (s.attachListener address)
  | .move other => .ok (s.moveAttachment other)
  | .destroy a => s.destroyAttachment a

/-- The attachment that the listener was last moved to is alive. -/
def holds (s : Logger) (serial : Nat) : Bool := (s.attachments (s.current serial)).alive

/-- The listeners that are held. -/
def held (s : Logger) : List Listener := s.attached.filter fun l => s.holds l.serial

/-- An attachment that is destroyed is the one that its listener was last moved to. One that is moved belongs to a
listener that is still held. -/
def proper (s : Logger) : LoggerEvent → Bool
  | .attach _ => true
  | .move other => s.holds (s.attachments other).serial
  | .destroy a => s.current (s.attachments a).serial == a

/-- The listeners are those that are held, and the others were detached once. -/
structure Exact (s : Logger) : Prop where
  listeners : s.logListeners = s.held.map some
  once : ∀ l ∈ s.attached, s.detaches l.serial = if s.holds l.serial then 0 else 1

end Logger

/-- The logger with what happens to its listeners. -/
def loggerMachine : Machine Logger LoggerEvent EraseHalt where
  enabled s e := s.enabled e = true
  step s e := s.step e

section Removal

variable {α : Type} {p : Option α → Bool} {l : List (Option α)}

theorem kept_length (p : Option α → Bool) (l : List (Option α)) :
    (l.filter fun x => !p x).length + l.countP p = l.length := by
  rw [List.countP_eq_length_filter, Nat.add_comm]
  exact (List.length_eq_length_filter_add p).symm

theorem removeIf_length (p : Option α → Bool) (l : List (Option α)) : (removeIf p l).1.length = l.length := by
  have hkept := kept_length p l
  rw [removeIf, List.length_append, List.length_map, List.length_drop]
  omega

/-- Where nothing is to be removed, the iterator is the end. -/
theorem removeIf_none (h : l.countP p = 0) : (removeIf p l).2 = (removeIf p l).1.length := by
  have hkept := kept_length p l
  rw [h] at hkept
  rw [removeIf_length]
  exact hkept

/-- Where one is to be removed, the iterator is that of the last place, which is left over. -/
theorem removeIf_one (h : l.countP p = 1) : (removeIf p l).2 ≠ (removeIf p l).1.length ∧
    (removeIf p l).1.eraseIdx (removeIf p l).2 = l.filter fun x => !p x := by
  have hkept := kept_length p l
  have hlast : (removeIf p l).2 = (l.filter fun x => !p x).length := rfl
  rw [h] at hkept
  constructor
  · rw [removeIf_length, hlast]
    omega
  · have hrest : ((l.drop (l.filter fun x => !p x).length).map fun x => if p x then x else none).length = 1 := by
      rw [List.length_map, List.length_drop]
      omega
    obtain ⟨x, hx⟩ := List.length_eq_one_iff.mp hrest
    rw [hlast, removeIf, hx, List.eraseIdx_append_of_length_le (Nat.le_refl _), Nat.sub_self]
    exact List.append_nil _

end Removal

namespace Logger

variable {s s' : Logger} {address : Nat}

/-- Where the listeners are that the logger owns. -/
def addresses (s : Logger) : List Nat := s.logListeners.filterMap fun x => x.map Listener.address

theorem countP_address (address : Nat) (s : Logger) :
    s.logListeners.countP (fun x => x.map Listener.address == some address) = s.addresses.count address := by
  rw [List.count, addresses, List.countP_filterMap]
  refine List.countP_congr fun x _ => ?_
  cases x with
  | none => simp
  | some l => simp

/-- The logger without the listener at this address. -/
def without (address : Nat) (s : Logger) : Logger :=
  { s with logListeners := s.logListeners.filter fun x => !(x.map Listener.address == some address) }

theorem detachListener_missing (h : address ∉ s.addresses) :
    s.detachListener address = .error .erasesEnd := by
  have hend := removeIf_none ((countP_address address s).trans (List.count_eq_zero.mpr h))
  exact if_pos hend

theorem detachListener_owned (hapart : s.addresses.Nodup) (h : address ∈ s.addresses) :
    s.detachListener address = .ok (s.without address) := by
  obtain ⟨hend, herase⟩ := removeIf_one
    ((countP_address address s).trans (List.count_eq_one_of_mem hapart h))
  rw [without, ← herase]
  exact if_neg hend

/-- What is so of every logger, whatever is destroyed. -/
structure Sound (s : Logger) : Prop where
  serials : s.attached.map Listener.serial = List.range s.attached.length
  belongs : ∀ a < s.constructed, ∃ l ∈ s.attached,
    l.serial = (s.attachments a).serial ∧ l.address = (s.attachments a).listener
  current : ∀ l ∈ s.attached, s.current l.serial < s.constructed ∧
    (s.attachments (s.current l.serial)).serial = l.serial
  apart : s.addresses.Nodup
  unused : ∀ serial, s.attached.length ≤ serial → s.detaches serial = 0

theorem Sound.serial_lt (h : s.Sound) {l : Listener} (hl : l ∈ s.attached) : l.serial < s.attached.length := by
  have hmem := List.mem_map_of_mem (f := Listener.serial) hl
  rw [h.serials] at hmem
  exact List.mem_range.mp hmem

theorem Sound.serial_inj (h : s.Sound) {l l' : Listener} (hl : l ∈ s.attached) (hl' : l' ∈ s.attached)
    (heq : l.serial = l'.serial) : l = l' := by
  refine List.inj_on_of_nodup_map ?_ hl hl' heq
  rw [h.serials]
  exact List.nodup_range

theorem create_sound : create.Sound where
  serials := rfl
  belongs _ h := absurd h (Nat.not_lt_zero _)
  current _ h := absurd h List.not_mem_nil
  apart := List.nodup_nil
  unused _ _ := rfl

theorem create_exact : create.Exact := ⟨rfl, fun _ h => absurd h List.not_mem_nil⟩

section Construction

variable {x : Attachment} {a serial : Nat}

theorem construct_new (x : Attachment) (s : Logger) : (s.construct x).attachments s.constructed = x :=
  Function.update_self _ _ _

theorem construct_old (ha : a < s.constructed) : (s.construct x).attachments a = s.attachments a :=
  Function.update_of_ne (Nat.ne_of_lt ha) _ _

theorem construct_current (x : Attachment) (s : Logger) : (s.construct x).current x.serial = s.constructed :=
  Function.update_self _ _ _

theorem construct_current_of_ne (h : serial ≠ x.serial) : (s.construct x).current serial = s.current serial :=
  Function.update_of_ne h _ _

theorem construct_holds (x : Attachment) (s : Logger) : (s.construct x).holds x.serial = x.alive := by
  rw [holds, construct_current, construct_new]

theorem construct_holds_of_ne (h : serial ≠ x.serial) (hcurrent : s.current serial < s.constructed) :
    (s.construct x).holds serial = s.holds serial := by
  rw [holds, construct_current_of_ne h, construct_old hcurrent, holds]

/-- The attachment belongs to a listener, and all others did before. -/
theorem construct_sound (hserials : s.attached.map Listener.serial = List.range s.attached.length)
    (hbelongs : ∀ a < s.constructed, ∃ l ∈ s.attached,
      l.serial = (s.attachments a).serial ∧ l.address = (s.attachments a).listener)
    (hnew : ∃ l ∈ s.attached, l.serial = x.serial ∧ l.address = x.listener)
    (hcurrent : ∀ l ∈ s.attached, l.serial ≠ x.serial → s.current l.serial < s.constructed ∧
      (s.attachments (s.current l.serial)).serial = l.serial)
    (hapart : s.addresses.Nodup) (hunused : ∀ serial, s.attached.length ≤ serial → s.detaches serial = 0) :
    (s.construct x).Sound where
  serials := hserials
  belongs a ha := by
    rcases Nat.lt_succ_iff_lt_or_eq.mp ha with hold | heq
    · rw [construct_old hold]
      exact hbelongs a hold
    · rw [heq, construct_new]
      exact hnew
  current l hl := by
    by_cases hsame : l.serial = x.serial
    · rw [hsame, construct_current, construct_new]
      exact ⟨Nat.lt_succ_self _, rfl⟩
    · obtain ⟨hlt, hserial⟩ := hcurrent l hl hsame
      rw [construct_current_of_ne hsame, construct_old hlt]
      exact ⟨Nat.lt_succ_of_lt hlt, hserial⟩
  apart := hapart
  unused := hunused

end Construction

theorem attachListener_addresses (address : Nat) (s : Logger) :
    (s.attachListener address).addresses = s.addresses ++ [address] := List.filterMap_append

theorem attachListener_sound (h : s.Sound) (he : s.enabled (.attach address) = true) :
    (s.attachListener address).Sound := by
  refine construct_sound ?_ ?_ ⟨_, List.mem_append_right _ List.mem_cons_self, rfl, rfl⟩ ?_ ?_ ?_
  · change (s.attached ++ [_]).map Listener.serial = List.range (s.attached ++ [_]).length
    rw [List.map_append, h.serials, List.length_append, List.length_singleton, List.range_succ]
    rfl
  · intro a ha
    obtain ⟨l, hl, hsame⟩ := h.belongs a ha
    exact ⟨l, List.mem_append_left _ hl, hsame⟩
  · intro l hl hne
    rcases List.mem_append.mp hl with hold | hnew
    · exact h.current l hold
    · exact absurd (by rw [List.mem_singleton.mp hnew]) hne
  · have hnew : address ∉ s.addresses := by
      intro hmem
      obtain ⟨x, hx, haddress⟩ := List.mem_filterMap.mp hmem
      have hfree := List.all_eq_true.mp he x hx
      rw [haddress] at hfree
      exact absurd hfree (by simp)
    change (s.attachListener address).addresses.Nodup
    rw [attachListener_addresses, ← List.concat_eq_append]
    exact h.apart.concat hnew
  · intro serial hlen
    change (s.attached ++ [_]).length ≤ serial at hlen
    rw [List.length_append, List.length_singleton] at hlen
    exact h.unused serial (Nat.le_of_succ_le hlen)

theorem moveAttachment_sound (h : s.Sound) {other : Nat} (hother : other < s.constructed) :
    (s.moveAttachment other).Sound :=
  construct_sound h.serials h.belongs (h.belongs other hother) (fun l hl _ => h.current l hl) h.apart
    h.unused

/-- What the destructor leaves, where the listener is found. -/
def destroyed (a : Nat) (s : Logger) : Logger :=
  { s.without (s.attachments a).listener with
    attachments := Function.update s.attachments a { s.attachments a with alive := false }
    detaches := Function.update s.detaches (s.attachments a).serial (s.detaches (s.attachments a).serial + 1) }

theorem destroyAttachment_owned (h : s.Sound) {a : Nat} (hmem : (s.attachments a).listener ∈ s.addresses) :
    s.destroyAttachment a = .ok (s.destroyed a) := by
  rw [destroyAttachment, detachListener_owned h.apart hmem]
  rfl

theorem destroyAttachment_ok (h : s.Sound) {a : Nat} (hok : s.destroyAttachment a = .ok s') :
    (s.attachments a).listener ∈ s.addresses ∧ s' = s.destroyed a := by
  by_cases hmem : (s.attachments a).listener ∈ s.addresses
  · exact ⟨hmem, (Except.ok.inj ((destroyAttachment_owned h hmem).symm.trans hok)).symm⟩
  · rw [destroyAttachment, detachListener_missing hmem] at hok
    cases hok

section Destruction

variable {a : Nat}

theorem destroyed_self (a : Nat) (s : Logger) :
    (s.destroyed a).attachments a = { s.attachments a with alive := false } := Function.update_self _ _ _

theorem destroyed_of_ne {b : Nat} (h : b ≠ a) : (s.destroyed a).attachments b = s.attachments b :=
  Function.update_of_ne h _ _

theorem destroyed_attachment (b : Nat) : ((s.destroyed a).attachments b).serial = (s.attachments b).serial ∧
    ((s.destroyed a).attachments b).listener = (s.attachments b).listener := by
  by_cases heq : b = a
  · rw [heq, destroyed_self]
    exact ⟨rfl, rfl⟩
  · rw [destroyed_of_ne heq]
    exact ⟨rfl, rfl⟩

theorem destroyed_holds (serial : Nat) :
    (s.destroyed a).holds serial = (s.holds serial && !(s.current serial == a)) := by
  have hcurrent : (s.destroyed a).current = s.current := rfl
  rw [holds, holds, hcurrent]
  by_cases heq : s.current serial = a
  · rw [heq, destroyed_self, beq_self_eq_true, Bool.not_true, Bool.and_false]
  · rw [destroyed_of_ne heq, beq_eq_false_iff_ne.mpr heq, Bool.not_false, Bool.and_true]

theorem destroyed_detaches (a : Nat) (s : Logger) : (s.destroyed a).detaches (s.attachments a).serial =
    s.detaches (s.attachments a).serial + 1 := Function.update_self _ _ _

theorem destroyed_detaches_of_ne {serial : Nat} (h : serial ≠ (s.attachments a).serial) :
    (s.destroyed a).detaches serial = s.detaches serial := Function.update_of_ne h _ _

theorem destroyed_sound (h : s.Sound) (ha : a < s.constructed) : (s.destroyed a).Sound where
  serials := h.serials
  belongs b hb := by
    obtain ⟨l, hl, hserial, haddress⟩ := h.belongs b hb
    obtain ⟨hserial', haddress'⟩ := @destroyed_attachment s a b
    exact ⟨l, hl, hserial.trans hserial'.symm, haddress.trans haddress'.symm⟩
  current l hl := by
    obtain ⟨hlt, hserial⟩ := h.current l hl
    exact ⟨hlt, (destroyed_attachment _).1.trans hserial⟩
  apart := h.apart.sublist (List.filter_sublist.filterMap _)
  unused serial hlen := by
    obtain ⟨l, hl, hserial, _⟩ := h.belongs a ha
    have hlt := h.serial_lt hl
    have hlen : s.attached.length ≤ serial := hlen
    rw [destroyed_detaches_of_ne (by omega)]
    exact h.unused serial hlen

end Destruction

theorem step_sound {e : LoggerEvent} (h : s.Sound) (he : s.enabled e = true) (hstep : s.step e = .ok s') :
    s'.Sound := by
  cases e with
  | attach address =>
    cases hstep
    exact attachListener_sound h he
  | move other =>
    cases hstep
    obtain ⟨hlt, _⟩ := Bool.and_eq_true_iff.mp he
    exact moveAttachment_sound h (of_decide_eq_true hlt)
  | destroy a =>
    obtain ⟨_, rfl⟩ := destroyAttachment_ok h hstep
    obtain ⟨hlt, _⟩ := Bool.and_eq_true_iff.mp he
    exact destroyed_sound h (of_decide_eq_true hlt)

section Exactness

variable {a other : Nat}

theorem attachListener_exact (h : s.Sound) (hx : s.Exact) (address : Nat) : (s.attachListener address).Exact := by
  have hold : ∀ l ∈ s.attached, (s.attachListener address).holds l.serial = s.holds l.serial := fun l hl =>
    construct_holds_of_ne (Nat.ne_of_lt (h.serial_lt hl)) (h.current l hl).1
  have hnew : (s.attachListener address).holds s.attached.length = true := construct_holds _ _
  have hkept : s.attached.filter (fun l : Listener => (s.attachListener address).holds l.serial) = s.held :=
    List.filter_congr hold
  have hlast : ([⟨address, s.attached.length⟩] : List Listener).filter
      (fun l => (s.attachListener address).holds l.serial) = [⟨address, s.attached.length⟩] :=
    List.filter_cons_of_pos hnew
  constructor
  · change s.logListeners ++ [_] = ((s.attached ++ [_]).filter fun l : Listener =>
      (s.attachListener address).holds l.serial).map some
    rw [List.filter_append, hkept, hlast, List.map_append, hx.listeners]
    rfl
  · intro l hl
    rcases List.mem_append.mp hl with hbefore | hlast
    · rw [hold l hbefore]
      exact hx.once l hbefore
    · rw [List.mem_singleton.mp hlast, hnew]
      exact h.unused _ (Nat.le_refl _)

theorem moveAttachment_exact (h : s.Sound) (hx : s.Exact)
    (hheld : s.holds (s.attachments other).serial = true) : (s.moveAttachment other).Exact := by
  have hsame : ∀ l ∈ s.attached, (s.moveAttachment other).holds l.serial = s.holds l.serial := by
    intro l hl
    by_cases heq : l.serial = (s.attachments other).serial
    · rw [heq, hheld]
      exact construct_holds _ _
    · exact construct_holds_of_ne heq (h.current l hl).1
  constructor
  · have hheld : (s.moveAttachment other).held = s.held := List.filter_congr hsame
    rw [hheld]
    exact hx.listeners
  · intro l hl
    rw [hsame l hl]
    exact hx.once l hl

theorem Exact.addresses_eq (hx : s.Exact) : s.addresses = s.held.map Listener.address := by
  rw [addresses, hx.listeners, List.filterMap_map]
  exact congrFun List.filterMap_eq_map _

/-- A listener that is held is at the address of the one it is, and at no other's. -/
theorem held_address (h : s.Sound) (hx : s.Exact) (ha : a < s.constructed) (hcurrent : s.current
    (s.attachments a).serial = a) (hheld : s.holds (s.attachments a).serial = true) {l : Listener}
    (hl : l ∈ s.attached) (hl' : s.holds l.serial = true) :
    l.address = (s.attachments a).listener ↔ s.current l.serial = a := by
  obtain ⟨m, hm, hserial, haddress⟩ := h.belongs a ha
  constructor
  · intro hsame
    have hapart := h.apart
    rw [hx.addresses_eq] at hapart
    have heq : l = m := List.inj_on_of_nodup_map hapart (List.mem_filter.mpr ⟨hl, hl'⟩)
      (List.mem_filter.mpr ⟨hm, by rw [hserial]; exact hheld⟩) (hsame.trans haddress.symm)
    rw [heq, hserial]
    exact hcurrent
  · intro hself
    have hsame : l.serial = m.serial := by
      rw [hserial, ← (h.current l hl).2, hself]
    rw [h.serial_inj hl hm hsame]
    exact haddress

theorem destroyed_exact (h : s.Sound) (hx : s.Exact) (ha : a < s.constructed)
    (hcurrent : s.current (s.attachments a).serial = a) (halive : (s.attachments a).alive = true) :
    (s.attachments a).listener ∈ s.addresses ∧ (s.destroyed a).Exact := by
  have hheld : s.holds (s.attachments a).serial = true := by
    rw [holds, hcurrent]
    exact halive
  obtain ⟨m, hm, hserial, haddress⟩ := h.belongs a ha
  refine ⟨?_, ?_, ?_⟩
  · rw [hx.addresses_eq, ← haddress]
    exact List.mem_map_of_mem (List.mem_filter.mpr ⟨hm, by rw [hserial]; exact hheld⟩)
  · change s.logListeners.filter _ = (s.attached.filter fun l => (s.destroyed a).holds l.serial).map some
    rw [hx.listeners, List.filter_map, held, List.filter_filter]
    refine congrArg (List.map some) (List.filter_congr fun l hl => ?_)
    rw [destroyed_holds]
    cases hl' : s.holds l.serial with
    | false => rw [Bool.and_false, Bool.false_and]
    | true =>
      have hsame : (l.address == (s.attachments a).listener) = (s.current l.serial == a) := by
        rw [Bool.eq_iff_iff, beq_iff_eq, beq_iff_eq]
        exact held_address h hx ha hcurrent hheld hl hl'
      rw [Bool.and_true, Bool.true_and]
      exact congrArg not hsame
  · intro l hl
    rw [destroyed_holds]
    by_cases hsame : l.serial = (s.attachments a).serial
    · rw [hsame, destroyed_detaches, hcurrent, beq_self_eq_true, Bool.not_true, Bool.and_false, ← hserial,
        hx.once m hm, hserial, hheld]
      rfl
    · have hne : s.current l.serial ≠ a := by
        intro hself
        exact hsame (by rw [← (h.current l hl).2, hself])
      rw [destroyed_detaches_of_ne hsame, hx.once l hl, beq_eq_false_iff_ne.mpr hne, Bool.not_false, Bool.and_true]

theorem step_exact {e : LoggerEvent} (h : s.Sound) (hx : s.Exact) (he : s.enabled e = true)
    (hproper : s.proper e = true) : ∃ s', s.step e = .ok s' ∧ s'.Exact := by
  cases e with
  | attach address => exact ⟨_, rfl, attachListener_exact h hx address⟩
  | move other => exact ⟨_, rfl, moveAttachment_exact h hx hproper⟩
  | destroy a =>
    obtain ⟨hlt, halive⟩ := Bool.and_eq_true_iff.mp he
    obtain ⟨hmem, hexact⟩ := destroyed_exact h hx (of_decide_eq_true hlt) (beq_iff_eq.mp hproper) halive
    exact ⟨_, destroyAttachment_owned h hmem, hexact⟩

/-- A step that leaves the listeners exact is proper: any other detaches one again, or one that is held, or moves one
that was detached. -/
theorem proper_of_exact {e : LoggerEvent} (h : s.Sound) (hx : s.Exact) (he : s.enabled e = true)
    (hstep : s.step e = .ok s') (hx' : s'.Exact) : s.proper e = true := by
  cases e with
  | attach address => rfl
  | move other =>
    cases hstep
    obtain ⟨hlt, _⟩ := Bool.and_eq_true_iff.mp he
    obtain ⟨m, hm, hserial, _⟩ := h.belongs other (of_decide_eq_true hlt)
    have hnow : (s.moveAttachment other).holds m.serial = true := by
      rw [hserial]
      exact construct_holds _ _
    have honce' : s.detaches m.serial = 0 := by
      have honce' := hx'.once m hm
      rw [hnow] at honce'
      exact honce'
    have honce := hx.once m hm
    rw [honce'] at honce
    rw [proper, ← hserial]
    by_contra hno
    rw [if_neg hno] at honce
    exact absurd honce Nat.zero_ne_one
  | destroy a =>
    obtain ⟨_, rfl⟩ := destroyAttachment_ok h hstep
    obtain ⟨hlt, _⟩ := Bool.and_eq_true_iff.mp he
    obtain ⟨m, hm, hserial, _⟩ := h.belongs a (of_decide_eq_true hlt)
    rw [proper, beq_iff_eq]
    by_contra hne
    have honce := hx.once m hm
    have honce' := hx'.once m hm
    rw [destroyed_holds, hserial, destroyed_detaches, beq_eq_false_iff_ne.mpr hne, Bool.not_false, Bool.and_true,
      ← hserial, honce] at honce'
    omega

end Exactness

/-- In every run the listeners are exact after each step, and none of them fails, if and only if every attachment
that is destroyed is the one its listener was last moved to, and every one that is moved has a listener that is
held. -/
theorem listeners_exact_iff {events : List LoggerEvent} (h : loggerMachine.Along loggerMachine.enabled events create) :
    loggerMachine.Along (fun s e => ∃ s', s.step e = .ok s' ∧ s'.Exact) events create ↔
      loggerMachine.Along (fun s e => s.proper e = true) events create :=
  Machine.along_succeeds_iff (R := fun s e => loggerMachine.enabled s e ∧ s.Sound)
    (fun _ _ hx hr hproper => step_exact hr.2 hx hr.1 hproper)
    (fun _ _ _ hx hr hstep hx' => proper_of_exact hr.2 hx hr.1 hstep hx')
    create_exact (h.invariant (fun _ _ _ hs he hstep => step_sound hs he hstep) create_sound)

/-- Two listeners, one of them moved; the attachment that was moved from is not destroyed. -/
theorem listeners_exact_moved :
    loggerMachine.Along (fun s e => ∃ s', s.step e = .ok s' ∧ s'.Exact)
      [.attach 8, .move 0, .attach 9, .destroy 2, .destroy 1] create := by
  have hrun : (loggerMachine.replay (fun s e => s.enabled e && s.proper e)
      [.attach 8, .move 0, .attach 9, .destroy 2, .destroy 1] create).isSome = true := by
    decide +kernel
  obtain ⟨s, hs⟩ := Option.isSome_iff_exists.mp hrun
  have henabled : loggerMachine.Along loggerMachine.enabled _ create :=
    Machine.replay_along (fun _ _ htest => (Bool.and_eq_true_iff.mp htest).1) hs
  exact (listeners_exact_iff henabled).mpr
    (Machine.replay_along (fun _ _ htest => (Bool.and_eq_true_iff.mp htest).2) hs)

/-- The attachment that was moved from takes the listener with it, and the one it was moved to erases the end. -/
theorem moved_from_destroyed :
    loggerMachine.Along loggerMachine.enabled [.attach 8, .move 0, .destroy 0, .destroy 1] create ∧
      loggerMachine.run [.attach 8, .move 0, .destroy 0, .destroy 1] create = .error .erasesEnd ∧
      ¬loggerMachine.Along (fun s e => ∃ s', s.step e = .ok s' ∧ s'.Exact)
        [.attach 8, .move 0, .destroy 0] create := by
  obtain ⟨s, hs⟩ : ∃ s, s = (create.attachListener 8).moveAttachment 0 := ⟨_, rfl⟩
  have hdestroyed : s.destroyAttachment 0 = .ok (s.destroyed 0) := by
    rw [hs]
    rfl
  have hnext : ∀ s', s.destroyAttachment 0 = .ok s' → s' = s.destroyed 0 := fun s' hok =>
    (Except.ok.inj (hdestroyed.symm.trans hok)).symm
  refine ⟨⟨rfl, ?_⟩, ?_, fun hall => ?_⟩
  · rintro _ ⟨⟩
    refine ⟨rfl, ?_⟩
    rintro _ ⟨⟩
    refine ⟨rfl, fun s' hok => ?_⟩
    rw [hs] at hnext
    rw [hnext s' hok]
    exact ⟨rfl, fun _ _ => trivial⟩
  · rfl
  · obtain ⟨s', hok, hexact⟩ := ((hall.2 _ rfl).2 _ rfl).1
    have hlisteners := hexact.listeners
    rw [hs] at hnext
    rw [hnext s' hok] at hlisteners
    exact absurd hlisteners (by decide)

end Logger

end P2PChat

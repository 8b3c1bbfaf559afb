import Mathlib.Data.List.Induction
import P2PChat.Ring

namespace P2PChat

/-- A `cTCPLinkImpl` and its `bufferevent`: `m_ShouldShutdown`, the output buffer, whether `EV_WRITE` is
enabled, whether the write side of the socket is shut down, and what was passed to the OS. `accepted` are the
bytes for which `Send` returned true, no code reads it. -/
structure TCPLink where
  shouldShutdown : Bool
  output : AString
  writeEnabled : Bool
  writeShut : Bool
  passed : AString
  accepted : AString
  deriving DecidableEq, Repr

/-- The calls of a link, and what libevent does. `Send` comes with whether `bufferevent_write` has room for
the data. -/
inductive LinkEvent where
  | send (data : AString) (room : Bool)
  | shutdown
  | written (n : Nat)
  | writeCallback
  deriving DecidableEq, Repr

/-- `Send` gets these bytes, and libevent has room for them. -/
def LinkEvent.sends : LinkEvent → Bool
  | .send _ room => room
  | _ => false

namespace TCPLink

/-- A link after `Enable`. -/
def create : TCPLink where
  shouldShutdown := false
  output := []
  writeEnabled := true
  writeShut := false
  passed := []
  accepted := []

def send (data : AString) (room : Bool) (l : TCPLink) : Bool × TCPLink :=
  if l.shouldShutdown then (false, l)
  else if room then (true, { l with output := l.output ++ data, accepted := l.accepted ++ data })
  else (false, l)

def doActualShutdown (l : TCPLink) : TCPLink := { l with writeShut := true, writeEnabled := false }

def shutdown (l : TCPLink) : TCPLink :=
  if l.output.length = 0 then l.doActualShutdown else { l with shouldShutdown := true }

def writeCallback (l : TCPLink) : TCPLink :=
  if l.output.length = 0 ∧ l.shouldShutdown then l.doActualShutdown else l

/-- libevent passes the first bytes of its output to the OS, while it may. -/
def written (n : Nat) (l : TCPLink) : TCPLink :=
  if l.writeEnabled ∧ ¬l.writeShut then
    { l with output := l.output.drop n, passed := l.passed ++ l.output.take n }
  else l

def step (l : TCPLink) : LinkEvent → TCPLink
  | .send data room => (l.send data room).2
  | .shutdown => l.shutdown
  | .written n => l.written n
  | .writeCallback => l.writeCallback

/-- A link after these events. -/
def run (events : List LinkEvent) : TCPLink := events.foldl step create

/-- What was accepted was passed to the OS, or waits in the output while the write side is open. -/
structure Delivers (l : TCPLink) : Prop where
  bytes : l.passed ++ l.output = l.accepted
  opened : l.output ≠ [] → l.writeEnabled = true ∧ l.writeShut = false

section Steps

variable {l : TCPLink}

/-- The three flags are as they were. -/
structure SameFlags (l l' : TCPLink) : Prop where
  shouldShutdown : l'.shouldShutdown = l.shouldShutdown
  writeEnabled : l'.writeEnabled = l.writeEnabled
  writeShut : l'.writeShut = l.writeShut

theorem send_flags (data : AString) (room : Bool) (l : TCPLink) : SameFlags l (l.send data room).2 := by
  unfold TCPLink.send
  split
  next => exact ⟨rfl, rfl, rfl⟩
  next =>
    split
    next => exact ⟨rfl, rfl, rfl⟩
    next => exact ⟨rfl, rfl, rfl⟩

theorem written_flags (n : Nat) (l : TCPLink) : SameFlags l (l.written n) := by
  unfold TCPLink.written
  split
  next => exact ⟨rfl, rfl, rfl⟩
  next => exact ⟨rfl, rfl, rfl⟩

theorem writeCallback_of_not (h : l.shouldShutdown = false) : l.writeCallback = l :=
  if_neg fun hdone => absurd (h.symm.trans hdone.2) Bool.false_ne_true

theorem Delivers.doActualShutdown (h : l.Delivers) (hempty : l.output = []) : l.doActualShutdown.Delivers :=
  ⟨h.bytes, fun hne => absurd hempty hne⟩

theorem Delivers.shutdown (h : l.Delivers) : l.shutdown.Delivers := by
  unfold TCPLink.shutdown
  split
  next hlen => exact h.doActualShutdown (List.eq_nil_of_length_eq_zero hlen)
  next => exact ⟨h.bytes, h.opened⟩

theorem Delivers.writeCallback (h : l.Delivers) : l.writeCallback.Delivers := by
  unfold TCPLink.writeCallback
  split
  next hdone => exact h.doActualShutdown (List.eq_nil_of_length_eq_zero hdone.1)
  next => exact h

theorem Delivers.written (h : l.Delivers) (n : Nat) : (l.written n).Delivers := by
  unfold TCPLink.written
  split
  next hopen =>
    have hbytes : l.passed ++ l.output.take n ++ l.output.drop n = l.accepted := by
      rw [List.append_assoc, List.take_append_drop]
      exact h.bytes
    exact ⟨hbytes, fun _ => ⟨hopen.1, Bool.eq_false_iff.mpr hopen.2⟩⟩
  next => exact h

/-- Data is only accepted where it can still be passed on. -/
theorem Delivers.send (h : l.Delivers) {data : AString} {room : Bool}
    (hopen : l.shouldShutdown = false → room = true → l.writeEnabled = true ∧ l.writeShut = false) :
    (l.send data room).2.Delivers := by
  unfold TCPLink.send
  split
  next => exact h
  next hflag =>
    split
    next hroom =>
      have hbytes : l.passed ++ (l.output ++ data) = l.accepted ++ data := by
        rw [← List.append_assoc, h.bytes]
      exact ⟨hbytes, fun _ => hopen (Bool.eq_false_iff.mpr hflag) hroom⟩
    next => exact h

/-- No shutdown has been asked for. -/
structure Open (l : TCPLink) : Prop where
  delivers : l.Delivers
  shouldShutdown : l.shouldShutdown = false
  writeEnabled : l.writeEnabled = true
  writeShut : l.writeShut = false

/-- A shutdown is in queue, or was done when its turn came. -/
structure Refusing (l : TCPLink) : Prop where
  delivers : l.Delivers
  shouldShutdown : l.shouldShutdown = true

/-- The shutdown was done at once. -/
structure ShutAtOnce (l : TCPLink) : Prop where
  delivers : l.Delivers
  shouldShutdown : l.shouldShutdown = false
  output : l.output = []
  writeShut : l.writeShut = true

theorem create_open : create.Open := ⟨⟨rfl, fun hne => absurd rfl hne⟩, rfl, rfl, rfl⟩

theorem Open.step (h : l.Open) {e : LinkEvent} (he : e ≠ .shutdown) : (l.step e).Open := by
  cases e with
  | send data room =>
    have hflags := send_flags data room l
    exact ⟨h.delivers.send fun _ _ => ⟨h.writeEnabled, h.writeShut⟩, hflags.shouldShutdown.trans h.shouldShutdown,
      hflags.writeEnabled.trans h.writeEnabled, hflags.writeShut.trans h.writeShut⟩
  | shutdown => exact absurd rfl he
  | written n =>
    have hflags := written_flags n l
    exact ⟨h.delivers.written n, hflags.shouldShutdown.trans h.shouldShutdown,
      hflags.writeEnabled.trans h.writeEnabled, hflags.writeShut.trans h.writeShut⟩
  | writeCallback =>
    rw [TCPLink.step, writeCallback_of_not h.shouldShutdown]
    exact h

/-- A shutdown with output pending is put in queue. -/
theorem Open.shutdown_refusing (h : l.Open) (hpending : l.output ≠ []) : l.shutdown.Refusing := by
  have hdelivers := h.delivers.shutdown
  rw [TCPLink.shutdown, if_neg (fun hlen => hpending (List.eq_nil_of_length_eq_zero hlen))] at hdelivers ⊢
  exact ⟨hdelivers, rfl⟩

theorem Open.shutdown_atOnce (h : l.Open) (hempty : l.output = []) : l.shutdown.ShutAtOnce := by
  have hdelivers := h.delivers.shutdown
  rw [TCPLink.shutdown, if_pos (List.length_eq_zero_iff.mpr hempty)] at hdelivers ⊢
  exact ⟨hdelivers, h.shouldShutdown, hempty, rfl⟩

theorem Refusing.step (h : l.Refusing) (e : LinkEvent) : (l.step e).Refusing := by
  cases e with
  | send data room =>
    rw [TCPLink.step, TCPLink.send, if_pos h.shouldShutdown]
    exact h
  | shutdown =>
    refine ⟨h.delivers.shutdown, ?_⟩
    change l.shutdown.shouldShutdown = true
    unfold TCPLink.shutdown
    split
    next => exact h.shouldShutdown
    next => rfl
  | written n => exact ⟨h.delivers.written n, (written_flags n l).shouldShutdown.trans h.shouldShutdown⟩
  | writeCallback =>
    refine ⟨h.delivers.writeCallback, ?_⟩
    change l.writeCallback.shouldShutdown = true
    unfold TCPLink.writeCallback
    split
    next => exact h.shouldShutdown
    next => exact h.shouldShutdown

/-- Nothing more is done, until libevent takes more data. -/
theorem ShutAtOnce.step (h : l.ShutAtOnce) {e : LinkEvent} (he : e.sends = false) : (l.step e).ShutAtOnce := by
  cases e with
  | send data room =>
    have hroom : room = false := he
    rw [TCPLink.step, TCPLink.send, hroom, h.shouldShutdown]
    exact h
  | shutdown =>
    rw [TCPLink.step, TCPLink.shutdown, if_pos (List.length_eq_zero_iff.mpr h.output)]
    exact ⟨h.delivers.doActualShutdown h.output, h.shouldShutdown, h.output, rfl⟩
  | written n =>
    rw [TCPLink.step, TCPLink.written, if_neg (fun hopen => hopen.2 h.writeShut)]
    exact h
  | writeCallback =>
    rw [TCPLink.step, writeCallback_of_not h.shouldShutdown]
    exact h

end Steps

section Runs

variable {before rest : List LinkEvent}

theorem run_append (before rest : List LinkEvent) : run (before ++ rest) = rest.foldl step (run before) :=
  List.foldl_append

theorem run_open (h : .shutdown ∉ before) : (run before).Open := by
  induction before using List.reverseRecOn with
  | nil => exact create_open
  | append_singleton before e ih =>
    rw [List.mem_append, not_or, List.mem_singleton] at h
    rw [run_append]
    exact (ih h.1).step (Ne.symm h.2)

theorem run_refusing (h : .shutdown ∉ before) (hpending : (run before).output ≠ []) (rest : List LinkEvent) :
    (run (before ++ .shutdown :: rest)).Refusing := by
  induction rest using List.reverseRecOn with
  | nil =>
    rw [run_append]
    exact (run_open h).shutdown_refusing hpending
  | append_singleton rest e ih =>
    rw [← List.cons_append, ← List.append_assoc, run_append]
    exact ih.step e

theorem run_shutAtOnce (h : .shutdown ∉ before) (hempty : (run before).output = [])
    (hsends : ∀ e ∈ rest, e.sends = false) : (run (before ++ .shutdown :: rest)).ShutAtOnce := by
  induction rest using List.reverseRecOn with
  | nil =>
    rw [run_append]
    exact (run_open h).shutdown_atOnce hempty
  | append_singleton rest e ih =>
    rw [← List.cons_append, ← List.append_assoc, run_append]
    exact (ih fun e' he' => hsends e' (List.mem_append_left _ he')).step
      (hsends e (List.mem_append_right _ (List.mem_singleton.mpr rfl)))

/-- A run in which nothing is sent after a shutdown that is done at once: any part of it is of one of the three
kinds. -/
theorem run_kinds {events part : List LinkEvent} (h : ∀ before rest, events = before ++ .shutdown :: rest →
      .shutdown ∉ before → (run before).output = [] → ∀ e ∈ rest, e.sends = false)
    (hevents : events = part ++ rest) :
    .shutdown ∉ part ∨ (run part).Refusing ∨ (run part).ShutAtOnce ∧ ∀ e ∈ rest, e.sends = false := by
  by_cases hmem : .shutdown ∈ part
  · obtain ⟨before, between, rfl, hfirst⟩ := List.eq_append_cons_of_mem hmem
    by_cases hempty : (run before).output = []
    · have hsends := h before (between ++ rest) (by simpa using hevents) hfirst hempty
      exact .inr (.inr ⟨run_shutAtOnce hfirst hempty fun e he => hsends e (List.mem_append_left _ he),
        fun e he => hsends e (List.mem_append_right _ he)⟩)
    · exact .inr (.inl (run_refusing hfirst hempty between))
  · exact .inl hmem

/-- In all of the run, `Send` returns false once `Shutdown` was called, and what was accepted is passed to the
OS before the write side is shut down. -/
def KeepsItsWord (events : List LinkEvent) : Prop :=
  (∀ before data room rest, events = before ++ .send data room :: rest → .shutdown ∈ before →
    ((run before).send data room).1 = false) ∧
  ∀ before rest, events = before ++ rest → (run before).Delivers

/-- A link keeps its word if and only if the first shutdown finds output pending, or no data that libevent has
room for is sent after it. -/
theorem keepsItsWord_iff (events : List LinkEvent) :
    KeepsItsWord events ↔ ∀ before rest, events = before ++ .shutdown :: rest → .shutdown ∉ before →
      (run before).output = [] → ∀ e ∈ rest, e.sends = false := by
  constructor
  · rintro ⟨hrefuses, _⟩ before rest rfl hfirst hempty
    rcases hfind : rest.find? LinkEvent.sends with _ | e
    · intro e he
      exact Bool.eq_false_iff.mpr (List.find?_eq_none.mp hfind e he)
    · obtain ⟨hsends, quiet, rest', rfl, hquiet⟩ := List.find?_eq_some_iff_append.mp hfind
      have hnone : ∀ e' ∈ quiet, e'.sends = false := fun e' he' => by simpa using hquiet e' he'
      have hshut := run_shutAtOnce hfirst hempty hnone
      cases e with
      | send data room =>
        have hroom : room = true := hsends
        have hno := hrefuses (before ++ .shutdown :: quiet) data room rest' (by simp) (by simp)
        rw [TCPLink.send, hshut.shouldShutdown, hroom] at hno
        cases hno
      | shutdown => cases hsends
      | written n => cases hsends
      | writeCallback => cases hsends
  · intro hcondition
    constructor
    · intro before data room rest hevents hmem
      rcases run_kinds hcondition hevents with hno | hrefusing | ⟨hshut, hsends⟩
      · exact absurd hmem hno
      · rw [TCPLink.send, if_pos hrefusing.shouldShutdown]
      · have hroom : room = false := hsends (.send data room) List.mem_cons_self
        rw [TCPLink.send, hshut.shouldShutdown, hroom]
        rfl
    · intro before rest hevents
      rcases run_kinds hcondition hevents with hno | hrefusing | ⟨hshut, _⟩
      · exact (run_open hno).delivers
      · exact hrefusing.delivers
      · exact hshut.delivers

/-- Nothing is pending when the link is shut down, and the byte that is sent then is accepted. -/
theorem sent_after_shutdown : ¬KeepsItsWord [.shutdown, .send [0x61] true] := by
  rintro ⟨hrefuses, _⟩
  exact absurd (hrefuses [.shutdown] [0x61] true [] rfl (by simp)) (by decide)

end Runs

end TCPLink

end P2PChat

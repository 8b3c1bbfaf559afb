import P2PChat.CEvent
import P2PChat.Tally
import P2PChat.TransitionSystem

namespace P2PChat

/-- The comparison of items, and `Combine` with the existing item and the new one. -/
structure QueueFuncs (α : Type) where
  equal : α → α → Bool
  combine : α → α → α

/-- The default: equal items are not combined. -/
def cQueueFuncs {α : Type} [BEq α] : QueueFuncs α where
  equal := (· == ·)
  combine existing _ := existing

/-- `m_evtAdded` and `m_evtRemoved`. -/
inductive QueueEvent where
  | added
  | removed
  deriving DecidableEq, Repr

inductive QueueOp (α : Type) where
  | enqueueItem (item : α)
  | enqueueItemIfNotPresent (item : α)
  | tryDequeueItem
  | dequeueItem
  | blockTillEmpty
  | clear
  | remove (item : α)
  | removeIf (predicate : α → Bool)

/-- The operation whose loop waits for the event. -/
def QueueEvent.op {α : Type} : QueueEvent → QueueOp α
  | .added => .dequeueItem
  | .removed => .blockTillEmpty

/-- Where a thread is in an operation. In the loop of `RemoveIf` it is at an index; from there it sets
`m_evtRemoved` and goes back. -/
inductive QueuePoint (α : Type) where
  | outside
  | lock (op : QueueOp α)
  | run (op : QueueOp α)
  | scan (predicate : α → Bool) (i : Nat)
  | set (e : QueueEvent) (loop : Option ((α → Bool) × Nat))
  | notify (e : QueueEvent) (loop : Option ((α → Bool) × Nat))
  | unlock
  | release (e : QueueEvent)
  | wait (e : QueueEvent)
  | sleep (e : QueueEvent)
  | relock (e : QueueEvent)

/-- An item with the number under which it was put into the queue. -/
structure Numbered (α : Type) where
  number : Nat
  item : α

/-- A queue with the points its threads are at, what was put into it, and what `TryDequeueItem` and
`DequeueItem` have returned, `Remove` and `RemoveIf` have erased, and `Clear` has passed to `Delete`. -/
structure SharedQueue (ι α : Type) where
  contents : List (Numbered α)
  evt : QueueEvent → CEvent
  cs : Option ι
  points : ι → QueuePoint α
  enqueued : List α
  returned : List (Numbered α)
  removed : List (Numbered α)
  deleted : List (Numbered α)

/-- A thread calls an operation; it goes on; it wakes one of those that sleep, if there is one; it wakes up
though nobody has notified it. -/
inductive SharedAct (ι α : Type) where
  | call (t : ι) (op : QueueOp α)
  | go (t : ι)
  | notify (t : ι) (woken : Option ι)
  | spurious (t : ι)

namespace QueuePoint

variable {α : Type}

def isOutside (point : QueuePoint α) : Bool :=
  match point with
  | .outside => true
  | _ => false

/-- In `Wait`, and asleep there. -/
def sleeps (e : QueueEvent) (point : QueuePoint α) : Bool :=
  match point with
  | .sleep e' => e' == e
  | _ => false

/-- In `Wait`. -/
def waits (e : QueueEvent) (point : QueuePoint α) : Bool :=
  match point with
  | .wait e' | .sleep e' => e' == e
  | _ => false

end QueuePoint

namespace SharedQueue

variable {ι α : Type}

/-- A new queue that no thread uses. -/
def create : SharedQueue ι α where
  contents := []
  evt _ := .create
  cs := none
  points _ := .outside
  enqueued := []
  returned := []
  removed := []
  deleted := []

/-- `push_back`. -/
def pushBack (item : α) (s : SharedQueue ι α) : SharedQueue ι α :=
  { s with contents := s.contents ++ [⟨s.enqueued.length, item⟩], enqueued := s.enqueued ++ [item] }

/-- The front item is returned. -/
def popFront (s : SharedQueue ι α) : SharedQueue ι α :=
  { s with contents := s.contents.tail, returned := s.returned ++ s.contents.head?.toList }

def erase (i : Nat) (s : SharedQueue ι α) : SharedQueue ι α :=
  { s with contents := s.contents.eraseIdx i, removed := s.removed ++ s.contents[i]?.toList }

def combineAt (funcs : QueueFuncs α) (i : Nat) (item : α) (s : SharedQueue ι α) : SharedQueue ι α :=
  { s with
    contents := s.contents.modify i fun numbered => { numbered with item := funcs.combine numbered.item item } }

def deleteAll (s : SharedQueue ι α) : SharedQueue ι α :=
  { s with contents := [], deleted := s.deleted ++ s.contents }

/-- The first item that is equal to this one. -/
def findEqual (funcs : QueueFuncs α) (item : α) (s : SharedQueue ι α) : Option Nat :=
  s.contents.findIdx? fun numbered => funcs.equal numbered.item item

def setEvent (e : QueueEvent) (event : CEvent) (s : SharedQueue ι α) : SharedQueue ι α :=
  { s with evt := Function.update s.evt e event }

variable [DecidableEq ι]

def moveTo (t : ι) (point : QueuePoint α) (s : SharedQueue ι α) : SharedQueue ι α :=
  { s with points := Function.update s.points t point }

/-- What an operation does under the lock before it sets an event, waits or returns. -/
def run (funcs : QueueFuncs α) (t : ι) (op : QueueOp α) (s : SharedQueue ι α) : SharedQueue ι α :=
  match op with
  | .enqueueItem item => (s.pushBack item).moveTo t (.set .added none)
  | .enqueueItemIfNotPresent item =>
    match s.findEqual funcs item with
    | some i => (s.combineAt funcs i item).moveTo t .unlock
    | none => (s.pushBack item).moveTo t (.set .added none)
  | .tryDequeueItem =>
    if s.contents.isEmpty then s.moveTo t .unlock else s.popFront.moveTo t (.set .removed none)
  | .dequeueItem =>
    if s.contents.isEmpty then s.moveTo t (.release .added) else s.popFront.moveTo t (.set .removed none)
  | .blockTillEmpty =>
    if s.contents.isEmpty then s.moveTo t .unlock else s.moveTo t (.release .removed)
  | .clear => s.deleteAll.moveTo t .unlock
  | .remove item =>
    match s.findEqual funcs item with
    | some i => (s.erase i).moveTo t (.set .removed none)
    | none => s.moveTo t .unlock
  | .removeIf predicate => s.moveTo t (.scan predicate 0)

/-- One round of the loop of `RemoveIf`. -/
def scan (t : ι) (predicate : α → Bool) (i : Nat) (s : SharedQueue ι α) : SharedQueue ι α :=
  match s.contents[i]? with
  | none => s.moveTo t .unlock
  | some numbered =>
    if predicate numbered.item then (s.erase i).moveTo t (.set .removed (some (predicate, i)))
    else s.moveTo t (.scan predicate (i + 1))

/-- Where a thread goes on that has set an event. -/
def afterSet (loop : Option ((α → Bool) × Nat)) : QueuePoint α :=
  match loop with
  | none => .unlock
  | some (predicate, i) => .scan predicate i

def go (funcs : QueueFuncs α) (t : ι) (s : SharedQueue ι α) : Option (SharedQueue ι α) :=
  match s.points t with
  | .outside => none
  | .lock op => if s.cs.isNone then some ({ s with cs := some t }.moveTo t (.run op)) else none
  | .run op => some (s.run funcs t op)
  | .scan predicate i => some (s.scan t predicate i)
  | .set e loop => some ((s.setEvent e (s.evt e).set).moveTo t (.notify e loop))
  | .notify _ _ => none
  | .unlock => some ({ s with cs := none }.moveTo t .outside)
  | .release e => some ({ s with cs := none }.moveTo t (.wait e))
  | .wait e =>
    match (s.evt e).wait with
    | some event => some ((s.setEvent e event).moveTo t (.relock e))
    | none => some (s.moveTo t (.sleep e))
  | .sleep _ => none
  | .relock e => if s.cs.isNone then some ({ s with cs := some t }.moveTo t (.run e.op)) else none

/-- `notify_one` wakes a thread that sleeps, whichever; it does nothing if there is none. -/
def notify [Fintype ι] (t : ι) (woken : Option ι) (s : SharedQueue ι α) : Option (SharedQueue ι α) :=
  match s.points t with
  | .notify e loop =>
    match woken with
    | some t' =>
      if (s.points t').sleeps e then some ((s.moveTo t' (.wait e)).moveTo t (afterSet loop)) else none
    | none => if ∀ t', (s.points t').sleeps e = false then some (s.moveTo t (afterSet loop)) else none
  | _ => none

def step [Fintype ι] (funcs : QueueFuncs α) (s : SharedQueue ι α) :
    SharedAct ι α → Option (SharedQueue ι α)
  | .call t op => if (s.points t).isOutside then some (s.moveTo t (.lock op)) else none
  | .go t => s.go funcs t
  | .notify t woken => s.notify t woken
  | .spurious t =>
    match s.points t with
    | .sleep e => some (s.moveTo t (.wait e))
    | _ => none

end SharedQueue

/-- The threads that use one queue, in every order in which they can go on. -/
def sharedQueueMachine (ι : Type) [Fintype ι] [DecidableEq ι] {α : Type} (funcs : QueueFuncs α) :
    Machine (SharedQueue ι α) (SharedAct ι α) Unit where
  enabled _ _ := True
  step s a := (s.step funcs a).elim (.error ()) .ok

end P2PChat

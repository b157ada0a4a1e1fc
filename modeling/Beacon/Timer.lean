import Beacon.Act

/-!
# Timers

A table with places for six timers, each due once or again and again.  A timer is
put in the first place that is free and stays there until it is cancelled or has
fired for the last time.  Timers fire in the order of their deadlines, and in the
order of posting if those agree, wherever they stand.  A repeating timer counts
from its last deadline, so that a late poll does not shift it.
-/

namespace Beacon

abbrev TimerId := UInt32

structure Timer where
  id : TimerId
  deadline : Nat
  period : Option Nat
  task : Task
  deriving DecidableEq

namespace Timer

def before (t u : Timer) : Bool :=
  t.deadline < u.deadline || (t.deadline = u.deadline && t.id < u.id)

/-- The timer as it is set again once it has fired, if it repeats. -/
def again (t : Timer) : Option Timer :=
  t.period.map fun period => { t with deadline := t.deadline + period }

end Timer

/-- Three slots, the radio manager and two of the engine. -/
def TimerQueue.capacity : Nat := 6

structure TimerQueue where
  table : Vector (Option Timer) TimerQueue.capacity
  nextId : TimerId
  deriving DecidableEq

namespace TimerQueue

abbrev Place := Fin capacity

def places : List Place := List.finRange capacity

def empty : TimerQueue := ⟨.replicate capacity none, 0⟩

def entry (queue : TimerQueue) (i : Place) : Option Timer := queue.table.get i

def put (i : Place) (entry : Option Timer) (queue : TimerQueue) : TimerQueue :=
  { queue with table := queue.table.set i.val entry i.isLt }

/-- The timers that wait, in the order of their places. -/
def pending (queue : TimerQueue) : List Timer :=
  places.filterMap queue.entry

/-- The first free place. -/
def free? (queue : TimerQueue) : Option Place :=
  places.find? fun i => (queue.entry i).isNone

/-- The first place that holds a timer with this id. -/
def find? (id : TimerId) (queue : TimerQueue) : Option Place :=
  places.find? fun i => (queue.entry i).any (·.id = id)

def insert (deadline : Nat) (period : Option Nat) (task : Task) :
    Act TimerQueue (Option TimerId) := do
  let queue ← get
  match queue.free? with
  | none =>
    Act.note (.timersFull task)
    return none
  | some i =>
    let timers := queue.put i (some ⟨queue.nextId, deadline, period, task⟩)
    set ({ timers with nextId := queue.nextId + 1 } : TimerQueue)
    return some queue.nextId

/-- Fires once after a delay. -/
def postIn (now delay : Nat) (task : Task) : Act TimerQueue (Option TimerId) :=
  insert (now + delay) none task

/-- Fires again and again, first after one period. -/
def postEvery (now period : Nat) (task : Task) : Act TimerQueue (Option TimerId) :=
  insert (now + period) (some (max period 1)) task

def isPending (queue : TimerQueue) (id : TimerId) : Bool :=
  (queue.find? id).isSome

def remove (id : TimerId) (queue : TimerQueue) : TimerQueue :=
  match queue.find? id with
  | none => queue
  | some i => queue.put i none

def cancel (id : TimerId) : Act TimerQueue Bool :=
  modifyGet fun queue => (queue.isPending id, queue.remove id)

/-- Removes the timer of a handle, if there is one. -/
def cancel? (handle : Option TimerId) (queue : TimerQueue) : TimerQueue :=
  match handle with
  | some id => queue.remove id
  | none => queue

def nextDeadline? (queue : TimerQueue) : Option Nat :=
  (queue.pending.map Timer.deadline).min?

/-- Which timers wait at which places. -/
def occupied (queue : TimerQueue) : List (Place × Timer) :=
  places.filterMap fun i => (queue.entry i).map (i, ·)

/-- The timer that fires before the others; of equal ones the first. -/
def earliest : List (Place × Timer) → Option (Place × Timer)
  | [] => none
  | x :: rest =>
    match earliest rest with
    | none => some x
    | some y => if y.2.before x.2 then some y else some x

/-- Fires the earliest timer that is due; a repeating one is set again where it stands. -/
def popDue (now : Nat) : Act TimerQueue (Option (TimerId × Task)) :=
  modifyGet fun queue =>
    match earliest (queue.occupied.filter (·.2.deadline ≤ now)) with
    | none => (none, queue)
    | some (i, t) => (some (t.id, t.task), queue.put i t.again)

end TimerQueue

end Beacon

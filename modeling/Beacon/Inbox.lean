import Beacon.Event

/-!
# Radio notifications

The radio stack reports from its own context.  What it reports waits in a queue
of eight places, oldest first, until the main loop takes it; what finds the
queue full is lost.
-/

namespace Beacon

structure Inbox where
  waiting : List RadioEvent
  deriving DecidableEq

namespace Inbox

def capacity : Nat := 8

def empty : Inbox := ⟨[]⟩

def push (event : RadioEvent) (inbox : Inbox) : Bool × Inbox :=
  if inbox.waiting.length < capacity then (true, ⟨inbox.waiting ++ [event]⟩) else (false, inbox)

def pop (inbox : Inbox) : Option RadioEvent × Inbox :=
  (inbox.waiting.head?, ⟨inbox.waiting.tail⟩)

/-- Hands over all events in order, at most `fuel` of them; the handler has a state of its own and
may push more. -/
def drain {σ : Type} (handle : RadioEvent → σ × Inbox → σ × Inbox) :
    (fuel : Nat) → σ × Inbox → List RadioEvent × σ × Inbox
  | 0, s => ([], s)
  | fuel + 1, (s, inbox) =>
    match inbox.pop with
    | (none, inbox) => ([], s, inbox)
    | (some event, inbox) =>
      let (events, s) := drain handle fuel (handle event (s, inbox))
      (event :: events, s)

end Inbox

end Beacon

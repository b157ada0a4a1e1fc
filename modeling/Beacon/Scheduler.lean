import Beacon.Radio
import Beacon.Timer

/-!
# The advertising scheduler

One radio serves several slots.  Each broadcast slot has a repeating timer that
puts the slot into a queue; the radio manager takes one slot at a time from the
queue and leaves it on air for the shortest interval of the radio.

What there is to send, and how often, comes from a provider.
-/

namespace Beacon

structure PreparedAdvert where
  payload : Bytes
  radioTx : Int8
  connectable : Bool
  /-- The device address to take on with this advert. -/
  newAddress : Option (Octets 6)
  deriving DecidableEq

/-- A source of adverts for numbered slots. -/
class AdvertProvider (π : Type) where
  /-- The interval of a slot that is to be queued. -/
  interval? : π → Nat → Option UInt16
  /-- Brings a slot up to date; nothing if it has nothing to send. -/
  prepare : (slot now : Nat) → Act π (Option PreparedAdvert)
  transmitted : (slot : Nat) → π → π

structure Scheduler where
  radio : Radio
  timers : TimerQueue
  /-- Slots that wait for the radio. -/
  queue : List Nat
  /-- The repeating timer of each armed slot. -/
  slotTimers : PerSlot (Option TimerId)
  /-- The next step of the radio manager. -/
  manager : Option TimerId
  running : Bool

namespace Scheduler

variable {π α : Type}

def ofRadio (radio : Radio) : Scheduler where
  radio := radio
  timers := .empty
  queue := []
  slotTimers := .all none
  manager := none
  running := false

def onRadio (action : Act Radio α) : Act Scheduler α :=
  action.within Scheduler.radio fun s radio => { s with radio }

def onTimers (action : Act TimerQueue α) : Act Scheduler α :=
  action.within Scheduler.timers fun s timers => { s with timers }

def isArmed (s : Scheduler) (slot : Nat) : Bool :=
  (s.slotTimers[slot]?.getD none).isSome

def disarm (s : Scheduler) : Scheduler :=
  { s with
    timers := TimerQueue.cancel? s.manager (s.slotTimers.foldl (fun q h => q.cancel? h) s.timers)
    queue := []
    slotTimers := .all none
    manager := none
    running := false }

def stop : Act Scheduler Unit := do
  modify disarm
  onRadio Radio.quiet

def arm (slot : SlotIndex) (interval : UInt16) (now : Nat) : Act Scheduler Unit := do
  let handle ← onTimers (TimerQueue.postEvery now interval.toNat (.enqueue slot))
  modify fun s => { s with slotTimers := s.slotTimers.put slot handle }

/-- Arms a slot anew after its interval has changed, or leaves it disarmed. -/
def rearm [AdvertProvider π] (provider : π) (slot now : Nat) : Act Scheduler Unit := do
  if h : slot < 3 then
    let slot : SlotIndex := ⟨slot, h⟩
    if (← get).running then
      modify fun s =>
        { s with
          timers := s.timers.cancel? (s.slotTimers.value slot)
          slotTimers := s.slotTimers.put slot none }
      match AdvertProvider.interval? provider slot with
      | some interval =>
        arm slot interval now
        Act.note (.slotRearmed slot interval)
      | none => Act.note (.slotDisarmed slot)

def changeAddress (newAddress : Option (Octets 6)) : Act Scheduler Unit := do
  if let some address := newAddress then
    match ← onRadio (Radio.ask (.address address)) with
    | .ok () => pure ()
    | .error fault => Act.note (.addressRefused fault)

def transmit [AdvertProvider π] (slot : Nat) (advert : PreparedAdvert) :
    Act (Scheduler × π) Unit := do
  Act.onFst (changeAddress advert.newAddress)
  Act.onFst (onRadio (Radio.tell (.txPower advert.radioTx)))
  Act.onFst (onRadio (Radio.tell (.connectable advert.connectable)))
  match ← Act.onFst (onRadio (Radio.ask (.start advert.payload))) with
  | .ok () =>
    Act.note (.slotOnAir slot)
    modify fun (s, provider) => (s, AdvertProvider.transmitted slot provider)
  | .error fault => Act.note (.slotRefused slot fault)

def broadcast [AdvertProvider π] (slot now : Nat) : Act (Scheduler × π) Unit := do
  match ← Act.onSnd (AdvertProvider.prepare slot now) with
  | some advert => transmit slot advert
  | none => Act.note (.slotSilent slot)

/-- Puts the next queued slot on air, or goes quiet if there is none. -/
def manageRadio [AdvertProvider π] (now : Nat) : Act (Scheduler × π) Unit := do
  let (s, _) ← get
  match s.queue with
  | [] =>
    modify fun (s, provider) => ({ s with manager := none }, provider)
    Act.onFst (onRadio Radio.quiet)
  | slot :: rest =>
    modify fun (s, provider) => ({ s with manager := none, queue := rest }, provider)
    Act.onFst (onRadio Radio.quiet)
    broadcast slot now
    let dwell := (← get).1.radio.minInterval.toNat
    let handle ← Act.onFst (onTimers (TimerQueue.postIn now dwell .manageRadio))
    modify fun (s, provider) => ({ s with manager := handle }, provider)

/-- Puts a slot into the queue, unless it is there or the queue is full. -/
def offer (slot : Nat) : Act Scheduler Unit := do
  let s ← get
  if slot ∈ s.queue then pure ()
  else if s.queue.length < 3 then set { s with queue := s.queue ++ [slot] }
  else Act.note (.slotSkipped slot)

/-- Queues a slot and gives it the radio at once if nobody has it. -/
def enqueue [AdvertProvider π] (slot now : Nat) : Act (Scheduler × π) Unit := do
  Act.onFst (offer slot)
  if (← get).1.manager.isNone then manageRadio now

def armAll [AdvertProvider π] (provider : π) (now : Nat) : List SlotIndex → Act Scheduler Unit
  | [] => pure ()
  | slot :: rest => do
    if let some interval := AdvertProvider.interval? provider slot then
      modify fun s => { s with queue := s.queue ++ [slot.val] }
      arm slot interval now
      Act.note (.slotArmed slot interval)
    armAll provider now rest

/-- Starts beaconing with the first frame on air at once. -/
def start [AdvertProvider π] (now : Nat) : Act (Scheduler × π) (Except Fault Unit) := do
  Act.onFst stop
  let (s, provider) ← get
  if SlotIndex.all.all fun slot => (AdvertProvider.interval? provider slot).isNone then
    Act.note .noSlotToBroadcast
    return .error .invalidInterval
  else
    Act.onFst (onRadio (Radio.tell (.interval s.radio.minInterval)))
    Act.onFst (armAll provider now SlotIndex.all)
    modify fun (s, provider) => ({ s with running := true }, provider)
    manageRadio now
    return .ok ()

def perform [AdvertProvider π] (task : Task) (now : Nat) : Act (Scheduler × π) Unit :=
  match task with
  | .enqueue slot => enqueue slot now
  | .manageRadio => manageRadio now
  | .configTimeout => pure ()
  | .resumeBeacon => pure ()

/-- Fires the next timer at its deadline, if that is not after the given time. -/
def fireNext [AdvertProvider π] (limit : Nat) : Act (Scheduler × π) (Option (Nat × Task)) := do
  match (← get).1.timers.nextDeadline? with
  | none => return none
  | some deadline =>
    if limit < deadline then return none
    else
      match ← Act.onFst (onTimers (TimerQueue.popDue deadline)) with
      | none => return none
      | some (_, task) =>
        perform task deadline
        return some (deadline, task)

/-- Fires every timer on the way to a time, each at its deadline. -/
def runUntil [AdvertProvider π] (now : Nat) : Act (Scheduler × π) (List (Nat × Task)) :=
  Act.gather (fireNext now)

end Scheduler

end Beacon

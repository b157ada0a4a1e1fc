import Beacon.Crypto.Identity
import Beacon.Lock
import Beacon.Params
import Beacon.Scheduler
import Beacon.Telemetry.Sealing

/-!
# The state of a beacon

Slots, keys, lock, clock and telemetry: all that adverts are made from and that
a central can change.  The state is the source of adverts for the scheduler.

A slot with a changing identity gets a new identifier when its time has come,
and with it the beacon gets a new device address at the next advert.
-/

namespace Beacon

structure State where
  config : Config
  slots : Slots
  lock : Lock
  identity : Identity
  rng : Drbg
  clock : Clock
  telemetry : Telemetry
  radioLevels : PowerLevels
  advLevels : PowerLevels
  remainConnectable : Bool
  /-- Where the search for a key that seals telemetry goes on. -/
  sealingCursor : SlotIndex
  /-- Bounds of the advertising intervals a central can set. -/
  minInterval : UInt16
  maxInterval : UInt16
  /-- The device address to take on with the next advert. -/
  pendingAddress : Option (Octets 6)
  /-- A rotation has set the clock since it was last saved. -/
  clockDirty : Bool
  /-- Events that nobody has been told of yet, oldest first. -/
  pendingEvents : List Event

namespace State

/-- How many events can wait; beyond that the oldest is dropped. -/
def eventCapacity : Nat := 8

/-- A state at factory defaults, seeded with what the entropy source gave. -/
def ofConfig (config : Config) (entropy : Option (Octets 32)) (minInterval maxInterval : UInt16) :
    Except Fault State := do
  config.validate
  let rng ← Drbg.ofEntropy entropy
  let (identity, rng) := Identity.generate rng
  let slots ← Slots.ofConfig config
  return {
    config, slots, identity, rng, minInterval, maxInterval
    lock := .fresh config.lockState config.unlockKey
    clock := .zero
    telemetry := .initial
    radioLevels := config.radioLevels
    advLevels := config.advLevels
    remainConnectable := config.remainConnectable
    sealingCursor := .first
    pendingAddress := none
    clockDirty := false
    pendingEvents := [] }

def factoryReset : Act State (Except Fault Unit) := do
  let state ← get
  match Slots.ofConfig state.config with
  | .error fault => return .error fault
  | .ok slots =>
    let (identity, rng) := Identity.generate state.rng
    set { state with
      slots, identity, rng
      lock := .fresh state.config.lockState state.config.unlockKey
      clock := .zero
      radioLevels := state.config.radioLevels
      advLevels := state.config.advLevels
      remainConnectable := state.config.remainConnectable
      sealingCursor := .first
      pendingAddress := none
      clockDirty := false }
    Act.note .stateReset
    return .ok ()

/-! ## Persistence -/

/-- Takes over what is stored of one slot; a frame that cannot be read leaves it cleared. -/
def restoreSlot (params : Params) (i : SlotIndex) : Act State Unit := do
  let frame ←
    match (params.frames.value i).decode with
    | .ok frame => pure frame
    | .error fault => do
      Act.note (.frameUnreadable i fault)
      pure none
  modify fun state =>
    { state with
      slots := state.slots.modify i fun slot =>
        { slot with
          interval := params.intervals.value i
          radioTx := params.radioTx.value i
          advTx := params.advTx.value i
          exponent := params.exponents.value i
          key := params.keys.value i
          frame := frame } }

def restore (params : Params) : Act State Unit := do
  modify fun state =>
    { state with
      clock := params.clock
      radioLevels := params.radioLevels
      advLevels := params.advLevels
      lock := .fresh params.lockState params.unlockKey
      remainConnectable := params.remainConnectable }
  match (← get).slots.setActive params.activeSlot.toNat with
  | .ok slots => modify fun state => { state with slots }
  | .error _ => Act.note (.activeSlotOutOfRange params.activeSlot)
  SlotIndex.all.forM (restoreSlot params)

def storedFrame (slot : Slot) : StoredFrame :=
  match slot.frame with
  | none => .cleared
  | some frame =>
    match StoredFrame.ofFrame frame with
    | .ok stored => stored
    | .error _ => .cleared

def snapshot (state : State) : Params where
  magic := Params.magicWord
  clock := state.clock
  activeSlot := UInt8.ofNat state.slots.active
  intervals := state.slots.table.map Slot.interval
  radioTx := state.slots.table.map Slot.radioTx
  advTx := state.slots.table.map Slot.advTx
  radioLevels := state.radioLevels
  advLevels := state.advLevels
  lockState := state.lock.state
  unlockKey := state.lock.key
  frames := state.slots.table.map storedFrame
  exponents := state.slots.table.map Slot.exponent
  keys := state.slots.table.map Slot.key
  remainConnectable := state.remainConnectable

/-! ## Time and telemetry -/

def currentTelemetry (state : State) (now : Nat) : Telemetry :=
  { state.telemetry with uptimeDs := Clock.uptimeDs now }

/-- Adds an event to those that wait, dropping the oldest if there are too many. -/
def enqueueEvent (event : Event) (state : State) : State :=
  let waiting := state.pendingEvents
  let waiting := if eventCapacity ≤ waiting.length then waiting.drop 1 else waiting
  { state with pendingEvents := waiting ++ [event] }

def drainEvents : Act State Unit := fun state =>
  ⟨(), { state with pendingEvents := [] }, state.pendingEvents.map Output.event⟩

/-! ## Identifiers -/

/-- What follows from a new identifier: a new address and a clock to save. -/
def noteRotation (slot : SlotIndex) (time : UInt32) (now : Nat) (state : State) : State :=
  let (address, rng) := state.rng.address
  enqueueEvent (.eidRotated slot time)
    { state with
      rng
      pendingAddress := some address
      clock := state.clock.record now
      clockDirty := true }

/-- Computes a new identifier for a slot if it is due, and tells whether it did. -/
def rotateIfDue (slot now : Nat) : Act State Bool := do
  if h : slot < 3 then
    let i : SlotIndex := ⟨slot, h⟩
    let state ← get
    let held := state.slots.table.value i
    let time := state.clock.time now
    match held.frame with
    | some (.eid tx _) =>
      if time < held.nextRotation then return false
      else
        match Ephemeral.identifier held.key held.exponent time with
        | .error fault =>
          Act.note (.identifierNotComputed slot fault)
          return false
        | .ok id =>
          let next := saturate32 (time.toNat + Ephemeral.period held.exponent)
          set (noteRotation i time now
            { state with
              slots := state.slots.modify i fun s =>
                { s with frame := some (.eid tx id), nextRotation := next } })
          return true
    | _ => return false
  else return false

/-- Seals the telemetry under the key of the next slot with a changing identity, if there is
one. -/
def sealTelemetry (now : Nat) : Act State (Option SealedTelemetry) := do
  let state ← get
  match state.slots.nextEid? state.sealingCursor with
  | none => return none
  | some i =>
    let held := state.slots.table.value i
    let window := Ephemeral.window held.exponent (state.clock.time now)
    let (salt, rng) := state.rng.octets 2
    set { state with rng, sealingCursor := i.next }
    return some ((state.currentTelemetry now).encrypt held.key window salt)

/-- A telemetry frame for now, sealed if it can be. -/
def telemetryFrame (now : Nat) : Act State Frame := do
  match ← sealTelemetry now with
  | some telemetry => return .etlm telemetry
  | none => return .tlm ((← get).currentTelemetry now)

/-! ## Adverts -/

def liveFrame (slot now : Nat) : Act State (Option Frame) := do
  let _ ← rotateIfDue slot now
  match ((← get).slots.slot? slot).bind Slot.frame with
  | none => return none
  | some (.tlm _) => return some (← telemetryFrame now)
  | some frame => return some frame

def interval? (state : State) (slot : Nat) : Option UInt16 :=
  ((state.slots.slot? slot).filter Slot.isBroadcast).map Slot.interval

def prepare (slot now : Nat) : Act State (Option PreparedAdvert) := do
  match ← liveFrame slot now with
  | none => return none
  | some frame =>
    match Advert.ofFrame frame with
    | .error fault =>
      Act.note (.payloadNotBuilt slot fault)
      return none
    | .ok payload =>
      let state ← get
      match state.slots.slot? slot with
      | none => return none
      | some held =>
        set { state with pendingAddress := none }
        return some {
          payload
          radioTx := held.radioTx
          connectable := state.remainConnectable
          newAddress := state.pendingAddress }

def countAdvert (state : State) : State :=
  { state with telemetry := { state.telemetry with pduCount := state.telemetry.pduCount + 1 } }

instance : AdvertProvider State where
  interval? := interval?
  prepare := prepare
  transmitted _ := countAdvert

end State

end Beacon

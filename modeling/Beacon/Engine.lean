import Beacon.Attribute.Access

/-!
# The engine

The engine joins the scheduler and the state and knows the mode of the beacon.
In configuration mode it advertises the configuration service for some time and
then starts beaconing; while a central is connected it is off air; after that it
waits a moment and beacons again.

What needs the store is in `Beacon.Device`.
-/

namespace Beacon

structure Engine where
  scheduler : Scheduler
  state : State
  mode : Mode
  /-- The end of configuration mode. -/
  configTimer : Option TimerId
  /-- The end of the pause after a connection. -/
  resumeTimer : Option TimerId
  /-- A central has changed something since the parameters were last saved. -/
  paramsDirty : Bool

namespace Engine

variable {α : Type}

def ofState (radio : Radio) (state : State) : Engine where
  scheduler := .ofRadio radio
  state := state
  mode := .idle
  configTimer := none
  resumeTimer := none
  paramsDirty := false

def onScheduler (action : Act Scheduler α) : Act Engine α :=
  action.within Engine.scheduler fun e scheduler => { e with scheduler }

def onState (action : Act State α) : Act Engine α :=
  action.within Engine.state fun e state => { e with state }

/-- An action of the scheduler with the state as the source of adverts. -/
def onAir (action : Act (Scheduler × State) α) : Act Engine α :=
  action.within (fun e => (e.scheduler, e.state)) fun e (scheduler, state) =>
    { e with scheduler, state }

def onRadio (action : Act Radio α) : Act Engine α :=
  onScheduler (Scheduler.onRadio action)

def onTimers (action : Act TimerQueue α) : Act Engine α :=
  onScheduler (Scheduler.onTimers action)

def nextDeadline? (e : Engine) : Option Nat :=
  e.scheduler.timers.nextDeadline?

/-! ## Modes -/

/-- Enters a mode and reports it, unless it is the present one. -/
def setMode (mode : Mode) : Act Engine Unit := do
  let e ← get
  if e.mode = mode then pure ()
  else
    set { e with mode }
    Act.note (.modeChanged e.mode mode)
    Act.emit (.modeChanged e.mode mode)

def cancelModeTimers (e : Engine) : Engine :=
  { e with
    scheduler :=
      { e.scheduler with
        timers := (e.scheduler.timers.cancel? e.configTimer).cancel? e.resumeTimer }
    configTimer := none
    resumeTimer := none }

def leaveMode : Act Engine Unit := do
  modify cancelModeTimers
  onScheduler Scheduler.stop

/-- What goes on air in configuration mode: the scan response and the payload. -/
def configAdvert (state : State) : Except Fault (Bytes × Bytes) := do
  if state.config.configInterval = 0 then throw .invalidInterval
  let address ← Url.compress state.config.configUrl
  let scan ← Advert.scanResponse state.config.deviceName (.url state.advLevels.top address)
  let payload ← Advert.ofConfigService
  return (scan, payload)

/-- A call to the radio whose refusal is the engine's own. -/
def askRadio (call : RadioCall) : Act Engine (Except Fault Unit) := do
  match ← onRadio (Radio.ask call) with
  | .error fault => return .error (.radio fault)
  | .ok () => return .ok ()

/-- Starts an advert that can be connected to, with full power. -/
def startConnectable (payload : Bytes) : Act Engine (Except Fault Unit) := do
  let e ← get
  onRadio (Radio.tell (.txPower e.state.radioLevels.top))
  onRadio (Radio.tell (.interval e.state.config.configInterval))
  onRadio (Radio.tell (.connectable true))
  askRadio (.start payload)

def startConfigAdvert (scan payload : Bytes) : Act Engine (Except Fault Unit) := do
  match ← askRadio (.scanResponse scan) with
  | .error fault => return .error fault
  | .ok () => startConnectable payload

def enterConfig (scan payload : Bytes) (now : Nat) : Act Engine (Except Fault Unit) := do
  match ← startConfigAdvert scan payload with
  | .error fault => return .error fault
  | .ok () =>
    let seconds := (← get).state.config.configTimeout.toNat
    let handle ← onTimers (TimerQueue.postIn now (seconds * 1000) .configTimeout)
    modify fun e => { e with configTimer := handle }
    Act.note (.configMode seconds)
    setMode .config
    return .ok ()

def startConfig (now : Nat) : Act Engine (Except Fault Unit) := do
  match configAdvert (← get).state with
  | .error fault => return .error fault
  | .ok (scan, payload) =>
    leaveMode
    enterConfig scan payload now

def clearScanResponse : Act Engine Unit := do
  match ← onRadio (Radio.ask (.scanResponse [])) with
  | .ok () => pure ()
  | .error fault => Act.note (.scanResponseKept fault)

/-- Has the slots take turns on air, or is idle if none is to be broadcast. -/
def enterBeacon (now : Nat) : Act Engine (Except Fault Unit) := do
  match ← onAir (Scheduler.start now) with
  | .error fault =>
    setMode .idle
    return .error fault
  | .ok () =>
    setMode .beacon
    onState State.drainEvents
    return .ok ()

def startBeacon (now : Nat) : Act Engine (Except Fault Unit) := do
  leaveMode
  clearScanResponse
  enterBeacon now

def stop : Act Engine Unit := do
  leaveMode
  setMode .idle

def awaitResume (now : Nat) : Act Engine Unit := do
  let delay := (← get).state.config.resumeDelay.toNat
  let handle ← onTimers (TimerQueue.postIn now delay .resumeBeacon)
  modify fun e => { e with resumeTimer := handle }
  setMode .idle

/-- Beacons, or goes back to configuration mode if no slot is to be broadcast. -/
def startBeaconOrConfig (now : Nat) : Act Engine Unit := do
  match ← startBeacon now with
  | .ok () => pure ()
  | .error fault =>
    Act.note (.beaconUnavailable fault)
    match ← startConfig now with
    | .ok () => pure ()
    | .error fault => Act.note (.configUnavailable fault)

/-! ## Timers -/

def perform (task : Task) (now : Nat) : Act Engine Unit := do
  match task with
  | .enqueue slot => onAir (Scheduler.enqueue slot now)
  | .manageRadio => onAir (Scheduler.manageRadio now)
  | .configTimeout =>
    modify fun e => { e with configTimer := none }
    Act.note .configTimeout
    startBeaconOrConfig now
  | .resumeBeacon =>
    modify fun e => { e with resumeTimer := none }
    startBeaconOrConfig now

def fireOne (now : Nat) : Act Engine (Option Task) := do
  match ← onTimers (TimerQueue.popDue now) with
  | none => return none
  | some (_, task) =>
    perform task now
    return some task

def poll (now : Nat) : Act Engine Unit := do
  let _ ← Act.gather (fireOne now)
  onState State.drainEvents

/-- Polls at the next deadline, if it lies before the given time. -/
def pollNext (limit : Nat) : Act Engine (Option Nat) := do
  match (← get).nextDeadline? with
  | none => return none
  | some deadline =>
    if deadline < limit then
      poll deadline
      return some deadline
    else return none

/-- Polls at every deadline on the way to a time and then at that time; gives the number of polls
on the way. -/
def runUntil (now : Nat) : Act Engine Nat := do
  let polls ← Act.gather (pollNext now)
  poll now
  return polls.length

/-! ## Requests of a central -/

def readAttribute (attr : Attribute) (now : Nat) : Act Engine (Except Fault Bytes) := do
  let result ← onState (attr.read now)
  onState State.drainEvents
  return result

def rearm (slot now : Nat) : Act Engine Unit := do
  let e ← get
  if e.mode = .beacon then onScheduler (Scheduler.rearm e.state slot now)

def restart (now : Nat) : Act Engine Unit := do
  match ← startBeacon now with
  | .ok () => pure ()
  | .error fault => Act.note (.restartFailed fault)

def follow (effect : WriteEffect) (now : Nat) : Act Engine Unit := do
  match effect with
  | .none => pure ()
  | .intervalChanged slot => rearm slot now
  | .slotChanged slot =>
    rearm slot now
    Act.emit (.slotUpdated slot)
  | .lock state => Act.emit (.lockChanged state)
  | .factoryReset =>
    Act.emit .factoryReset
    if (← get).mode = .beacon then restart now

def writeAttribute (attr : Attribute) (offset : Nat) (data : Bytes) (now : Nat) :
    Act Engine (Except Fault Unit) := do
  match ← onState (attr.write offset data now) with
  | .error fault =>
    Act.note (.writeRejected attr fault)
    Act.emit (.writeRejected attr)
    return .error fault
  | .ok effect =>
    modify fun e => { e with paramsDirty := true }
    follow effect now
    onState State.drainEvents
    return .ok ()

/-! ## Measurements -/

def setBattery (millivolts : UInt16) (e : Engine) : Engine :=
  { e with state.telemetry.batteryMv := millivolts }

def setTemperature (temperature : Int16) (e : Engine) : Engine :=
  { e with state.telemetry.temperature := temperature }

end Engine

end Beacon

import Beacon.Engine
import Beacon.Store

/-!
# The device

A device is an engine together with the store that it keeps its parameters in.
It starts from what the store holds and saves what a central has changed, and
after a rotation at least the clock.
-/

namespace Beacon

inductive Command where
  | startConfig
  | startBeacon
  | stop
  | updateBattery (millivolts : UInt16)
  | updateTemperature (temperature : Int16)
  | saveParams
  deriving DecidableEq, Repr

abbrev Device := Engine × Store

namespace Device

variable {α : Type}

def onEngine (action : Act Engine α) : Act Device α :=
  Act.onFst action

def onStore (action : Act Store α) : Act Device α :=
  Act.onSnd action

/-! ## Saving -/

def persist (now : Nat) : Act Device Bool := do
  modify fun (e, store) =>
    ({ e with state := { e.state with clock := e.state.clock.record now, clockDirty := false } },
      store)
  let (e, _) ← get
  match ← onStore (Store.save e.state.snapshot) with
  | .ok () =>
    modify fun (e, store) => ({ e with paramsDirty := false }, store)
    Act.note .paramsSaved
    return true
  | .error fault =>
    Act.note (.paramsNotSaved fault)
    return false

def saveClockIfDirty : Act Device Bool := do
  let (e, store) ← get
  if e.state.clockDirty then
    set ({ e with state := { e.state with clockDirty := false } }, store)
    match ← onStore (Store.saveClock e.state.clock) with
    | .ok () => return true
    | .error fault =>
      Act.note (.timeNotSaved fault)
      return false
  else return false

/-- Saves what has changed and tells whether anything was written. -/
def saveIfDirty (now : Nat) : Act Device Bool := do
  if (← get).1.paramsDirty then persist now else saveClockIfDirty

/-! ## Starting -/

def adopt (loaded : Except StoreFault (Option Params)) : Act State Unit := do
  match loaded with
  | .ok (some params) =>
    State.restore params
    modify fun state => { state with clock := state.clock.boot }
    Act.note (.paramsRestored (← get).clock.prior)
  | .ok none => Act.note .noStoredParams
  | .error fault => Act.note (.paramsUnreadable fault)
  modify fun state => { state with slots := state.slots.resetRotations }

/-- Starts an engine from what is stored.  Nothing goes on air yet. -/
def boot (radio : Radio) (config : Config) (entropy : Option (Octets 32)) (now : Nat) :
    Act Store (Except Fault Engine) := do
  match State.ofConfig config entropy radio.minInterval radio.maxInterval with
  | .error fault => return .error fault
  | .ok state =>
    let loaded ← Store.load
    let ((), state) ← Act.starting state (Act.onFst (adopt loaded))
    let (_, engine) ← Act.starting (Engine.ofState radio state) (persist now)
    return .ok engine

/-! ## Notifications and commands -/

/-- Saves what a central may have changed and lets some time pass before beaconing again. -/
def pause (now : Nat) : Act Device Unit := do
  let _ ← persist now
  onEngine (Engine.awaitResume now)

def radioEvent (event : RadioEvent) (now : Nat) : Act Device Unit := do
  let mode := (← get).1.mode
  match event, mode with
  | .connected, _ =>
    onEngine Engine.leaveMode
    onEngine (Engine.setMode .connected)
  | .disconnected, .connected => pause now
  | .advertisingStarted, .config => Act.note .advertisingStarted
  | .advertisingStarted, .beacon => Act.note .advertisingStarted
  | .advertisingStopped, _ => Act.note .advertisingStopped
  | _, _ =>
    Act.note (.unexpected event mode)
    Act.emit .unexpectedRadioEvent

def command (command : Command) (now : Nat) : Act Device (Except Fault Unit) := do
  match command with
  | .startConfig => onEngine (Engine.startConfig now)
  | .startBeacon => onEngine (Engine.startBeacon now)
  | .stop =>
    onEngine Engine.stop
    return .ok ()
  | .updateBattery millivolts =>
    modify fun (e, store) => (e.setBattery millivolts, store)
    return .ok ()
  | .updateTemperature temperature =>
    modify fun (e, store) => (e.setTemperature temperature, store)
    return .ok ()
  | .saveParams =>
    let _ ← persist now
    return .ok ()

end Device

end Beacon

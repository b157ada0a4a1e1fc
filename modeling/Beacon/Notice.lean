import Beacon.Event
import Beacon.Task

/-!
# Notices

Every line that the beacon can write to its log, as data.  `Notice.line` gives
the level and the text of a notice, `Event.line` those of an event.
-/

namespace Beacon

inductive Level where
  | info
  | warn
  | debug
  deriving DecidableEq, Repr

def Level.name : Level → String
  | .info => "INFO"
  | .warn => "WARN"
  | .debug => "DEBUG"

structure Line where
  level : Level
  text : String
  deriving DecidableEq, Repr

def Line.render (line : Line) : String :=
  line.level.name ++ " " ++ line.text

inductive Notice where
  -- timers
  | timersFull (task : Task)
  -- scheduler
  | noSlotToBroadcast
  | slotArmed (slot : Nat) (interval : UInt16)
  | slotRearmed (slot : Nat) (interval : UInt16)
  | slotDisarmed (slot : Nat)
  | slotSkipped (slot : Nat)
  | addressRefused (fault : RadioFault)
  | slotOnAir (slot : Nat)
  | slotRefused (slot : Nat) (fault : RadioFault)
  | slotSilent (slot : Nat)
  -- state
  | stateReset
  | activeSlotOutOfRange (slot : UInt8)
  | frameUnreadable (slot : Nat) (fault : Fault)
  | identifierNotComputed (slot : Nat) (fault : Fault)
  | payloadNotBuilt (slot : Nat) (fault : Fault)
  -- lock
  | noChallenge
  | tokenMismatch
  | unlocked
  | unlockKeyReplaced
  -- attributes
  | readRefused (attr : Attribute)
  | writeRefused (attr : Attribute)
  | slotCleared (slot : Nat)
  | slotHolds (slot : Nat) (kind : Option FrameKind)
  -- engine
  | paramsRestored (time : UInt32)
  | noStoredParams
  | paramsUnreadable (fault : StoreFault)
  | configMode (seconds : Nat)
  | scanResponseKept (fault : RadioFault)
  | configTimeout
  | advertisingStarted
  | advertisingStopped
  | unexpected (event : RadioEvent) (mode : Mode)
  | writeRejected (attr : Attribute) (fault : Fault)
  | restartFailed (fault : Fault)
  | timeNotSaved (fault : StoreFault)
  | modeChanged (old new : Mode)
  | beaconUnavailable (fault : Fault)
  | configUnavailable (fault : Fault)
  | paramsSaved
  | paramsNotSaved (fault : StoreFault)
  -- flash
  | flashReady
  | flashEmpty
  | flashForeign
  | flashTimeCorrupted
  | flashLoaded (size : Nat)
  | flashSaved (size : Nat)
  -- radio
  | radioUp (name : String)
  | answered (attr : Attribute) (status : UInt8) (size : Nat)
  deriving DecidableEq, Repr

def Notice.line : Notice → Line
  | .timersFull task => ⟨.warn, s!"TimerQueue: full, dropping {task.name}"⟩
  | .noSlotToBroadcast => ⟨.warn, "Scheduler: no slot has a nonzero interval"⟩
  | .slotArmed slot interval => ⟨.info, s!"Scheduler: slot {slot} armed every {interval} ms"⟩
  | .slotRearmed slot interval => ⟨.info, s!"Scheduler: slot {slot} re-armed every {interval} ms"⟩
  | .slotDisarmed slot => ⟨.info, s!"Scheduler: slot {slot} disarmed"⟩
  | .slotSkipped slot => ⟨.warn, s!"Scheduler: broadcast queue full, slot {slot} skipped"⟩
  | .addressRefused fault => ⟨.warn, s!"Scheduler: address change failed: {fault.message}"⟩
  | .slotOnAir slot => ⟨.debug, s!"Scheduler: slot {slot} on air"⟩
  | .slotRefused slot fault =>
    ⟨.warn, s!"Scheduler: slot {slot} advertising failed: {fault.message}"⟩
  | .slotSilent slot => ⟨.debug, s!"Scheduler: slot {slot} has nothing to send"⟩
  | .stateReset => ⟨.info, "State: factory reset"⟩
  | .activeSlotOutOfRange slot => ⟨.warn, s!"State: stored active slot {slot} out of range"⟩
  | .frameUnreadable slot fault =>
    ⟨.warn, s!"State: slot {slot} frame unreadable ({fault.message}), cleared"⟩
  | .identifierNotComputed slot fault =>
    ⟨.warn, s!"State: slot {slot} EID not computed: {fault.message}"⟩
  | .payloadNotBuilt slot fault =>
    ⟨.warn, s!"State: slot {slot} payload not built: {fault.message}"⟩
  | .noChallenge => ⟨.warn, "lock: unlock attempted without a challenge"⟩
  | .tokenMismatch => ⟨.warn, "lock: unlock token mismatch"⟩
  | .unlocked => ⟨.info, "lock: unlocked"⟩
  | .unlockKeyReplaced => ⟨.info, "lock: unlock key replaced"⟩
  | .readRefused attr => ⟨.warn, s!"Config: read of {attr.name} refused while locked"⟩
  | .writeRefused attr => ⟨.warn, s!"Config: write of {attr.name} refused while locked"⟩
  | .slotCleared slot => ⟨.info, s!"Config: slot {slot} cleared"⟩
  | .slotHolds slot none => ⟨.info, s!"Config: slot {slot} now None"⟩
  | .slotHolds slot (some kind) => ⟨.info, s!"Config: slot {slot} now Some({kind.name})"⟩
  | .paramsRestored time => ⟨.info, s!"Engine: params restored, beacon time {time} s"⟩
  | .noStoredParams => ⟨.info, "Engine: no stored params, using defaults"⟩
  | .paramsUnreadable fault =>
    ⟨.warn, s!"Engine: params unreadable ({fault.message}), using defaults"⟩
  | .configMode seconds => ⟨.info, s!"Engine: configuration mode for {seconds} s"⟩
  | .scanResponseKept fault => ⟨.warn, s!"Engine: scan response not cleared: {fault.message}"⟩
  | .configTimeout => ⟨.info, "Engine: configuration timeout"⟩
  | .advertisingStarted => ⟨.debug, "Engine: advertising started"⟩
  | .advertisingStopped => ⟨.debug, "Engine: advertising stopped"⟩
  | .unexpected event mode => ⟨.warn, s!"Engine: unexpected {event.name} in {mode.name}"⟩
  | .writeRejected attr fault =>
    ⟨.warn, s!"Engine: write to {attr.name} rejected: {fault.message}"⟩
  | .restartFailed fault => ⟨.warn, s!"Engine: restart after reset failed: {fault.message}"⟩
  | .timeNotSaved fault => ⟨.warn, s!"Engine: time save failed: {fault.message}"⟩
  | .modeChanged old new => ⟨.info, s!"Engine: {old.name} -> {new.name}"⟩
  | .beaconUnavailable fault =>
    ⟨.warn, s!"Engine: beacon mode unavailable ({fault.message}), staying configurable"⟩
  | .configUnavailable fault => ⟨.warn, s!"Engine: configuration mode failed: {fault.message}"⟩
  | .paramsSaved => ⟨.info, "Engine: params saved"⟩
  | .paramsNotSaved fault => ⟨.warn, s!"Engine: params save failed: {fault.message}"⟩
  | .flashReady => ⟨.info, "NvsAdapter: simulation backend"⟩
  | .flashEmpty => ⟨.info, "NvsAdapter: no stored params"⟩
  | .flashForeign => ⟨.warn, "NvsAdapter: params blob has a foreign signature, ignoring"⟩
  | .flashTimeCorrupted => ⟨.warn, "NvsAdapter: time blob corrupted, using params copy"⟩
  | .flashLoaded size => ⟨.info, s!"NvsAdapter: loaded params ({size} bytes)"⟩
  | .flashSaved size => ⟨.info, s!"NvsAdapter: params saved ({size} bytes)"⟩
  | .radioUp name => ⟨.info, s!"BLE(sim): radio up as '{name}'"⟩
  | .answered attr status size =>
    ⟨.info, s!"BLE(sim): {attr.name} -> status {hexByte status}, {size} bytes"⟩

def Event.line : Event → Line
  | .modeChanged old new => ⟨.info, s!"MODE | {old.name} -> {new.name}"⟩
  | .eidRotated slot time => ⟨.info, s!"EID  | slot={slot} rotated at t={time}s"⟩
  | .slotUpdated slot => ⟨.info, s!"SLOT | slot={slot} updated"⟩
  | .lockChanged state => ⟨.info, s!"LOCK | {state.name}"⟩
  | .writeRejected attr => ⟨.warn, s!"CFG  | rejected write to {attr.name}"⟩
  | .factoryReset => ⟨.info, "CFG  | factory reset"⟩
  | .unexpectedRadioEvent => ⟨.warn, "RADIO| unexpected callback"⟩

end Beacon

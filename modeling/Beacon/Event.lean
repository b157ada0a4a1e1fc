import Beacon.Attribute
import Beacon.Lock.State

/-!
# Modes and events

The engine is in one of four modes and reports what happens to it as events.
The radio stack in turn reports to the engine.
-/

namespace Beacon

inductive Mode where
  | idle
  | config
  | beacon
  | connected
  deriving DecidableEq, Repr

def Mode.name : Mode → String
  | .idle => "Idle"
  | .config => "Config"
  | .beacon => "Beacon"
  | .connected => "Connected"

inductive RadioEvent where
  | connected
  | disconnected
  | advertisingStarted
  | advertisingStopped
  deriving DecidableEq, Repr

def RadioEvent.name : RadioEvent → String
  | .connected => "Connected"
  | .disconnected => "Disconnected"
  | .advertisingStarted => "AdvertisingStarted"
  | .advertisingStopped => "AdvertisingStopped"

inductive Event where
  | modeChanged (old new : Mode)
  | eidRotated (slot : Nat) (time : UInt32)
  | slotUpdated (slot : Nat)
  | lockChanged (state : LockState)
  | writeRejected (attr : Attribute)
  | factoryReset
  | unexpectedRadioEvent
  deriving DecidableEq, Repr

end Beacon

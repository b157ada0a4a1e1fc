import Beacon.Config.Json
import Beacon.Json.Printer

/-!
# Written configurations

A configuration as a document: an object with all of its fields in order.
-/

namespace Beacon.Config

def value (config : Config) : (field : Field) → field.Value
  | .slotKinds => config.slotKinds
  | .slotIntervals => config.slotIntervals
  | .slotRadioTx => config.slotRadioTx
  | .slotExponents => config.slotExponents
  | .slotUrls => config.slotUrls
  | .slotUids => config.slotUids
  | .slotKeys => config.slotKeys
  | .radioLevels => config.radioLevels
  | .advLevels => config.advLevels
  | .unlockKey => config.unlockKey
  | .lockState => config.lockState
  | .deviceName => config.deviceName
  | .configUrl => config.configUrl
  | .configInterval => config.configInterval
  | .configTimeout => config.configTimeout
  | .resumeDelay => config.resumeDelay
  | .remainConnectable => config.remainConnectable

namespace Field

open Json (quote each)

def writeByte (n : UInt8) : String := toString n.toNat

def writeSignedByte (n : Int8) : String := toString n.toInt

def write : (field : Field) → field.Value → String
  | .slotKinds, kinds => each (quote ·.name) kinds
  | .slotIntervals, intervals => each (toString ·.toNat) intervals
  | .slotRadioTx, powers => each writeSignedByte powers
  | .slotExponents, exponents => each writeByte exponents
  | .slotUrls, urls => each quote urls
  | .slotUids, ids => each (each writeByte) ids
  | .slotKeys, keys => each (each writeByte) keys
  | .radioLevels, levels => each writeSignedByte levels
  | .advLevels, levels => each writeSignedByte levels
  | .unlockKey, key => each writeByte key
  | .lockState, state => quote state.name
  | .deviceName, name => quote name
  | .configUrl, url => quote url
  | .configInterval, interval => toString interval.toNat
  | .configTimeout, timeout => toString timeout.toNat
  | .resumeDelay, delay => toString delay.toNat
  | .remainConnectable, on => if on then "true" else "false"

end Field

/-- A configuration as a document that reads back to it. -/
def toJson (config : Config) : String :=
  let member (field : Field) : String :=
    Json.quote field.name ++ ":" ++ field.write (config.value field)
  "\x7b" ++ ",".intercalate (Field.all.map member) ++ "\x7d"

end Beacon.Config

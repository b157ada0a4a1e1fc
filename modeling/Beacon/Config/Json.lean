import Beacon.Config
import Beacon.Json

/-!
# Configuration documents

A board can bring its configuration as a JSON object with one member for each
field, or as an array of all fields in order.  Members with other names are
skipped; a field that is missing, given twice or of the wrong form makes the
document malformed.
-/

namespace Beacon.Config

/-- The fields of a configuration, in the order of an array. -/
inductive Field where
  | slotKinds | slotIntervals | slotRadioTx | slotExponents | slotUrls | slotUids | slotKeys
  | radioLevels | advLevels | unlockKey | lockState | deviceName | configUrl | configInterval
  | configTimeout | resumeDelay | remainConnectable
  deriving DecidableEq, Repr

namespace Field

def all : List Field := [
  .slotKinds, .slotIntervals, .slotRadioTx, .slotExponents, .slotUrls, .slotUids, .slotKeys,
  .radioLevels, .advLevels, .unlockKey, .lockState, .deviceName, .configUrl, .configInterval,
  .configTimeout, .resumeDelay, .remainConnectable]

def name : Field → String
  | .slotKinds => "slot_kinds"
  | .slotIntervals => "slot_intervals_ms"
  | .slotRadioTx => "slot_radio_tx_dbm"
  | .slotExponents => "slot_eid_exponents"
  | .slotUrls => "slot_urls"
  | .slotUids => "slot_uids"
  | .slotKeys => "slot_eid_keys"
  | .radioLevels => "radio_tx_levels"
  | .advLevels => "adv_tx_levels"
  | .unlockKey => "unlock_key"
  | .lockState => "lock_state"
  | .deviceName => "device_name"
  | .configUrl => "config_url"
  | .configInterval => "config_adv_interval_ms"
  | .configTimeout => "config_timeout_secs"
  | .resumeDelay => "resume_delay_ms"
  | .remainConnectable => "remain_connectable"

def ofName? (name : String) : Option Field :=
  all.find? (·.name = name)

abbrev Value : Field → Type
  | .slotKinds => PerSlot FrameKind
  | .slotIntervals => PerSlot UInt16
  | .slotRadioTx => PerSlot Int8
  | .slotExponents => PerSlot UInt8
  | .slotUrls => PerSlot String
  | .slotUids => PerSlot (Octets 16)
  | .slotKeys => PerSlot Key
  | .radioLevels => PowerLevels
  | .advLevels => PowerLevels
  | .unlockKey => Key
  | .lockState => LockState
  | .deviceName => String
  | .configUrl => String
  | .configInterval => UInt16
  | .configTimeout => UInt32
  | .resumeDelay => UInt32
  | .remainConnectable => Bool

open Json (Reader integerBetween array text boolean choice)

def readByte : Reader UInt8 := fun cs => do
  let (n, rest) ← integerBetween 0 255 cs
  return (UInt8.ofNat n.toNat, rest)

def readSignedByte : Reader Int8 := fun cs => do
  let (n, rest) ← integerBetween (-128) 127 cs
  return (Int8.ofInt n, rest)

def readWord16 : Reader UInt16 := fun cs => do
  let (n, rest) ← integerBetween 0 65535 cs
  return (UInt16.ofNat n.toNat, rest)

def readWord32 : Reader UInt32 := fun cs => do
  let (n, rest) ← integerBetween 0 4294967295 cs
  return (UInt32.ofNat n.toNat, rest)

def readKind : Reader FrameKind :=
  choice fun name => [FrameKind.uid, .url, .tlm, .eid].find? (·.name = name)

def readLockState : Reader LockState :=
  choice fun name =>
    [LockState.locked, .unlocked, .unlockedAutoRelockDisabled].find? (·.name = name)

def read : (field : Field) → Reader field.Value
  | .slotKinds => array 2 readKind
  | .slotIntervals => array 2 readWord16
  | .slotRadioTx => array 2 readSignedByte
  | .slotExponents => array 2 readByte
  | .slotUrls => array 2 text
  | .slotUids => array 2 (array 15 readByte)
  | .slotKeys => array 2 (array 15 readByte)
  | .radioLevels => array 3 readSignedByte
  | .advLevels => array 3 readSignedByte
  | .unlockKey => array 15 readByte
  | .lockState => readLockState
  | .deviceName => text
  | .configUrl => text
  | .configInterval => readWord16
  | .configTimeout => readWord32
  | .resumeDelay => readWord32
  | .remainConnectable => boolean

end Field

/-- The fields that have been read so far. -/
def Draft : Type :=
  (field : Field) → Option field.Value

namespace Draft

def empty : Draft :=
  fun _ => none

def insert (draft : Draft) (field : Field) (value : field.Value) : Option Draft :=
  match draft field with
  | some _ => none
  | none => some fun other => if h : other = field then some (h ▸ value) else draft other

def complete (draft : Draft) : Option Config := do
  return {
    slotKinds := ← draft .slotKinds
    slotIntervals := ← draft .slotIntervals
    slotRadioTx := ← draft .slotRadioTx
    slotExponents := ← draft .slotExponents
    slotUrls := ← draft .slotUrls
    slotUids := ← draft .slotUids
    slotKeys := ← draft .slotKeys
    radioLevels := ← draft .radioLevels
    advLevels := ← draft .advLevels
    unlockKey := ← draft .unlockKey
    lockState := ← draft .lockState
    deviceName := ← draft .deviceName
    configUrl := ← draft .configUrl
    configInterval := ← draft .configInterval
    configTimeout := ← draft .configTimeout
    resumeDelay := ← draft .resumeDelay
    remainConnectable := ← draft .remainConnectable }

def readField (draft : Draft) (field : Field) : Json.Reader Draft := fun cs => do
  let (value, rest) ← field.read cs
  return (← draft.insert field value, rest)

def readMember (draft : Draft) (name : String) : Json.Reader Draft := fun cs =>
  match Field.ofName? name with
  | some field => draft.readField field cs
  | none => do return (draft, ← Json.skipValue cs)

/-- Reads members up to the closing bracket; each takes at least one character. -/
def readMembers : (fuel : Nat) → Draft → Json.Reader Draft
  | 0, _, _ => none
  | fuel + 1, draft, cs => do
    let (name, rest) ← Json.text cs
    let (draft, rest) ← draft.readMember name (← Json.expect ':' rest)
    match Json.skipBlanks rest with
    | ',' :: rest => readMembers fuel draft rest
    | '}' :: rest => return (draft, rest)
    | _ => none

/-- Reads fields in order, each after a comma, up to the closing bracket. -/
def readItems : List Field → Draft → Json.Reader Draft
  | [], draft, cs => do return (draft, ← Json.expect ']' cs)
  | field :: fields, draft, cs => do
    let (draft, rest) ← draft.readField field (← Json.expect ',' cs)
    readItems fields draft rest

/-- Reads an object of members or an array of all fields. -/
def read : Json.Reader Draft := fun cs =>
  match Json.skipBlanks cs with
  | '{' :: rest => readMembers rest.length empty rest
  | '[' :: rest => do
    let (draft, rest) ← empty.readField .slotKinds rest
    readItems Field.all.tail draft rest
  | _ => none

end Draft

def parse? (json : String) : Option Config := do
  let (draft, rest) ← Draft.read json.toList
  let config ← draft.complete
  if Json.skipBlanks rest = [] then return config else none

def ofJson (json : String) : Except Fault Config :=
  match parse? json with
  | none => .error (.config .malformedJson)
  | some config => do
    config.validate
    return config

end Beacon.Config

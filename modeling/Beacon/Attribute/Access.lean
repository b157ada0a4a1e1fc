import Beacon.State

/-!
# Reading and writing attributes

A request of a central passes the lock first and the check of its offset next;
only then does the attribute itself see it.  While the beacon is locked only
the lock state can be read, and the lock can be tried.
-/

namespace Beacon

inductive WriteEffect where
  | none
  | intervalChanged (slot : SlotIndex)
  | slotChanged (slot : SlotIndex)
  | lock (state : LockState)
  | factoryReset
  deriving DecidableEq, Repr

namespace Attribute

/-- The longest value: slot data with the key of a resolver. -/
def maxLength : Nat := 34

def readableWhileLocked : Attribute → Bool
  | .lockState => true
  | .unlock => true
  | _ => false

def writableWhileLocked : Attribute → Bool
  | .unlock => true
  | _ => false

/-- Version, number of slots twice, abilities, frame types and the output levels. -/
def capabilitiesValue (levels : PowerLevels) : Bytes :=
  [0x00, 3, 3, 0x03, 0x00, 0x0F] ++ levels.toList.map Int8.toUInt8

def onLock {α : Type} (action : Act (Lock × Drbg) α) : Act State α :=
  action.within (fun state => (state.lock, state.rng)) fun state (lock, rng) =>
    { state with lock, rng }

/-! ## Reading -/

/-- A slot with a changing identity reads as its exponent, the beacon time and the identifier. -/
def readEid (now : Nat) : Act State (Except Fault Bytes) := do
  let _ ← State.rotateIfDue (← get).slots.active now
  let state ← get
  let slot := state.slots.activeSlot
  match slot.frame with
  | some (.eid _ id) =>
    return .ok (FrameKind.eid.code :: slot.exponent ::
      (Bytes.bigEndian 4 (state.clock.time now).toNat ++ id.toList))
  | _ => return .error .notPermitted

def readSlotData (now : Nat) : Act State (Except Fault Bytes) := do
  match (← get).slots.activeSlot.frame with
  | none => return .ok []
  | some frame =>
    match frame.kind with
    | .eid => readEid now
    | .tlm => return (← State.telemetryFrame now).slotData
    | .uid => return frame.slotData
    | .url => return frame.slotData

def readValue (attr : Attribute) (now : Nat) : Act State (Except Fault Bytes) := do
  let state ← get
  let slot := state.slots.activeSlot
  match attr with
  | .capabilities => return .ok (capabilitiesValue state.radioLevels)
  | .activeSlot => return .ok [UInt8.ofNat state.slots.active]
  | .advInterval => return .ok (Bytes.bigEndian 2 slot.interval.toNat)
  | .radioTxPower => return .ok [slot.radioTx.toUInt8]
  | .advTxPower => return .ok [slot.advTx.toUInt8]
  | .lockState => return .ok [state.lock.state.code]
  | .unlock =>
    match ← onLock Lock.challenge with
    | .ok challenge => return .ok challenge.toList
    | .error fault => return .error fault
  | .publicEcdhKey => return .ok state.identity.publicKey.toList
  | .eidIdentityKey =>
    if slot.key.isZero then return .error .notPermitted
    else return .ok (Aes.encrypt state.lock.key slot.key).toList
  | .advSlotData => readSlotData now
  | .factoryReset => return .error .notPermitted
  | .remainConnectable => return .ok [if state.remainConnectable then 1 else 0]

def read (attr : Attribute) (now : Nat) : Act State (Except Fault Bytes) := do
  if (← get).lock.isLocked && !attr.readableWhileLocked then
    Act.note (.readRefused attr)
    return .error .notPermitted
  else
    readValue attr now

/-! ## Writing -/

def updateActive (f : Slot → Slot) : Act State Unit :=
  modify fun state => { state with slots := state.slots.modifyActive f }

def writeActiveSlot (data : Bytes) : Act State (Except Fault WriteEffect) := do
  match data with
  | [index] =>
    match (← get).slots.setActive index.toNat with
    | .ok slots =>
      modify fun state => { state with slots }
      return .ok .none
    | .error fault => return .error fault
  | _ => return .error .invalidLength

/-- A nonzero interval is brought within the limits of the radio. -/
def writeInterval (data : Bytes) : Act State (Except Fault WriteEffect) := do
  if data.length = 2 then
    let state ← get
    let wanted := UInt16.ofNat (Bytes.ofBigEndian data)
    let interval := if wanted = 0 then 0 else max state.minInterval (min wanted state.maxInterval)
    updateActive fun slot => { slot with interval }
    return .ok (.intervalChanged state.slots.active)
  else return .error .invalidLength

/-- The radio takes the next level it has; the power at the beacon follows. -/
def writeRadioTx (data : Bytes) : Act State (Except Fault WriteEffect) := do
  match data with
  | [raw] =>
    let state ← get
    let level := powerIndex state.radioLevels raw.toInt8
    updateActive fun slot =>
      { slot with radioTx := state.radioLevels[level] }.setAdvTx state.advLevels[level]
    return .ok .none
  | _ => return .error .invalidLength

def writeAdvTx (data : Bytes) : Act State (Except Fault WriteEffect) := do
  match data with
  | [raw] =>
    updateActive (Slot.setAdvTx raw.toInt8)
    return .ok .none
  | _ => return .error .invalidLength

def writeLock (data : Bytes) : Act State (Except Fault WriteEffect) := do
  match ← onLock (Act.onFst (Lock.write data)) with
  | .ok state => return .ok (.lock state)
  | .error fault => return .error fault

def writeUnlock (data : Bytes) : Act State (Except Fault WriteEffect) := do
  match ← onLock (Lock.respond data) with
  | .ok () => return .ok (.lock (← get).lock.state)
  | .error fault => return .error fault

def writeUid (payload : Bytes) : Act State (Except Fault Unit) := do
  if payload.length = 0 then
    updateActive Slot.clear
    return .ok ()
  else if payload.length = 16 then
    updateActive fun slot => { slot with frame := some (.uid slot.advTx (Bytes.octets 16 payload)) }
    return .ok ()
  else return .error .invalidLength

def writeUrl (payload : Bytes) : Act State (Except Fault Unit) := do
  if payload.length = 0 then
    updateActive Slot.clear
    return .ok ()
  else if Url.capacity < payload.length then return .error .invalidLength
  else
    match Url.expand payload, EncodedUrl.ofBytes payload with
    | .error fault, _ => return .error fault
    | _, .error fault => return .error fault
    | .ok _, .ok address =>
      updateActive fun slot => { slot with frame := some (.url slot.advTx address) }
      return .ok ()

def writeTlm (payload : Bytes) : Act State (Except Fault Unit) := do
  if payload.length = 0 then
    updateActive fun slot => { slot with frame := some (.tlm .initial) }
    return .ok ()
  else return .error .invalidLength

/-- The identity key that a written value brings: wrapped under the unlock key, or agreed on with
a resolver. -/
def identityKeyOf (state : State) (payload : Bytes) : Except Fault Key :=
  if payload.length = 17 then
    .ok (Aes.decrypt state.lock.key (Bytes.octets 16 payload))
  else if payload.length = 33 then
    state.identity.agree (Bytes.octets 32 payload)
  else .error .invalidLength

def writeEid (payload : Bytes) (now : Nat) : Act State (Except Fault Unit) := do
  if payload.length = 0 then
    updateActive Slot.clear
    return .ok ()
  else
    let exponent := payload.getLastD 0
    match identityKeyOf (← get) payload with
    | .error fault => return .error fault
    | .ok key =>
      if Ephemeral.maxExponent < exponent then
        return .error (.crypto (.invalidExponent exponent))
      else
        updateActive fun slot =>
          { slot with
            key, exponent
            nextRotation := 0
            frame := some (.eid slot.advTx (Octets.zero 8)) }
        modify fun state => { state with sealingCursor := state.slots.active }
        let _ ← State.rotateIfDue (← get).slots.active now
        return .ok ()

/-- Fills the active slot; an unknown frame type clears it. -/
def writeFrame (code : UInt8) (payload : Bytes) (now : Nat) : Act State (Except Fault Unit) := do
  match FrameKind.ofCode code with
  | .ok .uid => writeUid payload
  | .ok .url => writeUrl payload
  | .ok .tlm => writeTlm payload
  | .ok .eid => writeEid payload now
  | .error _ =>
    updateActive Slot.clear
    return .ok ()

def writeSlotData (data : Bytes) (now : Nat) : Act State (Except Fault WriteEffect) := do
  if maxLength < data.length then return .error .invalidLength
  else
    let active := (← get).slots.active
    match data with
    | [] =>
      updateActive Slot.clear
      Act.note (.slotCleared active)
      return .ok (.slotChanged active)
    | code :: payload =>
      match ← writeFrame code payload now with
      | .error fault => return .error fault
      | .ok () =>
        Act.note (.slotHolds active (← get).slots.activeSlot.kind?)
        return .ok (.slotChanged active)

def writeReset (data : Bytes) : Act State (Except Fault WriteEffect) := do
  match data with
  | [flag] =>
    if flag = 0 then return .ok .none
    else
      match ← State.factoryReset with
      | .ok () => return .ok .factoryReset
      | .error fault => return .error fault
  | _ => return .error .invalidLength

def writeConnectable (data : Bytes) : Act State (Except Fault WriteEffect) := do
  match data with
  | [flag] =>
    modify fun state => { state with remainConnectable := flag ≠ 0 }
    return .ok .none
  | _ => return .error .invalidLength

def writeValue (attr : Attribute) (data : Bytes) (now : Nat) :
    Act State (Except Fault WriteEffect) :=
  match attr with
  | .capabilities => pure (.error .notPermitted)
  | .activeSlot => writeActiveSlot data
  | .advInterval => writeInterval data
  | .radioTxPower => writeRadioTx data
  | .advTxPower => writeAdvTx data
  | .lockState => writeLock data
  | .unlock => writeUnlock data
  | .publicEcdhKey => pure (.error .notPermitted)
  | .eidIdentityKey => pure (.error .notPermitted)
  | .advSlotData => writeSlotData data now
  | .factoryReset => writeReset data
  | .remainConnectable => writeConnectable data

def write (attr : Attribute) (offset : Nat) (data : Bytes) (now : Nat) :
    Act State (Except Fault WriteEffect) := do
  if (← get).lock.isLocked && !attr.writableWhileLocked then
    Act.note (.writeRefused attr)
    return .error .notPermitted
  else if offset ≠ 0 then return .error .invalidOffset
  else writeValue attr data now

end Attribute

end Beacon

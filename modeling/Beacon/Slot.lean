import Beacon.Config

/-!
# Advertising slots

The beacon shares its radio between three slots.  A slot without a frame is
cleared; one with a frame and a nonzero interval is broadcast.  One slot is
active: it is the one that a central reads and writes.
-/

namespace Beacon

structure Slot where
  frame : Option Frame
  /-- Milliseconds between adverts; zero keeps the slot off air. -/
  interval : UInt16
  radioTx : Int8
  /-- The power a receiver would measure at the beacon. -/
  advTx : Int8
  exponent : UInt8
  /-- Beacon time from which a new identifier is due. -/
  nextRotation : UInt32
  key : Key
  deriving DecidableEq

namespace Slot

def kind? (slot : Slot) : Option FrameKind :=
  slot.frame.map Frame.kind

def isCleared (slot : Slot) : Bool :=
  slot.frame.isNone

def isBroadcast (slot : Slot) : Bool :=
  slot.frame.isSome && slot.interval ≠ 0

def isEid (slot : Slot) : Bool :=
  slot.kind? = some .eid

def clear (slot : Slot) : Slot :=
  { slot with frame := none }

/-- Sets the power at the beacon, also in the frame. -/
def setAdvTx (tx : Int8) (slot : Slot) : Slot :=
  { slot with advTx := tx, frame := slot.frame.map (Frame.setTx tx) }

end Slot

/-- The first level at or above the wanted one, or else the highest. -/
def powerIndex (levels : PowerLevels) (dbm : Int8) : Fin 4 :=
  (levels.findFinIdx? (dbm ≤ ·)).getD 3

structure Slots where
  table : PerSlot Slot
  active : SlotIndex
  deriving DecidableEq

namespace Slots

def factoryFrame (config : Config) (i : SlotIndex) (advTx : Int8) : Except Fault Frame :=
  match config.slotKinds.value i with
  | .uid => .ok (.uid advTx (config.slotUids.value i))
  | .url => Frame.url advTx <$> Url.compress (config.slotUrls.value i)
  | .tlm => .ok (.tlm .initial)
  | .eid => .ok (.eid advTx (Octets.zero 8))

def factorySlot (config : Config) (i : SlotIndex) : Except Fault Slot := do
  let level := powerIndex config.radioLevels (config.slotRadioTx.value i)
  let advTx := config.advLevels[level]
  let frame ← factoryFrame config i advTx
  return {
    frame := some frame
    interval := config.slotIntervals.value i
    radioTx := config.radioLevels[level]
    advTx := advTx
    exponent := config.slotExponents.value i
    nextRotation := 0
    key := config.slotKeys.value i }

def ofConfig (config : Config) : Except Fault Slots := do
  let first ← factorySlot config .first
  let second ← factorySlot config .second
  let third ← factorySlot config .third
  return { table := #v[first, second, third], active := .first }

def activeSlot (slots : Slots) : Slot :=
  slots.table.value slots.active

def slot? (slots : Slots) (i : Nat) : Option Slot :=
  slots.table[i]?

def modify (i : SlotIndex) (f : Slot → Slot) (slots : Slots) : Slots :=
  { slots with table := slots.table.put i (f (slots.table.value i)) }

def modifyActive (f : Slot → Slot) (slots : Slots) : Slots :=
  slots.modify slots.active f

def setActive (index : Nat) (slots : Slots) : Except Fault Slots :=
  if h : index < 3 then .ok { slots with active := ⟨index, h⟩ } else .error .invalidSlotIndex

def mapSlots (f : Slot → Slot) (slots : Slots) : Slots :=
  { slots with table := slots.table.map f }

def hasBroadcast (slots : Slots) : Bool :=
  slots.table.any Slot.isBroadcast

def isEid (slots : Slots) (i : Nat) : Bool :=
  (slots.slot? i).any Slot.isEid

/-- The first slot with a changing identity from `start` on, going round. -/
def nextEid? (slots : Slots) (start : Nat) : Option SlotIndex :=
  (SlotIndex.all.map fun offset => .around (start + offset)).find? fun i => slots.isEid i

def resetRotations (slots : Slots) : Slots :=
  slots.mapSlots fun slot => { slot with nextRotation := 0 }

end Slots

end Beacon

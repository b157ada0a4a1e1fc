import Beacon.Clock
import Beacon.Frame.Stored
import Beacon.Slot
import Beacon.Wire

/-!
# Persisted parameters

All that a central can change, and the clock, in one byte string.  A magic word
in front tells it from anything else that may be found in flash.
-/

namespace Beacon

structure Params where
  magic : UInt32
  clock : Clock
  activeSlot : UInt8
  intervals : PerSlot UInt16
  radioTx : PerSlot Int8
  advTx : PerSlot Int8
  radioLevels : PowerLevels
  advLevels : PowerLevels
  lockState : LockState
  unlockKey : Key
  frames : PerSlot StoredFrame
  exponents : PerSlot UInt8
  keys : PerSlot Key
  remainConnectable : Bool
  deriving DecidableEq

namespace Clock

def write (clock : Clock) : Bytes :=
  Wire.word32.write clock.prior ++ Wire.word32.write clock.elapsed

def read (bytes : Bytes) : Option (Clock × Bytes) := do
  let (prior, rest) ← Wire.word32.read bytes
  let (elapsed, rest) ← Wire.word32.read rest
  return (⟨prior, elapsed⟩, rest)

def wire : Wire Clock := ⟨write, read⟩

end Clock

/-- A lock state by its number, which is written as a word. -/
def LockState.wire : Wire LockState :=
  Wire.word32.convert (fun s => s.code.toUInt32) fun n =>
    if n = 0 then some .locked
    else if n = 1 then some .unlocked
    else if n = 2 then some .unlockedAutoRelockDisabled
    else none

def StoredFrame.wire : Wire StoredFrame :=
  Wire.sized.convert StoredFrame.bytes fun bytes =>
    if fits : bytes.length ≤ 23 then some ⟨bytes, fits⟩ else none

namespace Params

/-- The word in front: the letters EDDY. -/
def magicWord : UInt32 := 0x45444459

def keyWire : Wire Key :=
  Wire.vector 16 Wire.byte

def toBytes (p : Params) : Bytes :=
  Wire.word32.write p.magic ++
  Clock.wire.write p.clock ++
  Wire.byte.write p.activeSlot ++
  (Wire.vector 3 Wire.word16).write p.intervals ++
  (Wire.vector 3 Wire.signedByte).write p.radioTx ++
  (Wire.vector 3 Wire.signedByte).write p.advTx ++
  (Wire.vector 4 Wire.signedByte).write p.radioLevels ++
  (Wire.vector 4 Wire.signedByte).write p.advLevels ++
  LockState.wire.write p.lockState ++
  keyWire.write p.unlockKey ++
  (Wire.vector 3 StoredFrame.wire).write p.frames ++
  (Wire.vector 3 Wire.byte).write p.exponents ++
  (Wire.vector 3 keyWire).write p.keys ++
  Wire.boolean.write p.remainConnectable

/-- Reads parameters; what stands behind them is ignored. -/
def read? (bytes : Bytes) : Option Params := do
  let (magic, rest) ← Wire.word32.read bytes
  let (clock, rest) ← Clock.wire.read rest
  let (activeSlot, rest) ← Wire.byte.read rest
  let (intervals, rest) ← (Wire.vector 3 Wire.word16).read rest
  let (radioTx, rest) ← (Wire.vector 3 Wire.signedByte).read rest
  let (advTx, rest) ← (Wire.vector 3 Wire.signedByte).read rest
  let (radioLevels, rest) ← (Wire.vector 4 Wire.signedByte).read rest
  let (advLevels, rest) ← (Wire.vector 4 Wire.signedByte).read rest
  let (lockState, rest) ← LockState.wire.read rest
  let (unlockKey, rest) ← keyWire.read rest
  let (frames, rest) ← (Wire.vector 3 StoredFrame.wire).read rest
  let (exponents, rest) ← (Wire.vector 3 Wire.byte).read rest
  let (keys, rest) ← (Wire.vector 3 keyWire).read rest
  let (remainConnectable, _) ← Wire.boolean.read rest
  return {
    magic, clock, activeSlot, intervals, radioTx, advTx, radioLevels, advLevels, lockState,
    unlockKey, frames, exponents, keys, remainConnectable }

/-- Reads parameters; those with another magic word are not ours. -/
def ofBytes (bytes : Bytes) : Except StoreFault (Option Params) :=
  match read? bytes with
  | none => .error .corrupted
  | some params => .ok (if params.magic = magicWord then some params else none)

end Params

end Beacon

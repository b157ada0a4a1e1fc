import Beacon.Bytes

/-!
# Beacon time

Identifiers are derived from a clock that goes on counting when the beacon is
switched off and on again.  It keeps the seconds of all earlier boots and how
far the present boot had come when it was last saved.  Times within a boot are
given in milliseconds.
-/

namespace Beacon

def saturate32 (n : Nat) : UInt32 :=
  UInt32.ofNat (min n (UInt32.size - 1))

structure Clock where
  /-- Seconds in all boots before the present one. -/
  prior : UInt32
  /-- Seconds in the boot that last saved the clock. -/
  elapsed : UInt32
  deriving DecidableEq, Repr

namespace Clock

def zero : Clock := ⟨0, 0⟩

/-- A new boot starts: the boot before it has become part of the past. -/
def boot (clock : Clock) : Clock :=
  ⟨saturate32 (clock.prior.toNat + clock.elapsed.toNat), 0⟩

/-- Notes how far the boot has come, ahead of a save. -/
def record (now : Nat) (clock : Clock) : Clock :=
  { clock with elapsed := saturate32 (now / 1000) }

def time (clock : Clock) (now : Nat) : UInt32 :=
  saturate32 (clock.prior.toNat + (saturate32 (now / 1000)).toNat)

def uptimeDs (now : Nat) : UInt32 :=
  saturate32 (now / 100)

end Clock

end Beacon

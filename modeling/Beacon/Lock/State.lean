import Beacon.Fault

/-!
# Lock states

A locked beacon answers no configuration but the lock itself.  The third state
differs from the second only in what the owner's device does afterwards.
-/

namespace Beacon

inductive LockState where
  | locked
  | unlocked
  | unlockedAutoRelockDisabled
  deriving DecidableEq, Repr

namespace LockState

def code : LockState → UInt8
  | .locked => 0
  | .unlocked => 1
  | .unlockedAutoRelockDisabled => 2

def ofCode (byte : UInt8) : Except Fault LockState :=
  if byte = 0 then .ok .locked
  else if byte = 1 then .ok .unlocked
  else if byte = 2 then .ok .unlockedAutoRelockDisabled
  else .error .notPermitted

def name : LockState → String
  | .locked => "Locked"
  | .unlocked => "Unlocked"
  | .unlockedAutoRelockDisabled => "UnlockedAutoRelockDisabled"

end LockState

end Beacon

import Beacon.Act
import Beacon.Crypto.Drbg
import Beacon.Lock.State

/-!
# The lock

To unlock the beacon a central reads a random challenge and writes back the
challenge encrypted under the unlock key.  Every challenge is good for one
answer: a wrong one discards it, and so does locking the beacon again.
-/

namespace Beacon

structure Lock where
  state : LockState
  key : Key
  /-- The answer to the outstanding challenge. -/
  token : Option Block
  deriving DecidableEq

namespace Lock

def fresh (state : LockState) (key : Key) : Lock := ⟨state, key, none⟩

def isLocked (lock : Lock) : Bool :=
  lock.state = .locked

def issue : Act (Lock × Drbg) Block := do
  let (lock, rng) ← get
  let (challenge, rng) := rng.octets 16
  set ({ lock with token := some (Aes.encrypt lock.key challenge) }, rng)
  return challenge

def challenge : Act (Lock × Drbg) (Except Fault Block) := do
  if (← get).1.isLocked then
    return .ok (← issue)
  else
    return .error .notPermitted

/-- Unlocks the beacon if the response answers the outstanding challenge. -/
def respond (response : Bytes) : Act (Lock × Drbg) (Except Fault Unit) := do
  let (lock, rng) ← get
  if ¬lock.isLocked then return .error .notPermitted
  else if response.length ≠ 16 then return .error .invalidLength
  else
    set ({ lock with token := none }, rng)
    match lock.token with
    | none =>
      Act.note .noChallenge
      return .error .authenticationFailed
    | some token =>
      if token.toList ≠ response then
        Act.note .tokenMismatch
        return .error .authenticationFailed
      else
        set ({ lock with state := .unlocked, token := none }, rng)
        let _ ← issue
        Act.note .unlocked
        return .ok ()

/-- Takes back the challenge.  A new unlock key comes encrypted under the present one. -/
def close (wrapped : Bytes) : Act Lock Unit := do
  if wrapped.length = 16 then
    modify fun lock => { lock with key := Aes.decrypt lock.key (Bytes.octets 16 wrapped) }
    Act.note .unlockKeyReplaced
  modify fun lock => { lock with token := none }

def write (value : Bytes) : Act Lock (Except Fault LockState) := do
  match value with
  | [] => return .error .invalidLength
  | code :: wrapped =>
    if wrapped.length ≠ 0 ∧ wrapped.length ≠ 16 then return .error .invalidLength
    else
      match LockState.ofCode code with
      | .error fault => return .error fault
      | .ok next =>
        if next = .locked then close wrapped
        modify fun lock => { lock with state := next }
        return .ok next

end Lock

end Beacon

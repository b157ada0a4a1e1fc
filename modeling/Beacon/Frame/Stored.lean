import Beacon.Frame

/-!
# Stored frames

In the persisted parameters a frame stands behind its service identifier and a
length byte.  The length zero says that the slot is cleared.
-/

namespace Beacon

structure StoredFrame where
  bytes : Bytes
  fits : bytes.length ≤ 23
  deriving DecidableEq, Repr

namespace StoredFrame

/-- Length byte, service identifier and the largest frame. -/
def capacity : Nat := 23

def ofBytes (bytes : Bytes) : Except Fault StoredFrame :=
  if fits : bytes.length ≤ 23 then .ok ⟨bytes, fits⟩ else .error .invalidLength

def cleared : StoredFrame := ⟨[0], by decide⟩

def ofFrame (frame : Frame) : Except Fault StoredFrame := do
  let body ← frame.encode
  ofBytes (UInt8.ofNat (Frame.service.length + body.length) :: (Frame.service ++ body))

def declaredLength (stored : StoredFrame) : Nat :=
  (stored.bytes.headD 0).toNat

def isCleared (stored : StoredFrame) : Bool :=
  stored.declaredLength = 0

def serviceData (stored : StoredFrame) : Except Fault Bytes :=
  if stored.bytes.length < 1 + stored.declaredLength then .error (.frame .truncated)
  else .ok ((stored.bytes.drop 1).take stored.declaredLength)

/-- The frame, or nothing for a cleared slot. -/
def decode (stored : StoredFrame) : Except Fault (Option Frame) :=
  if stored.isCleared then .ok none
  else do
    let data ← stored.serviceData
    some <$> Frame.decode data

end StoredFrame

end Beacon

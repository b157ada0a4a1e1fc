import Beacon.Act
import Beacon.Frame.Advert

/-!
# The radio

One radio that can advertise one payload at a time.  Starting, loading a scan
response and changing the address may each be refused; the stack below decides
that anew at every call.  The settings are those of the calls that succeeded.
-/

namespace Beacon

structure Radio where
  /-- Shortest interval of adverts that cannot be connected to, in milliseconds. -/
  minInterval : UInt16
  /-- Longest interval of any adverts, in milliseconds. -/
  maxInterval : UInt16
  /-- What the stack says to a call, given how many calls it has decided before. -/
  verdict : Nat → RadioCall → Option RadioFault
  decided : Nat
  advertising : Bool
  txPower : Int8
  interval : UInt16
  connectable : Bool
  scanResponse : Bytes
  address : Option (Octets 6)
  /-- Payloads that went on air, latest first. -/
  adverts : List Bytes

namespace Radio

def idle (minInterval maxInterval : UInt16) (verdict : Nat → RadioCall → Option RadioFault) :
    Radio where
  minInterval := minInterval
  maxInterval := maxInterval
  verdict := verdict
  decided := 0
  advertising := false
  txPower := 0
  interval := 1000
  connectable := false
  scanResponse := []
  address := none
  adverts := []

def standardMinInterval : UInt16 := 100

def standardMaxInterval : UInt16 := 10240

/-- Payloads beyond the size of an advert are refused before the stack sees them. -/
def oversized : RadioCall → Bool
  | .start payload => Advert.capacity < payload.length
  | .scanResponse payload => Advert.capacity < payload.length
  | _ => false

def apply (call : RadioCall) (radio : Radio) : Radio :=
  match call with
  | .start payload => { radio with advertising := true, adverts := payload :: radio.adverts }
  | .stop => { radio with advertising := false }
  | .scanResponse payload => { radio with scanResponse := payload }
  | .txPower dbm => { radio with txPower := dbm }
  | .interval ms => { radio with interval := ms }
  | .connectable on => { radio with connectable := on }
  | .address address => { radio with address := some address }

def tell (call : RadioCall) : Act Radio Unit := do
  Act.put (.radio call none)
  modify (apply call)

def ask (call : RadioCall) : Act Radio (Except RadioFault Unit) := do
  let radio ← get
  let fault := if oversized call then some .payloadTooLong else radio.verdict radio.decided call
  Act.put (.radio call fault)
  set { radio with decided := radio.decided + 1 }
  match fault with
  | some fault => return .error fault
  | none =>
    modify (apply call)
    return .ok ()

def quiet : Act Radio Unit := do
  if (← get).advertising then tell .stop

def announce (name : String) : Act Radio Unit :=
  Act.note (.radioUp name)

def answer (attr : Attribute) (status : UInt8) (value : Bytes) : Act Radio Unit :=
  Act.note (.answered attr status value.length)

/-- An advertising interval in units of 0.625 milliseconds, within the limits of the stack. -/
def intervalUnits (ms : UInt16) : Nat :=
  max 0x20 (min (ms.toNat * 8 / 5) 0x4000)

end Radio

end Beacon

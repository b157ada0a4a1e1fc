import Beacon.Crypto.Aes
import Beacon.Fault

/-!
# Ephemeral identifiers

An identifier is a function of a slot's identity key and of the beacon time,
whose lowest bits are cleared: it stays the same for `2 ^ k` seconds.
-/

namespace Beacon.Ephemeral

/-- Identifiers change at least every `2 ^ 15` seconds. -/
def maxExponent : UInt8 := 15

/-- The seconds for which an identifier is good: `2 ^ exponent`. -/
def period (exponent : UInt8) : Nat := 1 <<< exponent.toNat

/-- The start of the window that the time falls into.  An exponent of thirty-two or more, which only
a stored value that was not written here can have, overflows the shift of a 32-bit word; the one
window is then taken to be all of time. -/
def window (exponent : UInt8) (seconds : UInt32) : UInt32 :=
  UInt32.ofNat (seconds.toNat / period exponent * period exponent)

def temporaryKey (key : Key) (time : Bytes) : Key :=
  Aes.encrypt key (Bytes.octets 16 (List.replicate 11 0 ++ [0xFF, 0, 0] ++ time.take 2))

def identifier (key : Key) (exponent : UInt8) (seconds : UInt32) : Except Fault (Octets 8) :=
  if maxExponent < exponent then .error (.crypto (.invalidExponent exponent))
  else
    let time := Bytes.bigEndian 4 (window exponent seconds).toNat
    let block := Bytes.octets 16 (List.replicate 11 0 ++ exponent :: time)
    .ok (Bytes.octets 8 (Aes.encrypt (temporaryKey key time) block).toList)

end Beacon.Ephemeral

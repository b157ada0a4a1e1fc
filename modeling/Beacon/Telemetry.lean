import Beacon.Bytes

/-!
# Telemetry

What a beacon reports of itself: supply, temperature, adverts sent and time
since it started.  The record has a fixed form of twelve bytes, every word with
its most significant byte first.
-/

namespace Beacon

structure Telemetry where
  /-- Battery voltage in millivolts, zero when it is not measured. -/
  batteryMv : UInt16
  /-- Degrees Celsius in 8.8 fixed point. -/
  temperature : Int16
  /-- Adverts sent since start, modulo 2³². -/
  pduCount : UInt32
  /-- Time since start in tenths of a second. -/
  uptimeDs : UInt32
  deriving DecidableEq, Repr

namespace Telemetry

/-- The temperature of a beacon without a sensor. -/
def noTemperature : Int16 := -32768

def initial : Telemetry where
  batteryMv := 0
  temperature := noTemperature
  pduCount := 0
  uptimeDs := 0

def toBytes (t : Telemetry) : Bytes :=
  Bytes.bigEndian 2 t.batteryMv.toNat ++ Bytes.bigEndian 2 t.temperature.toUInt16.toNat ++
    Bytes.bigEndian 4 t.pduCount.toNat ++ Bytes.bigEndian 4 t.uptimeDs.toNat

def ofBytes (bytes : Bytes) : Telemetry where
  batteryMv := UInt16.ofNat (Bytes.ofBigEndian (bytes.take 2))
  temperature := (UInt16.ofNat (Bytes.ofBigEndian ((bytes.drop 2).take 2))).toInt16
  pduCount := UInt32.ofNat (Bytes.ofBigEndian ((bytes.drop 4).take 4))
  uptimeDs := UInt32.ofNat (Bytes.ofBigEndian ((bytes.drop 8).take 4))

end Telemetry

/-- Telemetry that only the holder of an identity key can read. -/
structure SealedTelemetry where
  ciphertext : Octets 12
  salt : Octets 2
  tag : Octets 2
  deriving DecidableEq, Repr

def SealedTelemetry.toBytes (t : SealedTelemetry) : Bytes :=
  t.ciphertext.toList ++ t.salt.toList ++ t.tag.toList

def SealedTelemetry.ofBytes (bytes : Bytes) : SealedTelemetry where
  ciphertext := Bytes.octets 12 bytes
  salt := Bytes.octets 2 (bytes.drop 12)
  tag := Bytes.octets 2 (bytes.drop 14)

end Beacon

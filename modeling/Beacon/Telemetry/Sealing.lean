import Beacon.Crypto.Eax
import Beacon.Telemetry

/-!
# Sealed telemetry

Telemetry is sealed under an identity key.  The nonce is the start of the
current window of that key and a random salt; a tag of two bytes has to do.
-/

namespace Beacon

def sealingNonce (window : UInt32) (salt : Octets 2) : Bytes :=
  Bytes.bigEndian 4 window.toNat ++ salt.toList

namespace Telemetry

/-- Seals telemetry for the window that starts at `window`. -/
def encrypt (t : Telemetry) (key : Key) (window : UInt32) (salt : Octets 2) : SealedTelemetry :=
  let (ciphertext, tag) := Eax.encrypt key (sealingNonce window salt) [] t.toBytes 2
  { ciphertext := Bytes.octets 12 ciphertext, salt := salt, tag := Bytes.octets 2 tag }

end Telemetry

/-- Opens sealed telemetry; anything that was changed on the way fails. -/
def SealedTelemetry.decrypt (t : SealedTelemetry) (key : Key) (window : UInt32) :
    Except Fault Telemetry :=
  Telemetry.ofBytes <$>
    Eax.decrypt key (sealingNonce window t.salt) [] t.ciphertext.toList t.tag.toList

end Beacon

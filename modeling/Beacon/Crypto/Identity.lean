import Beacon.Crypto.Aes
import Beacon.Crypto.Curve25519
import Beacon.Crypto.Drbg
import Beacon.Crypto.Sha256

/-!
# The identity of a beacon

A beacon has a key pair for as long as it runs.  With the public key of a
resolver it agrees on an identity key that both sides can compute.
-/

namespace Beacon

def identityKey (shared resolver beacon : Octets 32) : Key :=
  let extracted := Sha256.hmac (resolver.toList ++ beacon.toList) shared.toList
  Bytes.octets 16 (Sha256.hmac extracted.toList [0x01]).toList

structure Identity where
  secret : Octets 32
  deriving DecidableEq

namespace Identity

def generate (rng : Drbg) : Identity × Drbg :=
  let (secret, rng) := rng.octets 32
  (⟨secret⟩, rng)

def publicKey (identity : Identity) : Octets 32 :=
  Curve25519.publicKey identity.secret

/-- Agrees with a resolver; a key of low order gives a zero secret and is refused. -/
def agree (identity : Identity) (resolver : Octets 32) : Except Fault Key :=
  let shared := Curve25519.agree identity.secret resolver
  if shared.isZero then .error (.crypto .keyAgreementFailed)
  else .ok (identityKey shared resolver identity.publicKey)

end Identity

end Beacon

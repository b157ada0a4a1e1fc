import Beacon.Act
import Beacon.Crypto.Aes
import Beacon.Fault

/-!
# Authenticated encryption

EAX over AES-128: a message is encrypted with a counter that starts at the
authentication code of the nonce; the tag joins the codes of nonce, header and
ciphertext.  The three codes differ by a block that goes before the data.

A tag may be cut short.  `decrypt` gives no plaintext before the tag agrees, and
neither does `openInPlace`, which works in the buffer of the receiver.
-/

namespace Beacon

/-- The block with the sixteen lowest bytes of a number, most significant first. -/
def Block.ofNat (n : Nat) : Block :=
  Bytes.octets 16 (Bytes.bigEndian 16 n)

def Block.toNat (b : Block) : Nat :=
  Bytes.ofBigEndian b.toList

namespace Eax

def tagLength : Nat := 16

/-- Every byte moves up by one bit and takes in the bit that leaves the byte behind it. -/
def shiftUp : Bytes → Bytes
  | [] => []
  | [last] => [last <<< 1]
  | b :: c :: rest => ((b <<< 1) ||| (c >>> 7)) :: shiftUp (c :: rest)

/-- The bit that leaves a block when its bytes move up. -/
def carries (b : Block) : Bool :=
  b[0] &&& 0x80 ≠ 0

def foldBack (b : Block) : Block :=
  b.set 15 (b[15] ^^^ 0x87)

/-- Shifts the block left by one bit; a bit that leaves folds back as `0x87`. -/
def double (b : Block) : Block :=
  let out := Bytes.octets 16 (shiftUp b.toList)
  if carries b then foldBack out else out

/-- Added to a last block that is full. -/
def fullKey (key : Key) : Block :=
  double (Aes.encrypt key (Octets.zero 16))

/-- Added to a last block that had to be padded. -/
def paddedKey (key : Key) : Block :=
  double (fullKey key)

def finalBlock (key : Key) (piece : Bytes) : Block :=
  if piece.length = 16 then (Bytes.octets 16 piece).xor (fullKey key)
  else (Bytes.octets 16 (piece ++ [0x80])).xor (paddedKey key)

/-- Continues the authentication code `x` over the data that is left, which is not empty. -/
def chain (key : Key) (x : Block) (data : Bytes) : Block :=
  if data.length ≤ 16 then Aes.encrypt key (x.xor (finalBlock key data))
  else chain key (Aes.encrypt key (x.xor (Bytes.octets 16 data))) (data.drop 16)
termination_by data.length
decreasing_by simp; omega

def code (key : Key) (tweak : UInt8) (data : Bytes) : Block :=
  let first := Block.ofNat tweak.toNat
  if data = [] then Aes.encrypt key (first.xor (fullKey key))
  else chain key (Aes.encrypt key first) data

/-- Adds the encrypted counter to the data, block by block. -/
def counterMode (key : Key) (counter : Nat) (data : Bytes) : Bytes :=
  if data = [] then []
  else
    Bytes.xor (data.take 16) (Aes.encrypt key (.ofNat counter)).toList ++
      counterMode key (counter + 1) (data.drop 16)
termination_by data.length
decreasing_by
  have : data.length ≠ 0 := by simpa using ‹¬data = []›
  simp; omega

def nonceTweak : UInt8 := 0

def headerTweak : UInt8 := 1

def ciphertextTweak : UInt8 := 2

def tag (key : Key) (nonce header ciphertext : Bytes) : Block :=
  ((code key nonceTweak nonce).xor (code key headerTweak header)).xor
    (code key ciphertextTweak ciphertext)

def crypt (key : Key) (nonce data : Bytes) : Bytes :=
  counterMode key (code key nonceTweak nonce).toNat data

/-- The ciphertext and a tag of the wanted length; beyond sixteen bytes a tag is zero. -/
def encrypt (key : Key) (nonce header message : Bytes) (length : Nat) : Bytes × Bytes :=
  let ciphertext := crypt key nonce message
  (ciphertext,
    ((tag key nonce header ciphertext).toList ++ List.replicate (length - tagLength) 0).take length)

/-- The message, if the tag is a proper part of the full tag of the ciphertext. -/
def decrypt (key : Key) (nonce header ciphertext given : Bytes) : Except Fault Bytes :=
  if given = [] ∨ tagLength < given.length then .error .invalidLength
  else if (tag key nonce header ciphertext).toList.take given.length = given then
    .ok (crypt key nonce ciphertext)
  else .error .authenticationFailed

/-- Decrypts what is in the receiver's buffer, once the tag has been found to agree. -/
def openInPlace (key : Key) (nonce header given : Bytes) : Act Bytes (Except Fault Unit) := do
  let ciphertext ← get
  if given = [] ∨ tagLength < given.length then return .error .invalidLength
  if (tag key nonce header ciphertext).toList.take given.length = given then
    set (crypt key nonce ciphertext)
    return .ok ()
  return .error .authenticationFailed

end Eax

end Beacon

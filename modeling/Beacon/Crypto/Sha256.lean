import Beacon.Bytes

/-!
# SHA-256

The hash behind the derivation of identity keys, with the keyed code built on
it.
-/

namespace Beacon.Sha256

structure Chain where
  a : UInt32
  b : UInt32
  c : UInt32
  d : UInt32
  e : UInt32
  f : UInt32
  g : UInt32
  h : UInt32

def rotateRight (n x : UInt32) : UInt32 :=
  (x >>> n) ||| (x <<< (32 - n))

def start : Chain :=
  ⟨0x6a09e667, 0xbb67ae85, 0x3c6ef372, 0xa54ff53a, 0x510e527f, 0x9b05688c, 0x1f83d9ab, 0x5be0cd19⟩

def constants : List UInt32 := [
  0x428a2f98, 0x71374491, 0xb5c0fbcf, 0xe9b5dba5, 0x3956c25b, 0x59f111f1, 0x923f82a4, 0xab1c5ed5,
  0xd807aa98, 0x12835b01, 0x243185be, 0x550c7dc3, 0x72be5d74, 0x80deb1fe, 0x9bdc06a7, 0xc19bf174,
  0xe49b69c1, 0xefbe4786, 0x0fc19dc6, 0x240ca1cc, 0x2de92c6f, 0x4a7484aa, 0x5cb0a9dc, 0x76f988da,
  0x983e5152, 0xa831c66d, 0xb00327c8, 0xbf597fc7, 0xc6e00bf3, 0xd5a79147, 0x06ca6351, 0x14292967,
  0x27b70a85, 0x2e1b2138, 0x4d2c6dfc, 0x53380d13, 0x650a7354, 0x766a0abb, 0x81c2c92e, 0x92722c85,
  0xa2bfe8a1, 0xa81a664b, 0xc24b8b70, 0xc76c51a3, 0xd192e819, 0xd6990624, 0xf40e3585, 0x106aa070,
  0x19a4c116, 0x1e376c08, 0x2748774c, 0x34b0bcb5, 0x391c0cb3, 0x4ed8aa4a, 0x5b9cca4f, 0x682e6ff3,
  0x748f82ee, 0x78a5636f, 0x84c87814, 0x8cc70208, 0x90befffa, 0xa4506ceb, 0xbef9a3f7, 0xc67178f2]

def nextWord (window : List UInt32) : UInt32 :=
  let w0 := window.getD 0 0
  let w1 := window.getD 1 0
  let w9 := window.getD 9 0
  let w14 := window.getD 14 0
  let small0 := rotateRight 7 w1 ^^^ rotateRight 18 w1 ^^^ (w1 >>> 3)
  let small1 := rotateRight 17 w14 ^^^ rotateRight 19 w14 ^^^ (w14 >>> 10)
  w0 + small0 + w9 + small1

def round (k w : UInt32) (s : Chain) : Chain :=
  let big1 := rotateRight 6 s.e ^^^ rotateRight 11 s.e ^^^ rotateRight 25 s.e
  let choice := (s.e &&& s.f) ^^^ ((~~~s.e) &&& s.g)
  let first := s.h + big1 + choice + k + w
  let big0 := rotateRight 2 s.a ^^^ rotateRight 13 s.a ^^^ rotateRight 22 s.a
  let majority := (s.a &&& s.b) ^^^ (s.a &&& s.c) ^^^ (s.b &&& s.c)
  ⟨first + big0 + majority, s.a, s.b, s.c, s.d + first, s.e, s.f, s.g⟩

/-- All rounds; the window holds the sixteen words from the present one on. -/
def rounds : List UInt32 → (window : List UInt32) → Chain → Chain
  | [], _, s => s
  | k :: rest, window, s =>
    rounds rest (window.tail ++ [nextWord window]) (round k (window.headD 0) s)

def Chain.add (x y : Chain) : Chain :=
  ⟨x.a + y.a, x.b + y.b, x.c + y.c, x.d + y.d, x.e + y.e, x.f + y.f, x.g + y.g, x.h + y.h⟩

def words (count : Nat) (block : Bytes) : List UInt32 :=
  (List.range count).map fun i => UInt32.ofNat (Bytes.ofBigEndian ((block.drop (4 * i)).take 4))

def compress (s : Chain) (block : Bytes) : Chain :=
  s.add (rounds constants (words 16 block) s)

def compressAll : (count : Nat) → Bytes → Chain → Chain
  | 0, _, s => s
  | count + 1, data, s => compressAll count (data.drop 64) (compress s (data.take 64))

/-- The message, a one bit, zeros and the length in bits, in whole blocks. -/
def pad (message : Bytes) : Bytes :=
  message ++ 0x80 :: (List.replicate ((119 - message.length % 64) % 64) 0 ++
    Bytes.bigEndian 8 (8 * message.length))

def Chain.toBytes (s : Chain) : Bytes :=
  [s.a, s.b, s.c, s.d, s.e, s.f, s.g, s.h].flatMap fun w => Bytes.bigEndian 4 w.toNat

def hash (message : Bytes) : Octets 32 :=
  let padded := pad message
  Bytes.octets 32 (compressAll (padded.length / 64) padded start).toBytes

/-- The key filled up to a block; a longer key is hashed first. -/
def codeKey (key : Bytes) : Bytes :=
  (Bytes.octets 64 (if 64 < key.length then (hash key).toList else key)).toList

def hmac (key message : Bytes) : Octets 32 :=
  let inner := hash ((codeKey key).map (· ^^^ 0x36) ++ message)
  hash ((codeKey key).map (· ^^^ 0x5c) ++ inner.toList)

end Beacon.Sha256

import Beacon.Fault

/-!
# Random bits

After it has been seeded once, the beacon draws all randomness from one stream:
the words of ChaCha20 under the seed.  A generator is the seed and the number
of words already drawn; every request takes whole words.
-/

namespace Beacon

namespace ChaCha

abbrev Words := Vector UInt32 16

def rotateLeft (n x : UInt32) : UInt32 :=
  (x <<< n) ||| (x >>> (32 - n))

def quarter (i j k l : Fin 16) (s : Words) : Words :=
  let a := s[i] + s[j]
  let d := rotateLeft 16 (s[l] ^^^ a)
  let c := s[k] + d
  let b := rotateLeft 12 (s[j] ^^^ c)
  let a' := a + b
  let d' := rotateLeft 8 (d ^^^ a')
  let c' := c + d'
  let b' := rotateLeft 7 (b ^^^ c')
  (((s.set i a').set j b').set k c').set l d'

/-- A round on the columns and a round on the diagonals. -/
def doubleRound (s : Words) : Words :=
  quarter 3 4 9 14 (quarter 2 7 8 13 (quarter 1 6 11 12 (quarter 0 5 10 15
    (quarter 3 7 11 15 (quarter 2 6 10 14 (quarter 1 5 9 13 (quarter 0 4 8 12 s)))))))

def iterate (n : Nat) (s : Words) : Words :=
  match n with
  | 0 => s
  | n + 1 => iterate n (doubleRound s)

def seedWord (seed : Octets 32) (i : Nat) : UInt32 :=
  UInt32.ofNat (Bytes.ofLittleEndian ((seed.toList.drop (4 * i)).take 4))

/-- The constants, the key, a counter of 64 bits and the stream number zero. -/
def initial (seed : Octets 32) (counter : Nat) : Words :=
  #v[0x61707865, 0x3320646e, 0x79622d32, 0x6b206574,
    seedWord seed 0, seedWord seed 1, seedWord seed 2, seedWord seed 3,
    seedWord seed 4, seedWord seed 5, seedWord seed 6, seedWord seed 7,
    UInt32.ofNat counter, UInt32.ofNat (counter / UInt32.size), 0, 0]

def block (seed : Octets 32) (counter : Nat) : Words :=
  let s := initial seed counter
  Vector.zipWith (· + ·) s (iterate 10 s)

def word (seed : Octets 32) (i : Nat) : UInt32 :=
  (block seed (i / 16)).get (Fin.ofNat 16 i)

end ChaCha

/-- A seeded generator that has given out `drawn` words. -/
structure Drbg where
  seed : Octets 32
  drawn : Nat
  deriving DecidableEq

namespace Drbg

def ofEntropy : Option (Octets 32) → Except Fault Drbg
  | none => .error (.crypto .entropyUnavailable)
  | some seed => .ok ⟨seed, 0⟩

def words (n : Nat) (rng : Drbg) : List UInt32 × Drbg :=
  ((List.range n).map fun i => ChaCha.word rng.seed (rng.drawn + i),
    { rng with drawn := rng.drawn + n })

/-- The next `n` bytes; what is left of the last word is lost. -/
def bytes (n : Nat) (rng : Drbg) : Bytes × Drbg :=
  let (ws, rng) := rng.words ((n + 3) / 4)
  ((ws.flatMap fun w => Bytes.littleEndian 4 w.toNat).take n, rng)

def octets (n : Nat) (rng : Drbg) : Octets n × Drbg :=
  let (bs, rng) := rng.bytes n
  (Bytes.octets n bs, rng)

def u32 (rng : Drbg) : UInt32 × Drbg :=
  (ChaCha.word rng.seed rng.drawn, { rng with drawn := rng.drawn + 1 })

def u64 (rng : Drbg) : UInt64 × Drbg :=
  let low := ChaCha.word rng.seed rng.drawn
  let high := ChaCha.word rng.seed (rng.drawn + 1)
  (UInt64.ofNat (low.toNat + UInt32.size * high.toNat), { rng with drawn := rng.drawn + 2 })

/-- A static random device address: the two highest bits are set. -/
def address (rng : Drbg) : Octets 6 × Drbg :=
  let (a, rng) := rng.octets 6
  (a.set 0 (a[0] ||| 0xC0), rng)

end Drbg

end Beacon

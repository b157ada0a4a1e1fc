import Beacon.Bytes

/-!
# Key agreement on Curve25519

Points are known by their first coordinate alone.  `agree` multiplies the point
of a public key by a secret number: one doubling and one differential addition
for each bit of the secret.
-/

namespace Beacon.Curve25519

/-- The order of the field: `2 ^ 255 - 19`. -/
def order : Nat := (1 <<< 255) - 19

theorem order_pos : 0 < order := by decide

abbrev Element := Fin order

def Element.ofNat (n : Nat) : Element :=
  ⟨n % order, Nat.mod_lt n order_pos⟩

/-- A coordinate as the quotient `x / z`; the point at infinity has `z = 0`. -/
structure Ratio where
  x : Element
  z : Element

/-- A power, its exponent given by its bits with the highest first. -/
def power (base : Element) : List Bool → Element → Element
  | [], acc => acc
  | bit :: rest, acc => power base rest (if bit then acc * acc * base else acc * acc)

def bits (count n : Nat) : List Bool :=
  (List.range count).reverse.map n.testBit

def inverse (a : Element) : Element :=
  power a (bits 255 (order - 2)) (.ofNat 1)

/-- From `p` and `q`, whose difference is `u`, to `2 p` and `p + q`. -/
def advance (u : Element) (p q : Ratio) : Ratio × Ratio :=
  let sum := p.x + p.z
  let difference := p.x - p.z
  let square := sum * sum
  let other := difference * difference
  let gap := square - other
  let cross1 := (q.x - q.z) * sum
  let cross2 := (q.x + q.z) * difference
  (⟨square * other, gap * (square + Element.ofNat 121665 * gap)⟩,
    ⟨(cross1 + cross2) * (cross1 + cross2), u * ((cross1 - cross2) * (cross1 - cross2))⟩)

/-- For each bit, the pair `(k u, (k + 1) u)` becomes the pair of `2 k` or of `2 k + 1`. -/
def ladder (u : Element) : List Bool → Ratio × Ratio → Ratio × Ratio
  | [], pair => pair
  | true :: rest, (p, q) =>
    let (twice, sum) := advance u q p
    ladder u rest (sum, twice)
  | false :: rest, (p, q) => ladder u rest (advance u p q)

/-- The number of a secret: a multiple of eight with the highest of its 255 bits set. -/
def scalar (secret : Octets 32) : Nat :=
  (1 <<< 254) + Bytes.ofLittleEndian secret.toList % (1 <<< 254) / 8 * 8

def coordinate (key : Octets 32) : Element :=
  .ofNat (Bytes.ofLittleEndian key.toList % (1 <<< 255))

def multiply (n : Nat) (u : Element) : Element :=
  let r := (ladder u (bits 255 n) (⟨.ofNat 1, .ofNat 0⟩, ⟨u, .ofNat 1⟩)).1
  r.x * inverse r.z

def encode (u : Element) : Octets 32 :=
  Bytes.octets 32 (Bytes.littleEndian 32 u.val)

def agree (secret key : Octets 32) : Octets 32 :=
  encode (multiply (scalar secret) (coordinate key))

/-- The public key of a secret: its multiple of the point with coordinate nine. -/
def publicKey (secret : Octets 32) : Octets 32 :=
  encode (multiply (scalar secret) (.ofNat 9))

end Beacon.Curve25519

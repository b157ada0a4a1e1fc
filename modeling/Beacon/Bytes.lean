/-!
# Byte strings

Frames, keys and stored values are byte strings: lists where the length
varies, vectors where it is fixed.  Words travel in either byte order, so both
orders are given once here, on natural numbers and an explicit width.
-/

namespace Beacon

abbrev Bytes := List UInt8

abbrev Octets (n : Nat) := Vector UInt8 n

def hexDigit (n : Nat) : Char :=
  if n < 10 then Char.ofNat (n + 48) else Char.ofNat (n + 55)

def hexByte (b : UInt8) : String :=
  String.ofList ['0', 'x', hexDigit (b.toNat / 16), hexDigit (b.toNat % 16)]

namespace Bytes

/-- The lowest `width` bytes of `n`, least significant first. -/
def littleEndian : (width n : Nat) → Bytes
  | 0, _ => []
  | width + 1, n => UInt8.ofNat n :: littleEndian width (n / 256)

def ofLittleEndian : Bytes → Nat
  | [] => 0
  | b :: rest => b.toNat + 256 * ofLittleEndian rest

/-- The lowest `width` bytes of `n`, most significant first. -/
def bigEndian (width n : Nat) : Bytes :=
  (littleEndian width n).reverse

def ofBigEndian (bytes : Bytes) : Nat :=
  ofLittleEndian bytes.reverse

def xor (a b : Bytes) : Bytes :=
  List.zipWith (· ^^^ ·) a b

/-- The first `n` bytes, with zeros where the string ends early. -/
def octets (n : Nat) (bytes : Bytes) : Octets n :=
  Vector.ofFn fun i => bytes.getD i 0

/-- The string as a vector, if it has exactly `n` bytes. -/
def octets? (n : Nat) (bytes : Bytes) : Option (Octets n) :=
  if bytes.length = n then some (bytes.octets n) else none

@[simp] theorem length_littleEndian (width n : Nat) : (littleEndian width n).length = width := by
  induction width generalizing n with
  | zero => rfl
  | succ width ih => simp [littleEndian, ih]

@[simp] theorem length_bigEndian (width n : Nat) : (bigEndian width n).length = width := by
  simp [bigEndian]

end Bytes

namespace Octets

def xor {n : Nat} (a b : Octets n) : Octets n :=
  Vector.zipWith (· ^^^ ·) a b

def zero (n : Nat) : Octets n :=
  Vector.replicate n 0

def isZero {n : Nat} (a : Octets n) : Bool :=
  a.toList.all (· == 0)

end Octets

end Beacon

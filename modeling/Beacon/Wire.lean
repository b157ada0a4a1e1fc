import Beacon.Bytes

/-!
# Wire formats

A format writes a value as bytes and reads it off the front of a byte string.
Numbers are written seven bits at a time, lowest first, with the high bit set
on all bytes but the last; a reader also takes numbers with useless zero
groups, as long as they stay within the bytes of the largest value.
-/

namespace Beacon

structure Wire (α : Type) where
  write : α → Bytes
  read : Bytes → Option (α × Bytes)

namespace Wire

/-- The format of another type, by a way there and a way back that may fail. -/
def convert {α β : Type} (wire : Wire α) (forth : β → α) (back : α → Option β) : Wire β where
  write b := wire.write (forth b)
  read bytes := do
    let (a, rest) ← wire.read bytes
    return (← back a, rest)

def byte : Wire UInt8 where
  write b := [b]
  read
    | [] => none
    | b :: rest => some (b, rest)

def signedByte : Wire Int8 :=
  byte.convert Int8.toUInt8 fun b => some b.toInt8

def boolean : Wire Bool :=
  byte.convert (fun b => if b then 1 else 0) fun b =>
    if b = 0 then some false else if b = 1 then some true else none

/-- Writes a number in at most `more + 1` groups. -/
def writeGroups : (more n : Nat) → Bytes
  | 0, n => [UInt8.ofNat n]
  | more + 1, n =>
    if n < 128 then [UInt8.ofNat n]
    else UInt8.ofNat (n % 128 + 128) :: writeGroups more (n / 128)

/-- Reads at most `more + 1` groups, the last of which is at most `last`. -/
def readGroups (last : Nat) : (more : Nat) → Bytes → Option (Nat × Bytes)
  | _, [] => none
  | 0, b :: rest => if b.toNat ≤ last then some (b.toNat, rest) else none
  | more + 1, b :: rest =>
    if b.toNat < 128 then some (b.toNat, rest)
    else do
      let (n, rest) ← readGroups last more rest
      return (b.toNat - 128 + 128 * n, rest)

/-- Numbers of a width that takes `more` full groups and then one that is at most `last`. -/
def varint (more last : Nat) : Wire Nat where
  write := writeGroups more
  read := readGroups last more

def word16 : Wire UInt16 :=
  (varint 2 3).convert UInt16.toNat fun n => some (UInt16.ofNat n)

def word32 : Wire UInt32 :=
  (varint 4 15).convert UInt32.toNat fun n => some (UInt32.ofNat n)

def length : Wire Nat :=
  varint 9 1

def readMany {α : Type} (wire : Wire α) : (count : Nat) → Bytes → Option (List α × Bytes)
  | 0, bytes => some ([], bytes)
  | count + 1, bytes => do
    let (a, rest) ← wire.read bytes
    let (as, rest) ← readMany wire count rest
    return (a :: as, rest)

/-- `n` values in a row, without a length. -/
def vector {α : Type} (n : Nat) (wire : Wire α) : Wire (Vector α n) where
  write v := v.toList.flatMap wire.write
  read bytes := do
    let (as, rest) ← readMany wire n bytes
    if h : as.length = n then return (⟨as.toArray, h⟩, rest) else none

def sized : Wire Bytes where
  write bytes := length.write bytes.length ++ bytes
  read bytes := do
    let (n, rest) ← length.read bytes
    if n ≤ rest.length then return (rest.take n, rest.drop n) else none

end Wire

end Beacon

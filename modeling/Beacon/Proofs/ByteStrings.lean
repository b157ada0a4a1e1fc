import Beacon.Bytes
import Mathlib.Tactic.Common

/-!
# Words in byte strings

A word that has been written in either byte order reads back as itself, and so
does a byte string of fixed length, whatever stands behind it.  The other way
round, a string of the right length is written again as it was read.
-/

namespace Beacon

namespace Bytes

/-- One more than the largest number of so many bytes. -/
def limit : (width : Nat) → Nat
  | 0 => 1
  | width + 1 => 256 * limit width

theorem ofLittleEndian_littleEndian {width n : Nat} (hn : n < limit width) :
    ofLittleEndian (littleEndian width n) = n := by
  induction width generalizing n with
  | zero =>
      rw [limit] at hn
      rw [littleEndian, ofLittleEndian]
      omega
  | succ width ih =>
      have hbyte : (UInt8.ofNat n).toNat = n % 256 := UInt8.toNat_ofNat'
      have hquotient : n / 256 < limit width := Nat.div_lt_of_lt_mul hn
      rw [littleEndian, ofLittleEndian, ih hquotient, hbyte, Nat.mod_add_div]

theorem littleEndian_ofLittleEndian (bytes : Bytes) :
    littleEndian bytes.length (ofLittleEndian bytes) = bytes := by
  induction bytes with
  | nil => rfl
  | cons b rest ih =>
      have hb := b.toNat_lt
      have hquotient : (b.toNat + 256 * ofLittleEndian rest) / 256 = ofLittleEndian rest := by omega
      have hbyte : UInt8.ofNat (b.toNat + 256 * ofLittleEndian rest) = b := by
        apply UInt8.toNat.inj
        rw [UInt8.toNat_ofNat']
        omega
      rw [ofLittleEndian, List.length_cons, littleEndian, hquotient, hbyte, ih]

theorem ofLittleEndian_lt (bytes : Bytes) : ofLittleEndian bytes < limit bytes.length := by
  induction bytes with
  | nil => exact Nat.one_pos
  | cons b rest ih =>
      have hb := b.toNat_lt
      rw [ofLittleEndian, List.length_cons, limit]
      omega

theorem ofBigEndian_bigEndian {width n : Nat} (hn : n < limit width) :
    ofBigEndian (bigEndian width n) = n := by
  rw [ofBigEndian, bigEndian, List.reverse_reverse, ofLittleEndian_littleEndian hn]

theorem word16_bigEndian (w : UInt16) : UInt16.ofNat (ofBigEndian (bigEndian 2 w.toNat)) = w := by
  have hw : w.toNat < limit 2 := w.toNat_lt
  rw [ofBigEndian_bigEndian hw, UInt16.ofNat_toNat]

theorem word32_bigEndian (w : UInt32) : UInt32.ofNat (ofBigEndian (bigEndian 4 w.toNat)) = w := by
  have hw : w.toNat < limit 4 := w.toNat_lt
  rw [ofBigEndian_bigEndian hw, UInt32.ofNat_toNat]

theorem bigEndian_ofBigEndian {bytes : Bytes} {width : Nat} (h : bytes.length = width) :
    bigEndian width (ofBigEndian bytes) = bytes := by
  have hreversed : bytes.reverse.length = width := by rw [List.length_reverse, h]
  rw [bigEndian, ofBigEndian, ← hreversed, littleEndian_ofLittleEndian, List.reverse_reverse]

theorem ofBigEndian_lt {bytes : Bytes} {width : Nat} (h : bytes.length = width) :
    ofBigEndian bytes < limit width := by
  have hreversed : bytes.reverse.length = width := by rw [List.length_reverse, h]
  rw [ofBigEndian, ← hreversed]
  exact ofLittleEndian_lt bytes.reverse

theorem bigEndian_word16 {bytes : Bytes} (h : bytes.length = 2) :
    bigEndian 2 (UInt16.ofNat (ofBigEndian bytes)).toNat = bytes := by
  rw [UInt16.toNat_ofNat_of_lt' (ofBigEndian_lt h), bigEndian_ofBigEndian h]

theorem bigEndian_word32 {bytes : Bytes} (h : bytes.length = 4) :
    bigEndian 4 (UInt32.ofNat (ofBigEndian bytes)).toNat = bytes := by
  rw [UInt32.toNat_ofNat_of_lt' (ofBigEndian_lt h), bigEndian_ofBigEndian h]

theorem octets_append {n : Nat} (v : Octets n) (rest : Bytes) :
    octets n (v.toList ++ rest) = v := by
  apply Vector.ext
  intro i hi
  simp [octets, List.getD_eq_getElem?_getD, List.getElem?_append_left]

@[simp] theorem octets_toList {n : Nat} (v : Octets n) : octets n v.toList = v := by
  simpa using octets_append v []

theorem toList_octets {n : Nat} {bytes : Bytes} (h : bytes.length = n) :
    (octets n bytes).toList = bytes := by
  subst h
  apply List.ext_getElem
  · simp
  · intro i hi hi'
    simp [octets]

theorem octets_take (n : Nat) (bytes : Bytes) : octets n (bytes.take n) = octets n bytes := by
  apply Vector.ext
  intro i hi
  simp [octets, List.getD_eq_getElem?_getD]

theorem toList_octets_of_le {n : Nat} {bytes : Bytes} (h : n ≤ bytes.length) :
    (octets n bytes).toList = bytes.take n := by
  rw [← octets_take, toList_octets (List.length_take_of_le h)]

end Bytes

end Beacon

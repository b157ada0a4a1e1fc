import Beacon.Wire
import Mathlib.Tactic.Common

/-!
# Wire formats read back

A lawful format reads back what it has written, whatever stands behind that.
Numbers and byte strings are read back up to a limit only, and the formats of
words and frames stay within these limits.

What a format writes takes only so many bytes.
-/

namespace Beacon.Wire

variable {α β : Type}

/-- A written value is read back, and what stands behind it is left. -/
def Lawful (wire : Wire α) : Prop :=
  ∀ a rest, wire.read (wire.write a ++ rest) = some (a, rest)

/-- A format is lawful if the one under it reads back what this one makes it write. -/
theorem lawful_convert {wire : Wire α} {forth : β → α} {back : α → Option β}
    (hread : ∀ b rest, wire.read (wire.write (forth b) ++ rest) = some (forth b, rest))
    (hback : ∀ b, back (forth b) = some b) : (wire.convert forth back).Lawful := by
  intro b rest
  simp only [convert, hread, hback, bind, Option.bind]
  rfl

theorem Lawful.convert {wire : Wire α} (h : wire.Lawful) {forth : β → α} {back : α → Option β}
    (hback : ∀ b, back (forth b) = some b) : (wire.convert forth back).Lawful := by
  apply lawful_convert ?_ hback
  intro b rest
  exact h (forth b) rest

theorem lawful_byte : byte.Lawful :=
  fun _ _ => rfl

theorem lawful_signedByte : signedByte.Lawful := by
  apply lawful_byte.convert
  intro n
  rw [Int8.toInt8_toUInt8]

theorem lawful_boolean : boolean.Lawful := by
  apply lawful_byte.convert
  intro b
  cases b <;> rfl

/-! ## Numbers -/

/-- One more than the largest number of `more` full groups and a last one. -/
def limit (last : Nat) : (more : Nat) → Nat
  | 0 => last + 1
  | more + 1 => 128 * limit last more

theorem readGroups_writeGroups {last more n : Nat} (hlast : last < 128) (hn : n < limit last more)
    (rest : Bytes) :
    readGroups last more (writeGroups more n ++ rest) = some (n, rest) := by
  induction more generalizing n with
  | zero =>
      rw [limit] at hn
      have hfits : n < 256 := by omega
      have hbyte : (UInt8.ofNat n).toNat = n := UInt8.toNat_ofNat_of_lt' hfits
      simp only [writeGroups, List.cons_append, List.nil_append, readGroups, hbyte]
      rw [if_pos (by omega)]
  | succ more ih =>
      by_cases hsmall : n < 128
      · have hfits : n < 256 := by omega
        have hbyte : (UInt8.ofNat n).toNat = n := UInt8.toNat_ofNat_of_lt' hfits
        simp only [writeGroups, if_pos hsmall, List.cons_append, List.nil_append, readGroups, hbyte]
      · have hfits : n % 128 + 128 < 256 := by omega
        have hbyte : (UInt8.ofNat (n % 128 + 128)).toNat = n % 128 + 128 :=
          UInt8.toNat_ofNat_of_lt' hfits
        have hquotient : n / 128 < limit last more := Nat.div_lt_of_lt_mul hn
        simp only [writeGroups, if_neg hsmall, List.cons_append, readGroups, hbyte, ih hquotient,
          bind, Option.bind]
        rw [if_neg (by omega), Nat.add_sub_cancel, Nat.mod_add_div]
        rfl

theorem lawful_word16 : word16.Lawful := by
  apply lawful_convert
  · intro n rest
    exact readGroups_writeGroups (by decide) n.toNat_lt rest
  · intro n
    rw [UInt16.ofNat_toNat]

theorem lawful_word32 : word32.Lawful := by
  apply lawful_convert
  · intro n rest
    exact readGroups_writeGroups (by decide) n.toNat_lt rest
  · intro n
    rw [UInt32.ofNat_toNat]

theorem length_writeGroups_le (more n : Nat) : (writeGroups more n).length ≤ more + 1 := by
  induction more generalizing n with
  | zero => exact Nat.le_refl _
  | succ more ih =>
      simp only [writeGroups]
      split
      next => simp
      next => simpa using ih (n / 128)

/-! ## Several values -/

theorem readMany_write {wire : Wire α} (h : wire.Lawful) (as : List α) (rest : Bytes) :
    readMany wire as.length (as.flatMap wire.write ++ rest) = some (as, rest) := by
  induction as with
  | nil => rfl
  | cons a as ih =>
      simp only [List.flatMap_cons, List.append_assoc, List.length_cons, readMany, h a _, ih, bind,
        Option.bind]
      rfl

theorem Lawful.vector {wire : Wire α} (h : wire.Lawful) (n : Nat) :
    (Wire.vector n wire).Lawful := by
  intro v rest
  have hread := readMany_write h v.toList rest
  have hlength : v.toList.length = n := v.length_toList
  rw [hlength] at hread
  simp only [Wire.vector, hread, bind, Option.bind, dif_pos hlength]
  rfl

theorem read_sized {bytes : Bytes} (hbytes : bytes.length < limit 1 9) (rest : Bytes) :
    sized.read (sized.write bytes ++ rest) = some (bytes, rest) := by
  have hlength : length.read (length.write bytes.length ++ (bytes ++ rest)) =
      some (bytes.length, bytes ++ rest) := readGroups_writeGroups (by decide) hbytes _
  simp only [sized, List.append_assoc, hlength, bind, Option.bind]
  rw [if_pos (by simp), List.take_left, List.drop_left]
  rfl

/-! ## How much is written -/

/-- No value takes more bytes. -/
def Within (wire : Wire α) (size : Nat) : Prop :=
  ∀ a, (wire.write a).length ≤ size

theorem Within.convert {wire : Wire α} {size : Nat} (h : wire.Within size) (forth : β → α)
    (back : α → Option β) : (wire.convert forth back).Within size := by
  intro b
  exact h (forth b)

theorem within_byte : byte.Within 1 :=
  fun _ => Nat.le_refl 1

theorem within_signedByte : signedByte.Within 1 :=
  within_byte.convert _ _

theorem within_boolean : boolean.Within 1 :=
  within_byte.convert _ _

theorem within_varint (more last : Nat) : (varint more last).Within (more + 1) := by
  intro n
  exact length_writeGroups_le more n

theorem within_word16 : word16.Within 3 :=
  (within_varint 2 3).convert _ _

theorem within_word32 : word32.Within 5 :=
  (within_varint 4 15).convert _ _

theorem Within.vector {wire : Wire α} {size : Nat} (h : wire.Within size) (n : Nat) :
    (Wire.vector n wire).Within (n * size) := by
  intro v
  have hmany (as : List α) : (as.flatMap wire.write).length ≤ as.length * size := by
    induction as with
    | nil => exact Nat.zero_le _
    | cons a as ih =>
        rw [List.flatMap_cons, List.length_append, List.length_cons, Nat.succ_mul]
        have ha := h a
        omega
  have hlength := hmany v.toList
  rwa [v.length_toList] at hlength

end Beacon.Wire

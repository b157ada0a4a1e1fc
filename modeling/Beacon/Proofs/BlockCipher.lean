import Beacon.Crypto.Aes
import Mathlib.Data.Fintype.Pi
import Mathlib.Tactic.Common

/-!
# What is encrypted can be decrypted

Every step of a round can be undone: a substituted byte is restored, rotated rows
are rotated back, a mixed column is unmixed, and a round key falls out when it is
added once more.  So a key never encrypts two blocks to the same one, and as there
are only so many blocks, each of them is the encryption of one.

Mixing is a sum of multiples of the bytes of a column, and multiplication in the
field is additive; what is left to check of it concerns one byte at a time.
-/

namespace Beacon

namespace Octets

variable {n : Nat}

@[simp] theorem getElem_xor (a b : Octets n) {i : Nat} (hi : i < n) :
    (a.xor b)[i] = a[i] ^^^ b[i] :=
  Vector.getElem_zipWith hi

theorem xor_xor_cancel (a b : Octets n) : (a.xor b).xor b = a := by
  apply Vector.ext
  intro i hi
  rw [getElem_xor, getElem_xor, UInt8.xor_assoc, UInt8.xor_self, UInt8.xor_zero]

theorem xor_right_cancel {a a' b : Octets n} (h : a.xor b = a'.xor b) : a = a' := by
  rw [← xor_xor_cancel a b, h, xor_xor_cancel]

theorem xor_comm (a b : Octets n) : a.xor b = b.xor a := by
  apply Vector.ext
  intro i hi
  rw [getElem_xor, getElem_xor, UInt8.xor_comm]

theorem xor_left_cancel {a b b' : Octets n} (h : a.xor b = a.xor b') : b = b' := by
  rw [xor_comm a, xor_comm a] at h
  exact xor_right_cancel h

instance finite (n : Nat) : Finite (Octets n) := by
  refine Finite.of_injective (fun (a : Octets n) (i : Fin n) => a[i].toFin) fun a b h => ?_
  apply Vector.ext
  intro i hi
  exact UInt8.toFin_inj.mp (congrFun h ⟨i, hi⟩)

end Octets

namespace Aes

/-- What holds of 256 numbers holds of all bytes. -/
theorem forall_byte {P : UInt8 → Prop} (h : ∀ n : Fin 256, P (.ofFin n)) (b : UInt8) : P b :=
  h b.toFin

/-- The second table restores the entries of the first in their order. -/
theorem map_restore_sbox : sbox.toList.map restore = (List.finRange 256).map UInt8.ofFin := by
  decide +kernel

theorem restore_substitute (b : UInt8) : restore (substitute b) = b := by
  have hsbox : b.toNat < (sbox.toList.map restore).length := by
    simpa using b.toNat_lt
  have hentry := List.getElem_of_eq map_restore_sbox hsbox
  rw [List.getElem_map, List.getElem_map, Vector.getElem_toList, List.getElem_finRange] at hentry
  exact hentry

theorem map_restore_substitute (s : Block) : (s.map substitute).map restore = s := by
  apply Vector.ext
  intro i hi
  rw [Vector.getElem_map, Vector.getElem_map, restore_substitute]

theorem unshiftRows_shiftRows (s : Block) : unshiftRows (shiftRows s) = s := by
  apply Vector.ext
  intro i hi
  have hback : ((i + 12 * (i % 4)) % 16 + 4 * ((i + 12 * (i % 4)) % 16 % 4)) % 16 = i := by
    omega
  simp only [unshiftRows, shiftRows, Vector.getElem_ofFn, hback]

/-! ## Multiplication is additive -/

/-- What leaves a byte at the top comes back at the bottom. -/
def fold (carry : Bool) : UInt8 :=
  if carry then 0x1b else 0

theorem fold_xor (a b : Bool) : fold (a ^^ b) = fold a ^^^ fold b := by
  cases a <;> cases b <;> rfl

theorem double_eq (b : UInt8) : double b = (b <<< 1) ^^^ fold b.toBitVec.msb := by
  have hmsb : b < 0x80 ↔ b.toBitVec.msb = false := by
    rw [UInt8.lt_iff_toNat_lt, BitVec.msb_eq_decide]
    simp
  rw [double, fold]
  split
  next hlow => rw [hmsb.mp hlow, if_neg Bool.false_ne_true, UInt8.xor_zero]
  next hhigh => rw [if_pos (by simpa using mt hmsb.mpr hhigh)]

theorem double_xor (a b : UInt8) : double (a ^^^ b) = double a ^^^ double b := by
  have hmsb : (a ^^^ b).toBitVec.msb = (a.toBitVec.msb ^^ b.toBitVec.msb) := by
    rw [UInt8.toBitVec_xor, BitVec.msb_xor]
  rw [double_eq, hmsb, fold_xor, UInt8.shiftLeft_xor, double_eq, double_eq]
  ac_rfl

theorem times_xor (factor : Nat) (a b : UInt8) :
    times factor (a ^^^ b) = times factor a ^^^ times factor b := by
  have hpart (p : Bool) (x y : UInt8) :
      (if p then x ^^^ y else 0) = (if p then x else 0) ^^^ if p then y else 0 := by
    cases p <;> simp
  simp only [times, double_xor, hpart]
  ac_rfl

/-! ## Columns -/

/-- The byte so many rows further down in the same column, going round. -/
def cell (s : Block) (i k : Nat) : UInt8 :=
  s[(4 * (i / 4) + (i + k) % 4) % 16]

theorem cell_zero (s : Block) {i : Nat} (hi : i < 16) : cell s i 0 = s[i] := by
  have hself : (4 * (i / 4) + (i + 0) % 4) % 16 = i := by
    omega
  simp only [cell, hself]

theorem cell_add_four (s : Block) (i k : Nat) : cell s i (k + 4) = cell s i k := by
  have hround : (i + (k + 4)) % 4 = (i + k) % 4 := by
    omega
  simp only [cell, hround]

theorem cell_mixWith (a b c d : Nat) (s : Block) (i k : Nat) :
    cell (mixWith a b c d s) i k =
      times a (cell s i k) ^^^ times b (cell s i (k + 1)) ^^^ times c (cell s i (k + 2)) ^^^
        times d (cell s i (k + 3)) := by
  have hplace (l : Nat) :
      (4 * ((4 * (i / 4) + (i + k) % 4) % 16 / 4) +
          ((4 * (i / 4) + (i + k) % 4) % 16 + l) % 4) % 16 =
        (4 * (i / 4) + (i + (k + l)) % 4) % 16 := by
    omega
  simp only [cell, mixWith, Vector.getElem_ofFn, hplace]
  rfl

/-- What a byte comes to in an unmixed column, by its weights in the bytes of the mixed one. -/
def unmixed (a b c d : Nat) (x : UInt8) : UInt8 :=
  times 14 (times a x) ^^^ times 11 (times b x) ^^^ times 13 (times c x) ^^^ times 9 (times d x)

theorem unmixed_own (x : UInt8) : unmixed 2 1 1 3 x = x := by
  revert x
  exact forall_byte (by decide +kernel)

theorem unmixed_other (x : UInt8) :
    unmixed 3 2 1 1 x = 0 ∧ unmixed 1 3 2 1 x = 0 ∧ unmixed 1 1 3 2 x = 0 := by
  revert x
  exact forall_byte (by decide +kernel)

theorem unmixColumns_mixColumns (s : Block) : unmixColumns (mixColumns s) = s := by
  apply Vector.ext
  intro i hi
  have hsum : cell (unmixColumns (mixColumns s)) i 0 =
      unmixed 2 1 1 3 (cell s i 0) ^^^ unmixed 3 2 1 1 (cell s i 1) ^^^
        unmixed 1 3 2 1 (cell s i 2) ^^^ unmixed 1 1 3 2 (cell s i 3) := by
    simp only [unmixColumns, mixColumns, cell_mixWith, Nat.zero_add, Nat.reduceAdd, times_xor,
      cell_add_four s i 0, cell_add_four s i 1, cell_add_four s i 2, unmixed]
    ac_rfl
  rw [← cell_zero _ hi, hsum, unmixed_own, (unmixed_other _).1, (unmixed_other _).2.1,
    (unmixed_other _).2.2, UInt8.xor_zero, UInt8.xor_zero, UInt8.xor_zero, cell_zero s hi]

/-! ## Rounds -/

theorem undoRounds_rounds (keys : List Key) (s : Block) : undoRounds keys (rounds keys s) = s := by
  induction keys, s using rounds.induct with
  | case1 s => rfl
  | case2 s last =>
      rw [rounds, undoRounds, Octets.xor_xor_cancel, unshiftRows_shiftRows, map_restore_substitute]
  | case3 s key rest hrest ih =>
      rw [rounds, undoRounds, ih, Octets.xor_xor_cancel, unmixColumns_mixColumns,
        unshiftRows_shiftRows, map_restore_substitute]
      all_goals exact hrest

theorem decrypt_encrypt (key : Key) (block : Block) : decrypt key (encrypt key block) = block := by
  rw [decrypt, encrypt, undoRounds_rounds, Octets.xor_xor_cancel]

theorem encrypt_injective (key : Key) : Function.Injective (encrypt key) :=
  Function.LeftInverse.injective (decrypt_encrypt key)

theorem encrypt_decrypt (key : Key) (block : Block) : encrypt key (decrypt key block) = block := by
  have honto := Finite.surjective_of_injective (encrypt_injective key)
  exact Function.LeftInverse.rightInverse_of_surjective (decrypt_encrypt key) honto block

end Aes

end Beacon

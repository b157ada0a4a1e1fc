import Beacon.Proofs.BlockCipher
import Beacon.Proofs.Sealing

/-!
# Encryption as it is published

The authentication code and the mode of encryption that is built from it are
published for any block function.  There the blocks of a message are counted
first, the keys for the last block come from doubling a number of 128 bits, and
every byte of the key stream is given by its place.

`Eax` doubles byte by byte, takes a block after the other off what is left, and has
the block that goes before the data encrypted apart from them.  It gives the same
ciphertext and tag.
-/

namespace Beacon

/-! ## Blocks as numbers -/

namespace Bytes

theorem littleEndian_mod_limit (width n : Nat) :
    littleEndian width (n % limit width) = littleEndian width n := by
  induction width generalizing n with
  | zero => rfl
  | succ width ih =>
      have hbyte : UInt8.ofNat (n % (256 * limit width)) = UInt8.ofNat n := by
        rw [← UInt8.ofNat_mod_size, ← UInt8.ofNat_mod_size (x := n)]
        exact congrArg UInt8.ofNat (Nat.mod_mul_right_mod n 256 (limit width))
      rw [littleEndian, littleEndian, limit, hbyte, Nat.mod_mul_right_div_self, ih]

theorem littleEndian_zero (width : Nat) : littleEndian width 0 = List.replicate width 0 := by
  induction width with
  | zero => rfl
  | succ width ih =>
      rw [littleEndian, Nat.zero_div, ih]
      rfl

theorem littleEndian_xor (width a b : Nat) :
    littleEndian width (a ^^^ b) = xor (littleEndian width a) (littleEndian width b) := by
  induction width generalizing a b with
  | zero => rfl
  | succ width ih =>
      have hquotient : (a ^^^ b) / 256 = a / 256 ^^^ b / 256 := Nat.xor_div_two_pow (n := 8)
      rw [littleEndian, littleEndian, littleEndian, UInt8.ofNat_xor, hquotient, ih]
      rfl

theorem bigEndian_xor (width a b : Nat) :
    bigEndian width (a ^^^ b) = xor (bigEndian width a) (bigEndian width b) := by
  rw [bigEndian, littleEndian_xor, xor, List.reverse_zipWith (by simp)]
  rfl

theorem ofLittleEndian_concat (bytes : Bytes) (b : UInt8) :
    ofLittleEndian (bytes ++ [b]) = ofLittleEndian bytes + limit bytes.length * b.toNat := by
  induction bytes with
  | nil => simp [ofLittleEndian, limit]
  | cons a bytes ih =>
      rw [List.cons_append, ofLittleEndian, ih, ofLittleEndian, List.length_cons, limit]
      rw [Nat.mul_add, Nat.mul_assoc, Nat.add_assoc]

theorem ofBigEndian_cons (b : UInt8) (rest : Bytes) :
    ofBigEndian (b :: rest) = ofBigEndian rest + limit rest.length * b.toNat := by
  rw [ofBigEndian, List.reverse_cons, ofLittleEndian_concat, List.length_reverse, ofBigEndian]

/-- The first byte decides between multiples of what the others can hold. -/
theorem ofBigEndian_lt_iff (b : UInt8) (rest : Bytes) (k : Nat) :
    ofBigEndian (b :: rest) < k * limit rest.length ↔ b.toNat < k := by
  have hrest : ofBigEndian rest < limit rest.length := ofBigEndian_lt rfl
  have hpos : 0 < limit rest.length := Nat.zero_lt_of_lt hrest
  rw [ofBigEndian_cons, ← Nat.div_lt_iff_lt_mul hpos, Nat.add_mul_div_left _ _ hpos,
    Nat.div_eq_of_lt hrest, Nat.zero_add]

theorem bigEndian_add_limit_mul (width n k : Nat) :
    bigEndian width (n + limit width * k) = bigEndian width n := by
  rw [bigEndian, bigEndian, ← littleEndian_mod_limit, Nat.add_mul_mod_self_left,
    littleEndian_mod_limit]

theorem octets_xor {n : Nat} {a b : Bytes} (ha : a.length = n) (hb : b.length = n) :
    octets n (xor a b) = (octets n a).xor (octets n b) := by
  apply Vector.ext
  intro i hi
  simp [octets, xor, ha, hb]

theorem octets_append_zeros (n k : Nat) (bytes : Bytes) :
    octets n (bytes ++ List.replicate k 0) = octets n bytes := by
  apply Vector.ext
  intro i hi
  simp only [octets, Vector.getElem_ofFn, List.getD_eq_getElem?_getD, List.getElem?_append]
  split
  next => rfl
  next hout =>
    rw [List.getElem?_eq_none (Nat.le_of_not_lt hout), List.getElem?_replicate]
    split <;> rfl

end Bytes

theorem Octets.zero_xor {n : Nat} (a : Octets n) : (zero n).xor a = a := by
  apply Vector.ext
  intro i hi
  simp [zero]

namespace Block

theorem mod_sixteen_lt (i : Nat) : i % 16 < 16 :=
  Nat.mod_lt i (by decide)

/-- The block as a number modulo `2 ^ 128`, most significant byte first. -/
def bits (b : Block) : BitVec 128 :=
  .ofNat 128 b.toNat

def ofBits (x : BitVec 128) : Block :=
  .ofNat x.toNat

/-- The byte at a place, counted round. -/
def byte (b : Block) (i : Nat) : UInt8 :=
  b.get ⟨i % 16, mod_sixteen_lt i⟩

theorem byte_of_lt (b : Block) {i : Nat} (h : i < 16) : b.byte i = b[i] := by
  have hplace : i % 16 = i := Nat.mod_eq_of_lt h
  simp only [byte, hplace]
  rfl

theorem byte_add_sixteen (b : Block) (i : Nat) : b.byte (i + 16) = b.byte i := by
  simp only [byte, Nat.add_mod_right]

theorem exists_toList_eq (b : Block) :
    ∃ first rest, b.toList = first :: rest ∧ rest.length = 15 := by
  have hlength : b.toList.length = 15 + 1 := Vector.length_toList
  obtain ⟨first, rest, hlist⟩ := List.exists_cons_of_length_eq_add_one hlength
  rw [hlist, List.length_cons] at hlength
  exact ⟨first, rest, hlist, Nat.succ.inj hlength⟩

theorem toNat_lt (b : Block) : b.toNat < Bytes.limit 16 := by
  have h := Bytes.ofLittleEndian_lt b.toList.reverse
  rw [List.length_reverse, Vector.length_toList] at h
  exact h

theorem toNat_bits (b : Block) : b.bits.toNat = b.toNat := by
  rw [bits, BitVec.toNat_ofNat]
  exact Nat.mod_eq_of_lt b.toNat_lt

theorem ofNat_mod (n : Nat) : ofNat (n % Bytes.limit 16) = ofNat n := by
  rw [ofNat, ofNat, Bytes.bigEndian, Bytes.bigEndian, Bytes.littleEndian_mod_limit]

theorem ofNat_xor (a b : Nat) : ofNat (a ^^^ b) = (ofNat a).xor (ofNat b) := by
  rw [ofNat, Bytes.bigEndian_xor,
    Bytes.octets_xor (Bytes.length_bigEndian 16 a) (Bytes.length_bigEndian 16 b)]
  rfl

theorem ofNat_add (b : Block) (n : Nat) : ofNat (b.toNat + n) = ofBits (b.bits + .ofNat 128 n) := by
  have hsum : (b.bits + .ofNat 128 n).toNat = (b.toNat + n) % Bytes.limit 16 := by
    rw [BitVec.toNat_add, toNat_bits, BitVec.toNat_ofNat, Nat.add_mod_mod]
    rfl
  rw [ofBits, hsum, ofNat_mod]

end Block

/-! ## The published definitions -/

namespace Published

section

variable (cipher : Block → Block)

/-- Twice a number modulo `2 ^ 128`; for a bit that is lost, `0x87` is added without carry. -/
def doubled (x : BitVec 128) : BitVec 128 :=
  if x.msb then (x + x) ^^^ 0x87#128 else x + x

/-- The key for a last block that is full. -/
def firstKey : Block :=
  .ofBits (doubled (cipher (Octets.zero 16)).bits)

/-- The key for a last block that is not. -/
def secondKey : Block :=
  .ofBits (doubled (firstKey cipher).bits)

/-- How many blocks a message is cut into; even an empty one has a block. -/
def blocks (message : Bytes) : Nat :=
  max 1 ((message.length + 15) / 16)

def piece (message : Bytes) (i : Nat) : Bytes :=
  (message.drop (16 * i)).take 16

/-- A one bit and then zeros make up a block. -/
def padded (piece : Bytes) : Block :=
  Bytes.octets 16 (piece ++ 0x80 :: List.replicate (15 - piece.length) 0)

def lastBlock (message : Bytes) : Block :=
  let last := piece message (blocks message - 1)
  if message ≠ [] ∧ message.length % 16 = 0 then (Bytes.octets 16 last).xor (firstKey cipher)
  else (padded last).xor (secondKey cipher)

/-- What so many blocks from the start of the message are chained to. -/
def chained (message : Bytes) : Nat → Block
  | 0 => Octets.zero 16
  | i + 1 => cipher ((chained message i).xor (Bytes.octets 16 (piece message i)))

def cmac (message : Bytes) : Block :=
  cipher ((chained cipher message (blocks message - 1)).xor (lastBlock cipher message))

/-- The code of the data behind a block of zeros that ends in the tweak. -/
def omac (tweak : UInt8) (data : Bytes) : Block :=
  cmac cipher (List.replicate 15 0 ++ tweak :: data)

/-- A byte of the key stream: it stands in a block that counts on from the start. -/
def keyByte (start : BitVec 128) (i : Nat) : UInt8 :=
  (cipher (.ofBits (start + .ofNat 128 (i / 16)))).byte i

/-- The ciphertext of a message, and as many bytes of its tag as are wanted. -/
def encrypt (nonce header message : Bytes) (length : Nat) : Bytes × Bytes :=
  let start := omac cipher 0 nonce
  let ciphertext := message.mapIdx fun i b => b ^^^ keyByte cipher start.bits i
  let tag := (start.xor (omac cipher 1 header)).xor (omac cipher 2 ciphertext)
  (ciphertext, tag.toList.take length)

end

theorem padded_eq (piece : Bytes) : padded piece = Bytes.octets 16 (piece ++ [0x80]) := by
  have hzeros := Bytes.octets_append_zeros 16 (15 - piece.length) (piece ++ [0x80])
  rw [List.append_assoc] at hzeros
  exact hzeros

/-- The block that is the last one once there is no more data than fits into it. -/
theorem blocks_sub_one {message : Bytes} {i : Nat} (hstart : 16 * i < message.length)
    (hend : message.length ≤ 16 * i + 16) : blocks message - 1 = i := by
  rw [blocks]
  omega

end Published

namespace Eax

variable (key : Key)

/-! ## Doubling -/

@[simp] theorem length_shiftUp (bytes : Bytes) : (shiftUp bytes).length = bytes.length := by
  induction bytes using shiftUp.induct with
  | case1 => rfl
  | case2 last => rfl
  | case3 b c rest ih => simpa [shiftUp] using ih

/-- A byte that has moved up, and the bit that has left it. -/
theorem toNat_moved (b c : UInt8) :
    ((b <<< 1) ||| (c >>> 7)).toNat + 256 * (b >>> 7).toNat = 2 * b.toNat + (c >>> 7).toNat := by
  have hcarry : c.toNat / 128 < 2 ^ 1 := by
    have hc := c.toNat_lt
    omega
  have hlow : 2 * b.toNat % 256 = (b.toNat % 128) <<< 1 := by
    rw [Nat.shiftLeft_eq]
    omega
  have hmoved : (b <<< 1).toNat = 2 * b.toNat % 256 := by
    rw [UInt8.toNat_shiftLeft, Nat.shiftLeft_eq, Nat.mul_comm]
    rfl
  have hbit (a : UInt8) : (a >>> 7).toNat = a.toNat / 128 := by
    rw [UInt8.toNat_shiftRight, Nat.shiftRight_eq_div_pow]
    rfl
  -- the two operands have no bit in common, so that joining them is adding them
  rw [UInt8.toNat_or, hmoved, hbit, hbit, hlow, ← Nat.shiftLeft_add_eq_or_of_lt hcarry, ← hlow]
  omega

/-- The bytes have moved up to twice the number they were, less the bit that left the first. -/
theorem ofBigEndian_shiftUp (b : UInt8) (rest : Bytes) :
    Bytes.ofBigEndian (shiftUp (b :: rest)) + Bytes.limit (rest.length + 1) * (b >>> 7).toNat =
      2 * Bytes.ofBigEndian (b :: rest) := by
  induction rest generalizing b with
  | nil =>
      have hbyte := toNat_moved b 0
      simpa [shiftUp, Bytes.ofBigEndian, Bytes.ofLittleEndian, Bytes.limit] using hbyte
  | cons c rest ih =>
      obtain ⟨unit, hunit⟩ : ∃ unit, Bytes.limit (rest.length + 1) = unit := ⟨_, rfl⟩
      have hrest : Bytes.ofBigEndian (shiftUp (c :: rest)) + unit * (c >>> 7).toNat =
          2 * Bytes.ofBigEndian (c :: rest) := hunit ▸ ih c
      have hbyte : unit * ((b <<< 1) ||| (c >>> 7)).toNat + 256 * (unit * (b >>> 7).toNat) =
          2 * (unit * b.toNat) + unit * (c >>> 7).toNat := by
        have hmoved := congrArg (unit * ·) (toNat_moved b c)
        simpa only [Nat.mul_add, Nat.mul_left_comm _ 256, Nat.mul_left_comm _ 2] using hmoved
      have hlimit : Bytes.limit (rest.length + 1 + 1) = 256 * unit := hunit ▸ rfl
      rw [shiftUp, Bytes.ofBigEndian_cons, Bytes.ofBigEndian_cons, length_shiftUp,
        List.length_cons, hlimit, hunit, Nat.mul_assoc]
      omega

theorem shiftUp_eq_bigEndian {b : UInt8} {rest : Bytes} {width : Nat}
    (h : rest.length + 1 = width) :
    shiftUp (b :: rest) = Bytes.bigEndian width (2 * Bytes.ofBigEndian (b :: rest)) := by
  have hlength : (shiftUp (b :: rest)).length = width := by
    rw [length_shiftUp, List.length_cons, h]
  rw [← ofBigEndian_shiftUp, h, Bytes.bigEndian_add_limit_mul, Bytes.bigEndian_ofBigEndian hlength]

theorem and_top_eq_zero_iff (b : UInt8) : b &&& 0x80 = 0 ↔ b.toNat < 128 := by
  have hall : ∀ n < 256, n &&& 128 = 0 ↔ n < 128 := by
    decide +kernel
  rw [← UInt8.toNat_inj, UInt8.toNat_and]
  exact hall b.toNat b.toNat_lt

theorem foldBack_eq_xor (b : Block) : foldBack b = b.xor (Block.ofNat 0x87) := by
  have hmask : Block.ofNat 0x87 = (Octets.zero 16).set 15 0x87 := by
    decide
  rw [hmask]
  apply Vector.ext
  intro i hi
  simp only [foldBack, Octets.xor, Octets.zero, Vector.getElem_zipWith, Vector.getElem_set]
  split
  next hlast =>
    subst hlast
    rfl
  next => simp

theorem carries_eq_false_iff (b : Block) : carries b = false ↔ b.toNat < 1 <<< 127 := by
  obtain ⟨first, rest, hlist, hlength⟩ := b.exists_toList_eq
  have hfirst : b[0] = first := by
    have hpos : 0 < b.toList.length := by
      rw [Vector.length_toList]
      decide
    exact List.getElem_of_eq hlist hpos
  have hlimit : 1 <<< 127 = 128 * Bytes.limit rest.length := by
    rw [hlength]
    decide
  rw [Block.toNat, hlist, hlimit, Bytes.ofBigEndian_lt_iff, ← and_top_eq_zero_iff, carries, hfirst]
  simp

/-- Shifting byte by byte doubles the block as a number. -/
theorem double_eq_ofNat (b : Block) :
    double b =
      if b.toNat < 1 <<< 127 then Block.ofNat (2 * b.toNat)
      else (Block.ofNat (2 * b.toNat)).xor (Block.ofNat 0x87) := by
  have hout : Bytes.octets 16 (shiftUp b.toList) = Block.ofNat (2 * b.toNat) := by
    obtain ⟨first, rest, hlist, hlength⟩ := b.exists_toList_eq
    have hwidth : rest.length + 1 = 16 := congrArg (· + 1) hlength
    rw [Block.ofNat, Block.toNat, hlist, shiftUp_eq_bigEndian hwidth]
  simp only [double, hout, foldBack_eq_xor]
  by_cases hlow : b.toNat < 1 <<< 127
  · rw [if_pos hlow, (carries_eq_false_iff b).mpr hlow, if_neg Bool.false_ne_true]
  · have hcarries : carries b = true := by
      simpa using mt (carries_eq_false_iff b).mp hlow
    rw [if_neg hlow, if_pos hcarries]

theorem double_eq (b : Block) : double b = .ofBits (Published.doubled b.bits) := by
  have hmsb : b.bits.msb = decide (2 ^ 127 ≤ b.toNat) := by
    rw [BitVec.msb_eq_decide, Block.toNat_bits]
  have hsum : (b.bits + b.bits).toNat = (2 * b.toNat) % Bytes.limit 16 := by
    rw [BitVec.toNat_add, Block.toNat_bits, Nat.two_mul]
    rfl
  rw [double_eq_ofNat, Published.doubled, hmsb, Block.ofBits, Nat.one_shiftLeft]
  by_cases hlow : b.toNat < 2 ^ 127
  · rw [if_pos hlow, if_neg (by simpa using hlow), hsum, Block.ofNat_mod]
  · rw [if_neg hlow, if_pos (by simpa using hlow), BitVec.toNat_xor, hsum, Block.ofNat_xor,
      Block.ofNat_mod]
    rfl

/-! ## Authentication codes -/

theorem fullKey_eq : fullKey key = Published.firstKey (Aes.encrypt key) :=
  double_eq _

theorem paddedKey_eq : paddedKey key = Published.secondKey (Aes.encrypt key) := by
  rw [paddedKey, double_eq, fullKey_eq, Published.secondKey]

theorem finalBlock_eq_lastBlock {message : Bytes} {i : Nat} (hstart : 16 * i < message.length)
    (hend : message.length ≤ 16 * i + 16) :
    finalBlock key (message.drop (16 * i)) = Published.lastBlock (Aes.encrypt key) message := by
  have hlength : (message.drop (16 * i)).length = message.length - 16 * i := List.length_drop
  have hlast : Published.piece message (Published.blocks message - 1) = message.drop (16 * i) := by
    rw [Published.blocks_sub_one hstart hend, Published.piece, List.take_of_length_le (by omega)]
  have hne : message ≠ [] := List.ne_nil_of_length_pos (Nat.zero_lt_of_lt hstart)
  rw [finalBlock, Published.lastBlock, hlast, fullKey_eq, paddedKey_eq, Published.padded_eq]
  by_cases hfull : message.length % 16 = 0
  · rw [if_pos (by omega), if_pos ⟨hne, hfull⟩]
  · rw [if_neg (by omega), if_neg fun h => hfull h.2]

theorem chain_of_le {data : Bytes} (h : data.length ≤ 16) (x : Block) :
    chain key x data = Aes.encrypt key (x.xor (finalBlock key data)) := by
  rw [chain, if_pos h]

theorem chain_of_lt {data : Bytes} (h : 16 < data.length) (x : Block) :
    chain key x data =
      chain key (Aes.encrypt key (x.xor (Bytes.octets 16 data))) (data.drop 16) := by
  rw [chain, if_neg (Nat.not_le.mpr h)]

/-- Wherever the chain has come to in the message, it ends in the code of the message. -/
theorem chain_chained {message : Bytes} {i : Nat} (hstart : 16 * i < message.length) :
    chain key (Published.chained (Aes.encrypt key) message i) (message.drop (16 * i)) =
      Published.cmac (Aes.encrypt key) message := by
  have hlength : (message.drop (16 * i)).length = message.length - 16 * i := List.length_drop
  by_cases hlast : message.length ≤ 16 * i + 16
  · rw [chain_of_le key (by omega), finalBlock_eq_lastBlock key hstart hlast, Published.cmac,
      Published.blocks_sub_one hstart hlast]
  · have hmore : 16 * (i + 1) < message.length := by
      omega
    have hnext := chain_chained hmore
    rw [Published.chained, Published.piece, Bytes.octets_take] at hnext
    rw [chain_of_lt key (by omega), List.drop_drop, ← Nat.mul_succ]
    exact hnext
termination_by message.length - 16 * i

theorem octets_tweak (tweak : UInt8) (data : Bytes) :
    Bytes.octets 16 (List.replicate 15 0 ++ tweak :: data) = Block.ofNat tweak.toNat := by
  have hhigh : tweak.toNat / 256 = 0 := Nat.div_eq_of_lt tweak.toNat_lt
  have hbytes : Bytes.bigEndian 16 tweak.toNat = List.replicate 15 0 ++ [tweak] := by
    rw [Bytes.bigEndian, Bytes.littleEndian, hhigh, Bytes.littleEndian_zero, UInt8.ofNat_toNat]
    rfl
  rw [Block.ofNat, hbytes, ← Bytes.octets_take]
  rfl

/-- The tweak is a block like those of the data. -/
theorem code_eq_chain (tweak : UInt8) (data : Bytes) :
    code key tweak data = chain key (Octets.zero 16) (List.replicate 15 0 ++ tweak :: data) := by
  have hlength : (List.replicate 15 0 ++ tweak :: data).length = data.length + 16 := by
    rw [List.length_append, List.length_replicate, List.length_cons]
    omega
  have hdrop : (List.replicate 15 0 ++ tweak :: data).drop 16 = data := rfl
  conv_rhs => rw [chain, hlength, hdrop, octets_tweak, Octets.zero_xor, Octets.zero_xor]
  rw [code]
  by_cases hdata : data = []
  · rw [if_pos hdata, if_pos (by simp [hdata]), finalBlock, if_pos (by simp [hdata]), octets_tweak]
  · have hpos : 0 < data.length := List.length_pos_iff.mpr hdata
    rw [if_neg hdata, if_neg (by omega)]

theorem code_eq_omac (tweak : UInt8) (data : Bytes) :
    code key tweak data = Published.omac (Aes.encrypt key) tweak data := by
  have hstart : 16 * 0 < (List.replicate 15 0 ++ tweak :: data).length := by
    simp
  rw [code_eq_chain]
  exact chain_chained key hstart

/-! ## Key streams -/

theorem xor_keyBlock (counter : Nat) {piece : Bytes} (h : piece.length ≤ 16) :
    Bytes.xor piece (Aes.encrypt key (.ofNat counter)).toList =
      piece.mapIdx fun i b => b ^^^ (Aes.encrypt key (.ofNat (counter + i / 16))).byte i := by
  apply List.ext_getElem
  · rw [Bytes.length_xor, Vector.length_toList, List.length_mapIdx, Nat.min_eq_left h]
  · intro i hi hpiece
    rw [List.length_mapIdx] at hpiece
    have hblock : i < 16 := Nat.lt_of_lt_of_le hpiece h
    simp [Bytes.xor, Nat.div_eq_of_lt hblock, Block.byte_of_lt _ hblock]

theorem counterMode_eq_mapIdx (counter : Nat) (data : Bytes) :
    counterMode key counter data =
      data.mapIdx fun i b => b ^^^ (Aes.encrypt key (.ofNat (counter + i / 16))).byte i := by
  induction counter, data using counterMode.induct with
  | case1 counter => rw [counterMode_nil, List.mapIdx_nil]
  | case2 counter data hdata ih =>
      rw [counterMode_of_ne_nil key counter hdata, ih,
        xor_keyBlock key counter (List.length_take_le 16 data)]
      conv_rhs => rw [← List.take_append_drop 16 data, List.mapIdx_append]
      refine congrArg (List.append _) ?_
      -- The places in what is left are counted from its own start, one block later.
      by_cases hrest : data.length ≤ 16
      · rw [List.drop_of_length_le hrest, List.mapIdx_nil, List.mapIdx_nil]
      · have hfull : (data.take 16).length = 16 := by
          rw [List.length_take]
          omega
        have hplace (i : Nat) : counter + 1 + i / 16 = counter + (i + 16) / 16 := by
          omega
        simp only [hfull, hplace, Block.byte_add_sixteen]

theorem crypt_eq_mapIdx (nonce data : Bytes) :
    crypt key nonce data = data.mapIdx fun i b =>
      b ^^^ Published.keyByte (Aes.encrypt key)
        (Published.omac (Aes.encrypt key) 0 nonce).bits i := by
  rw [crypt, counterMode_eq_mapIdx, code_eq_omac, nonceTweak]
  simp only [Block.ofNat_add, Published.keyByte]

/-- What is encrypted, and the part of the tag that is wanted, are those of the published mode with
AES as its block function. -/
theorem encrypt_eq_published (key : Key) (nonce header message : Bytes) {length : Nat}
    (h : length ≤ tagLength) :
    encrypt key nonce header message length =
      Published.encrypt (Aes.encrypt key) nonce header message length := by
  rw [encrypt, Published.encrypt, Nat.sub_eq_zero_of_le h, List.replicate_zero, List.append_nil,
    tag, code_eq_omac, code_eq_omac, code_eq_omac, crypt_eq_mapIdx]
  rfl

/-- Five blocks of data under a short tag, the last of them with one byte. -/
theorem encrypt_published_long :
    4 ≤ tagLength ∧
      encrypt (Octets.zero 16) [0xBE, 0xCA] (List.replicate 32 0xFA) (List.replicate 65 0xF7) 4 =
        Published.encrypt (Aes.encrypt (Octets.zero 16)) [0xBE, 0xCA] (List.replicate 32 0xFA)
          (List.replicate 65 0xF7) 4 :=
  ⟨by decide, encrypt_eq_published (Octets.zero 16) _ _ _ (by decide)⟩

end Eax

end Beacon

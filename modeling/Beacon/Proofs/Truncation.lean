import Beacon.Proofs.Restart

/-!
# Truncated parameters

What stands behind a value does not change how it is read.  So nothing is read from
bytes that break off inside a written value: if there were, the bytes that are
missing would be left over when the whole is read.

Written parameters are their fields in order, words and lengths and variants in
groups of seven bits, all else in plain bytes.
-/

namespace Beacon

namespace Wire

variable {α β : Type}

/-! ## Reading forward -/

/-- A value that is read stays the same when more bytes follow, and these are left. -/
def Forward (wire : Wire α) : Prop :=
  ∀ bytes a rest, wire.read bytes = some (a, rest) →
    ∀ more, wire.read (bytes ++ more) = some (a, rest ++ more)

theorem forward_byte : byte.Forward := by
  intro bytes b rest hread more
  cases bytes with
  | nil => cases hread
  | cons first bytes =>
      cases hread
      rfl

theorem Forward.convert {wire : Wire α} (h : wire.Forward) (forth : β → α) (back : α → Option β) :
    (wire.convert forth back).Forward := by
  intro bytes b rest hread more
  obtain ⟨⟨a, left⟩, hunder, hthen⟩ := Option.bind_eq_some_iff.mp hread
  obtain ⟨c, hback, heq⟩ := Option.bind_eq_some_iff.mp hthen
  cases heq
  simp only [Wire.convert, h bytes a rest hunder more, hback, bind, Option.bind]
  rfl

theorem forward_signedByte : signedByte.Forward :=
  forward_byte.convert _ _

theorem forward_boolean : boolean.Forward :=
  forward_byte.convert _ _

theorem forward_varint (more last : Nat) : (varint more last).Forward := by
  intro bytes n rest hread behind
  simp only [varint] at hread ⊢
  induction more generalizing bytes n with
  | zero =>
      cases bytes with
      | nil => cases hread
      | cons b bytes =>
          simp only [readGroups, List.cons_append] at hread ⊢
          split at hread
          next hlast =>
            cases hread
            rw [if_pos hlast]
          next => cases hread
  | succ more ih =>
      cases bytes with
      | nil => cases hread
      | cons b bytes =>
          simp only [readGroups, List.cons_append] at hread ⊢
          split at hread
          next hsmall =>
            cases hread
            rw [if_pos hsmall]
          next hlarge =>
            obtain ⟨⟨high, left⟩, hhigh, heq⟩ := Option.bind_eq_some_iff.mp hread
            cases heq
            rw [if_neg hlarge, ih bytes high hhigh]
            rfl

theorem forward_word16 : word16.Forward :=
  (forward_varint 2 3).convert _ _

theorem forward_word32 : word32.Forward :=
  (forward_varint 4 15).convert _ _

theorem readMany_append {wire : Wire α} (h : wire.Forward) {count : Nat} {bytes rest : Bytes}
    {as : List α} (hread : readMany wire count bytes = some (as, rest)) (more : Bytes) :
    readMany wire count (bytes ++ more) = some (as, rest ++ more) := by
  induction count generalizing bytes as with
  | zero =>
      cases hread
      rfl
  | succ count ih =>
      obtain ⟨⟨a, left⟩, hfirst, hthen⟩ := Option.bind_eq_some_iff.mp hread
      obtain ⟨⟨others, behind⟩, hothers, heq⟩ := Option.bind_eq_some_iff.mp hthen
      cases heq
      simp only [readMany, h bytes a left hfirst more, ih hothers, bind, Option.bind]
      rfl

theorem Forward.vector {wire : Wire α} (h : wire.Forward) (n : Nat) :
    (Wire.vector n wire).Forward := by
  intro bytes v rest hread more
  obtain ⟨⟨as, left⟩, hmany, hthen⟩ := Option.bind_eq_some_iff.mp hread
  simp only at hthen
  split at hthen
  next hlength =>
    cases hthen
    simp only [Wire.vector, readMany_append h hmany more, bind, Option.bind, dif_pos hlength]
    rfl
  next => cases hthen

theorem forward_sized : sized.Forward := by
  intro bytes taken rest hread more
  obtain ⟨⟨n, left⟩, hlength, hthen⟩ := Option.bind_eq_some_iff.mp hread
  simp only at hthen
  split at hthen
  next hfits =>
    cases hthen
    have hlong : n ≤ (left ++ more).length := by
      rw [List.length_append]
      omega
    have hnumber := forward_varint 9 1 bytes n left hlength more
    simp only [sized, length, hnumber, bind, Option.bind, if_pos hlong,
      List.take_append_of_le_length hfits, List.drop_append_of_le_length hfits]
    rfl
  next => cases hthen

/-- Nothing is read from bytes that break off inside a written value. -/
theorem Lawful.read_of_truncated {wire : Wire α} (h : wire.Lawful) (hforward : wire.Forward) {a : α}
    {front : Bytes} (hfront : front <+: wire.write a) (hshort : front ≠ wire.write a) :
    wire.read front = none := by
  obtain ⟨missing, hmissing⟩ := hfront
  cases hread : wire.read front with
  | none => rfl
  | some found =>
      have hwhole := h a []
      have hleft := hforward front found.1 found.2 hread missing
      rw [List.append_nil, ← hmissing, hleft] at hwhole
      simp only [Option.some.injEq, Prod.mk.injEq, List.append_eq_nil_iff] at hwhole
      refine absurd ?_ hshort
      rw [← hmissing, hwhole.2.2, List.append_nil]

/-! ## One value after another -/

/-- A value and the one behind it. -/
def pair (wire : Wire α) (behind : Wire β) : Wire (α × β) where
  write both := wire.write both.1 ++ behind.write both.2
  read bytes := do
    let (a, rest) ← wire.read bytes
    let (b, rest) ← behind.read rest
    return ((a, b), rest)

/-- The fields of a pair are read one after the other. -/
theorem bind_read_pair {γ : Type} (wire : Wire α) (behind : Wire β) (bytes : Bytes)
    (next : (α × β) × Bytes → Option γ) :
    ((wire.pair behind).read bytes).bind next =
      (wire.read bytes).bind fun a => (behind.read a.2).bind fun b => next ((a.1, b.1), b.2) := by
  simp only [pair, Option.bind_eq_bind, Option.bind_assoc]
  rfl

theorem Lawful.pair {wire : Wire α} {behind : Wire β} (h : wire.Lawful) (hbehind : behind.Lawful) :
    (wire.pair behind).Lawful := by
  intro both rest
  simp only [Wire.pair, List.append_assoc, h _ _, hbehind _ _, bind, Option.bind]
  rfl

theorem Forward.pair {wire : Wire α} {behind : Wire β} (h : wire.Forward)
    (hbehind : behind.Forward) : (wire.pair behind).Forward := by
  intro bytes both rest hread more
  obtain ⟨⟨a, left⟩, hfirst, hthen⟩ := Option.bind_eq_some_iff.mp hread
  obtain ⟨⟨b, last⟩, hsecond, heq⟩ := Option.bind_eq_some_iff.mp hthen
  cases heq
  simp only [Wire.pair, h bytes a left hfirst more, hbehind left b rest hsecond more, bind,
    Option.bind]
  rfl

end Wire

theorem Clock.forward_wire : Clock.wire.Forward := by
  intro bytes clock rest hread more
  obtain ⟨⟨prior, left⟩, hprior, hthen⟩ := Option.bind_eq_some_iff.mp hread
  obtain ⟨⟨elapsed, last⟩, helapsed, heq⟩ := Option.bind_eq_some_iff.mp hthen
  cases heq
  simp only [wire, read, Wire.forward_word32 bytes prior left hprior more,
    Wire.forward_word32 left elapsed rest helapsed more, bind, Option.bind]
  rfl

theorem LockState.forward_wire : LockState.wire.Forward :=
  Wire.forward_word32.convert _ _

theorem StoredFrame.forward_wire : StoredFrame.wire.Forward :=
  Wire.forward_sized.convert _ _

namespace Params

theorem forward_keyWire : keyWire.Forward :=
  Wire.forward_byte.vector 16

/-- All fields one after another. -/
def fieldsWire :=
  Wire.word32.pair <| Clock.wire.pair <| Wire.byte.pair <| (Wire.vector 3 Wire.word16).pair <|
  (Wire.vector 3 Wire.signedByte).pair <| (Wire.vector 3 Wire.signedByte).pair <|
  (Wire.vector 4 Wire.signedByte).pair <| (Wire.vector 4 Wire.signedByte).pair <|
  LockState.wire.pair <| keyWire.pair <| (Wire.vector 3 StoredFrame.wire).pair <|
  (Wire.vector 3 Wire.byte).pair <| (Wire.vector 3 keyWire).pair Wire.boolean

def wire : Wire Params :=
  fieldsWire.convert
    (fun p => (p.magic, p.clock, p.activeSlot, p.intervals, p.radioTx, p.advTx, p.radioLevels,
      p.advLevels, p.lockState, p.unlockKey, p.frames, p.exponents, p.keys, p.remainConnectable))
    (fun (magic, clock, activeSlot, intervals, radioTx, advTx, radioLevels, advLevels, lockState,
      unlockKey, frames, exponents, keys, remainConnectable) => some {
        magic, clock, activeSlot, intervals, radioTx, advTx, radioLevels, advLevels, lockState,
        unlockKey, frames, exponents, keys, remainConnectable })

theorem write_wire (p : Params) : wire.write p = p.toBytes := by
  simp only [wire, fieldsWire, Wire.convert, Wire.pair, toBytes, List.append_assoc]

theorem read?_eq (bytes : Bytes) : read? bytes = (wire.read bytes).map Prod.fst := by
  change _ = ((fieldsWire.read bytes).bind _).map Prod.fst
  rw [Option.map_bind, fieldsWire, read?]
  -- Both sides read one field and go on to the next.
  iterate 13
    rw [Wire.bind_read_pair]
    apply Option.bind_congr
    rintro ⟨a, rest⟩ -
  rfl

theorem lawful_fieldsWire : fieldsWire.Lawful := by
  have hsigned3 := Wire.lawful_signedByte.vector 3
  have hsigned4 := Wire.lawful_signedByte.vector 4
  have hkeys := (Wire.lawful_byte.vector 3).pair <|
    (lawful_keyWire.vector 3).pair Wire.lawful_boolean
  have hlock := LockState.lawful_wire.pair <| lawful_keyWire.pair <|
    (StoredFrame.lawful_wire.vector 3).pair hkeys
  have hlevels := hsigned3.pair <| hsigned3.pair <| hsigned4.pair <| hsigned4.pair hlock
  exact Wire.lawful_word32.pair <| Clock.lawful_wire.pair <| Wire.lawful_byte.pair <|
    (Wire.lawful_word16.vector 3).pair hlevels

theorem lawful_wire : wire.Lawful :=
  lawful_fieldsWire.convert fun _ => rfl

theorem forward_fieldsWire : fieldsWire.Forward := by
  have hsigned3 := Wire.forward_signedByte.vector 3
  have hsigned4 := Wire.forward_signedByte.vector 4
  have hkeys := (Wire.forward_byte.vector 3).pair <|
    (forward_keyWire.vector 3).pair Wire.forward_boolean
  have hlock := LockState.forward_wire.pair <| forward_keyWire.pair <|
    (StoredFrame.forward_wire.vector 3).pair hkeys
  have hlevels := hsigned3.pair <| hsigned3.pair <| hsigned4.pair <| hsigned4.pair hlock
  exact Wire.forward_word32.pair <| Clock.forward_wire.pair <| Wire.forward_byte.pair <|
    (Wire.forward_word16.vector 3).pair hlevels

theorem forward_wire : wire.Forward :=
  forward_fieldsWire.convert _ _

theorem ofBytes_of_truncated {p : Params} {front : Bytes} (hfront : front <+: p.toBytes)
    (hshort : front ≠ p.toBytes) : ofBytes front = .error .corrupted := by
  rw [← write_wire] at hfront hshort
  have hread := lawful_wire.read_of_truncated forward_wire hfront hshort
  rw [ofBytes, read?_eq, hread]
  rfl

end Params

/-! ## Layout -/

/-- A number in groups of seven bits, lowest first, with the high bit set on all but the last. -/
def leb128 (n : Nat) : Bytes :=
  if n < 128 then [UInt8.ofNat n] else UInt8.ofNat (n % 128 + 128) :: leb128 (n / 128)

/-- A format that has room for a number writes it with no group too many. -/
theorem Wire.write_varint {last more n : Nat} (hlast : last < 128) (hn : n < limit last more) :
    (varint more last).write n = leb128 n := by
  simp only [varint]
  induction more generalizing n with
  | zero =>
      have hsmall : n < 128 := by
        rw [limit] at hn
        omega
      rw [writeGroups, leb128, if_pos hsmall]
  | succ more ih =>
      have hquotient : n / 128 < limit last more := Nat.div_lt_of_lt_mul hn
      rw [writeGroups, leb128, ih hquotient]

theorem Wire.write_word16 (n : UInt16) : word16.write n = leb128 n.toNat := by
  have hn : n.toNat < limit 3 2 := n.toNat_lt
  exact write_varint (by decide) hn

theorem Wire.write_word32 (n : UInt32) : word32.write n = leb128 n.toNat := by
  have hn : n.toNat < limit 15 4 := n.toNat_lt
  exact write_varint (by decide) hn

theorem Clock.write_wire (clock : Clock) :
    Clock.wire.write clock = leb128 clock.prior.toNat ++ leb128 clock.elapsed.toNat := by
  rw [← Wire.write_word32, ← Wire.write_word32]
  rfl

theorem LockState.write_wire (s : LockState) : LockState.wire.write s = leb128 s.code.toNat := by
  rw [← UInt8.toNat_toUInt32, ← Wire.write_word32]
  rfl

/-- The length of a frame and its bytes. -/
def StoredFrame.layout (stored : StoredFrame) : Bytes :=
  leb128 stored.bytes.length ++ stored.bytes

theorem StoredFrame.write_wire (stored : StoredFrame) :
    StoredFrame.wire.write stored = stored.layout := by
  have hlength : stored.bytes.length < Wire.limit 1 9 :=
    Nat.lt_of_le_of_lt stored.fits (by decide)
  rw [layout, ← Wire.write_varint (by decide) hlength]
  rfl

namespace Params

/-- The fields in order. -/
def layout (p : Params) : Bytes :=
  leb128 p.magic.toNat ++
  (leb128 p.clock.prior.toNat ++ leb128 p.clock.elapsed.toNat) ++
  [p.activeSlot] ++
  p.intervals.toList.flatMap (fun ms => leb128 ms.toNat) ++
  p.radioTx.toList.map Int8.toUInt8 ++
  p.advTx.toList.map Int8.toUInt8 ++
  p.radioLevels.toList.map Int8.toUInt8 ++
  p.advLevels.toList.map Int8.toUInt8 ++
  leb128 p.lockState.code.toNat ++
  p.unlockKey.toList ++
  p.frames.toList.flatMap StoredFrame.layout ++
  p.exponents.toList ++
  p.keys.toList.flatMap (fun key => key.toList) ++
  [if p.remainConnectable then 1 else 0]

theorem toBytes_eq_layout (p : Params) : p.toBytes = p.layout := by
  have hplain (bytes : Bytes) : bytes.flatMap Wire.byte.write = bytes := List.flatMap_singleton' _
  have hsigned (levels : List Int8) :
      levels.flatMap Wire.signedByte.write = levels.map Int8.toUInt8 := List.flatMap_pure_eq_map _ _
  have hword : Wire.word16.write = fun ms => leb128 ms.toNat := funext Wire.write_word16
  have hframe : StoredFrame.wire.write = StoredFrame.layout := funext StoredFrame.write_wire
  have hkey : keyWire.write = fun key => key.toList := funext fun key => hplain key.toList
  simp only [toBytes, layout, Wire.vector, Wire.write_word32, Clock.write_wire, hplain, hsigned,
    hword, LockState.write_wire, hframe, hkey]
  rfl

/-- Written parameters are laid out field by field, fit into flash, and are read back whatever
stands behind them, unless their magic word is foreign; cut off anywhere they are corrupted. -/
theorem ofBytes_of_written (p : Params) :
    p.toBytes = p.layout ∧ p.toBytes.length ≤ Flash.capacity ∧
      (∀ flash, (Flash.save p flash).value = .ok ()) ∧
      (∀ junk, ofBytes (p.toBytes ++ junk) =
        .ok (if p.magic = magicWord then some p else none)) ∧
      ∀ front, front <+: p.toBytes → front ≠ p.toBytes → ofBytes front = .error .corrupted := by
  have hlength : p.toBytes.length ≤ Flash.capacity :=
    Nat.le_trans p.length_toBytes_le (by decide)
  have hsaved (flash : Flash) : (Flash.save p flash).value = .ok () := by
    rw [Flash.save_eq]
  exact ⟨p.toBytes_eq_layout, hlength, hsaved, p.ofBytes_toBytes,
    fun front hfront hshort => ofBytes_of_truncated hfront hshort⟩

/-- Three frames of eight bytes; the last byte alone is missing. -/
theorem ofBytes_of_written_but_one :
    ∃ p : Params, ∃ front last, p.toBytes = front ++ [last] ∧ front.length = 125 ∧
      ofBytes (front ++ [last] ++ [7]) = .ok (some p) ∧ ofBytes front = .error .corrupted := by
  let p : Params := {
    magic := magicWord, clock := ⟨100000, 20⟩, activeSlot := 1, intervals := PerSlot.all 700
    radioTx := PerSlot.all (-8), advTx := PerSlot.all (-18)
    radioLevels := Vector.replicate 4 4, advLevels := Vector.replicate 4 (-6)
    lockState := .unlocked, unlockKey := Octets.zero 16
    frames := PerSlot.all ⟨[7, 170, 254, 16, 0, 0, 97, 0], by decide⟩
    exponents := PerSlot.all 10, keys := PerSlot.all (Octets.zero 16), remainConnectable := true }
  have hsplit : p.toBytes = p.toBytes.take 125 ++ [1] := by decide +kernel
  have hwritten := p.ofBytes_of_written
  refine ⟨p, p.toBytes.take 125, 1, hsplit, by decide +kernel, ?_, ?_⟩
  · rw [← hsplit]
    exact hwritten.2.2.2.1 [7]
  · refine hwritten.2.2.2.2 _ (List.take_prefix 125 _) ?_
    decide +kernel

end Params

end Beacon

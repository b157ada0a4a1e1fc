import Beacon.Params
import Beacon.Proofs.WireCodec

/-!
# Parameters read back

Parameters are read back from their bytes, whatever stands behind these, unless
their magic word is a foreign one.  There is always room for them in flash.
-/

namespace Beacon

theorem Clock.lawful_wire : Clock.wire.Lawful := by
  intro clock rest
  simp only [wire, write, read, List.append_assoc, Wire.lawful_word32 _ _, bind, Option.bind]
  rfl

theorem Clock.read_write (clock : Clock) : Clock.wire.read clock.write = some (clock, []) := by
  have hread := lawful_wire clock []
  rwa [List.append_nil] at hread

theorem Clock.within_wire : Clock.wire.Within 10 := by
  intro clock
  have hprior := Wire.within_word32 clock.prior
  have helapsed := Wire.within_word32 clock.elapsed
  simp only [wire, write, List.length_append]
  omega

theorem LockState.lawful_wire : LockState.wire.Lawful := by
  apply Wire.lawful_word32.convert
  intro s
  cases s <;> rfl

theorem StoredFrame.lawful_wire : StoredFrame.wire.Lawful := by
  refine Wire.lawful_convert (fun stored rest => ?_) fun stored => dif_pos stored.fits
  exact Wire.read_sized (Nat.lt_of_le_of_lt stored.fits (by decide)) rest

theorem LockState.within_wire : LockState.wire.Within 5 :=
  Wire.within_word32.convert _ _

/-- A length and twenty-three bytes. -/
theorem StoredFrame.within_wire : StoredFrame.wire.Within 33 := by
  intro stored
  have hlength := Wire.within_varint 9 1 stored.bytes.length
  have hfits := stored.fits
  simp only [wire, Wire.convert, Wire.sized, Wire.length, List.length_append]
  omega

namespace Params

theorem lawful_keyWire : keyWire.Lawful :=
  Wire.lawful_byte.vector 16

theorem read?_toBytes (p : Params) (rest : Bytes) : read? (p.toBytes ++ rest) = some p := by
  simp only [read?, toBytes, List.append_assoc, bind, Option.bind, Wire.lawful_word32 _ _,
    Clock.lawful_wire _ _, Wire.lawful_byte _ _, Wire.lawful_word16.vector 3 _ _,
    Wire.lawful_signedByte.vector 3 _ _, Wire.lawful_signedByte.vector 4 _ _,
    LockState.lawful_wire _ _, lawful_keyWire _ _, StoredFrame.lawful_wire.vector 3 _ _,
    Wire.lawful_byte.vector 3 _ _, lawful_keyWire.vector 3 _ _, Wire.lawful_boolean _ _]
  rfl

theorem ofBytes_toBytes (p : Params) (rest : Bytes) :
    ofBytes (p.toBytes ++ rest) = .ok (if p.magic = magicWord then some p else none) := by
  rw [ofBytes, read?_toBytes]

theorem ofBytes_of_magic {p : Params} (hmagic : p.magic = magicWord) :
    ofBytes p.toBytes = .ok (some p) := by
  have hbytes := ofBytes_toBytes p []
  rwa [List.append_nil, if_pos hmagic] at hbytes

theorem within_keyWire : keyWire.Within 16 :=
  Wire.within_byte.vector 16

/-- All parameters together take a quarter of what flash can hold. -/
theorem length_toBytes_le (p : Params) : p.toBytes.length ≤ 256 := by
  have hmagic := Wire.within_word32 p.magic
  have hclock := Clock.within_wire p.clock
  have hactive := Wire.within_byte p.activeSlot
  have hintervals := Wire.within_word16.vector 3 p.intervals
  have hradioTx := Wire.within_signedByte.vector 3 p.radioTx
  have hadvTx := Wire.within_signedByte.vector 3 p.advTx
  have hradioLevels := Wire.within_signedByte.vector 4 p.radioLevels
  have hadvLevels := Wire.within_signedByte.vector 4 p.advLevels
  have hlockState := LockState.within_wire p.lockState
  have hunlockKey := within_keyWire p.unlockKey
  have hframes := StoredFrame.within_wire.vector 3 p.frames
  have hexponents := Wire.within_byte.vector 3 p.exponents
  have hkeys := within_keyWire.vector 3 p.keys
  have hconnectable := Wire.within_boolean p.remainConnectable
  simp only [toBytes, List.length_append]
  omega

end Params

end Beacon

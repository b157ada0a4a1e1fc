import Beacon.Proofs.Freshness

/-!
# Identifiers that are read

A central that reads a slot with a changing identity is told the beacon time and
the identifier of the slot.  Whoever has the key computes an identifier from the
time that was told, and expects the same.

An identifier is kept for a period from when it was computed, and a window of the
beacon time need not begin then.  So a window may end before a new identifier is
due.  From then on what is told is the identifier of the window before.
-/

namespace Beacon

/-! ## Windows -/

namespace Ephemeral

/-- The window of that time is over. -/
def Lapsed (exponent : UInt8) (computed now : UInt32) : Prop :=
  (window exponent computed).toNat + period exponent ≤ now.toNat

def before (exponent : UInt8) (now : UInt32) : UInt32 :=
  UInt32.ofNat (now.toNat - period exponent)

theorem toNat_window (exponent : UInt8) (seconds : UInt32) :
    (window exponent seconds).toNat = seconds.toNat / period exponent * period exponent := by
  have hle := Nat.div_mul_le_self seconds.toNat (period exponent)
  have hlt : seconds.toNat / period exponent * period exponent < UInt32.size :=
    Nat.lt_of_le_of_lt hle seconds.toNat_lt
  rw [window, UInt32.toNat_ofNat_of_lt' hlt]

/-- A later time is in the same window unless that is over. -/
theorem window_of_not_lapsed {exponent : UInt8} {computed now : UInt32} (hle : computed ≤ now)
    (h : ¬Lapsed exponent computed now) : window exponent now = window exponent computed := by
  rw [Lapsed, toNat_window, Nat.not_le, ← Nat.succ_mul] at h
  have hstarts := Nat.div_mul_le_self computed.toNat (period exponent)
  have hsame : now.toNat / period exponent = computed.toNat / period exponent :=
    Nat.div_eq_of_lt_le (Nat.le_trans hstarts (UInt32.le_iff_toNat_le.mp hle)) h
  rw [window, window, hsame]

/-- Less than a period later, the window that is over is the one before. -/
theorem window_before_of_lapsed {exponent : UInt8} {computed now : UInt32}
    (hage : now.toNat - computed.toNat < 1 <<< exponent.toNat)
    (h : Lapsed exponent computed now) :
    window exponent (before exponent now) = window exponent computed := by
  have hbefore : (before exponent now).toNat = now.toNat - period exponent :=
    UInt32.toNat_ofNat_of_lt' (Nat.lt_of_le_of_lt (Nat.sub_le ..) now.toNat_lt)
  have hage : now.toNat - computed.toNat < period exponent := hage
  rw [Lapsed, toNat_window] at h
  have hends : computed.toNat < (computed.toNat / period exponent + 1) * period exponent :=
    Nat.lt_mul_of_div_lt (Nat.lt_succ_self _) (period_pos exponent)
  have hsame : (now.toNat - period exponent) / period exponent =
      computed.toNat / period exponent :=
    Nat.div_eq_of_lt_le (by omega) (by omega)
  rw [window, window, hbefore, hsame]

theorem identifier_congr {exponent : UInt8} {a b : UInt32}
    (h : window exponent a = window exponent b) (key : Key) :
    identifier key exponent a = identifier key exponent b := by
  rw [identifier, identifier, h]

end Ephemeral

/-! ## What is read -/

/-- The exponent, the beacon time and the identifier. -/
def identityReport (exponent : UInt8) (time : UInt32) (id : Octets 8) : Bytes :=
  FrameKind.eid.code :: exponent :: (Bytes.bigEndian 4 time.toNat ++ id.toList)

theorem identityReport_inj {exponent : UInt8} {time : UInt32} {a b : Octets 8}
    (h : identityReport exponent time a = identityReport exponent time b) : a = b := by
  obtain ⟨-, htail⟩ := List.cons.inj h
  obtain ⟨-, htold⟩ := List.cons.inj htail
  exact Vector.toList_inj.mp (List.append_cancel_left htold)

variable {s : State} {tx : Int8} {old : Octets 8}

namespace Attribute

/-- Where nothing is refused, a slot with a changing identity is brought up to date and told. -/
theorem read_of_eid (hframe : s.slots.activeSlot.frame = some (.eid tx old))
    (hopen : ¬s.lock.isLocked) (now : Nat) :
    Attribute.advSlotData.read now s = readEid now s := by
  rw [read_of_open hopen]
  simp only [readValue, readSlotData, Act.bind_apply, Act.get_apply, Done.after_nil, hframe,
    Frame.kind]

theorem readEid_of_frame {now : Nat} {t : State} {id : Octets 8}
    (hstate : (State.rotateIfDue s.slots.active now s).state = t)
    (hframe : t.slots.activeSlot.frame = some (.eid tx id)) :
    (readEid now s).value =
        .ok (identityReport t.slots.activeSlot.exponent (t.clock.time now) id) ∧
      (readEid now s).state = t := by
  simp only [readEid, Act.bind_apply, Act.get_apply, Done.after_nil, hstate]
  rw [hframe]
  exact ⟨rfl, rfl⟩

end Attribute

theorem State.rotateIfDue_of_early {i : SlotIndex} {now : Nat}
    (hframe : (s.slots.table.value i).frame = some (.eid tx old))
    (hearly : s.clock.time now < (s.slots.table.value i).nextRotation) :
    (rotateIfDue i now s).state = s := by
  unfold rotateIfDue
  rw [dif_pos i.isLt]
  simp only [Act.bind_apply, Act.get_apply, Done.after_nil, hframe, Fin.eta]
  rw [if_pos hearly]
  rfl

def Moment.reading (s : State) (now : Nat) : Moment :=
  ⟨s, .asked (.read .advSlotData now)⟩

theorem Moment.not_installs_of_reading (s : State) (now : Nat) (i : SlotIndex) :
    ¬(reading s now).Installs i := by
  rintro ⟨attr, offset, data, time, hasked, -⟩
  cases hasked

/-- What is told was computed from the slot's key, and not longer ago than a period. -/
theorem Fresh.reads {life : List Moment} {now : Nat} (h : Fresh life now s)
    (hframe : s.slots.activeSlot.frame = some (.eid tx old)) (hopen : ¬s.lock.isLocked) :
    ∃ time id,
      (Attribute.advSlotData.read now s).value =
        .ok (identityReport s.slots.activeSlot.exponent (s.clock.time now) id) ∧
      Rotated s.slots.active time (life ++ [.reading s now]) ∧
      Ephemeral.identifier s.slots.activeSlot.key s.slots.activeSlot.exponent time = .ok id ∧
      time ≤ s.clock.time now ∧
      (s.clock.time now).toNat - time.toNat < 1 <<< s.slots.activeSlot.exponent.toNat := by
  have hread := Attribute.read_of_eid hframe hopen now
  rcases State.rotateIfDue_of_eid hframe (h.bounded.exponent_le _) now with
    ⟨hearly, hkept⟩ | ⟨id, hid, hrotated⟩
  · -- It is not due, so it is an old one, of an earlier moment of this boot.
    have hvalue := (Attribute.readEid_of_frame hkept hframe).1
    obtain ⟨time, hcomputed, hle, hage⟩ := h.computed_of_early hframe hearly
    have hrotates := hcomputed.rotated.concat (Moment.not_installs_of_reading s now _)
    exact ⟨time, old, hread ▸ hvalue, hrotates, hcomputed.identifier, hle, hage⟩
  · -- It is due, so the reading has begun with a rotation.
    have hactive := s.activeSlot_rotated tx id now
    have htold : (s.rotated s.slots.active tx id now).slots.activeSlot.frame =
        some (.eid tx id) := by
      rw [hactive]
    obtain ⟨hvalue, hstate⟩ := Attribute.readEid_of_frame hrotated htold
    rw [hactive, ← hread] at hvalue
    rw [← hread] at hstate
    have hrotates : (Moment.reading s now).Rotates s.slots.active (s.clock.time now) := by
      have hevents : (Moment.reading s now).events =
          (Attribute.advSlotData.read now s).state.pendingEvents := rfl
      rw [Moment.Rotates, hevents, hstate]
      exact State.mem_enqueueEvent _ _
    have hage : (s.clock.time now).toNat - (s.clock.time now).toNat <
        1 <<< s.slots.activeSlot.exponent.toNat := by
      rw [Nat.sub_self]
      exact Ephemeral.period_pos _
    exact ⟨s.clock.time now, id, hvalue, rotated_concat hrotates life, hid, UInt32.le_refl _, hage⟩

/-! ## Runs -/

namespace Device

variable {config : Config} {store : Store} {start d : Device} {history : History}

theorem value_serve_read (attr : Attribute) (now : Nat) (d : Device) :
    (serve (.read attr now) d).value = .value (attr.read now d.1.state).value := rfl

/-- Answering a central that reads is all that is done. -/
theorem moments_reading (hreach : Reachable config store d) (now : Nat) :
    Entry.moments ⟨d, .read .advSlotData now⟩ = [.reading d.1.state now] := by
  have hturnless : Transcript.Turnless (Entry.output ⟨d, .read .advSlotData now⟩) := by
    rw [Entry.output, serve, Act.bind_pure_apply]
    exact Engine.turnless_readAttribute _ now d.1
  rw [Entry.moments, Entry.deeds, hturnless.turns_eq_nil, State.hush_of_nil hreach.pendingEvents]
  rfl

/-- A central that reads a slot with a changing identity is told the beacon time, and an identifier
that was computed from the slot's key, at a rotation of this boot since the key came.  That is the
identifier of the time unless the window of the rotation is over, and then it is the one of the
window before. -/
theorem reads_identifier_of_window (hstore : store.medium.Inherited)
    (hbooted : Booted config store start) (hrun : Run start history d)
    (hordered : history.Pairwise fun x y => x.request.time ≤ y.request.time)
    {now : Nat} (hnow : ∀ x ∈ history, x.request.time ≤ now)
    (hopen : ¬d.1.state.lock.isLocked) {tx : Int8} {old : Octets 8}
    (hframe : d.1.state.slots.activeSlot.frame = some (.eid tx old)) :
    let held := d.1.state.slots.activeSlot
    let seconds := d.1.state.clock.time now
    ∃ time id,
      (serve (.read .advSlotData now) d).value =
        .value (.ok (identityReport held.exponent seconds id)) ∧
      Rotated d.1.state.slots.active time
        (History.moments (history ++ [⟨d, .read .advSlotData now⟩])) ∧
      time ≤ seconds ∧ seconds.toNat - time.toNat < 1 <<< held.exponent.toNat ∧
      (¬Ephemeral.Lapsed held.exponent time seconds →
        Ephemeral.identifier held.key held.exponent seconds = .ok id) ∧
      (Ephemeral.Lapsed held.exponent time seconds →
        Ephemeral.identifier held.key held.exponent (Ephemeral.before held.exponent seconds) =
          .ok id) := by
  intro held seconds
  have hfresh := (fresh_of_run hstore.bounded hbooted hrun hordered).2 now hnow
  obtain ⟨time, id, hvalue, hrotated, hid, hle, hage⟩ := hfresh.reads hframe hopen
  have hreach := (Reachable.boot hbooted).of_run hrun
  refine ⟨time, id, ?_, ?_, hle, hage, fun hlasts => ?_, fun hlapsed => ?_⟩
  · rw [value_serve_read, hvalue]
  · rw [History.moments_concat, moments_reading hreach]
    exact hrotated
  · rw [Ephemeral.identifier_congr (Ephemeral.window_of_not_lapsed hle hlasts)]
    exact hid
  · rw [Ephemeral.identifier_congr (Ephemeral.window_before_of_lapsed hage hlapsed)]
    exact hid

/-! ## An identifier that is told too long -/

def chosen (start : Device) : Device :=
  (serve (.write .activeSlot 0 [2] 0) start).state

/-- The third slot is chosen, and read after a second. -/
def told (start : Device) : Device :=
  (serve (.read .advSlotData 1000) (chosen start)).state

def toTold (start : Device) : History :=
  [⟨start, .write .activeSlot 0 [2] 0⟩, ⟨chosen start, .read .advSlotData 1000⟩]

theorem run_told (start : Device) : Run start (toTold start) (told start) := by
  have hchosen := (Run.start : Run start [] start).serve (.write .activeSlot 0 [2] 0)
  exact hchosen.serve (.read .advSlotData 1000)

theorem toTold_ordered (start : Device) :
    (toTold start).Pairwise fun x y => x.request.time ≤ y.request.time := by
  simp [toTold, Request.time]

theorem time_le_of_mem_toTold {x : Entry} (hx : x ∈ toTold start) : x.request.time ≤ 1024000 := by
  rcases List.mem_pair.mp hx with rfl | rfl
  · exact Nat.zero_le _
  · exact (by decide : 1000 ≤ 1024000)

/-- What the next reading depends on, if it comes so late that the beacon time is 1024. -/
def outlook (d : Device) : Bool × Option FrameKind × Key × UInt8 × UInt32 × UInt32 :=
  let held := d.1.state.slots.activeSlot
  (d.1.state.lock.isLocked, held.kind?, held.key, held.exponent, held.nextRotation,
    d.1.state.clock.time 1024000)

/-- The active slot has an identity that was renewed after a second. -/
structure Told (d : Device) : Prop where
  isOpen : ¬d.1.state.lock.isLocked
  frame : ∃ tx id, d.1.state.slots.activeSlot.frame = some (.eid tx id)
  key : d.1.state.slots.activeSlot.key = Config.standard.slotKeys.value .third
  exponent : d.1.state.slots.activeSlot.exponent = 10
  nextRotation : d.1.state.slots.activeSlot.nextRotation = 1025
  seconds : d.1.state.clock.time 1024000 = 1024

theorem told_of_outlook
    (h : outlook d = (false, some .eid, Config.standard.slotKeys.value .third, 10, 1025, 1024)) :
    Told d := by
  simp only [outlook, Prod.mk.injEq] at h
  obtain ⟨hlock, hkind, hkey, hexponent, hnext, hseconds⟩ := h
  exact ⟨Bool.not_eq_true _ ▸ hlock, Slot.frame_of_kind_eid hkind, hkey, hexponent, hnext, hseconds⟩

theorem exists_told : ∃ start, Booted .standard ⟨.memory none, fun _ _ => none, 0⟩ start ∧
    Told (told start) := by
  obtain ⟨start, hbooted, houtlook⟩ : ∃ start,
      Booted .standard ⟨.memory none, fun _ _ => none, 0⟩ start ∧ outlook (told start) =
        (false, some .eid, Config.standard.slotKeys.value .third, 10, 1025, 1024) :=
    exists_booted_of_eq (.idle 100 10240 fun _ _ => none) (some (Octets.zero 32)) 0
      (fun start => outlook (told start)) (by decide +kernel)
  exact ⟨start, hbooted, told_of_outlook houtlook⟩

/-- The slot is read in the first second of a window. -/
theorem reads_at_window_start :
    ∃ start time id, Booted .standard ⟨.memory none, fun _ _ => none, 0⟩ start ∧
      (serve (.read .advSlotData 1024000) (told start)).value =
        .value (.ok (identityReport 10 1024 id)) ∧
      time ≤ 1024 ∧ 1024 - time.toNat < 1 <<< 10 ∧
      (¬Ephemeral.Lapsed 10 time 1024 →
        Ephemeral.identifier (Config.standard.slotKeys.value .third) 10 1024 = .ok id) ∧
      (Ephemeral.Lapsed 10 time 1024 →
        Ephemeral.identifier (Config.standard.slotKeys.value .third) 10
          (Ephemeral.before 10 1024) = .ok id) := by
  obtain ⟨start, hbooted, htold⟩ := exists_told
  obtain ⟨tx, old, hframe⟩ := htold.frame
  obtain ⟨time, id, hvalue, -, hrest⟩ := reads_identifier_of_window .memory hbooted
    (run_told start) (toTold_ordered start) (fun _ => time_le_of_mem_toTold) htold.isOpen hframe
  rw [htold.seconds, htold.exponent] at hvalue hrest
  rw [htold.key] at hrest
  exact ⟨start, time, id, hbooted, hvalue, hrest⟩

/-- The temporary key of the third slot as long as the upper half of the beacon time is zero. -/
def earlyKey : Key :=
  #v[0x95, 0x2F, 0x7D, 0xBC, 0xC5, 0x64, 0x95, 0x98, 0x62, 0x35, 0xA1, 0x0F, 0x0B, 0x75, 0x25, 0xA5]

theorem temporaryKey_eq_earlyKey :
    Ephemeral.temporaryKey (Config.standard.slotKeys.value .third) [0, 0, 0, 0] = earlyKey := by
  decide +kernel

theorem identifier_early (seconds : UInt32) (a b : UInt8)
    (h : Bytes.bigEndian 4 (Ephemeral.window 10 seconds).toNat = [0, 0, a, b]) :
    Ephemeral.identifier (Config.standard.slotKeys.value .third) 10 seconds =
      .ok (Bytes.octets 8 (Aes.encrypt earlyKey
        (Bytes.octets 16 (List.replicate 11 0 ++ [10, 0, 0, a, b]))).toList) := by
  have hkey : Ephemeral.temporaryKey (Config.standard.slotKeys.value .third) [0, 0, a, b] =
      earlyKey := temporaryKey_eq_earlyKey
  rw [Ephemeral.identifier, if_neg (by decide), h]
  simp only [hkey]

theorem identifier_standard_ne :
    Ephemeral.identifier (Config.standard.slotKeys.value .third) 10 1 ≠
      Ephemeral.identifier (Config.standard.slotKeys.value .third) 10 1024 := by
  have hids : Bytes.octets 8 (Aes.encrypt earlyKey
        (Bytes.octets 16 (List.replicate 11 0 ++ [10, 0, 0, 0, 0]))).toList ≠
      Bytes.octets 8 (Aes.encrypt earlyKey
        (Bytes.octets 16 (List.replicate 11 0 ++ [10, 0, 0, 4, 0]))).toList := by
    decide +kernel
  rw [identifier_early 1 0 0 rfl, identifier_early 1024 4 0 rfl]
  exact fun heq => hids (Except.ok.inj heq)

/-- The identifier of the first window is told when the second one has begun. -/
theorem Told.read_eq {tx : Int8} {old : Octets 8} (h : Told d)
    (hframe : d.1.state.slots.activeSlot.frame = some (.eid tx old)) {life : List Moment}
    (hfresh : Fresh life 1024000 d.1.state) :
    (serve (.read .advSlotData 1024000) d).value = .value (.ok (identityReport 10 1024 old)) ∧
      Ephemeral.identifier (Config.standard.slotKeys.value .third) 10 1 = .ok old := by
  have hearly : d.1.state.clock.time 1024000 < d.1.state.slots.activeSlot.nextRotation := by
    rw [h.seconds, h.nextRotation]
    decide
  have hvalue := (Attribute.readEid_of_frame (State.rotateIfDue_of_early hframe hearly) hframe).1
  rw [← Attribute.read_of_eid hframe h.isOpen, h.exponent, h.seconds] at hvalue
  constructor
  · rw [value_serve_read, hvalue]
  · obtain ⟨time, hcomputed, -⟩ := hfresh.computed_of_early hframe hearly
    have hidentifier : Ephemeral.identifier d.1.state.slots.activeSlot.key
        d.1.state.slots.activeSlot.exponent time = .ok old := hcomputed.identifier
    have hnext : d.1.state.slots.activeSlot.nextRotation = saturate32 (time.toNat +
        Ephemeral.period d.1.state.slots.activeSlot.exponent) := hcomputed.nextRotation
    rw [h.key, h.exponent] at hidentifier
    rw [h.nextRotation, h.exponent, ← UInt32.toNat_inj, toNat_saturate32] at hnext
    have hperiod : Ephemeral.period 10 = 1024 := rfl
    have hbound : UInt32.size = 4294967296 := rfl
    have hthen : (1025 : UInt32).toNat = 1025 := rfl
    have htime : time = 1 := by
      rw [← UInt32.toNat_inj]
      change time.toNat = 1
      omega
    rwa [htime] at hidentifier

/-- Not every identifier that is told is the one of the time that is told. -/
theorem not_always_identifier_of_time :
    ¬∀ (config : Config) (store : Store) (start d : Device) (history : History) (now : Nat)
        (tx : Int8) (old : Octets 8), store.medium.Inherited → Booted config store start →
      Run start history d → history.Pairwise (fun x y => x.request.time ≤ y.request.time) →
      (∀ x ∈ history, x.request.time ≤ now) → ¬d.1.state.lock.isLocked →
      d.1.state.slots.activeSlot.frame = some (.eid tx old) →
      ∃ id,
        (serve (.read .advSlotData now) d).value =
          .value (.ok (identityReport d.1.state.slots.activeSlot.exponent
            (d.1.state.clock.time now) id)) ∧
        Ephemeral.identifier d.1.state.slots.activeSlot.key d.1.state.slots.activeSlot.exponent
          (d.1.state.clock.time now) = .ok id := by
  intro halways
  obtain ⟨start, hbooted, htold⟩ := exists_told
  obtain ⟨tx, old, hframe⟩ := htold.frame
  have hfresh := (fresh_of_run Medium.Inherited.memory.bounded hbooted (run_told start)
    (toTold_ordered start)).2 1024000 fun _ => time_le_of_mem_toTold
  obtain ⟨id, hvalue, hid⟩ := halways _ _ _ _ _ 1024000 tx old .memory hbooted (run_told start)
    (toTold_ordered start) (fun _ => time_le_of_mem_toTold) htold.isOpen hframe
  obtain ⟨hstale, hold⟩ := htold.read_eq hframe hfresh
  rw [htold.exponent, htold.seconds] at hvalue hid
  rw [htold.key] at hid
  obtain rfl := identityReport_inj (Except.ok.inj (Answer.value.inj (hstale.symm.trans hvalue)))
  exact identifier_standard_ne (hold.trans hid.symm)

end Device

end Beacon

import Beacon.Proofs.Inheritance
import Beacon.Proofs.Reports

/-!
# States that are well formed

Every slot has an exponent for which there are identifiers, an output power that
the radio has, and a frame that can be read and carries the power at the beacon.
The configuration gives such slots, every write leaves them so, and a restart
brings them back, since what is stored was well formed when it was saved.

In such a state no frame fails to be written, no identifier to be computed and
no advert to be made; and none of the lines is logged that would report it.
-/

namespace Beacon

/-! ## Well-formed slots -/

/-- The parts of the slot go together, given the levels that the radio has. -/
structure Slot.WellFormed (levels : PowerLevels) (slot : Slot) : Prop where
  exponent : slot.exponent ≤ 15
  radioTx : slot.radioTx ∈ levels
  frame : ∀ frame, slot.frame = some frame → frame.Held slot.advTx

def Settings.WellFormed (settings : Settings) : Prop :=
  ∀ i, (settings.slots.value i).WellFormed settings.radioLevels

structure State.WellFormed (s : State) : Prop where
  active : s.slots.active.val < 3
  cursor : s.sealingCursor.val < 3
  slots : ∀ i, (s.slots.table.value i).WellFormed s.radioLevels

theorem Frame.held_withoutId {tx : Int8} {frame : Frame} :
    frame.withoutId.Held tx ↔ frame.Held tx := by
  cases frame with
  | eid power id =>
      constructor
      · intro h
        cases h
        exact .eid id
      · intro h
        cases h
        exact .eid _
  | uid power id => exact Iff.rfl
  | url power address => exact Iff.rfl
  | tlm t => exact Iff.rfl
  | etlm t => exact Iff.rfl

namespace Slot

variable {levels : PowerLevels} {slot : Slot}

theorem wellFormed_settings : slot.settings.WellFormed levels ↔ slot.WellFormed levels := by
  constructor
  · rintro ⟨hexponent, hradioTx, hframe⟩
    refine ⟨hexponent, hradioTx, fun frame hheld => Frame.held_withoutId.mp (hframe _ ?_)⟩
    rw [settings, hheld, Option.map_some]
  · rintro ⟨hexponent, hradioTx, hframe⟩
    refine ⟨hexponent, hradioTx, fun frame hheld => ?_⟩
    obtain ⟨held, hslot, rfl⟩ := Option.map_eq_some_iff.mp hheld
    exact Frame.held_withoutId.mpr (hframe held hslot)

theorem WellFormed.sound (h : slot.WellFormed levels) : slot.Sound := by
  intro frame hframe
  exact (h.frame frame hframe).sound

theorem WellFormed.setAdvTx (h : slot.WellFormed levels) (tx : Int8) :
    (slot.setAdvTx tx).WellFormed levels := by
  refine ⟨h.exponent, h.radioTx, fun frame hframe => ?_⟩
  obtain ⟨held, hheld, rfl⟩ := Option.map_eq_some_iff.mp hframe
  exact (h.frame held hheld).setTx tx

end Slot

namespace State

variable {s : State}

theorem wellFormed_iff : s.WellFormed ↔ s.settings.WellFormed := by
  have hslot (i : SlotIndex) : (s.settings.slots.value i).WellFormed s.radioLevels ↔
      (s.slots.table.value i).WellFormed s.radioLevels := by
    rw [State.settings, PerSlot.value_map, Slot.wellFormed_settings]
  constructor
  · exact fun h i => (hslot i).mpr (h.slots i)
  · exact fun h => ⟨s.slots.active.isLt, s.sealingCursor.isLt, fun i => (hslot i).mp (h i)⟩

theorem WellFormed.of_settings_eq {t : State} (h : s.WellFormed)
    (hsettings : t.settings = s.settings) : t.WellFormed := by
  rw [wellFormed_iff] at h ⊢
  exact hsettings ▸ h

theorem WellFormed.sound (h : s.WellFormed) : s.slots.Sound := by
  intro i
  exact (h.slots i).sound

end State

/-! ## Factory defaults -/

theorem Slots.held_factoryFrame {config : Config} {i : SlotIndex} {tx : Int8} {frame : Frame}
    (h : factoryFrame config i tx = .ok frame) : frame.Held tx := by
  unfold factoryFrame at h
  cases hkind : config.slotKinds.value i with
  | uid =>
      rw [hkind] at h
      cases h
      exact .uid _
  | tlm =>
      rw [hkind] at h
      cases h
      exact .tlm _
  | eid =>
      rw [hkind] at h
      cases h
      exact .eid _
  | url =>
      cases hurl : Url.compress (config.slotUrls.value i) with
      | error fault =>
          rw [hkind, hurl] at h
          cases h
      | ok address =>
          rw [hkind, hurl] at h
          cases h
          refine Frame.held_url ?_ tx
          rw [Url.expand_of_compress hurl]
          rfl

theorem Slots.wellFormed_factorySlot {config : Config} (hsound : config.Sound) {i : SlotIndex}
    {slot : Slot} (h : factorySlot config i = .ok slot) : slot.WellFormed config.radioLevels := by
  simp only [factorySlot, bind, Except.bind] at h
  split at h
  next => cases h
  next hframe =>
    cases h
    refine ⟨hsound.exponents i, Vector.getElem_mem _, fun frame hheld => ?_⟩
    cases hheld
    exact held_factoryFrame hframe

theorem Settings.wellFormed_factory {config : Config} {slots : Slots} (hsound : config.Sound)
    (hslots : Slots.ofConfig config = .ok slots) : (Settings.factory config slots).WellFormed := by
  intro i
  rw [Settings.factory, PerSlot.value_map, Slot.wellFormed_settings]
  exact Slots.wellFormed_factorySlot hsound (Slots.ofConfig_eq_ok hslots i)

/-! ## Writes -/

namespace Attribute

variable {s t : State}

theorem Edit.wellFormed {f : Slot → Slot} (h : Edit s f) {slot : Slot}
    (hslot : slot.WellFormed s.radioLevels) : (f slot).WellFormed s.radioLevels := by
  cases h with
  | interval interval => exact ⟨hslot.exponent, hslot.radioTx, hslot.frame⟩
  | radioTx level =>
      have hlevel : { slot with radioTx := s.radioLevels.get level }.WellFormed s.radioLevels :=
        ⟨hslot.exponent, Vector.getElem_mem _, hslot.frame⟩
      exact hlevel.setAdvTx _
  | advTx tx => exact hslot.setAdvTx tx
  | clear =>
      refine ⟨hslot.exponent, hslot.radioTx, fun held hframe => ?_⟩
      cases hframe
  | fill frame hheld =>
      refine ⟨hslot.exponent, hslot.radioTx, fun held hframe => ?_⟩
      cases hframe
      exact hheld slot.advTx
  | key key exponent hexponent =>
      refine ⟨hexponent, hslot.radioTx, fun held hframe => ?_⟩
      cases hframe
      exact .eid _

theorem Outcome.wellFormed {attr : Attribute} {data : Bytes} {result : Except Fault WriteEffect}
    (h : Outcome attr data s result t) (hsound : s.config.Sound) (hs : s.WellFormed) :
    t.WellFormed := by
  cases h with
  | refused fault => exact hs
  | mistaken fault => exact ⟨hs.active, hs.cursor, hs.slots⟩
  | unlocked token lock rng => exact ⟨hs.active, hs.cursor, hs.slots⟩
  | locks lock => exact ⟨hs.active, hs.cursor, hs.slots⟩
  | edited f heffect hedit hsetup =>
      have hedited : { s with slots := s.slots.modifyActive f }.WellFormed := by
        refine ⟨hs.active, hs.cursor, fun i => ?_⟩
        change ((s.slots.modify s.slots.active f).table.value i).WellFormed s.radioLevels
        rw [Slots.value_modify]
        split
        next => exact hedit.wellFormed (hs.slots _)
        next => exact hs.slots i
      exact hedited.of_settings_eq (congrArg Setup.settings hsetup)
  | moved i => exact ⟨i.isLt, hs.cursor, hs.slots⟩
  | connectable on => exact ⟨hs.active, hs.cursor, hs.slots⟩
  | spared => exact hs
  | reset slots identity rng hattr hdata hslots =>
      refine ⟨slots.active.isLt, SlotIndex.first.isLt, fun i => ?_⟩
      exact Slots.wellFormed_factorySlot hsound (Slots.ofConfig_eq_ok hslots i)

end Attribute

/-! ## Runs -/

theorem Settings.lasting_wellFormed : Settings.Lasting Settings.WellFormed where
  factory := Settings.wellFormed_factory
  stored {s _} h _ := by
    have hs := State.wellFormed_iff.mpr h
    rwa [State.restored_snapshot hs.sound]
  served {_ _ d} request _ hsound h := by
    have hs := State.wellFormed_iff.mpr h
    by_cases hread : ∃ attr now, request = .read attr now
    · obtain ⟨attr, now, rfl⟩ := hread
      have hkept : (Device.serve (.read attr now) d).state.1.state.settings = d.1.state.settings :=
        Attribute.settings_read attr now d.1.state
      exact hkept ▸ h
    · by_cases hwrite : ∃ attr offset data now, request = .write attr offset data now
      · obtain ⟨attr, offset, data, now, rfl⟩ := hwrite
        have hwritten := (Attribute.outcome_write attr offset data now d.1.state).wellFormed hsound hs
        exact State.wellFormed_iff.mp (hwritten.of_settings_eq (congrArg Setup.settings
          (Engine.setup_writeAttribute attr offset data now d.1)))
      · have hsetup : (Device.serve request d).state.setup = d.setup :=
          Device.setup_serve (fun attr now hsame => hread ⟨attr, now, hsame⟩)
            (fun attr offset data now hsame => hwrite ⟨attr, offset, data, now, hsame⟩) d
        have hkept : (Device.serve request d).state.1.state.settings = d.1.state.settings :=
          congrArg Setup.settings hsetup
        exact hkept ▸ h

/-- A deed leaves a well-formed state well formed. -/
theorem Moment.wellFormed_after {m : Moment} (hsound : m.state.config.Sound)
    (h : m.state.WellFormed) : m.after.WellFormed := by
  obtain ⟨s, deed⟩ := m
  cases deed with
  | asked access =>
      cases access with
      | read attr now => exact h.of_settings_eq (Attribute.settings_read attr now s)
      | write attr offset data now =>
          have hwritten := (Attribute.outcome_write attr offset data now s).wellFormed hsound h
          exact hwritten.of_settings_eq rfl
  | took turn now => exact h.of_settings_eq (congrArg Setup.settings (turn.setup_perform now s))

/-! ## What does not go wrong -/

/-- No frame fails to be written, no identifier to be computed and no advert to be made. -/
structure State.Untroubled (s : State) : Prop where
  written : ∀ i frame, (s.slots.table.value i).frame = some frame →
    (∃ bytes, frame.encode = .ok bytes) ∧ (∃ data, frame.slotData = .ok data) ∧
      (∃ stored, StoredFrame.ofFrame frame = .ok stored ∧ stored.decode = .ok (some frame)) ∧
      ∃ payload, Advert.ofFrame frame = .ok payload
  computed : ∀ i time, ∃ id, Ephemeral.identifier (s.slots.table.value i).key
    (s.slots.table.value i).exponent time = .ok id
  prepared : ∀ (i : SlotIndex) (now : Nat),
    ((State.prepare i now s).value = none ↔ (s.slots.table.value i).frame = none) ∧
      (State.prepare i now s).output = []

theorem Frame.slotData_ok (frame : Frame) : ∃ data, frame.slotData = .ok data := by
  cases frame with
  | uid tx id =>
      rw [slotData, encode_eq]
      exact ⟨_, rfl⟩
  | url tx address => exact ⟨_, encode_eq _⟩
  | tlm t => exact ⟨_, encode_eq _⟩
  | etlm t => exact ⟨_, encode_eq _⟩
  | eid tx id => exact ⟨_, encode_eq _⟩

namespace State

variable {s : State}

theorem rotateIfDue_output (hbounded : ∀ i,
    (s.slots.table.value i).exponent ≤ Ephemeral.maxExponent)
    (slot now : Nat) : (rotateIfDue slot now s).output = [] := by
  unfold rotateIfDue
  split
  next hslot =>
    obtain ⟨id, hid⟩ := Ephemeral.identifier_of_le (hbounded ⟨slot, hslot⟩)
      (s.slots.table.value ⟨slot, hslot⟩).key (s.clock.time now)
    simp only [Act.bind_apply, Act.get_apply, Done.after_nil]
    cases (s.slots.table.value ⟨slot, hslot⟩).frame with
    | none => rfl
    | some frame =>
        cases frame with
        | eid tx old =>
            simp only [hid]
            split <;> rfl
        | uid tx id => rfl
        | url tx address => rfl
        | tlm t => rfl
        | etlm t => rfl
  next => rfl

theorem telemetryFrame_output (now : Nat) (s : State) : (telemetryFrame now s).output = [] := by
  rcases sealTelemetry_cases now s with ⟨-, h⟩ | ⟨i, -, h⟩ <;>
  · simp only [telemetryFrame, Act.bind_apply, h]
    rfl

/-- A rotation neither fills a slot nor clears one. -/
theorem isNone_frame_rotateIfDue (slot now : Nat) (s : State) (i : SlotIndex) :
    ((rotateIfDue slot now s).state.slots.table.value i).frame = none ↔
      (s.slots.table.value i).frame = none := by
  have hsettings : (rotateIfDue slot now s).state.settings = s.settings :=
    congrArg Setup.settings (setup_rotateIfDue slot now s)
  have hcleared (t : State) : (t.slots.table.value i).frame = none ↔
      (t.settings.slots.value i).frame = none := by
    rw [State.settings, PerSlot.value_map, Slot.settings, Option.map_eq_none_iff]
  rw [hcleared, hsettings, ← hcleared]

theorem liveFrame_eq_none (i : SlotIndex) (now : Nat) (s : State) :
    (liveFrame i now s).value = none ↔ (s.slots.table.value i).frame = none := by
  rw [← isNone_frame_rotateIfDue i now s i]
  simp only [liveFrame, Act.bind_apply, Act.get_apply, Done.after_nil, Done.value_after,
    Slots.slot?, PerSlot.getElem?_eq_value, Option.bind_some]
  cases ((rotateIfDue i now s).state.slots.table.value i).frame with
  | none => exact ⟨fun _ => rfl, fun _ => rfl⟩
  | some frame =>
      cases frame <;> exact iff_of_false (Option.some_ne_none _) (Option.some_ne_none _)

theorem liveFrame_output (hbounded : ∀ i, (s.slots.table.value i).exponent ≤ Ephemeral.maxExponent)
    (slot now : Nat) : (liveFrame slot now s).output = [] := by
  simp only [liveFrame, Act.bind_apply, Act.get_apply, Done.after_nil, rotateIfDue_output hbounded]
  cases ((rotateIfDue slot now s).state.slots.slot? slot).bind Slot.frame with
  | none => rfl
  | some frame =>
      cases frame with
      | tlm t => simp only [Act.bind_apply, Done.output_after, telemetryFrame_output]; rfl
      | uid tx id => rfl
      | url tx address => rfl
      | etlm t => rfl
      | eid tx id => rfl

/-- A slot that is not cleared has an advert. -/
theorem prepare_of_bounded (hbounded : ∀ i,
    (s.slots.table.value i).exponent ≤ Ephemeral.maxExponent)
    (i : SlotIndex) (now : Nat) :
    ((State.prepare i now s).value = none ↔ (s.slots.table.value i).frame = none) ∧
      (State.prepare i now s).output = [] := by
  rw [← liveFrame_eq_none i now s]
  simp only [State.prepare, Act.bind_apply, Done.value_after, Done.output_after,
    liveFrame_output hbounded, List.nil_append]
  cases (liveFrame i now s).value with
  | none => exact ⟨⟨fun _ => rfl, fun _ => rfl⟩, rfl⟩
  | some frame =>
      simp only [Advert.ofFrame_eq, Act.bind_apply, Act.get_apply, Done.after_nil, Slots.slot?,
        PerSlot.getElem?_eq_value]
      exact ⟨iff_of_false (Option.some_ne_none _) (Option.some_ne_none _), rfl⟩

theorem WellFormed.untroubled (h : s.WellFormed) : s.Untroubled := by
  constructor
  · intro i frame hframe
    exact ⟨⟨_, frame.encode_eq⟩, frame.slotData_ok,
      StoredFrame.decode_ofFrame (h.sound i frame hframe), ⟨_, Advert.ofFrame_eq frame⟩⟩
  · exact fun i time => Ephemeral.identifier_of_le (h.slots i).exponent _ time
  · exact prepare_of_bounded fun i => (h.slots i).exponent

/-! ## What is restored -/

/-- Every frame among the parameters can be read, and restoring them has nothing to report. -/
def Legible (params : Params) : Prop :=
  (∀ i, ∃ frame, (params.frames.value i).decode = .ok frame) ∧
    ∀ s : State, (restore params s).output = []

theorem restoreSlot_output {params : Params} {i : SlotIndex} {frame : Option Frame}
    (h : (params.frames.value i).decode = .ok frame) (s : State) :
    (restoreSlot params i s).output = [] := by
  unfold restoreSlot
  rw [h]
  rfl

theorem legible_snapshot (h : s.WellFormed) (clock : Clock) :
    Legible { s.snapshot with clock } := by
  have hdecode (i : SlotIndex) : (s.snapshot.frames.value i).decode =
      .ok (s.slots.table.value i).frame := by
    rw [snapshot, PerSlot.value_map, decode_storedFrame (h.sound i)]
  have hactive : s.snapshot.activeSlot.toNat < 3 := by
    have hlow : s.slots.active.val < 256 := Nat.lt_trans s.slots.active.isLt (by decide)
    rw [snapshot, UInt8.toNat_ofNat_of_lt' hlow]
    exact h.active
  refine ⟨fun i => ⟨_, hdecode i⟩, fun t => ?_⟩
  have hslot (i : SlotIndex) (u : State) :
      (restoreSlot { s.snapshot with clock } i u).output = [] := restoreSlot_output (hdecode i) u
  simp only [restore, Act.bind_apply, Act.modify_apply, Act.get_apply, Done.after_nil,
    Slots.setActive, dif_pos hactive, SlotIndex.all, List.forM_eq_forM, List.forM_cons,
    List.forM_nil, hslot]
  rfl

end State

theorem Medium.Inherited.legible {medium : Medium} (h : medium.Inherited) {params : Params}
    (hload : (load medium).value = .ok (some params)) : State.Legible params := by
  obtain ⟨s, clock, hs, rfl⟩ := h.records Settings.lasting_wellFormed params hload
  exact State.legible_snapshot (State.wellFormed_iff.mpr hs) clock

/-! ## Devices -/

namespace Device

variable {config : Config} {store : Store} {d : Device}

theorem Reachable.wellFormed (hstore : store.medium.Inherited) (hreach : Reachable config store d) :
    d.1.state.WellFormed := by
  have hbefore := hstore.carries Settings.lasting_wellFormed
  have hholds := hreach.holds Settings.lasting_wellFormed hbefore
  exact State.wellFormed_iff.mpr hholds.settings

theorem Reachable.wellFormed_moments (hstore : store.medium.Inherited)
    (hreach : Reachable config store d) (request : Request) :
    ∀ m ∈ (⟨d, request⟩ : Entry).moments, m.state.WellFormed := by
  obtain ⟨t, hreplays, -⟩ := Entry.replays (x := ⟨d, request⟩) hreach.pendingEvents
  have hsound := Config.sound_of_flaw? hreach.flaw?_eq_none
  have hconfig : d.1.state.config = config := hreach.config_eq
  have hstart : d.1.state.hush.config.Sound ∧ d.1.state.hush.WellFormed :=
    ⟨hconfig ▸ hsound, (hreach.wellFormed hstore).of_settings_eq rfl⟩
  have hmoments := (hreplays.invariant (P := fun s => s.config.Sound ∧ s.WellFormed)
    (fun m _ _ hm => ⟨(m.deed.config_perform m.state).symm ▸ hm.1, m.wellFormed_after hm.1 hm.2⟩)
    hstart).1
  exact fun m hm => (hmoments m hm).2

/-- Over any number of boots, and whatever goes wrong with the store and the radio, a device is well
formed when it is asked and whenever it does something.  So nothing fails that only a malformed state
could make fail, and what has been stored can be restored. -/
theorem reachable_wellFormed (hstore : store.medium.Inherited) (hreach : Reachable config store d) :
    (d.1.state.WellFormed ∧ d.1.state.Untroubled) ∧
      (∀ request, ∀ m ∈ (⟨d, request⟩ : Entry).moments, m.state.WellFormed ∧ m.state.Untroubled) ∧
      ∀ params, (Medium.load store.medium).value = .ok (some params) ∨
        (Medium.load d.2.medium).value = .ok (some params) → State.Legible params := by
  have hwellFormed := hreach.wellFormed hstore
  refine ⟨⟨hwellFormed, hwellFormed.untroubled⟩, ?_, ?_⟩
  · intro request m hm
    have hmoment := hreach.wellFormed_moments hstore request m hm
    exact ⟨hmoment, hmoment.untroubled⟩
  · intro params hload
    cases hload with
    | inl hbefore => exact hstore.legible hbefore
    | inr hafter => exact (Medium.Inherited.left hstore hreach).legible hafter

/-- How the slot that is active is set, and whether anything is stored. -/
def restored (d : Device) : UInt16 × Option Frame × Bool :=
  (d.1.state.slots.activeSlot.interval, d.1.state.slots.activeSlot.frame,
    (Medium.load d.2.medium).value.toOption.join.isSome)

/-- The device is rearranged and then started again, which leaves parameters for the next start. -/
theorem wellFormed_after_reboot :
    ∃ start d params, Booted Config.standard ⟨.memory none, fun _ _ => none, 0⟩ start ∧
      Booted Config.standard (start.rearranged [0x01, 0x90]).2 d ∧
      d.restored = (400, some (.tlm .initial), true) ∧ d.1.state.WellFormed ∧
      (Medium.load d.2.medium).value = .ok (some params) ∧ State.Legible params := by
  obtain ⟨start, d, hstart, hbooted, hd⟩ :
      ∃ start d, Booted Config.standard ⟨.memory none, fun _ _ => none, 0⟩ start ∧
        Booted Config.standard (start.rearranged [0x01, 0x90]).2 d ∧
        d.restored = (400, some (.tlm .initial), true) :=
    exists_rebooted_of_eq (.idle 100 10240 fun _ _ => none) (some (Octets.zero 32)) 0
      (rearranged [0x01, 0x90]) restored (by decide +kernel)
  have hstored : (Medium.load d.2.medium).value.toOption.join.isSome = true :=
    congrArg (fun found => found.2.2) hd
  obtain ⟨params, hload⟩ : ∃ params, (Medium.load d.2.medium).value = .ok (some params) := by
    cases hvalue : (Medium.load d.2.medium).value with
    | error fault =>
        rw [hvalue] at hstored
        cases hstored
    | ok stored =>
        rw [hvalue] at hstored
        cases stored with
        | none => cases hstored
        | some params => exact ⟨params, rfl⟩
  have hreach : Reachable Config.standard _ d :=
    .reboot ((Reachable.boot hstart).rearranged _) hbooted
  obtain ⟨⟨hwellFormed, -⟩, -, hlegible⟩ := reachable_wellFormed .memory hreach
  exact ⟨start, d, params, hstart, hbooted, hd, hwellFormed, hload, hlegible params (.inr hload)⟩

end Device

end Beacon

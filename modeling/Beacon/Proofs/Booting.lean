import Beacon.Proofs.Writes
import Beacon.Proofs.Upkeep
import Beacon.Proofs.UrlCodec

/-!
# Starting a device

A device starts quiet and idle, at the factory defaults of its configuration
with what the store holds put over them, and saves all that at once.
-/

namespace Beacon

/-- A configuration that can be used. -/
structure Config.Sound (config : Config) : Prop where
  deviceName : config.deviceName.utf8ByteSize ≤ maxDeviceName
  configInterval : config.configInterval ≠ 0
  exponents : ∀ i, config.slotExponents.value i ≤ Ephemeral.maxExponent
  levels : config.radioLevels[0] < config.radioLevels[1] ∧
    config.radioLevels[1] < config.radioLevels[2] ∧ config.radioLevels[2] < config.radioLevels[3]
  configUrl : (Url.compress config.configUrl).isOk
  slotUrls : ∀ i, config.slotKinds.value i = .url → (Url.compress (config.slotUrls.value i)).isOk

theorem Config.sound_of_flaw? {config : Config} (h : config.flaw? = none) : config.Sound := by
  unfold flaw? at h
  split at h
  next => cases h
  next hname =>
    split at h
    next => cases h
    next hinterval =>
      split at h
      next => cases h
      next hexponents =>
        split at h
        next => cases h
        next hlevels =>
          split at h
          next => cases h
          next hurl =>
            split at h
            next => cases h
            next hslots =>
              refine ⟨Nat.not_lt.mp hname, hinterval, ?_, not_not.mp hlevels, not_not.mp hurl, ?_⟩
              · intro i
                refine UInt8.not_lt.mp fun hlarge => hexponents ?_
                exact Vector.any_eq_true.mpr ⟨i, i.isLt, decide_eq_true hlarge⟩
              · intro i hkind
                have husable := List.all_eq_true.mp (not_not.mp hslots) i i.mem_all
                simpa [slotUrlUsable, hkind] using husable

theorem Slots.factoryFrame_ok {config : Config} (hsound : config.Sound) (i : SlotIndex) (tx : Int8) :
    ∃ frame, factoryFrame config i tx = .ok frame := by
  unfold factoryFrame
  cases hkind : config.slotKinds.value i with
  | uid => exact ⟨_, rfl⟩
  | tlm => exact ⟨_, rfl⟩
  | eid => exact ⟨_, rfl⟩
  | url =>
      have hcompress := hsound.slotUrls i hkind
      cases hurl : Url.compress (config.slotUrls.value i) with
      | error fault =>
          rw [hurl] at hcompress
          exact absurd hcompress Bool.false_ne_true
      | ok address => exact ⟨_, rfl⟩

/-- The factory defaults of a configuration that can be used. -/
theorem Slots.ofConfig_ok {config : Config} (hsound : config.Sound) :
    ∃ slots, Slots.ofConfig config = .ok slots := by
  have hslot : ∀ i, ∃ slot, factorySlot config i = .ok slot := by
    intro i
    obtain ⟨frame, hframe⟩ := factoryFrame_ok hsound i
      config.advLevels[powerIndex config.radioLevels (config.slotRadioTx.value i)]
    simp only [factorySlot, hframe, bind, Except.bind]
    exact ⟨_, rfl⟩
  obtain ⟨first, hfirst⟩ := hslot .first
  obtain ⟨second, hsecond⟩ := hslot .second
  obtain ⟨third, hthird⟩ := hslot .third
  simp only [ofConfig, hfirst, hsecond, hthird, bind, Except.bind]
  exact ⟨_, rfl⟩

theorem Slots.sound_factoryFrame {config : Config} {i : SlotIndex} {tx : Int8} {frame : Frame}
    (h : factoryFrame config i tx = .ok frame) : frame.Sound := by
  unfold factoryFrame at h
  cases hkind : config.slotKinds.value i with
  | uid =>
      rw [hkind] at h
      cases h
      trivial
  | tlm =>
      rw [hkind] at h
      cases h
      trivial
  | eid =>
      rw [hkind] at h
      cases h
      trivial
  | url =>
      cases hurl : Url.compress (config.slotUrls.value i) with
      | error fault =>
          rw [hkind, hurl] at h
          cases h
      | ok address =>
          rw [hkind, hurl] at h
          cases h
          rw [Frame.Sound, Url.expand_of_compress hurl]
          rfl

/-- A factory slot holds a frame, at the interval of the configuration. -/
theorem Slots.factorySlot_eq_ok {config : Config} {i : SlotIndex} {slot : Slot}
    (h : factorySlot config i = .ok slot) :
    slot.frame.isSome ∧ slot.interval = config.slotIntervals.value i ∧ slot.Sound := by
  simp only [factorySlot, bind, Except.bind] at h
  split at h
  next => cases h
  next hframe =>
    cases h
    exact ⟨rfl, rfl, Slot.sound_of_frame rfl (sound_factoryFrame hframe)⟩

theorem Slots.ofConfig_eq_ok {config : Config} {slots : Slots} (h : ofConfig config = .ok slots)
    (i : SlotIndex) : factorySlot config i = .ok (slots.table.value i) := by
  simp only [ofConfig, bind, Except.bind] at h
  cases hfirst : factorySlot config .first with
  | error fault => simp [hfirst] at h
  | ok first =>
      cases hsecond : factorySlot config .second with
      | error fault => simp [hfirst, hsecond] at h
      | ok second =>
          cases hthird : factorySlot config .third with
          | error fault => simp [hfirst, hsecond, hthird] at h
          | ok third =>
              simp only [hfirst, hsecond, hthird] at h
              cases h
              match i with
              | 0 => exact hfirst
              | 1 => exact hsecond
              | 2 => exact hthird

theorem Slots.sound_ofConfig {config : Config} {slots : Slots} (h : ofConfig config = .ok slots) :
    slots.Sound := by
  intro i
  have hslot := factorySlot_eq_ok (ofConfig_eq_ok h i)
  exact hslot.2.2

/-- What is stored of a slot, put over what the slot holds. -/
def Slot.restored (params : Params) (i : SlotIndex) (slot : Slot) : Slot :=
  { slot with
    interval := params.intervals.value i
    radioTx := params.radioTx.value i
    advTx := params.advTx.value i
    exponent := params.exponents.value i
    key := params.keys.value i
    frame :=
      match (params.frames.value i).decode with
      | .ok frame => frame
      | .error _ => none }

/-- What is stored of all slots, put over what they hold. -/
def Slots.restored (params : Params) (slots : Slots) : Slots where
  table := Vector.ofFn fun i => (slots.table.value i).restored params i
  active := if h : params.activeSlot.toNat < 3 then ⟨params.activeSlot.toNat, h⟩ else slots.active

theorem Slots.value_restored (params : Params) (slots : Slots) (i : SlotIndex) :
    (slots.restored params).table.value i = (slots.table.value i).restored params i := by
  simp [restored, PerSlot.value]

theorem Slots.value_modify (i j : SlotIndex) (f : Slot → Slot) (slots : Slots) :
    (slots.modify i f).table.value j =
      if i = j then f (slots.table.value i) else slots.table.value j :=
  PerSlot.value_put i j _ _

namespace State

def restored (params : Params) (s : State) : State :=
  { s with
    clock := params.clock
    radioLevels := params.radioLevels
    advLevels := params.advLevels
    lock := .fresh params.lockState params.unlockKey
    remainConnectable := params.remainConnectable
    slots := s.slots.restored params }

def factory (config : Config) (slots : Slots) (identity : Identity) (rng : Drbg)
    (minInterval maxInterval : UInt16) : State where
  config := config
  slots := slots
  lock := .fresh config.lockState config.unlockKey
  identity := identity
  rng := rng
  clock := .zero
  telemetry := .initial
  radioLevels := config.radioLevels
  advLevels := config.advLevels
  remainConnectable := config.remainConnectable
  sealingCursor := .first
  minInterval := minInterval
  maxInterval := maxInterval
  pendingAddress := none
  clockDirty := false
  pendingEvents := []

theorem ofConfig_eq_ok {config : Config} {entropy : Option (Octets 32)}
    {minInterval maxInterval : UInt16} {s : State}
    (h : ofConfig config entropy minInterval maxInterval = .ok s) :
    ∃ slots identity rng, config.flaw? = none ∧ Slots.ofConfig config = .ok slots ∧
      s = factory config slots identity rng minInterval maxInterval := by
  unfold ofConfig Config.validate at h
  cases hflaw : config.flaw? with
  | some fault => simp [hflaw, bind, Except.bind] at h
  | none =>
      cases entropy with
      | none => simp [hflaw, bind, Except.bind, Drbg.ofEntropy] at h
      | some seed =>
          cases hslots : Slots.ofConfig config with
          | error fault => simp [hflaw, bind, Except.bind, Drbg.ofEntropy, hslots] at h
          | ok slots =>
              simp only [hflaw, bind, Except.bind, Drbg.ofEntropy, hslots] at h
              cases h
              exact ⟨slots, _, _, rfl, rfl, rfl⟩

theorem ofConfig_of_sound {config : Config} (hflaw : config.flaw? = none) (seed : Octets 32)
    (minInterval maxInterval : UInt16) :
    ∃ slots identity rng, Slots.ofConfig config = .ok slots ∧
      ofConfig config (some seed) minInterval maxInterval =
        .ok (factory config slots identity rng minInterval maxInterval) := by
  obtain ⟨slots, hslots⟩ := Slots.ofConfig_ok (Config.sound_of_flaw? hflaw)
  refine ⟨slots, (Identity.generate ⟨seed, 0⟩).1, (Identity.generate ⟨seed, 0⟩).2, hslots, ?_⟩
  simp only [ofConfig, Config.validate, hflaw, Drbg.ofEntropy, hslots, bind, Except.bind]
  rfl

theorem restoreSlot_state (params : Params) (i : SlotIndex) (s : State) :
    (restoreSlot params i s).state =
      { s with slots := s.slots.modify i (Slot.restored params i) } := by
  unfold restoreSlot Slot.restored
  cases (params.frames.value i).decode <;> rfl

theorem restoreSlots_state (params : Params) (s : State) :
    (SlotIndex.all.forM (restoreSlot params) s).state =
      { s with slots := { s.slots with table := (s.slots.restored params).table } } := by
  have htable : (((s.slots.modify .first (Slot.restored params .first)).modify .second
      (Slot.restored params .second)).modify .third (Slot.restored params .third)).table =
        (s.slots.restored params).table := by
    apply PerSlot.ext_value
    intro i
    rw [Slots.value_restored]
    match i with
    | 0 => simp [Slots.value_modify, SlotIndex.first, SlotIndex.second, SlotIndex.third]
    | 1 => simp [Slots.value_modify, SlotIndex.first, SlotIndex.second, SlotIndex.third]
    | 2 => simp [Slots.value_modify, SlotIndex.first, SlotIndex.second, SlotIndex.third]
  have hslots : ((s.slots.modify .first (Slot.restored params .first)).modify .second
      (Slot.restored params .second)).modify .third (Slot.restored params .third) =
        { s.slots with table := (s.slots.restored params).table } := by
    rw [← htable]
    rfl
  simp only [SlotIndex.all, List.forM_eq_forM, List.forM_cons, List.forM_nil, Act.bind_apply,
    Act.pure_apply, Done.state_after, restoreSlot_state, hslots]

theorem restore_state (params : Params) (s : State) :
    (restore params s).state = s.restored params := by
  simp only [restore, Act.bind_apply, Act.modify_apply, Act.get_apply, Done.after_nil,
    Slots.setActive]
  by_cases hactive : params.activeSlot.toNat < 3
  · rw [dif_pos hactive]
    simp only [Act.bind_apply, Act.modify_apply, Done.after_nil, restoreSlots_state]
    simp only [restored, Slots.restored, dif_pos hactive]
  · rw [dif_neg hactive]
    simp only [Act.bind_apply, Act.note_apply, Done.state_after, restoreSlots_state]
    simp only [restored, Slots.restored, dif_neg hactive]

end State

namespace Device

/-- A state that has taken over what a store gave, ready to run. -/
def adopted (loaded : Except StoreFault (Option Params)) (s : State) : State :=
  match loaded with
  | .ok (some params) =>
    { s.restored params with
      clock := params.clock.boot
      slots := (s.slots.restored params).resetRotations }
  | _ => { s with slots := s.slots.resetRotations }

theorem adopt_state (loaded : Except StoreFault (Option Params)) (s : State) :
    (adopt loaded s).state = adopted loaded s := by
  cases loaded with
  | error fault => rfl
  | ok stored =>
      cases stored with
      | none => rfl
      | some params =>
          simp only [adopt, Act.bind_apply, State.restore_state, Act.modify_apply, Act.get_apply,
            Act.note_apply, Done.state_after]
          rfl

theorem boot_of_ok {radio : Radio} {config : Config} {entropy : Option (Octets 32)}
    {s : State} (h : State.ofConfig config entropy radio.minInterval radio.maxInterval = .ok s)
    (now : Nat) (store : Store) :
    (boot radio config entropy now store).value = .ok (persist now
        (Engine.ofState radio (adopted (Store.load store).value s), (Store.load store).state)).state.1 ∧
      (boot radio config entropy now store).state = (persist now
        (Engine.ofState radio (adopted (Store.load store).value s), (Store.load store).state)).state.2 := by
  simp only [boot, h, Act.bind_apply, Act.starting, Act.onFst_apply, adopt_state, Act.pure_apply,
    Done.value_after, Done.state_after]
  exact ⟨trivial, trivial⟩

/-- A device that was started has the factory defaults of its configuration, with what was stored
put over them, and has tried to save all that. -/
theorem boot_eq_ok {radio : Radio} {config : Config} {entropy : Option (Octets 32)} {now : Nat}
    {store : Store} {engine : Engine}
    (hboot : (boot radio config entropy now store).value = .ok engine) :
    ∃ s, State.ofConfig config entropy radio.minInterval radio.maxInterval = .ok s ∧
      (engine, (boot radio config entropy now store).state) =
        (persist now (Engine.ofState radio (adopted (Store.load store).value s),
          (Store.load store).state)).state := by
  cases h : State.ofConfig config entropy radio.minInterval radio.maxInterval with
  | error fault =>
      simp only [boot, h] at hboot
      simp at hboot
  | ok s =>
      obtain ⟨hvalue, hstate⟩ := boot_of_ok h now store
      rw [hvalue] at hboot
      cases hboot
      exact ⟨s, rfl, congrArg (Prod.mk _) hstate⟩

theorem Booted.exists_state {config : Config} {store : Store} {d : Device}
    (hbooted : Booted config store d) :
    ∃ radio slots identity rng now, config.flaw? = none ∧ Slots.ofConfig config = .ok slots ∧
      d = (persist now
        (Engine.ofState radio (adopted (Store.load store).value
          (.factory config slots identity rng radio.minInterval radio.maxInterval)),
          (Store.load store).state)).state := by
  obtain ⟨radio, entropy, now, engine, hboot, rfl⟩ := hbooted
  obtain ⟨s, hs, hd⟩ := boot_eq_ok hboot
  obtain ⟨slots, identity, rng, hflaw, hslots, rfl⟩ := State.ofConfig_eq_ok hs
  exact ⟨radio, slots, identity, rng, now, hflaw, hslots, hd⟩

/-- Saving at once leaves the setup as it was taken over. -/
theorem Booted.exists_setup {config : Config} {store : Store} {d : Device}
    (hbooted : Booted config store d) :
    ∃ slots identity rng minInterval maxInterval, Slots.ofConfig config = .ok slots ∧
      d.setup = (adopted (Store.load store).value
        (.factory config slots identity rng minInterval maxInterval)).setup := by
  obtain ⟨radio, slots, identity, rng, now, -, hslots, rfl⟩ := hbooted.exists_state
  exact ⟨slots, identity, rng, radio.minInterval, radio.maxInterval, hslots, setup_persist now _⟩

/-- With entropy to be had, every configuration that can be used starts a device. -/
theorem exists_booted {config : Config} (hflaw : config.flaw? = none) (radio : Radio)
    (seed : Octets 32) (now : Nat) (store : Store) :
    ∃ slots identity rng, Slots.ofConfig config = .ok slots ∧
      Booted config store
        (persist now
          (Engine.ofState radio (adopted (Store.load store).value
            (.factory config slots identity rng radio.minInterval radio.maxInterval)),
            (Store.load store).state)).state := by
  obtain ⟨slots, identity, rng, hslots, hs⟩ :=
    State.ofConfig_of_sound hflaw seed radio.minInterval radio.maxInterval
  obtain ⟨hvalue, hstate⟩ := boot_of_ok hs now store
  exact ⟨slots, identity, rng, hslots, radio, some seed, now, _, hvalue,
    congrArg (Prod.mk _) hstate.symm⟩

/-- What can be computed of a start holds of a device. -/
theorem exists_booted_of_eq {α : Type} {config : Config} {store : Store} (radio : Radio)
    (entropy : Option (Octets 32)) (now : Nat) (f : Device → α) {a : α}
    (h : ((boot radio config entropy now store).value.toOption.map fun e =>
      f (e, (boot radio config entropy now store).state)) = some a) :
    ∃ d, Booted config store d ∧ f d = a := by
  cases hboot : (boot radio config entropy now store).value with
  | error fault =>
      rw [hboot] at h
      cases h
  | ok e =>
      rw [hboot] at h
      exact ⟨_, ⟨radio, entropy, now, e, hboot, rfl⟩, Option.some.inj h⟩

/-- The device that a start gives, if it gives one. -/
def started? (radio : Radio) (config : Config) (entropy : Option (Octets 32)) (now : Nat)
    (store : Store) : Option Device :=
  let done := boot radio config entropy now store
  done.value.toOption.map fun e => (e, done.state)

/-- What can be computed of a start over what a device has stored by then holds of two devices. -/
theorem exists_rebooted_of_eq {α : Type} {config : Config} {store : Store} (radio : Radio)
    (entropy : Option (Octets 32)) (now : Nat) (use : Device → Device) (f : Device → α) {a : α}
    (h : ((started? radio config entropy now store).map fun start =>
      (started? radio config entropy now (use start).2).map f) = some (some a)) :
    ∃ start d, Booted config store start ∧ Booted config (use start).2 d ∧ f d = a := by
  rw [started?, Option.map_map] at h
  obtain ⟨start, hstart, hagain⟩ := exists_booted_of_eq radio entropy now
    (fun start => (started? radio config entropy now (use start).2).map f) h
  rw [started?, Option.map_map] at hagain
  obtain ⟨d, hbooted, hd⟩ := exists_booted_of_eq radio entropy now f hagain
  exact ⟨start, d, hstart, hbooted, hd⟩

/-- A central has the second slot send telemetry at an interval, and the host has that saved. -/
def rearranged (interval : Bytes) (d : Device) : Device :=
  let chosen := (serve (.write .activeSlot 0 [1] 0) d).state
  let paced := (serve (.write .advInterval 0 interval 0) chosen).state
  let filled := (serve (.write .advSlotData 0 [0x20] 0) paced).state
  (serve (.saveIfDirty 0) filled).state

theorem Reachable.rearranged {config : Config} {store : Store} {d : Device}
    (hreach : Reachable config store d) (interval : Bytes) :
    Reachable config store (d.rearranged interval) := by
  have hchosen := hreach.serve (.write .activeSlot 0 [1] 0)
  have hpaced := hchosen.serve (.write .advInterval 0 interval 0)
  have hfilled := hpaced.serve (.write .advSlotData 0 [0x20] 0)
  exact hfilled.serve (.saveIfDirty 0)

/-- A device that was started with nothing stored is set up by its configuration. -/
theorem exists_fresh {config : Config} (hflaw : config.flaw? = none) (radio : Radio) :
    ∃ d, Booted config ⟨.memory none, fun _ _ => none, 0⟩ d ∧ d.1.scheduler.radio = radio ∧
      ∃ slots identity rng, Slots.ofConfig config = .ok slots ∧
        d.setup =
          (State.factory config slots identity rng radio.minInterval radio.maxInterval).setup := by
  obtain ⟨slots, identity, rng, hslots, hbooted⟩ := exists_booted hflaw radio
    (Octets.zero 32) 0 ⟨.memory none, fun _ _ => none, 0⟩
  refine ⟨_, hbooted, ?_, slots, identity, rng, hslots, ?_⟩
  · obtain ⟨state, dirty, h⟩ := engine_persist 0
      (Engine.ofState radio (adopted (Store.load ⟨.memory none, fun _ _ => none, 0⟩).value
        (.factory config slots identity rng radio.minInterval radio.maxInterval)),
        (Store.load ⟨.memory none, fun _ _ => none, 0⟩).state)
    exact congrArg (fun e => e.scheduler.radio) h
  · exact (setup_persist 0 _).trans (State.setup_resetRotations _)

theorem lock_adopted (loaded : Except StoreFault (Option Params)) {s : State}
    (htoken : s.lock.token = none) : (adopted loaded s).lock.token = none := by
  cases loaded with
  | error fault => exact htoken
  | ok stored =>
      cases stored with
      | none => exact htoken
      | some params => rfl

end Device

end Beacon

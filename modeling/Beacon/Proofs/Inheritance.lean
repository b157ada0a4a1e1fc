import Beacon.Proofs.Courses
import Beacon.Proofs.Renewals

/-!
# What one boot leaves to the next

A device starts from what the boots before it have left in their store, back to a
blank one.  None of them stores an exponent for which there is no identifier:
the configuration has none, a write that brings one is rejected, and a restart
only brings back what was stored.
-/

namespace Beacon

open Act

/-! ## Exponents in bounds -/

/-- There is an identifier for every slot. -/
def Settings.Bounded (settings : Settings) : Prop :=
  ∀ i, (settings.slots.value i).exponent ≤ Ephemeral.maxExponent

namespace State

/-- There is an identifier for every slot, and there will be after a factory reset. -/
structure Bounded (s : State) : Prop where
  sound : s.config.Sound
  settings : s.settings.Bounded

theorem exponent_settings (s : State) (i : SlotIndex) :
    (s.settings.slots.value i).exponent = (s.slots.table.value i).exponent := by
  rw [State.settings, PerSlot.value_map]
  rfl

theorem Bounded.exponent_le {s : State} (h : s.Bounded) (i : SlotIndex) :
    (s.slots.table.value i).exponent ≤ Ephemeral.maxExponent := by
  rw [← exponent_settings]
  exact h.settings i

/-- Exponents are seen from the slots. -/
theorem Bounded.of_slots_eq {s t : State} (h : s.Bounded) (hsound : t.config.Sound)
    (hslots : s.slots = t.slots) : t.Bounded := by
  constructor
  · exact hsound
  · intro i
    rw [exponent_settings, ← hslots]
    exact h.exponent_le i

theorem bounded_snapshot {s : State} (h : s.settings.Bounded) (defaults : Settings) :
    (defaults.restored s.snapshot).Bounded := by
  intro i
  have hsame : ((defaults.restored s.snapshot).slots.value i).exponent =
      (s.slots.table.value i).exponent := by
    rw [Settings.restored, PerSlot.value_ofFn]
    exact congrArg id (PerSlot.value_map ..)
  rw [hsame, ← exponent_settings]
  exact h i

end State

theorem Settings.bounded_factory {config : Config} {slots : Slots} (hsound : config.Sound)
    (hslots : Slots.ofConfig config = .ok slots) : (Settings.factory config slots).Bounded := by
  intro i
  have hexponent := (Slots.nextRotation_factorySlot (Slots.ofConfig_eq_ok hslots i)).2
  rw [Settings.factory, PerSlot.value_map]
  exact hexponent ▸ hsound.exponents i

/-! ## Deeds -/

theorem Deed.config_perform (deed : Deed) : Act.Keeps State.config deed.perform := by
  cases deed with
  | asked access =>
      cases access with
      | read attr now => exact Attribute.config_read attr now
      | write attr offset data now =>
          exact fun s => (Attribute.outcome_write attr offset data now s).config_eq
  | took turn now => exact fun s => congrArg Setup.config (turn.setup_perform now s)

theorem Moment.bounded_after {m : Moment} (h : m.state.Bounded) : m.after.Bounded := by
  constructor
  · have hconfig : m.after.config = m.state.config := m.deed.config_perform m.state
    rw [hconfig]
    exact h.sound
  · intro i
    rw [State.exponent_settings]
    change ((m.deed.perform m.state).state.slots.table.value i).exponent ≤ _
    cases m.renewal h.sound i with
    | retained _ hretains _ =>
        rw [hretains.exponent]
        exact h.exponent_le i
    | rotated tx id _ hid _ _ _ => exact Ephemeral.exponent_le_of_identifier hid
    | due _ hexponent => exact hexponent

/-! ## What lasts -/

/-- A property of settings that every configuration has, that being stored does not take away and
that no request breaks. -/
structure Settings.Lasting (P : Settings → Prop) : Prop where
  factory {config : Config} {slots : Slots} :
    config.Sound → Slots.ofConfig config = .ok slots → P (.factory config slots)
  stored {s : State} {defaults : Settings} :
    P s.settings → P defaults → P (defaults.restored s.snapshot)
  served {config : Config} {store : Store} {d : Device} (request : Request) :
    Device.Reachable config store d → d.1.state.config.Sound → P d.1.state.settings →
      P (Device.serve request d).state.1.state.settings

/-- Who starts from the medium with the property keeps it. -/
def Medium.Carries (P : Settings → Prop) (medium : Medium) : Prop :=
  ∀ defaults : Settings, P defaults → P (defaults.adopting (load medium).value)

/-- What is stored was set up with the property, whatever the clock says. -/
def Medium.Records (P : Settings → Prop) (medium : Medium) : Prop :=
  ∀ params, (load medium).value = .ok (some params) →
    ∃ (s : State) (clock : Clock), P s.settings ∧ params = { s.snapshot with clock }

/-- Who starts from the medium with exponents in bounds keeps them there. -/
def Medium.Bounded (medium : Medium) : Prop :=
  ∀ defaults : Settings, defaults.Bounded → (defaults.adopting (load medium).value).Bounded

variable {P : Settings → Prop}

namespace Store

theorem carries_save {s : State}
    (hs : ∀ defaults : Settings, P defaults → P (defaults.restored s.snapshot)) {store : Store}
    (hstore : store.medium.Carries P) : (save s.snapshot store).state.medium.Carries P := by
  intro defaults hdefaults
  have hmagic : s.snapshot.magic = Params.magicWord := rfl
  obtain ⟨-, ⟨-, hsettings⟩ | ⟨-, hsettings⟩⟩ := save_cases hmagic store
  · have hstored := hs defaults hdefaults
    rwa [← hsettings defaults] at hstored
  · have hkept := hstore defaults hdefaults
    rwa [← Store.settings, ← hsettings defaults] at hkept

theorem carries_saveClock (clock : Clock) {store : Store} (hstore : store.medium.Carries P) :
    (saveClock clock store).state.medium.Carries P := by
  intro defaults hdefaults
  have hkept := hstore defaults hdefaults
  rwa [← Store.settings, ← (settings_saveClock clock store).2 defaults] at hkept

theorem carries_load {store : Store} (hstore : store.medium.Carries P) :
    (load store).state.medium.Carries P ∧ ∀ defaults : Settings, P defaults →
      P (defaults.adopting (load store).value) := by
  obtain ⟨-, ⟨fault, -, hvalue, hmedium⟩ | ⟨-, hvalue, hmedium⟩⟩ :=
    call_cases .load Medium.load store
  · constructor
    · exact hmedium ▸ hstore
    · intro defaults hdefaults
      rw [load, hvalue]
      exact hdefaults
  · rw [Medium.load_state] at hmedium
    constructor
    · exact hmedium ▸ hstore
    · intro defaults hdefaults
      rw [load, hvalue]
      exact hstore defaults hdefaults

theorem records_save {s : State} (hs : P s.settings) {store : Store}
    (hstore : store.medium.Records P) : (save s.snapshot store).state.medium.Records P := by
  have hmagic : s.snapshot.magic = Params.magicWord := rfl
  intro params hload
  rcases medium_save hmagic store with ⟨-, -, hsaved⟩ | ⟨-, -, -, hmedium⟩
  · rw [hsaved] at hload
    cases hload
    exact ⟨s, s.clock, hs, rfl⟩
  · rw [hmedium] at hload
    exact hstore params hload

theorem records_saveClock (clock : Clock) {store : Store} (hstore : store.medium.Records P) :
    (saveClock clock store).state.medium.Records P := by
  intro params hload
  rcases medium_saveClock clock store with ⟨-, -, hsaved⟩ | ⟨-, -, -, hmedium⟩
  · rw [hsaved] at hload
    cases hheld : (Medium.load store.medium).value with
    | error fault =>
        rw [hheld] at hload
        cases hload
    | ok stored =>
        cases stored with
        | none =>
            rw [hheld] at hload
            cases hload
        | some held =>
            rw [hheld] at hload
            cases hload
            obtain ⟨s, before, hs, rfl⟩ := hstore held hheld
            exact ⟨s, clock, hs, rfl⟩
  · rw [hmedium] at hload
    exact hstore params hload

theorem medium_load (store : Store) : (load store).state.medium = store.medium := by
  obtain ⟨-, ⟨fault, -, -, hmedium⟩ | ⟨-, -, hmedium⟩⟩ := call_cases .load Medium.load store
  · exact hmedium
  · exact hmedium.trans (Medium.load_state _)

end Store

/-! ## Devices -/

namespace Device

theorem store_persist (now : Nat) (d : Device) :
    (persist now d).state.2 = (Store.save (d.1.state.recorded now).snapshot d.2).state := by
  rcases persist_cases now d with ⟨-, -, h⟩ | ⟨-, -, h⟩
  · rw [h]
  · rw [h]

/-- Of the settings of a device, the store gets to know those that it had before the request. -/
theorem store_serve (request : Request) (d : Device) :
    (serve request d).state.2 = d.2 ∨
      (∃ s : State, s.settings = d.1.state.settings ∧
        (serve request d).state.2 = (Store.save s.snapshot d.2).state) ∨
      ∃ clock, (serve request d).state.2 = (Store.saveClock clock d.2).state := by
  have hsaved (now : Nat) : ∃ s : State, s.settings = d.1.state.settings ∧
      (persist now d).state.2 = (Store.save s.snapshot d.2).state :=
    ⟨d.1.state.recorded now, rfl, store_persist now d⟩
  cases request with
  | read attr now => exact .inl rfl
  | write attr offset data now => exact .inl rfl
  | poll now => exact .inl rfl
  | radioEvent event now =>
      have hserve : (serve (.radioEvent event now) d).state = (radioEvent event now d).state := rfl
      rw [hserve]
      rcases radioEvent_cases event now d with ⟨-, h⟩ | ⟨-, -, h⟩ | ⟨-, h⟩
      · rw [h]
        exact .inl rfl
      · rw [h]
        exact .inr (.inl (hsaved now))
      · rw [h]
        exact .inl rfl
  | command command now =>
      cases command with
      | startConfig => exact .inl rfl
      | startBeacon => exact .inl rfl
      | stop => exact .inl rfl
      | updateBattery millivolts => exact .inl rfl
      | updateTemperature temperature => exact .inl rfl
      | saveParams => exact .inr (.inl (hsaved now))
  | saveIfDirty now =>
      have hserve : (serve (.saveIfDirty now) d).state = (saveIfDirty now d).state := rfl
      rw [hserve, saveIfDirty_state]
      split
      · exact .inr (.inl (hsaved now))
      · rcases saveClockIfDirty_cases d with ⟨-, h⟩ | ⟨-, h⟩
        · rw [h]
          exact .inl rfl
        · rw [h]
          exact .inr (.inr ⟨_, rfl⟩)

/-- The property holds of what the device is set to, and stays there across a restart. -/
structure Holds (P : Settings → Prop) (d : Device) : Prop where
  sound : d.1.state.config.Sound
  settings : P d.1.state.settings
  medium : d.2.medium.Carries P

theorem Holds.serve (hP : Settings.Lasting P) {config : Config} {store : Store} {d : Device}
    (h : d.Holds P) (hreach : Reachable config store d) (request : Request) :
    (Device.serve request d).state.Holds P := by
  constructor
  · have hconfig : (Device.serve request d).state.1.state.config = d.1.state.config :=
      config_serve request d
    exact hconfig ▸ h.sound
  · exact hP.served request hreach h.sound h.settings
  · rcases store_serve request d with hstore | ⟨s, hsettings, hstore⟩ | ⟨clock, hstore⟩
    · rw [hstore]
      exact h.medium
    · rw [hstore]
      exact Store.carries_save (P := P) (fun _ => hP.stored (hsettings ▸ h.settings)) h.medium
    · rw [hstore]
      exact Store.carries_saveClock clock h.medium

theorem Holds.persist (hP : Settings.Lasting P) {d : Device} (h : d.Holds P) (now : Nat) :
    (Device.persist now d).state.Holds P := by
  have hsetup := setup_persist now d
  have hconfig : (Device.persist now d).state.1.state.config = d.1.state.config :=
    congrArg Setup.config hsetup
  have hsettings : (Device.persist now d).state.1.state.settings = d.1.state.settings :=
    congrArg Setup.settings hsetup
  constructor
  · exact hconfig ▸ h.sound
  · exact hsettings ▸ h.settings
  · have hrecorded : P (d.1.state.recorded now).settings := h.settings
    rw [store_persist]
    exact Store.carries_save (P := P) (fun _ => hP.stored hrecorded) h.medium

theorem Booted.holds (hP : Settings.Lasting P) {config : Config} {store : Store} {d : Device}
    (hstore : store.medium.Carries P) (hbooted : Booted config store d) : d.Holds P := by
  obtain ⟨radio, slots, identity, rng, now, hflaw, hslots, rfl⟩ := hbooted.exists_state
  have hsound := Config.sound_of_flaw? hflaw
  obtain ⟨hmedium, hloaded⟩ := Store.carries_load hstore
  have hadopted := hloaded _ (hP.factory hsound hslots)
  have hsettings := settings_adopted (Store.load store).value
    (.factory config slots identity rng radio.minInterval radio.maxInterval)
  have hconfig := config_adopted (Store.load store).value
    (.factory config slots identity rng radio.minInterval radio.maxInterval)
  apply Holds.persist hP
  constructor
  · exact hconfig ▸ hsound
  · exact hsettings ▸ hadopted
  · exact hmedium

theorem Reachable.holds (hP : Settings.Lasting P) {config : Config} {store : Store} {d : Device}
    (hstore : store.medium.Carries P) (hreach : Reachable config store d) : d.Holds P := by
  induction hreach with
  | boot hbooted => exact hbooted.holds hP hstore
  | serve request hreach ih => exact ih.serve hP hreach request
  | reboot _ hbooted ih => exact hbooted.holds hP ih.medium

theorem Booted.records (hP : Settings.Lasting P) {config : Config} {store : Store} {d : Device}
    (hcarries : store.medium.Carries P) (hrecords : store.medium.Records P)
    (hbooted : Booted config store d) : d.2.medium.Records P := by
  have hsettings := (hbooted.holds hP hcarries).settings
  obtain ⟨radio, slots, identity, rng, now, -, -, rfl⟩ := hbooted.exists_state
  generalize adopted (Store.load store).value _ = s at hsettings ⊢
  have hkept : (persist now (Engine.ofState radio s, (Store.load store).state)).state.1.state.settings =
      (s.recorded now).settings := congrArg Setup.settings (setup_persist now _)
  have hsaved : P (s.recorded now).settings := hkept ▸ hsettings
  rw [store_persist]
  exact Store.records_save hsaved ((Store.medium_load store).symm ▸ hrecords)

theorem Reachable.records (hP : Settings.Lasting P) {config : Config} {store : Store} {d : Device}
    (hcarries : store.medium.Carries P) (hrecords : store.medium.Records P)
    (hreach : Reachable config store d) : d.2.medium.Records P := by
  induction hreach with
  | boot hbooted => exact hbooted.records hP hcarries hrecords
  | @serve d request hreach ih =>
      have hholds := hreach.holds hP hcarries
      rcases store_serve request d with hstore | ⟨s, hsettings, hstore⟩ | ⟨clock, hstore⟩
      · rw [hstore]
        exact ih
      · rw [hstore]
        exact Store.records_save (hsettings ▸ hholds.settings) ih
      · rw [hstore]
        exact Store.records_saveClock clock ih
  | reboot hreach hbooted ih => exact hbooted.records hP (hreach.holds hP hcarries).medium ih

end Device

/-- The medium is blank, or a device that was started from such a medium has left it. -/
inductive Medium.Inherited : Medium → Prop
  | memory : Inherited (.memory none)
  | flash : Inherited (.flash .erased)
  | left {config : Config} {store : Store} {d : Device} :
      Inherited store.medium → Device.Reachable config store d → Inherited d.2.medium

theorem Medium.Inherited.carries (hP : Settings.Lasting P) {medium : Medium} (h : medium.Inherited) :
    medium.Carries P := by
  induction h with
  | memory => exact fun _ hdefaults => hdefaults
  | flash => exact fun _ hdefaults => hdefaults
  | left _ hreach ih => exact (hreach.holds hP ih).medium

theorem Medium.Inherited.records (hP : Settings.Lasting P) {medium : Medium} (h : medium.Inherited) :
    medium.Records P := by
  induction h with
  | memory => exact fun _ hload => nomatch hload
  | flash => exact fun _ hload => nomatch hload
  | left hinherited hreach ih => exact hreach.records hP (hinherited.carries hP) ih

/-! ## Exponents that last -/

theorem Settings.lasting_bounded : Settings.Lasting Settings.Bounded where
  factory := Settings.bounded_factory
  stored h _ := State.bounded_snapshot h _
  served {_ _ d} request hreach hsound h := by
    obtain ⟨t, hreplays, hslots, -⟩ := Entry.replays (x := ⟨d, request⟩) hreach.pendingEvents
    have hhush : d.1.state.hush.Bounded := ⟨hsound, h⟩
    have hbounded := (hreplays.invariant (P := State.Bounded)
      (fun m _ _ hm => m.bounded_after hm) hhush).2
    have hconfig : (Device.serve request d).state.1.state.config = d.1.state.config :=
      Device.config_serve request d
    exact (hbounded.of_slots_eq (hconfig ▸ hsound) hslots).settings

theorem Device.Booted.bounded {config : Config} {store : Store} {d : Device}
    (hstore : store.medium.Bounded) (hbooted : Booted config store d) : d.1.state.Bounded := by
  have hholds := hbooted.holds Settings.lasting_bounded hstore
  exact ⟨hholds.sound, hholds.settings⟩

theorem Medium.Inherited.bounded {medium : Medium} (h : medium.Inherited) : medium.Bounded :=
  h.carries Settings.lasting_bounded

end Beacon

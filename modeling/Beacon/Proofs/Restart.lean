import Beacon.Proofs.Booting
import Beacon.Proofs.ParamsCodec

/-!
# What a restart brings back

A device that starts is set up by its configuration and by what its store gives.
While no change waits to be saved that is what the device is set to already.
The invariant speaks of the store alone: a write that is accepted may break it,
and marks the parameters as changed, while nothing else touches the settings.

What frames hold can always be read, so that none of them is lost in the store.
-/

namespace Beacon

/-! ## Frames that can be read -/

theorem Slots.sound_resetRotations {slots : Slots} (hsound : slots.Sound) :
    slots.resetRotations.Sound := by
  intro i frame hframe
  rw [resetRotations, mapSlots, PerSlot.value_map] at hframe
  exact hsound i frame hframe

theorem Slots.sound_restored (params : Params) (slots : Slots) : (slots.restored params).Sound := by
  intro i frame hframe
  rw [value_restored] at hframe
  cases hdecode : (params.frames.value i).decode with
  | error fault =>
      rw [Slot.restored, hdecode] at hframe
      cases hframe
  | ok held =>
      rw [Slot.restored, hdecode] at hframe
      exact StoredFrame.sound_of_decode (hdecode.trans (congrArg Except.ok hframe))

theorem Device.sound_adopted (loaded : Except StoreFault (Option Params)) {s : State}
    (hsound : s.slots.Sound) : (adopted loaded s).slots.Sound := by
  cases loaded with
  | error fault => exact Slots.sound_resetRotations hsound
  | ok stored =>
      cases stored with
      | none => exact Slots.sound_resetRotations hsound
      | some params => exact Slots.sound_resetRotations (Slots.sound_restored params s.slots)

/-! ## Settings put over others -/

namespace Settings

def factory (config : Config) (slots : Slots) : Settings where
  active := slots.active
  slots := slots.table.map Slot.settings
  lock := .fresh config.lockState config.unlockKey
  radioLevels := config.radioLevels
  advLevels := config.advLevels
  remainConnectable := config.remainConnectable

def restored (params : Params) (s : Settings) : Settings where
  active := if h : params.activeSlot.toNat < 3 then ⟨params.activeSlot.toNat, h⟩ else s.active
  slots := Vector.ofFn fun i => ((s.slots.value i).restored params i).settings
  lock := .fresh params.lockState params.unlockKey
  radioLevels := params.radioLevels
  advLevels := params.advLevels
  remainConnectable := params.remainConnectable

/-- What a device with these defaults is set to when it starts from what a store gives. -/
def adopting (loaded : Except StoreFault (Option Params)) (defaults : Settings) : Settings :=
  match loaded with
  | .ok (some params) => defaults.restored params
  | _ => defaults

end Settings

namespace State

theorem settings_resetRotations (s : State) :
    { s with slots := s.slots.resetRotations }.settings = s.settings :=
  congrArg Setup.settings s.setup_resetRotations

theorem settings_restored (params : Params) (s : State) :
    (s.restored params).settings = s.settings.restored params := by
  have hslots : (s.slots.restored params).table.map Slot.settings =
      Vector.ofFn fun i =>
        ((PerSlot.value (s.slots.table.map Slot.settings) i).restored params i).settings := by
    apply PerSlot.ext_value
    intro i
    rw [PerSlot.value_map, Slots.value_restored, PerSlot.value_ofFn, PerSlot.value_map]
    rfl
  simp only [settings, restored, Settings.restored, hslots]
  rfl

theorem decode_storedFrame {slot : Slot} (hsound : slot.Sound) :
    (storedFrame slot).decode = .ok slot.frame := by
  unfold storedFrame
  cases hframe : slot.frame with
  | none => rfl
  | some frame =>
      obtain ⟨stored, hstored, hdecode⟩ := StoredFrame.decode_ofFrame (hsound frame hframe)
      simp only [hstored]
      exact hdecode

theorem restored_snapshot_slot {s : State} {i : SlotIndex}
    (hsound : (s.slots.table.value i).Sound) (slot : Slot) :
    (slot.restored s.snapshot i).settings = (s.slots.table.value i).settings := by
  have hframe : (s.snapshot.frames.value i).decode = .ok (s.slots.table.value i).frame := by
    rw [snapshot, PerSlot.value_map, decode_storedFrame hsound]
  simp only [Slot.restored, Slot.settings, hframe]
  simp only [snapshot, PerSlot.value_map]

/-- A snapshot has all the settings. -/
theorem restored_snapshot {s : State} (hsound : s.slots.Sound) (defaults : Settings) :
    defaults.restored s.snapshot = s.settings := by
  have hactive : s.snapshot.activeSlot.toNat = s.slots.active :=
    UInt8.toNat_ofNat_of_lt' (Nat.lt_trans s.slots.active.isLt (by decide))
  have hslots : (Vector.ofFn fun i => ((defaults.slots.value i).restored s.snapshot i).settings) =
      s.slots.table.map Slot.settings := by
    apply PerSlot.ext_value
    intro i
    rw [PerSlot.value_map, PerSlot.value_ofFn]
    exact restored_snapshot_slot (hsound i) _
  simp only [Settings.restored, settings, hslots, hactive, s.slots.active.isLt, dif_pos]
  rfl

end State

theorem Device.settings_adopted (loaded : Except StoreFault (Option Params)) (s : State) :
    (adopted loaded s).settings = s.settings.adopting loaded := by
  cases loaded with
  | error fault => exact s.settings_resetRotations
  | ok stored =>
      cases stored with
      | none => exact s.settings_resetRotations
      | some params =>
          refine Eq.trans ?_ (s.settings_restored params)
          exact { s.restored params with clock := params.clock.boot }.settings_resetRotations

/-! ## What a medium gives -/

namespace Flash

theorem load_state (flash : Flash) : (load flash).state = flash := by
  unfold load
  simp only [Act.bind_apply, Act.get_apply, Done.after_nil]
  cases flash.params with
  | none => rfl
  | some bytes =>
      simp only
      cases Params.ofBytes bytes with
      | error fault => rfl
      | ok stored =>
          cases stored with
          | none => rfl
          | some params =>
              simp only
              cases flash.clock.map Clock.wire.read with
              | none => rfl
              | some clock => cases clock <;> rfl

theorem saveClock_eq (clock : Clock) (flash : Flash) :
    saveClock clock flash = ⟨.ok (), { flash with clock := some clock.write }, []⟩ := by
  have hlength : clock.write.length ≤ 10 := Clock.within_wire clock
  rw [saveClock, if_neg (by simp only [capacity]; omega)]
  rfl

theorem save_eq (params : Params) (flash : Flash) :
    save params flash =
      ⟨.ok (), ⟨some params.toBytes, some params.clock.write⟩,
        [.notice (.flashSaved params.toBytes.length)]⟩ := by
  have hlength := params.length_toBytes_le
  rw [save, if_neg (by simp only [capacity]; omega)]
  simp only [Act.bind_apply, Act.modify_apply, saveClock_eq]
  rfl

theorem load_of_save {params : Params} (hmagic : params.magic = Params.magicWord) (clock : Clock) :
    (load ⟨some params.toBytes, some clock.write⟩).value = .ok (some { params with clock }) := by
  simp only [load, Act.bind_apply, Act.get_apply, Done.after_nil, Params.ofBytes_of_magic hmagic,
    Option.map_some, Clock.read_write]
  rfl

/-- The clock by itself counts. -/
theorem load_of_saveClock (clock : Clock) (flash : Flash) :
    (load { flash with clock := some clock.write }).value =
      (load flash).value.map (Option.map fun params => { params with clock }) := by
  simp only [load, Act.bind_apply, Act.get_apply, Done.after_nil]
  cases flash.params with
  | none => rfl
  | some bytes =>
      simp only
      cases Params.ofBytes bytes with
      | error fault => rfl
      | ok stored =>
          cases stored with
          | none => rfl
          | some params =>
              simp only [Option.map_some, Clock.read_write]
              cases flash.clock.map Clock.wire.read with
              | none => rfl
              | some read => cases read <;> rfl

end Flash

namespace Medium

/-- There is always room. -/
theorem value_save (params : Params) (medium : Medium) : (save params medium).value = .ok () := by
  cases medium with
  | memory stored => rfl
  | flash held => simp only [save, Flash.save_eq]

/-- What has been saved is loaded. -/
theorem load_of_save {params : Params} (hmagic : params.magic = Params.magicWord) (medium : Medium) :
    (load (save params medium).state).value = .ok (some params) := by
  cases medium with
  | memory stored => rfl
  | flash held =>
      simp only [save, load, Flash.save_eq]
      exact Flash.load_of_save hmagic params.clock

theorem value_saveClock (clock : Clock) (medium : Medium) :
    (saveClock clock medium).value = .ok () := by
  cases medium with
  | memory stored => rfl
  | flash held => simp only [saveClock, Flash.saveClock_eq]

theorem load_of_saveClock (clock : Clock) (medium : Medium) :
    (load (saveClock clock medium).state).value =
      (load medium).value.map (Option.map fun params => { params with clock }) := by
  cases medium with
  | memory stored => rfl
  | flash held =>
      simp only [load, saveClock, Flash.saveClock_eq]
      exact Flash.load_of_saveClock clock held

/-- The settings do not depend on the stored clock. -/
theorem adopting_saveClock (clock : Clock) (medium : Medium) (defaults : Settings) :
    defaults.adopting (load (saveClock clock medium).state).value =
      defaults.adopting (load medium).value := by
  rw [load_of_saveClock]
  cases (load medium).value with
  | error fault => rfl
  | ok stored => cases stored <;> rfl

theorem load_state (medium : Medium) : (load medium).state = medium := by
  cases medium with
  | memory stored => rfl
  | flash held =>
      simp only [load]
      rw [Flash.load_state]

end Medium

namespace Store

def settings (store : Store) (defaults : Settings) : Settings :=
  defaults.adopting (Medium.load store.medium).value

theorem call_cases {α : Type} (request : StoreCall) (work : Act Medium (Except StoreFault α))
    (store : Store) :
    (call request work store).state.verdict = store.verdict ∧
      ((∃ fault, store.verdict store.calls request = some fault ∧
          (call request work store).value = .error fault ∧
          (call request work store).state.medium = store.medium) ∨
        (store.verdict store.calls request = none ∧
          (call request work store).value = (work store.medium).value ∧
          (call request work store).state.medium = (work store.medium).state)) := by
  simp only [call, Act.bind_apply, Act.get_apply, Act.put_apply, Act.set_apply, Done.after_nil,
    Done.value_after, Done.state_after]
  cases hfault : store.verdict store.calls request with
  | some fault => exact ⟨rfl, .inl ⟨fault, rfl, rfl, rfl⟩⟩
  | none => exact ⟨rfl, .inr ⟨rfl, rfl, rfl⟩⟩

theorem load_of_none {store : Store} (h : store.verdict store.calls .load = none) :
    (load store).value = (Medium.load store.medium).value ∧
      (load store).state.verdict = store.verdict ∧ (load store).state.medium = store.medium := by
  obtain ⟨hverdict, ⟨fault, hrefused, -⟩ | ⟨-, hvalue, hmedium⟩⟩ :=
    call_cases .load Medium.load store
  · rw [h] at hrefused
    cases hrefused
  · exact ⟨hvalue, hverdict, hmedium.trans (Medium.load_state _)⟩

/-- Saving stores everything or, if it is refused, nothing. -/
theorem medium_save {params : Params} (hmagic : params.magic = Params.magicWord) (store : Store) :
    (store.verdict store.calls (.save params) = none ∧ (save params store).value = .ok () ∧
        (Medium.load (save params store).state.medium).value = .ok (some params)) ∨
      ∃ fault, store.verdict store.calls (.save params) = some fault ∧
        (save params store).value = .error fault ∧
        (save params store).state.medium = store.medium := by
  obtain ⟨-, ⟨fault, hrefused, hvalue, hmedium⟩ | ⟨htaken, hvalue, hmedium⟩⟩ :=
    call_cases (.save params) (Medium.save params) store
  · exact .inr ⟨fault, hrefused, hvalue, hmedium⟩
  · rw [save, hvalue, hmedium]
    exact .inl ⟨htaken, Medium.value_save params _, Medium.load_of_save hmagic _⟩

theorem medium_saveClock (clock : Clock) (store : Store) :
    (store.verdict store.calls (.saveClock clock) = none ∧
        (saveClock clock store).value = .ok () ∧
        (Medium.load (saveClock clock store).state.medium).value =
          (Medium.load store.medium).value.map (Option.map fun params => { params with clock })) ∨
      ∃ fault, store.verdict store.calls (.saveClock clock) = some fault ∧
        (saveClock clock store).value = .error fault ∧
        (saveClock clock store).state.medium = store.medium := by
  obtain ⟨-, ⟨fault, hrefused, hvalue, hmedium⟩ | ⟨htaken, hvalue, hmedium⟩⟩ :=
    call_cases (.saveClock clock) (Medium.saveClock clock) store
  · exact .inr ⟨fault, hrefused, hvalue, hmedium⟩
  · rw [saveClock, hvalue, hmedium]
    exact .inl ⟨htaken, Medium.value_saveClock clock _, Medium.load_of_saveClock clock _⟩

theorem save_cases {params : Params} (hmagic : params.magic = Params.magicWord) (store : Store) :
    (save params store).state.verdict = store.verdict ∧
      (((save params store).value = .ok () ∧
          ∀ defaults, (save params store).state.settings defaults = defaults.restored params) ∨
        ((∃ fault, (save params store).value = .error fault) ∧
          ∀ defaults, (save params store).state.settings defaults = store.settings defaults)) := by
  refine ⟨(call_cases (.save params) (Medium.save params) store).1, ?_⟩
  rcases medium_save hmagic store with ⟨-, hvalue, hload⟩ | ⟨fault, -, hvalue, hmedium⟩
  · refine .inl ⟨hvalue, fun defaults => ?_⟩
    rw [settings, hload]
    rfl
  · refine .inr ⟨⟨fault, hvalue⟩, fun defaults => ?_⟩
    rw [settings, hmedium, settings]

theorem settings_saveClock (clock : Clock) (store : Store) :
    (saveClock clock store).state.verdict = store.verdict ∧
      ∀ defaults, (saveClock clock store).state.settings defaults = store.settings defaults := by
  obtain ⟨hverdict, ⟨fault, -, -, hmedium⟩ | ⟨-, -, hmedium⟩⟩ :=
    call_cases (.saveClock clock) (Medium.saveClock clock) store
  · refine ⟨hverdict, fun defaults => ?_⟩
    exact congrArg (fun medium => defaults.adopting (Medium.load medium).value) hmedium
  · refine ⟨hverdict, fun defaults => ?_⟩
    simp only [settings, saveClock, hmedium]
    exact Medium.adopting_saveClock clock store.medium defaults

end Store

/-! ## What a central leaves -/

namespace Attribute

theorem settings_read (attr : Attribute) (now : Nat) :
    Act.Keeps State.settings (attr.read now) := by
  intro s
  by_cases hattr : attr = .unlock
  · subst hattr
    by_cases hlocked : s.lock.isLocked
    · obtain ⟨challenge, rng, h⟩ := read_unlock_of_locked hlocked now
      rw [h]
      rfl
    · rw [read_unlock_of_not_locked hlocked]
  · exact congrArg Setup.settings (setup_read hattr now s)

theorem settings_write_of_error {attr : Attribute} {offset : Nat} {data : Bytes} {now : Nat}
    {s : State} {fault : Fault} (h : (attr.write offset data now s).value = .error fault) :
    (attr.write offset data now s).state.settings = s.settings := by
  have houtcome := outcome_write attr offset data now s
  rw [h] at houtcome
  rcases houtcome.state_of_error with hstate | ⟨-, -, hstate⟩
  · rw [hstate]
  · rw [hstate]
    rfl

theorem sound_modifyActive {s t : State} {f : Slot → Slot}
    (hf : ∀ slot : Slot, slot.Sound → (f slot).Sound)
    (hsetup : t.setup = { s with slots := s.slots.modifyActive f }.setup)
    (hsound : s.slots.Sound) : t.slots.Sound := by
  refine State.sound_of_settings_eq (congrArg Setup.settings hsetup) ?_
  intro i
  change ((s.slots.modify s.slots.active f).table.value i).Sound
  rw [Slots.value_modify]
  split
  next => exact hf _ (hsound _)
  next => exact hsound i

theorem Outcome.sound {attr : Attribute} {data : Bytes} {s t : State}
    {result : Except Fault WriteEffect} (h : Outcome attr data s result t)
    (hsound : s.slots.Sound) : t.slots.Sound := by
  cases h with
  | refused fault => exact hsound
  | mistaken fault => exact hsound
  | unlocked token lock rng => exact hsound
  | locks lock => exact hsound
  | edited f heffect hedit hsetup => exact sound_modifyActive (fun _ => hedit.sound) hsetup hsound
  | moved i => exact hsound
  | connectable on => exact hsound
  | spared => exact hsound
  | reset slots identity rng hattr hdata hslots => exact Slots.sound_ofConfig hslots

end Attribute

/-! ## What is kept -/

namespace Device

/-- While no change waits to be saved, the store has the settings of the device. -/
structure Kept (config : Config) (d : Device) : Prop where
  loads : ∀ n, d.2.verdict n .load = none
  sound : d.1.state.slots.Sound
  saved : d.1.paramsDirty = false → ∀ slots, Slots.ofConfig config = .ok slots →
    d.2.settings (.factory config slots) = d.1.state.settings

namespace Kept

variable {config : Config} {d : Device}

/-- The engine may go on as long as it marks a change of its settings. -/
theorem withEngine (h : d.Kept config) {e : Engine} (hsound : e.state.slots.Sound)
    (hmarked : e.paramsDirty = false →
      d.1.paramsDirty = false ∧ e.state.settings = d.1.state.settings) : Kept config (e, d.2) where
  loads := h.loads
  sound := hsound
  saved hclean slots hslots := by
    obtain ⟨hbefore, hsettings⟩ := hmarked hclean
    exact (h.saved hbefore slots hslots).trans hsettings.symm

theorem onEngine {α : Type} (h : d.Kept config) {action : Act Engine α}
    (hkeeps : Act.Keeps Engine.marked action) : (Device.onEngine action d).state.Kept config := by
  have hmarked := hkeeps d.1
  have hsettings : (action d.1).state.state.settings = d.1.state.settings :=
    congrArg (fun marked => marked.1.settings) hmarked
  refine h.withEngine (State.sound_of_settings_eq hsettings h.sound) fun hclean => ⟨?_, hsettings⟩
  exact (congrArg Prod.snd hmarked).symm.trans hclean

theorem persist (h : d.Kept config) (now : Nat) : (Device.persist now d).state.Kept config := by
  have hmagic : (d.1.state.recorded now).snapshot.magic = Params.magicWord := rfl
  obtain ⟨hverdict, hcases⟩ := Store.save_cases hmagic d.2
  have hrecorded : (d.1.state.recorded now).settings = d.1.state.settings := rfl
  rcases persist_cases now d with ⟨hok, -, hstate⟩ | ⟨⟨fault, herror⟩, -, hstate⟩
  · rw [hstate]
    rcases hcases with ⟨-, hsettings⟩ | ⟨⟨fault, herror⟩, -⟩
    · refine ⟨fun n => hverdict ▸ h.loads n, h.sound, fun _ slots _ => ?_⟩
      exact (hsettings _).trans (State.restored_snapshot h.sound _)
    · rw [hok] at herror
      cases herror
  · rw [hstate]
    rcases hcases with ⟨hok, -⟩ | ⟨-, hsettings⟩
    · rw [hok] at herror
      cases herror
    · refine ⟨fun n => hverdict ▸ h.loads n, h.sound, fun hclean slots hslots => ?_⟩
      exact (hsettings _).trans (h.saved hclean slots hslots)

theorem saveIfDirty (h : d.Kept config) (now : Nat) :
    (Device.saveIfDirty now d).state.Kept config := by
  rw [saveIfDirty_state]
  split
  next => exact h.persist now
  next =>
    rcases saveClockIfDirty_cases d with ⟨-, hstate⟩ | ⟨-, hstate⟩
    · rw [hstate]
      exact h
    · rw [hstate]
      obtain ⟨hverdict, hsettings⟩ := Store.settings_saveClock d.1.state.clock d.2
      refine ⟨fun n => hverdict ▸ h.loads n, h.sound, fun hclean slots hslots => ?_⟩
      exact (hsettings _).trans (h.saved hclean slots hslots)

theorem radioEvent (h : d.Kept config) (event : RadioEvent) (now : Nat) :
    (Device.radioEvent event now d).state.Kept config := by
  rcases radioEvent_cases event now d with ⟨-, hstate⟩ | ⟨-, -, hstate⟩ | ⟨-, hstate⟩
  · rw [hstate]
    exact h.onEngine (Engine.marked_leaveMode.bind fun _ => Engine.marked_setMode .connected)
  · rw [hstate]
    exact (h.persist now).onEngine (Engine.marked_awaitResume now)
  · rw [hstate]
    exact h

theorem command (h : d.Kept config) (command : Command) (now : Nat) :
    (Device.command command now d).state.Kept config := by
  cases command with
  | startConfig => exact h.onEngine (Engine.marked_startConfig now)
  | startBeacon => exact h.onEngine (Engine.marked_startBeacon now)
  | stop => exact h.onEngine Engine.marked_stop
  | updateBattery millivolts => exact h.withEngine h.sound fun hclean => ⟨hclean, rfl⟩
  | updateTemperature temperature => exact h.withEngine h.sound fun hclean => ⟨hclean, rfl⟩
  | saveParams => exact h.persist now

theorem read (h : d.Kept config) (attr : Attribute) (now : Nat) :
    (Device.serve (.read attr now) d).state.Kept config := by
  have hmarked := Engine.marked_readAttribute attr now d.1
  have hsettings : (attr.read now d.1.state).state.settings = d.1.state.settings :=
    Attribute.settings_read attr now d.1.state
  exact h.withEngine (State.sound_of_settings_eq hsettings h.sound) fun hclean => ⟨hclean, hsettings⟩

/-- An accepted write marks the parameters as changed, and a refused one has not changed them. -/
theorem write (h : d.Kept config) (attr : Attribute) (offset : Nat) (data : Bytes) (now : Nat) :
    (Device.serve (.write attr offset data now) d).state.Kept config := by
  have hstate : (Device.serve (.write attr offset data now) d).state =
      ((Engine.writeAttribute attr offset data now d.1).state, d.2) := rfl
  rw [hstate]
  have hsetup := Engine.setup_writeAttribute attr offset data now d.1
  refine h.withEngine ?_ fun hclean => ?_
  · exact State.sound_of_settings_eq (congrArg Setup.settings hsetup)
      ((Attribute.outcome_write attr offset data now _).sound h.sound)
  · cases hwrite : (attr.write offset data now d.1.state).value with
    | error fault =>
        rw [(Engine.writeAttribute_of_error hwrite).2] at hclean ⊢
        exact ⟨hclean, Attribute.settings_write_of_error hwrite⟩
    | ok effect =>
        have hdirty : (Engine.writeAttribute attr offset data now d.1).state.paramsDirty = true :=
          congrArg Prod.snd (Engine.marked_writeAttribute_of_ok hwrite)
        rw [hdirty] at hclean
        cases hclean

theorem serve (h : d.Kept config) (request : Request) :
    (Device.serve request d).state.Kept config := by
  cases request with
  | read attr now => exact h.read attr now
  | write attr offset data now => exact h.write attr offset data now
  | poll now => exact h.onEngine (Engine.marked_poll now)
  | radioEvent event now => exact h.radioEvent event now
  | command command now => exact h.command command now
  | saveIfDirty now => exact h.saveIfDirty now

/-- A device that was started is set to what its store gives. -/
theorem booted {store : Store} (hloads : ∀ n, store.verdict n .load = none)
    (hbooted : Booted config store d) : d.Kept config := by
  obtain ⟨radio, slots, identity, rng, now, -, hslots, rfl⟩ := hbooted.exists_state
  obtain ⟨hvalue, hverdict, hmedium⟩ := Store.load_of_none (hloads store.calls)
  refine persist (d := (Engine.ofState radio _, _)) ⟨?_, ?_, ?_⟩ now
  · intro n
    rw [hverdict]
    exact hloads n
  · exact sound_adopted _ (Slots.sound_ofConfig hslots)
  · intro _ others hothers
    rw [hslots] at hothers
    cases hothers
    change Store.settings _ _ = (adopted _ _).settings
    rw [settings_adopted, hvalue, Store.settings, hmedium]
    rfl

end Kept

theorem Reachable.kept {config : Config} {store : Store} {d : Device}
    (hreach : Reachable config store d) (hloads : ∀ n, store.verdict n .load = none) :
    d.Kept config := by
  induction hreach with
  | boot hbooted => exact .booted hloads hbooted
  | serve request _ ih => exact ih.serve request
  | reboot _ hbooted ih => exact .booted ih.loads hbooted

theorem Reachable.flaw?_eq_none {config : Config} {store : Store} {d : Device}
    (hreach : Reachable config store d) : config.flaw? = none := by
  refine hreach.invariant (P := fun _ => config.flaw? = none) ?_ fun _ h => h
  intro store d hbooted
  obtain ⟨-, -, -, -, -, hflaw, -⟩ := hbooted.exists_state
  exact hflaw

/-- The device has the settings of another, no challenge, and every identifier is due. -/
structure RestartOf (before d : Device) : Prop where
  settings : d.1.state.settings = before.1.state.settings
  token : d.1.state.lock.token = none
  nextRotation : ∀ i, (d.1.state.slots.table.value i).nextRotation = 0

theorem nextRotation_adopted (loaded : Except StoreFault (Option Params)) (s : State)
    (i : SlotIndex) : ((adopted loaded s).slots.table.value i).nextRotation = 0 := by
  have hreset : ∀ slots : Slots, (slots.resetRotations.table.value i).nextRotation = 0 := by
    intro slots
    rw [Slots.resetRotations, Slots.mapSlots, PerSlot.value_map]
  cases loaded with
  | error fault => exact hreset _
  | ok stored => cases stored <;> exact hreset _

/-- A device that is started has no challenge, and every identifier is due. -/
theorem Booted.fresh {config : Config} {store : Store} {d : Device}
    (hbooted : Booted config store d) :
    d.1.paramsDirty = false ∧ d.1.state.lock.token = none ∧
      ∀ i, (d.1.state.slots.table.value i).nextRotation = 0 := by
  obtain ⟨radio, slots, identity, rng, now, -, -, rfl⟩ := hbooted.exists_state
  generalize hs : adopted (Store.load store).value _ = s
  have htoken : s.lock.token = none := by
    rw [← hs]
    exact lock_adopted _ rfl
  have hrotations : ∀ i, (s.slots.table.value i).nextRotation = 0 := by
    rw [← hs]
    exact nextRotation_adopted _ _
  rcases persist_cases now (Engine.ofState radio s, (Store.load store).state) with
    ⟨-, -, h⟩ | ⟨-, -, h⟩
  · rw [h]
    exact ⟨rfl, htoken, hrotations⟩
  · rw [h]
    exact ⟨rfl, htoken, hrotations⟩

/-- While no change waits to be saved, the device may lose power: starting it from its store works,
and brings back all its settings. -/
theorem restarts_as_saved {config : Config} {store : Store} {d : Device}
    (hloads : ∀ n, store.verdict n .load = none) (hreach : Reachable config store d)
    (hclean : d.1.paramsDirty = false) :
    (∀ radio seed now, ∃ engine, (boot radio config (some seed) now d.2).value = .ok engine) ∧
      ∀ d', Booted config d.2 d' → RestartOf d d' := by
  have hkept := hreach.kept hloads
  constructor
  · intro radio seed now
    obtain ⟨slots, identity, rng, -, hs⟩ :=
      State.ofConfig_of_sound hreach.flaw?_eq_none seed radio.minInterval radio.maxInterval
    exact ⟨_, (boot_of_ok hs now d.2).1⟩
  · intro d' hbooted
    obtain ⟨-, htoken, hrotations⟩ := hbooted.fresh
    refine ⟨?_, htoken, hrotations⟩
    obtain ⟨radio, slots, identity, rng, now, -, hslots, rfl⟩ := hbooted.exists_state
    obtain ⟨hvalue, -, -⟩ := Store.load_of_none (hkept.loads d.2.calls)
    have hpersisted := congrArg Setup.settings (setup_persist now
      (Engine.ofState radio (adopted (Store.load d.2).value
        (.factory config slots identity rng radio.minInterval radio.maxInterval)),
        (Store.load d.2).state))
    refine hpersisted.trans (Eq.trans ?_ (hkept.saved hclean slots hslots))
    change (adopted _ _).settings = _
    rw [settings_adopted, hvalue]
    rfl

/-- How often the slot that is active sends, before a central rearranges it and after, what it sends
then, and whether that has been saved. -/
def rearrangement (d : Device) : UInt16 × UInt16 × Option Frame × Bool :=
  let later := d.rearranged [0x03, 0xe8]
  (d.1.state.slots.activeSlot.interval, later.1.state.slots.activeSlot.interval,
    later.1.state.slots.activeSlot.frame, later.1.paramsDirty)

/-- A device that was rearranged, started again and rearranged anew may be started once more. -/
theorem restarts_after_rearranging :
    ∃ store start d, Booted Config.standard store start ∧
      Booted Config.standard (start.rearranged [0x01, 0x90]).2 d ∧
      d.rearrangement = (400, 1000, some (.tlm .initial), false) ∧
      ∀ d', Booted Config.standard (d.rearranged [0x03, 0xe8]).2 d' →
        RestartOf (d.rearranged [0x03, 0xe8]) d' := by
  obtain ⟨start, d, hstart, hbooted, hd⟩ :
      ∃ start d, Booted Config.standard ⟨.memory none, fun _ _ => none, 0⟩ start ∧
        Booted Config.standard (start.rearranged [0x01, 0x90]).2 d ∧
        d.rearrangement = (400, 1000, some (.tlm .initial), false) :=
    exists_rebooted_of_eq (.idle 100 10240 fun _ _ => none) (some (Octets.zero 32)) 0
      (rearranged [0x01, 0x90]) rearrangement (by decide +kernel)
  have hreach : Reachable Config.standard _ (d.rearranged [0x03, 0xe8]) :=
    (Reachable.reboot ((Reachable.boot hstart).rearranged _) hbooted).rearranged _
  have hclean : (d.rearranged [0x03, 0xe8]).1.paramsDirty = false :=
    congrArg (fun found => found.2.2.2) hd
  exact ⟨_, start, d, hstart, hbooted, hd, (restarts_as_saved (fun _ => rfl) hreach hclean).2⟩

end Device

end Beacon

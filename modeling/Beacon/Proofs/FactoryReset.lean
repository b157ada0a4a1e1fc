import Beacon.Proofs.Rejection
import Beacon.Proofs.Ringing
import Beacon.Proofs.Storing

/-!
# Factory resets

A factory reset and a first start make their defaults of the configuration, each
in its own way.  What has been written or restored before makes no difference: the
two are saved alike, and a beacon that was on air goes on with the slots of its
configuration.

Only an accepted write changes the settings.  Until the next one it is the defaults
that are saved, and to start from them is to start from an empty store.
-/

namespace Beacon

/-- How often the slot is broadcast as long as nothing but the configuration has set it. -/
def Config.interval? (config : Config) (i : SlotIndex) : Option UInt16 :=
  if config.slotIntervals.value i = 0 then none else some (config.slotIntervals.value i)

theorem Config.isSome_interval? (config : Config) (i : SlotIndex) :
    (config.interval? i).isSome = decide (config.slotIntervals.value i ≠ 0) := by
  unfold interval?
  split
  next hzero => exact (decide_eq_false (not_not.mpr hzero)).symm
  next hne => exact (decide_eq_true hne).symm

namespace State

variable {s : State}

/-- The state is saved like the fresh one, and nothing is outstanding from before. -/
structure AsNew (s fresh : State) : Prop where
  snapshot : s.snapshot = fresh.snapshot
  token : s.lock.token = none
  pendingAddress : s.pendingAddress = none
  clockDirty : s.clockDirty = false
  sealingCursor : s.sealingCursor = .first

theorem settings_lock (htoken : s.lock.token = none) : s.settings.lock = s.lock :=
  congrArg (Lock.mk s.lock.state s.lock.key) htoken.symm

theorem interval?_of_factory {config : Config} (hslots : Slots.ofConfig config = .ok s.slots)
    (i : SlotIndex) : s.interval? i = config.interval? i := by
  obtain ⟨hframe, hinterval, -⟩ := Slots.factorySlot_eq_ok (Slots.ofConfig_eq_ok hslots i)
  rw [interval?_eq_ite, Slot.isBroadcast, hframe, hinterval, Bool.true_and, Config.interval?]
  by_cases hzero : config.slotIntervals.value i = 0
  · simp [hzero]
  · simp [hzero]

end State

/-! ## The reset -/

namespace Attribute

variable {offset : Nat} {data : Bytes} {now : Nat} {s : State} {effect : WriteEffect}

/-- Nothing of the state survives a reset but its measurements and the events that wait. -/
theorem state_write_factoryReset
    (h : (Attribute.factoryReset.write offset data now s).value = .ok effect) (hdata : data ≠ [0]) :
    effect = .factoryReset ∧
      ∃ slots identity rng, Slots.ofConfig s.config = .ok slots ∧
        (Attribute.factoryReset.write offset data now s).state =
          { State.factory s.config slots identity rng s.minInterval s.maxInterval with
            telemetry := s.telemetry
            pendingEvents := s.pendingEvents } := by
  have hwrite := (write_of_ok h).2
  rw [hwrite, writeValue] at h ⊢
  rcases writeReset_cases data s with
    ⟨fault, hvalue, -⟩ | ⟨hzero, -⟩ | ⟨flag, slots, identity, rng, -, -, hslots, hvalue, hstate⟩
  · cases h.symm.trans hvalue
  · exact absurd hzero hdata
  · cases h.symm.trans hvalue
    exact ⟨rfl, slots, identity, rng, hslots, hstate⟩

/-- A reset state is saved like one that is made of the same configuration. -/
theorem asNew_write_factoryReset
    (h : (Attribute.factoryReset.write offset data now s).value = .ok effect) (hdata : data ≠ [0])
    (hflaw : s.config.flaw? = none) (seed : Octets 32) (minInterval maxInterval : UInt16) :
    ∃ fresh, State.ofConfig s.config (some seed) minInterval maxInterval = .ok fresh ∧
      (Attribute.factoryReset.write offset data now s).state.AsNew fresh := by
  obtain ⟨-, slots, identity, rng, hslots, hstate⟩ := state_write_factoryReset h hdata
  obtain ⟨others, identity', rng', hothers, hfresh⟩ :=
    State.ofConfig_of_sound hflaw seed minInterval maxInterval
  cases hslots.symm.trans hothers
  refine ⟨_, hfresh, ?_⟩
  rw [hstate]
  exact ⟨rfl, rfl, rfl, rfl, rfl⟩

end Attribute

namespace Engine

variable {e : Engine}

/-- The slots that the configuration has broadcast ring, or the engine is idle if there are none. -/
structure AirsConfig (config : Config) (now : Nat) (e : Engine) : Prop where
  mode : e.mode = if ∃ i : SlotIndex, config.slotIntervals.value i ≠ 0 then .beacon else .idle
  isArmed : ∀ i : SlotIndex, e.scheduler.isArmed i = decide (config.slotIntervals.value i ≠ 0)
  rung : ∀ i, e.scheduler.RungAt i now (config.interval? i)

theorem InPhase.airsConfig_startBeacon {config : Config} (hphase : e.InPhase)
    (hslots : Slots.ofConfig config = .ok e.state.slots) (now : Nat) :
    (Engine.startBeacon now e).state.AirsConfig config now := by
  have hinterval := State.interval?_of_factory hslots
  have hrung (i : SlotIndex) :
      (Engine.startBeacon now e).state.scheduler.RungAt i now (config.interval? i) := by
    rw [← hinterval]
    exact hphase.rungAt_startBeacon now i
  have hloud : ¬e.Silent ↔ ∃ i : SlotIndex, config.slotIntervals.value i ≠ 0 := by
    rw [Silent, not_forall]
    apply exists_congr
    intro i
    rw [hinterval, ← ne_eq, Option.ne_none_iff_isSome, Config.isSome_interval?, decide_eq_true_iff]
  refine ⟨?_, fun i => (hrung i).isArmed.trans (config.isSome_interval? i), hrung⟩
  by_cases hsilent : e.Silent
  · rw [if_neg (mt hloud.mpr (not_not.mpr hsilent))]
    exact (hphase.startBeacon_of_silent hsilent now).2.2.1
  · rw [if_pos (hloud.mp hsilent)]
    exact (hphase.startBeacon_of_not_silent hsilent now).2.mode

/-- A beacon on air that is reset goes on with the slots of its configuration. -/
theorem InPhase.airsConfig_writeAttribute (hphase : e.InPhase) (hmode : e.mode = .beacon)
    {offset : Nat} {data : Bytes} {now : Nat} {effect : WriteEffect}
    (h : (Attribute.factoryReset.write offset data now e.state).value = .ok effect)
    (hdata : data ≠ [0]) :
    (Engine.writeAttribute .factoryReset offset data now e).state.AirsConfig e.state.config now := by
  obtain ⟨rfl, slots, identity, rng, hslots, hstate⟩ := Attribute.state_write_factoryReset h hdata
  let written : Engine :=
    { e with
      state := (Attribute.factoryReset.write offset data now e.state).state
      paramsDirty := true }
  have hwritten : written.InPhase := (hphase.withState _ true).phase
  have hheld : Slots.ofConfig e.state.config = .ok written.state.slots := by
    rw [hslots]
    exact congrArg (fun s : State => Except.ok s.slots) hstate.symm
  have hfollow : (Engine.follow .factoryReset now written).state =
      (Engine.startBeacon now written).state := by
    simp only [Engine.follow, Act.bind_apply, Act.emit_apply, Act.get_apply, Done.after_nil,
      Done.state_after]
    rw [if_pos hmode, restart_state]
  have hairs := hwritten.airsConfig_startBeacon hheld now
  rw [(Engine.writeAttribute_of_ok h).2, hfollow]
  exact ⟨hairs.mode, hairs.isArmed, hairs.rung⟩

end Engine

/-! ## Saving the defaults -/

namespace Entry

/-- Only an accepted write changes the settings. -/
theorem settings_after {x : Entry} (hphase : x.before.1.InPhase) (hwrites : x.writes = false) :
    x.after.1.state.settings = x.before.1.state.settings := by
  refine (congrArg Setup.settings (setup_after hphase)).trans ?_
  obtain ⟨d, request⟩ := x
  cases request with
  | read attr now => exact Attribute.settings_read attr now d.1.state
  | write attr offset data now =>
      rw [writes_write] at hwrites
      cases hwrite : (attr.write offset data now d.1.state).value with
      | error fault => exact Attribute.settings_write_of_error hwrite
      | ok effect =>
          rw [hwrite] at hwrites
          cases hwrites
  | poll now => rfl
  | radioEvent event now => rfl
  | command command now => rfl
  | saveIfDirty now => rfl

/-- When everything is saved the store gets the settings, and otherwise it keeps those it has. -/
theorem Keeping.settings_stored {x : Entry} (h : x.Keeping) (hsound : x.before.1.state.slots.Sound)
    (defaults : Settings) :
    (x.SavesAll → x.after.2.settings defaults = x.before.1.state.settings) ∧
      (¬x.SavesAll → x.after.2.settings defaults = x.before.2.settings defaults) := by
  cases h with
  | still hstored _ hafter =>
      have hstore : x.after.2 = x.before.2 := congrArg Savings.store hafter
      rw [hstore]
      exact ⟨fun hall => absurd hall.saves (not_saves_of_still hstored), fun _ => rfl⟩
  | @whole params fault _ _ hparams hfault hstored hafter =>
      have hstore : x.after.2 = (Store.save params x.before.2).state :=
        congrArg Savings.store hafter
      have hall : x.SavesAll ↔ fault = none := by
        rw [SavesAll, hstored]
        simp [eq_comm]
      have hmagic : params.magic = Params.magicWord := by
        rw [hparams]
        rfl
      rw [hstore, hall]
      rcases Store.medium_save hmagic x.before.2 with
        ⟨htaken, -, hload⟩ | ⟨cause, hrefused, -, hmedium⟩
      · refine ⟨fun _ => ?_, fun hnot => absurd (hfault.trans htaken) hnot⟩
        rw [Store.settings, hload, hparams]
        exact State.restored_snapshot (s := x.before.1.state.recorded x.request.time) hsound defaults
      · have hne : fault ≠ none := by
          rw [hfault, Store.fault?, hrefused]
          exact Option.some_ne_none cause
        refine ⟨fun hnone => absurd hnone hne, fun _ => ?_⟩
        rw [Store.settings, hmedium, Store.settings]
  | @clock clock fault _ _ _ _ _ _ hstored hafter =>
      have hstore : x.after.2 = (Store.saveClock clock x.before.2).state :=
        congrArg Savings.store hafter
      have hnot : ¬x.SavesAll := by
        rw [SavesAll, hstored]
        simp
      rw [hstore]
      exact ⟨fun hall => absurd hall hnot,
        fun _ => (Store.settings_saveClock clock x.before.2).2 defaults⟩

end Entry

namespace Device

/-- While no write is accepted the settings stay, and once they have been saved they are what the
store gives. -/
theorem Reachable.settings_kept {config : Config} {store : Store} {start d : Device}
    {history : History} (hreach : Reachable config store start)
    (hsound : start.1.state.slots.Sound) (hrun : Run start history d)
    (hspared : ∀ x ∈ history, x.writes = false) :
    d.1.state.settings = start.1.state.settings ∧
      ((∃ x ∈ history, x.SavesAll) →
        ∀ defaults, d.2.settings defaults = start.1.state.settings) := by
  induction hrun with
  | start => exact ⟨rfl, fun ⟨x, hx, _⟩ => absurd hx List.not_mem_nil⟩
  | @serve history d request hrun ih =>
      let x : Entry := ⟨d, request⟩
      obtain ⟨hsettings, hsaved⟩ := ih fun y hy => hspared y (List.mem_append_left _ hy)
      have hreached := hreach.of_run hrun
      have hkeeping : x.Keeping := Entry.keeping hreached.inPhase hreached.pendingEvents
      have hstored := hkeeping.settings_stored (State.sound_of_settings_eq hsettings hsound)
      have hafter := Entry.settings_after (x := x) hreached.inPhase
        (hspared x (List.mem_append_right _ List.mem_cons_self))
      refine ⟨hafter.trans hsettings, ?_⟩
      rintro ⟨y, hy, hsaves⟩ defaults
      by_cases hall : x.SavesAll
      · exact ((hstored defaults).1 hall).trans hsettings
      · -- This request has not saved everything, so that one before it has.
        have hearlier : y ∈ history := by
          rcases List.mem_append.mp hy with hy | hy
          · exact hy
          · cases List.mem_singleton.mp hy
            exact absurd hsaves hall
        exact ((hstored defaults).2 hall).trans (hsaved ⟨y, hearlier, hsaves⟩ defaults)

/-- A device has the defaults of its configuration when that is what its store gives. -/
theorem Booted.settings_eq {config : Config} {store : Store} {d : Device} {slots : Slots}
    (hbooted : Booted config store d) (hslots : Slots.ofConfig config = .ok slots)
    (hstored : store.settings (.factory config slots) = .factory config slots) :
    d.1.state.settings = .factory config slots := by
  obtain ⟨others, identity, rng, minInterval, maxInterval, hothers, hsetup⟩ := hbooted.exists_setup
  cases hslots.symm.trans hothers
  refine (congrArg Setup.settings hsetup).trans ((settings_adopted _ _).trans ?_)
  obtain ⟨-, ⟨fault, -, hvalue, -⟩ | ⟨-, hvalue, -⟩⟩ := Store.call_cases .load Medium.load store
  · rw [Store.load, hvalue]
    rfl
  · rw [Store.load, hvalue]
    exact hstored

/-- Devices that have just been started with the same settings are alike. -/
theorem Booted.restartOf {config : Config} {store other : Store} {first d : Device}
    (hfirst : Booted config store first) (hbooted : Booted config other d)
    (hsettings : d.1.state.settings = first.1.state.settings) :
    RestartOf first d ∧ d.1.state.lock = first.1.state.lock := by
  obtain ⟨-, htoken, hrotations⟩ := hbooted.fresh
  refine ⟨⟨hsettings, htoken, hrotations⟩, ?_⟩
  calc d.1.state.lock
    _ = d.1.state.settings.lock := (State.settings_lock htoken).symm
    _ = first.1.state.settings.lock := congrArg Settings.lock hsettings
    _ = first.1.state.lock := State.settings_lock hfirst.fresh.2.1

/-- When everything has been saved after a reset, and no write has been accepted since the reset, the
store gives the defaults. -/
theorem defaults_stored {config : Config} {store : Store} {d d' : Device}
    (hreach : Reachable config store d) {offset : Nat} {data : Bytes} {now : Nat}
    {effect : WriteEffect}
    (haccepted : (Attribute.factoryReset.write offset data now d.1.state).value = .ok effect)
    (hdata : data ≠ [0]) {history : History}
    (hrun : Run (serve (.write .factoryReset offset data now) d).state history d')
    (hspared : ∀ x ∈ history, x.writes = false) (hsaves : ∃ x ∈ history, x.SavesAll)
    {slots : Slots} (hslots : Slots.ofConfig config = .ok slots) :
    d'.2.settings (.factory config slots) = .factory config slots := by
  obtain ⟨-, others, identity, rng, hothers, hstate⟩ :=
    Attribute.state_write_factoryReset haccepted hdata
  rw [hreach.config_eq] at hothers hstate
  cases hslots.symm.trans hothers
  have hsettings : (serve (.write .factoryReset offset data now) d).state.1.state.settings =
      .factory config slots :=
    (congrArg Setup.settings (Engine.setup_writeAttribute .factoryReset offset data now d.1)).trans
      (congrArg State.settings hstate)
  have hsound : (serve (.write .factoryReset offset data now) d).state.1.state.slots.Sound :=
    State.sound_of_settings_eq (s := .factory config slots identity rng 0 0) hsettings
      (Slots.sound_ofConfig hslots)
  have hserved : Reachable config store (serve (.write .factoryReset offset data now) d).state :=
    .serve _ hreach
  exact ((hserved.settings_kept hsound hrun hspared).2 hsaves _).trans hsettings

/-- A factory reset equals a first start.  The state is saved like a new one, a beacon on air goes on
with the slots of its configuration, and once everything has been saved the device starts as it does
from an empty store. -/
theorem reset_equals_first_start {config : Config} {store : Store} {d : Device}
    (hreach : Reachable config store d) {offset : Nat} {data : Bytes} {now : Nat}
    {effect : WriteEffect}
    (haccepted : (Attribute.factoryReset.write offset data now d.1.state).value = .ok effect)
    (hdata : data ≠ [0]) :
    let reset := (Attribute.factoryReset.write offset data now d.1.state).state
    let after := (serve (.write .factoryReset offset data now) d).state
    (∀ seed minInterval maxInterval, ∃ fresh,
        State.ofConfig config (some seed) minInterval maxInterval = .ok fresh ∧
          reset.AsNew fresh) ∧
      (d.1.mode = .beacon → after.1.AirsConfig config now) ∧
      ∀ history d', Run after history d' → (∀ x ∈ history, x.writes = false) →
        (∃ x ∈ history, x.SavesAll) →
          (∀ radio seed later, ∃ engine,
              (boot radio config (some seed) later d'.2).value = .ok engine) ∧
            ∀ empty first rebooted, (Medium.load empty.medium).value = .ok none →
              Booted config empty first → Booted config d'.2 rebooted →
                RestartOf first rebooted ∧ rebooted.1.state.lock = first.1.state.lock := by
  intro reset after
  have hconfig := hreach.config_eq
  have hflaw := hreach.flaw?_eq_none
  refine ⟨fun seed minInterval maxInterval => ?_, fun hmode => ?_, ?_⟩
  · have hnew := Attribute.asNew_write_factoryReset haccepted hdata (hconfig ▸ hflaw) seed
      minInterval maxInterval
    rwa [hconfig] at hnew
  · have hairs := hreach.inPhase.airsConfig_writeAttribute hmode haccepted hdata
    rwa [hconfig] at hairs
  · intro history d' hrun hspared hsaves
    constructor
    · intro radio seed later
      obtain ⟨slots, identity, rng, -, hs⟩ :=
        State.ofConfig_of_sound hflaw seed radio.minInterval radio.maxInterval
      exact ⟨_, (boot_of_ok hs later d'.2).1⟩
    · intro empty first rebooted hempty hfirst hrebooted
      obtain ⟨slots, hslots⟩ := Slots.ofConfig_ok (Config.sound_of_flaw? hflaw)
      have hstored := defaults_stored hreach haccepted hdata hrun hspared hsaves hslots
      have hnothing : empty.settings (.factory config slots) = .factory config slots := by
        rw [Store.settings, hempty]
        rfl
      have hsettings := (hrebooted.settings_eq hslots hstored).trans
        (hfirst.settings_eq hslots hnothing).symm
      exact hfirst.restartOf hrebooted hsettings

/-- A beacon on air one of whose slots has been silenced. -/
theorem exists_silenced :
    ∃ start history d, Booted paired ⟨.memory none, fun _ _ => none, 0⟩ start ∧
      Run start history d ∧ d.1.mode = .beacon ∧ d.1.scheduler.isArmed 1 = false ∧
      ¬d.1.state.lock.isLocked := by
  have hstart : ∃ start, Booted paired ⟨.memory none, fun _ _ => none, 0⟩ start ∧
      ((silencing start).1.mode, (silencing start).1.scheduler.isArmed 1,
        (silencing start).1.state.lock.isLocked) = (.beacon, false, false) :=
    exists_booted_of_eq (.idle 100 10240 fun _ _ => none) (some (Octets.zero 32)) 0
      (fun start => ((silencing start).1.mode, (silencing start).1.scheduler.isArmed 1,
        (silencing start).1.state.lock.isLocked)) (by decide +kernel)
  obtain ⟨start, hbooted, hsilenced⟩ := hstart
  obtain ⟨history, hrun⟩ := run_silencing start
  simp only [Prod.mk.injEq] at hsilenced
  obtain ⟨hmode, harmed, hopen⟩ := hsilenced
  exact ⟨start, history, _, hbooted, hrun, hmode, harmed, Bool.eq_false_iff.mp hopen⟩

/-- A slot that has been silenced is armed again by a reset, and after a save and a restart it is as
it was at first. -/
theorem silenced_slot_reset :
    ∃ start history d rebooted, Booted paired ⟨.memory none, fun _ _ => none, 0⟩ start ∧
      Run start history d ∧ d.1.mode = .beacon ∧ d.1.scheduler.isArmed 1 = false ∧
      let after := (serve (.write .factoryReset 0 [1] 200) d).state
      let saved := (serve (.saveIfDirty 300) after).state
      after.1.scheduler.isArmed 1 = true ∧ Booted paired saved.2 rebooted ∧
        RestartOf start rebooted := by
  obtain ⟨start, history, d, hbooted, hrun, hmode, hsilenced, hopen⟩ := exists_silenced
  have hreach := (Reachable.boot hbooted).of_run hrun
  have hsound : d.1.state.config.Sound := by
    rw [hreach.config_eq]
    exact Config.sound_of_flaw? hreach.flaw?_eq_none
  have haccepted := Attribute.write_factoryReset_of_sound hopen hsound
    (by decide : (1 : UInt8) ≠ 0) 200
  obtain ⟨-, hairs, hsaved⟩ := reset_equals_first_start hreach haccepted (by decide)
  let after := (serve (.write .factoryReset 0 [1] 200) d).state
  let x : Entry := ⟨after, .saveIfDirty 300⟩
  have hall : x.SavesAll := by
    have hdirty : after.1.paramsDirty = true :=
      congrArg Prod.snd (Engine.marked_writeAttribute_of_ok haccepted)
    have hverdict : after.2.verdict = fun _ _ => none :=
      verdict_of_run hbooted (hrun.serve (.write .factoryReset 0 [1] 200))
    refine ⟨after.whole 300, ?_⟩
    rw [Entry.output_saveIfDirty, saveIfDirty_of_dirty hdirty, stored_persist, Store.fault?, hverdict]
    exact List.mem_singleton_self _
  obtain ⟨hstarts, hequal⟩ := hsaved [x] _ (Run.start.serve (.saveIfDirty 300))
    (fun y hy => by rw [List.mem_singleton.mp hy]; rfl) ⟨x, List.mem_singleton_self x, hall⟩
  obtain ⟨engine, hengine⟩ := hstarts (.idle 100 10240 fun _ _ => none) (Octets.zero 32) 400
  have hrebooted : Booted paired x.after.2 (engine, _) := ⟨_, _, _, engine, hengine, rfl⟩
  exact ⟨start, history, d, _, hbooted, hrun, hmode, hsilenced, (hairs hmode).isArmed 1, hrebooted,
    (hequal _ start _ rfl hbooted hrebooted).1⟩

end Device

end Beacon

import Beacon.Proofs.Booting
import Beacon.Proofs.ConfigAdvert
import Beacon.Proofs.Firing

/-!
# Whether the mode tells the truth

A device that says it beacons should be on air, and one that says it is in
configuration mode should have a timer that ends it.  This fails after one event
only: entering configuration mode leaves the old mode before the radio is asked,
and if the radio refuses, the old mode is still the one that is reported.

What brings the mode back to the truth can be read off the history as well.
-/

namespace Beacon

namespace Engine

/-- The mode says what the timers will do. -/
structure Truthful (e : Engine) : Prop where
  beacon : e.mode = .beacon ↔ e.scheduler.running = true
  config : e.mode = .config → ∃ t ∈ e.scheduler.timers.pending, t.task = .configTimeout

/-- Off air and without a timer in a mode that has both. -/
structure Torn (e : Engine) : Prop where
  quiet : e.Quiet
  mode : e.mode = .config ∨ e.mode = .beacon

theorem InPhase.truthful_iff {e : Engine} (hphase : e.InPhase) : e.Truthful ↔ ¬e.Torn := by
  constructor
  · rintro htruthful ⟨hquiet, hmode | hmode⟩
    · obtain ⟨t, ht, -⟩ := htruthful.config hmode
      rw [hquiet.pending] at ht
      cases ht
    · have hrunning := htruthful.beacon.mp hmode
      rw [hquiet.atRest.running] at hrunning
      cases hrunning
  · intro htorn
    cases hphase with
    | quiet h =>
        have hmode : e.mode ≠ .config ∧ e.mode ≠ .beacon :=
          not_or.mp fun hmode => htorn ⟨h, hmode⟩
        refine ⟨?_, fun hconfig => absurd hconfig hmode.1⟩
        rw [h.atRest.running]
        simp [hmode.2]
    | configuring h =>
        refine ⟨?_, fun _ => ⟨_, by rw [h.pending]; exact .head _, h.task⟩⟩
        rw [h.mode, h.atRest.running]
        simp
    | pausing h =>
        refine ⟨?_, fun hconfig => ?_⟩
        · rw [h.mode, h.atRest.running]
          simp
        · rw [h.mode] at hconfig
          cases hconfig
    | beaconing h =>
        refine ⟨?_, fun hconfig => ?_⟩
        · rw [h.mode, h.running]
          simp
        · rw [h.mode] at hconfig
          cases hconfig

/-- In one of its phases, with a mode that tells the truth. -/
structure Honest (e : Engine) : Prop where
  phase : e.InPhase
  notTorn : ¬e.Torn

theorem Configuring.honest {e : Engine} {t : Timer} (h : e.Configuring t) : e.Honest where
  phase := .configuring h
  notTorn htorn := by
    have hpending := htorn.quiet.pending
    rw [h.pending] at hpending
    cases hpending

theorem Pausing.honest {e : Engine} {t : Timer} (h : e.Pausing t) : e.Honest where
  phase := .pausing h
  notTorn htorn := by
    have hpending := htorn.quiet.pending
    rw [h.pending] at hpending
    cases hpending

theorem Beaconing.honest {e : Engine} (h : e.Beaconing) : e.Honest where
  phase := .beaconing h
  notTorn htorn := by
    have hrunning := h.running
    rw [htorn.quiet.atRest.running] at hrunning
    cases hrunning

theorem Quiet.honest {e : Engine} (h : e.Quiet) (hconfig : e.mode ≠ .config)
    (hbeacon : e.mode ≠ .beacon) : e.Honest where
  phase := .quiet h
  notTorn htorn := htorn.mode.elim hconfig hbeacon

/-! ## Operations of the engine -/

theorem InPhase.startBeacon {e : Engine} (hphase : e.InPhase) (now : Nat) :
    (startBeacon now e).state.Honest := by
  by_cases hsilent : e.Silent
  · obtain ⟨-, hquiet, hmode, -⟩ := hphase.startBeacon_of_silent hsilent now
    exact hquiet.honest (by simp [hmode]) (by simp [hmode])
  · exact (hphase.startBeacon_of_not_silent hsilent now).2.honest

theorem InPhase.startBeaconOrConfig {e : Engine} (hphase : e.InPhase) (now : Nat) :
    (startBeaconOrConfig now e).state.Honest := by
  by_cases hsilent : e.Silent
  · rcases (hphase.startBeaconOrConfig_of_silent hsilent now).2 with
      ⟨-, hquiet, hmode⟩ | ⟨-, -, t, ht, -⟩
    · exact hquiet.honest (by simp [hmode]) (by simp [hmode])
    · exact ht.honest
  · obtain ⟨hvalue, hbeaconing⟩ := hphase.startBeacon_of_not_silent hsilent now
    rw [startBeaconOrConfig_state, hvalue]
    exact hbeaconing.honest

/-- What is known of the phase after something was done to an engine that may have been torn. -/
structure Leaves (e : Engine) (torn : Prop) : Prop where
  phase : e.InPhase
  torn_iff : e.Torn ↔ torn

theorem InPhase.leaves {e : Engine} (h : e.InPhase) : e.Leaves e.Torn :=
  ⟨h, Iff.rfl⟩

theorem Honest.leaves {e : Engine} (h : e.Honest) {torn : Prop} (hnot : ¬torn) : e.Leaves torn :=
  ⟨h.phase, iff_of_false h.notTorn hnot⟩

theorem Leaves.congr {e : Engine} {torn torn' : Prop} (h : e.Leaves torn) (hiff : torn ↔ torn') :
    e.Leaves torn' := by
  constructor
  · exact h.phase
  · exact h.torn_iff.trans hiff

theorem InPhase.withState {e : Engine} (hphase : e.InPhase) (state : State) (dirty : Bool) :
    { e with state, paramsDirty := dirty }.Leaves e.Torn := by
  refine ⟨?_, ⟨fun h => ⟨⟨h.1.1, h.1.2, h.1.3, h.1.4⟩, h.2⟩,
    fun h => ⟨⟨h.1.1, h.1.2, h.1.3, h.1.4⟩, h.2⟩⟩⟩
  cases hphase with
  | quiet h => exact .quiet ⟨h.1, h.2, h.3, h.4⟩
  | configuring h => exact .configuring ⟨h.1, h.2, h.3, h.4, h.5, h.6, h.7⟩
  | pausing h => exact .pausing ⟨h.1, h.2, h.3, h.4, h.5, h.6, h.7⟩
  | beaconing h => exact .beaconing ⟨h.1, h.2, h.3, h.4, h.5⟩

theorem Leaves.withState {e : Engine} {torn : Prop} (h : e.Leaves torn) (state : State)
    (dirty : Bool) : { e with state, paramsDirty := dirty }.Leaves torn := by
  have hleaves := h.phase.withState state dirty
  exact ⟨hleaves.phase, hleaves.torn_iff.trans h.torn_iff⟩

/-- Firing keeps an honest engine honest and leaves a torn one as it is. -/
theorem InPhase.fireOne {e : Engine} (hphase : e.InPhase) (now : Nat) :
    (Engine.fireOne now e).state.Leaves e.Torn := by
  have hwaiting : ∀ {t}, e.Waiting t → ¬e.Torn → (Engine.fireOne now e).state.Leaves e.Torn := by
    intro t hwaiting hnot
    by_cases hdue : t.deadline ≤ now
    · obtain ⟨q, hquiet, -, -, -, hstate⟩ := hwaiting.fireOne_of_le hdue
      rw [hstate]
      exact ((InPhase.quiet hquiet).startBeaconOrConfig now).leaves hnot
    · rw [hwaiting.fireOne_of_lt (Nat.lt_of_not_le hdue)]
      exact hphase.leaves
  cases hphase with
  | quiet h =>
      rw [h.fireOne]
      exact ⟨.quiet h, Iff.rfl⟩
  | configuring h => exact hwaiting (.inl h) h.honest.notTorn
  | pausing h => exact hwaiting (.inr h) h.honest.notTorn
  | beaconing h => exact (h.fireOne now).honest.leaves h.honest.notTorn

theorem InPhase.poll {e : Engine} (hphase : e.InPhase) (now : Nat) :
    (Engine.poll now e).state.Leaves e.Torn := by
  have hgather : (Act.gather (Engine.fireOne now) e).state.Leaves e.Torn := by
    refine Act.gather_invariant (P := fun t : Engine => t.Leaves e.Torn) ?_ ⟨hphase, Iff.rfl⟩
    intro t ht
    have hfire := ht.phase.fireOne now
    exact ⟨hfire.phase, hfire.torn_iff.trans ht.torn_iff⟩
  exact hgather.withState _ _

theorem Quiet.setMode {e : Engine} (hquiet : e.Quiet) (mode : Mode) :
    (Engine.setMode mode e).state.Quiet ∧ (Engine.setMode mode e).state.mode = mode := by
  rw [setMode_state]
  exact ⟨⟨hquiet.1, hquiet.2, hquiet.3, hquiet.4⟩, rfl⟩

theorem InPhase.stop {e : Engine} (hphase : e.InPhase) : (Engine.stop e).state.Honest := by
  obtain ⟨hquiet, hmode⟩ := hphase.leaveMode.setMode .idle
  change (Engine.setMode .idle (Engine.leaveMode e).state).state.Honest
  exact hquiet.honest (by simp [hmode]) (by simp [hmode])

/-- Entering configuration mode tears a mode down just when the radio refuses. -/
theorem InPhase.startConfig {e : Engine} (hphase : e.InPhase) (now : Nat) :
    (Engine.startConfig now e).state.Leaves
      (((e.mode = .config ∨ e.mode = .beacon) ∧
          ∃ fault, (Engine.startConfig now e).value = .error (.radio fault)) ∨
        (e.Torn ∧ (Engine.startConfig now e).value ≠ .ok ())) := by
  cases hadvert : configAdvert e.state with
  | error fault =>
      rw [startConfig_of_error hadvert]
      refine ⟨hphase, ⟨fun htorn => .inr ⟨htorn, by simp⟩, ?_⟩⟩
      rintro (⟨-, radioFault, h⟩ | ⟨htorn, -⟩)
      · cases h
        exact absurd hadvert (configAdvert_ne_radio _ _)
      · exact htorn
  | ok advert =>
      obtain ⟨scan, payload⟩ := advert
      obtain ⟨-, ⟨-, hvalue, hquiet, hmode⟩ | ⟨-, hvalue, -, t, ht, -⟩⟩ :=
        hphase.startConfig_cases hadvert now
      · refine ⟨.quiet hquiet, ⟨fun htorn => .inl ⟨hmode ▸ htorn.mode, hvalue⟩, ?_⟩⟩
        rintro (⟨hbefore, -⟩ | ⟨htorn, -⟩)
        · exact ⟨hquiet, hmode ▸ hbefore⟩
        · exact ⟨hquiet, hmode ▸ htorn.mode⟩
      · refine ht.honest.leaves ?_
        rw [hvalue]
        simp

theorem InPhase.rearm {e : Engine} (hphase : e.InPhase) (slot now : Nat) :
    (Engine.rearm slot now e).state.Leaves e.Torn := by
  simp only [Engine.rearm, Act.bind_apply, Act.get_apply, Done.after_nil]
  split
  next hmode =>
    cases hphase with
    | quiet h =>
        have hsame : (Scheduler.rearm e.state slot now e.scheduler).state = e.scheduler := by
          rcases Scheduler.rearm_cases e.state slot now e.scheduler with heq | ⟨i, hrunning, -⟩
          · exact heq
          · rw [h.atRest.running] at hrunning
            cases hrunning
        simp only [onScheduler, Act.within_apply, hsame]
        exact ⟨.quiet h, Iff.rfl⟩
    | configuring h =>
        rw [h.mode] at hmode
        cases hmode
    | pausing h =>
        rw [h.mode] at hmode
        cases hmode
    | beaconing h =>
        have hbeaconing :
            (onScheduler (Scheduler.rearm e.state slot now) e).state.Beaconing :=
          ⟨h.mode, (Scheduler.running_rearm e.state slot now e.scheduler).trans h.running,
            h.coherent.rearm slot now e.state, h.configTimer, h.resumeTimer⟩
        exact hbeaconing.honest.leaves h.honest.notTorn
  next => exact hphase.leaves

theorem InPhase.follow {e : Engine} (hphase : e.InPhase) (effect : WriteEffect) (now : Nat) :
    (Engine.follow effect now e).state.Leaves
      (e.Torn ∧ ¬(effect = .factoryReset ∧ e.mode = .beacon)) := by
  cases effect with
  | none => exact hphase.leaves.congr (by simp)
  | lock state => exact hphase.leaves.congr (by simp)
  | intervalChanged slot => exact (hphase.rearm slot now).congr (by simp)
  | slotChanged slot => exact (hphase.rearm slot now).congr (by simp)
  | factoryReset =>
      simp only [Engine.follow, Act.bind_apply, Act.emit_apply, Act.get_apply, Done.after_nil,
        Done.state_after]
      split
      next hmode =>
        rw [restart_state]
        exact (hphase.startBeacon now).leaves (by simp [hmode])
      next hmode => exact hphase.leaves.congr (by simp [hmode])

/-- Only an accepted factory reset of a beaconing engine changes whether the mode is true. -/
theorem InPhase.writeAttribute {e : Engine} (hphase : e.InPhase) (attr : Attribute) (offset : Nat)
    (data : Bytes) (now : Nat) :
    (Engine.writeAttribute attr offset data now e).state.Leaves
      (e.Torn ∧ ¬(attr = .factoryReset ∧ data ≠ [0] ∧ e.mode = .beacon ∧
        (Engine.writeAttribute attr offset data now e).value = .ok ())) := by
  cases hwrite : (attr.write offset data now e.state).value with
  | error fault =>
      obtain ⟨hvalue, hstate⟩ := writeAttribute_of_error hwrite
      rw [hstate, hvalue]
      exact (hphase.withState _ _).congr (by simp)
  | ok effect =>
      obtain ⟨hvalue, hstate⟩ := writeAttribute_of_ok hwrite
      have hwritten := hphase.withState (attr.write offset data now e.state).state true
      have hfollow := hwritten.phase.follow effect now
      rw [hstate, hvalue]
      refine (hfollow.withState _ _).congr ?_
      rw [hwritten.torn_iff, Attribute.effect_eq_factoryReset_iff hwrite]
      simp [and_assoc]

theorem Quiet.honest_awaitResume {e : Engine} (hquiet : e.Quiet) (now : Nat) :
    (awaitResume now e).state.Honest := by
  let delay := e.state.config.resumeDelay.toNat
  let waiting : Engine :=
    { e with
      scheduler.timers := e.scheduler.timers.posted (now + delay) none .resumeBeacon
      resumeTimer := some e.scheduler.timers.nextId }
  have hstate : (awaitResume now e).state = (Engine.setMode .idle waiting).state := by
    simp only [awaitResume, Act.bind_apply, Act.get_apply, Act.modify_apply, Done.after_nil,
      hquiet.onTimers_postIn, waiting, delay]
  have hpausing : (Engine.setMode .idle waiting).state.Pausing
      ⟨e.scheduler.timers.nextId, now + delay, none, .resumeBeacon⟩ := by
    rw [Engine.setMode_state]
    exact ⟨rfl, ⟨hquiet.atRest.slotTimers, hquiet.atRest.manager, hquiet.atRest.queue,
      hquiet.atRest.running⟩, hquiet.pending_posted _ _ _, rfl, rfl, hquiet.configTimer, rfl⟩
  rw [hstate]
  exact hpausing.honest

theorem InPhase.quiet_of_connected {e : Engine} (hphase : e.InPhase)
    (hmode : e.mode = .connected) : e.Quiet := by
  cases hphase with
  | quiet h => exact h
  | configuring h =>
      rw [h.mode] at hmode
      cases hmode
  | pausing h =>
      rw [h.mode] at hmode
      cases hmode
  | beaconing h =>
      rw [h.mode] at hmode
      cases hmode

end Engine

theorem Device.honest_pause {d : Device} (hquiet : d.1.Quiet) (now : Nat) :
    (pause now d).state.1.Honest := by
  have hpersist : (persist now d).state.1.Quiet := by
    obtain ⟨state, dirty, h⟩ := engine_persist now d
    rw [h]
    exact ⟨hquiet.1, hquiet.2, hquiet.3, hquiet.4⟩
  exact hpersist.honest_awaitResume now

namespace Entry

/-- Entering configuration mode out of a mode that has something on air, refused by the radio. -/
def TearsDown (x : Entry) : Prop :=
  (x.before.1.mode = .config ∨ x.before.1.mode = .beacon) ∧
    (∃ now, x.request = .command .startConfig now) ∧
    ∃ fault, x.answer = .done (.error (.radio fault))

/-- Something that enters a mode anew, or leaves all of them. -/
def Reenters (x : Entry) : Prop :=
  match x.request with
  | .command .startConfig _ => x.answer = .done (.ok ())
  | .command .startBeacon _ => True
  | .command .stop _ => True
  | .radioEvent .connected _ => True
  | .write .factoryReset _ data _ =>
    data ≠ [0] ∧ x.before.1.mode = .beacon ∧ x.answer = .done (.ok ())
  | _ => False

theorem reenters_write {d : Device} {attr : Attribute} {offset : Nat} {data : Bytes} {now : Nat} :
    Reenters ⟨d, .write attr offset data now⟩ ↔
      attr = .factoryReset ∧ data ≠ [0] ∧ d.1.mode = .beacon ∧
        (Engine.writeAttribute attr offset data now d.1).value = .ok () := by
  have hanswer : Entry.answer ⟨d, .write attr offset data now⟩ =
      .done (Engine.writeAttribute attr offset data now d.1).value := rfl
  cases attr <;> simp [Reenters, hanswer]

/-- The phase after a request. -/
theorem leaves {x : Entry} (hphase : x.before.1.InPhase) :
    x.after.1.Leaves (x.TearsDown ∨ (x.before.1.Torn ∧ ¬x.Reenters)) := by
  obtain ⟨d, request⟩ := x
  have hother : (∀ now, request ≠ .command .startConfig now) →
      ¬Entry.TearsDown ⟨d, request⟩ := by
    rintro hrequest ⟨-, ⟨now, h⟩, -⟩
    exact hrequest now h
  cases request with
  | read attr now =>
      have hnot := hother (by simp)
      exact (hphase.withState _ d.1.paramsDirty).congr (by simp [hnot, Reenters])
  | write attr offset data now =>
      have hnot := hother (by simp)
      refine (hphase.writeAttribute attr offset data now).congr ?_
      rw [reenters_write]
      simp [hnot]
  | poll now =>
      have hnot := hother (by simp)
      exact (hphase.poll now).congr (by simp [hnot, Reenters])
  | radioEvent event now =>
      have hnot := hother (by simp)
      rcases Device.radioEvent_cases event now d with
        ⟨rfl, hstate⟩ | ⟨rfl, hmode, hstate⟩ | ⟨hevent, hstate⟩
      · obtain ⟨hquiet, hmode⟩ := hphase.leaveMode.setMode .connected
        have hhonest := hquiet.honest (by simp [hmode]) (by simp [hmode])
        change (Device.radioEvent .connected now d).state.1.Leaves _
        rw [hstate]
        exact hhonest.leaves (by simp [hnot, Reenters])
      · change (Device.radioEvent .disconnected now d).state.1.Leaves _
        rw [hstate]
        refine (Device.honest_pause (hphase.quiet_of_connected hmode) now).leaves ?_
        rintro (h | ⟨htorn, -⟩)
        · exact hnot h
        · have hclaims := htorn.mode
          change d.1.mode = _ ∨ d.1.mode = _ at hclaims
          simp [hmode] at hclaims
      · change (Device.radioEvent event now d).state.1.Leaves _
        rw [hstate]
        refine hphase.leaves.congr ?_
        cases event with
        | connected => exact absurd rfl hevent
        | _ => simp [hnot, Reenters]
  | command command now =>
      cases command with
      | startConfig =>
          have hanswer : Entry.answer ⟨d, .command .startConfig now⟩ =
              .done (Engine.startConfig now d.1).value := rfl
          refine (hphase.startConfig now).congr ?_
          simp [TearsDown, Reenters, hanswer]
      | startBeacon => exact (hphase.startBeacon now).leaves (by simp [hother, Reenters])
      | stop => exact hphase.stop.leaves (by simp [hother, Reenters])
      | updateBattery millivolts =>
          exact (hphase.withState _ d.1.paramsDirty).congr (by simp [hother, Reenters])
      | updateTemperature temperature =>
          exact (hphase.withState _ d.1.paramsDirty).congr (by simp [hother, Reenters])
      | saveParams =>
          obtain ⟨state, dirty, hstate⟩ := Device.engine_persist now d
          change (Device.persist now d).state.1.Leaves _
          rw [hstate]
          exact (hphase.withState state dirty).congr (by simp [hother, Reenters])
  | saveIfDirty now =>
      obtain ⟨state, dirty, hstate⟩ := Device.engine_saveIfDirty now d
      change (Device.saveIfDirty now d).state.1.Leaves _
      rw [hstate]
      exact (hphase.withState state dirty).congr (by simp [hother, Reenters])

end Entry

/-! ## Whole runs -/

/-- A mode was torn down and none has been entered since. -/
def History.TornDown : History → Prop :=
  History.Since Entry.TearsDown Entry.Reenters

/-- Of its scheduler, a device that was started has the radio alone. -/
theorem Device.Booted.exists_radio {config : Config} {store : Store} {d : Device}
    (hbooted : Booted config store d) :
    ∃ radio state dirty, d.1 = { Engine.ofState radio state with paramsDirty := dirty } := by
  obtain ⟨radio, slots, identity, rng, now, -, -, rfl⟩ := hbooted.exists_state
  obtain ⟨state, dirty, h⟩ := engine_persist now
    (Engine.ofState radio (adopted (Store.load store).value
      (.factory config slots identity rng radio.minInterval radio.maxInterval)),
      (Store.load store).state)
  exact ⟨radio, state, dirty, h⟩

theorem Device.Booted.quiet {config : Config} {store : Store} {d : Device}
    (hbooted : Booted config store d) : d.1.Quiet := by
  obtain ⟨radio, state, dirty, h⟩ := hbooted.exists_radio
  rw [h]
  exact ⟨⟨rfl, rfl, rfl, rfl⟩, rfl, rfl, rfl⟩

theorem Device.Booted.leaves {config : Config} {store : Store} {d : Device}
    (hbooted : Booted config store d) : d.1.Leaves False := by
  obtain ⟨radio, slots, identity, rng, now, -, -, rfl⟩ := hbooted.exists_state
  obtain ⟨state, dirty, h⟩ := engine_persist now
    (Engine.ofState radio (adopted (Store.load store).value
      (.factory config slots identity rng radio.minInterval radio.maxInterval)),
      (Store.load store).state)
  rw [h]
  have hquiet : (Engine.ofState radio state).Quiet := ⟨⟨rfl, rfl, rfl, rfl⟩, rfl, rfl, rfl⟩
  have hhonest : (Engine.ofState radio state).Honest :=
    hquiet.honest (by simp [Engine.ofState]) (by simp [Engine.ofState])
  exact (hhonest.leaves not_false).withState state dirty

theorem Device.leaves_of_run {config : Config} {store : Store} {start d : Device}
    {history : History} (hstart : Booted config store start) (hrun : Run start history d) :
    d.1.Leaves history.TornDown := by
  induction hrun with
  | start => exact hstart.leaves.congr (iff_of_false not_false (History.not_since_nil _ _))
  | @serve history d request _ ih =>
      refine (Entry.leaves (x := ⟨d, request⟩) ih.phase).congr ?_
      rw [ih.torn_iff]
      exact History.since_append.symm

/-- The mode of a device is true unless entering configuration mode has torn down what it says and
nothing has entered a mode since. -/
theorem Device.truthful_iff_not_tornDown {config : Config} {store : Store} {start d : Device}
    {history : History} (hstart : Booted config store start) (hrun : Run start history d) :
    d.1.Truthful ↔ ¬history.TornDown := by
  have hleaves := leaves_of_run hstart hrun
  rw [hleaves.phase.truthful_iff, hleaves.torn_iff]

/-- The device is asked to enter configuration mode. -/
def Device.configured (now : Nat) (d : Device) : Device :=
  (serve (.command .startConfig now) d).state

def Device.toConfigured (start : Device) : History :=
  [⟨start, .command .startConfig 0⟩, ⟨start.configured 0, .command .startConfig 10⟩]

/-- The mode once configuration mode has been entered, and the answers to the next two attempts. -/
def Device.entrances (start : Device) : Mode × Except Fault Unit × Except Fault Unit :=
  let entered := start.configured 0
  (entered.1.mode, (Engine.startConfig 10 entered.1).value,
    (Engine.startConfig 20 (entered.configured 10).1).value)

/-- The radio refuses the second configuration advert and takes the third: what the device says is
false after the one and true again after the other. -/
theorem Device.truthful_after_reentering :
    ∃ store start, Booted Config.standard store start ∧
      Run start (toConfigured start) ((start.configured 0).configured 10) ∧
      ¬((start.configured 0).configured 10).1.Truthful ∧
      (((start.configured 0).configured 10).configured 20).1.Truthful := by
  obtain ⟨start, hbooted, hentrances⟩ :
      ∃ start, Booted Config.standard ⟨.memory none, fun _ _ => none, 0⟩ start ∧
        start.entrances = (.config, .error (.radio (.stack 5)), .ok ()) :=
    exists_booted_of_eq (.idle 100 10240 fun n _ => if n = 2 then some (.stack 5) else none)
      (some (Octets.zero 32)) 0 entrances (by decide +kernel)
  obtain ⟨hmode, hanswers⟩ := Prod.mk.inj hentrances
  obtain ⟨hrefused, haccepted⟩ := Prod.mk.inj hanswers
  have hrun : Run start (toConfigured start) ((start.configured 0).configured 10) :=
    (Run.start.serve (.command .startConfig 0)).serve (.command .startConfig 10)
  have htorn : Entry.TearsDown ⟨start.configured 0, .command .startConfig 10⟩ :=
    ⟨.inl hmode, ⟨10, rfl⟩, .stack 5, congrArg Answer.done hrefused⟩
  have hreenters :
      Entry.Reenters ⟨(start.configured 0).configured 10, .command .startConfig 20⟩ :=
    congrArg Answer.done haccepted
  have hdown : History.TornDown (toConfigured start) :=
    ⟨[⟨start, .command .startConfig 0⟩], _, [], rfl, htorn, by simp⟩
  refine ⟨_, start, hbooted, hrun, ?_, ?_⟩
  · intro htruthful
    exact (truthful_iff_not_tornDown hbooted hrun).mp htruthful hdown
  · apply (truthful_iff_not_tornDown hbooted (hrun.serve (.command .startConfig 20))).mpr
    rintro hdown
    cases History.since_append.mp hdown with
    | inl htears =>
        obtain ⟨-, -, fault, hfault⟩ := htears
        cases (congrArg Answer.done haccepted).symm.trans hfault
    | inr hsince => exact hsince.2 hreenters

/-- Not every device tells the truth: a radio that refuses to be restarted leaves a device that has
gone off air saying that it is in configuration mode. -/
theorem Device.not_always_truthful :
    ¬∀ (config : Config) (store : Store) (d : Device), config.flaw? = none →
      Reachable config store d → d.1.Truthful := by
  intro halways
  have hflaw : Config.standard.flaw? = none := by decide +kernel
  obtain ⟨d, hbooted, hradio, slots, identity, rng, -, hsetup⟩ :=
    exists_fresh hflaw (Radio.idle 100 10240 fun n _ => if n < 2 then none else some (.stack 5))
  have hverdict : d.1.scheduler.radio.verdict =
      fun n _ => if n < 2 then none else some (.stack 5) := congrArg Radio.verdict hradio
  have hdecided : d.1.scheduler.radio.decided = 0 := congrArg Radio.decided hradio
  obtain ⟨scan, payload, hadvert⟩ := Engine.configAdvert_standard (s := d.1.state)
    (congrArg (fun setup => setup.config.configInterval) hsetup)
    (congrArg (fun setup => setup.config.configUrl) hsetup)
    (congrArg (fun setup => setup.config.deviceName) hsetup)
    (congrArg (fun setup => setup.settings.advLevels) hsetup)
  -- The radio takes the first configuration advert.
  let entered : Device := (Device.serve (.command .startConfig 0) d).state
  obtain ⟨hverdict₁, ⟨hrefused, -⟩ | ⟨-, -, hdecided₁, t, hentered, -⟩⟩ :=
    hbooted.leaves.phase.startConfig_cases hadvert 0
  · refine absurd ((Engine.accepts_iff hadvert _ _).mpr ?_) hrefused
    rw [hverdict, hdecided]
    exact ⟨rfl, rfl⟩
  -- It refuses the second one, which is the same.
  let torn : Device := (Device.serve (.command .startConfig 10) entered).state
  have hadvert₁ : Engine.configAdvert entered.1.state = .ok (scan, payload) := by
    rw [← hadvert]
    exact Engine.configAdvert_eq_of_setup_eq (setup_serve (by simp) (by simp) d)
  have htorn : torn.1.Torn := by
    obtain ⟨-, ⟨-, -, hquiet, hmode⟩ | ⟨haccepted, -⟩⟩ :=
      (Engine.InPhase.configuring hentered).startConfig_cases hadvert₁ 10
    · exact ⟨hquiet, .inl (hmode.trans hentered.mode)⟩
    · obtain ⟨hscan, -⟩ := (Engine.accepts_iff hadvert₁ _ _).mp haccepted
      rw [hverdict₁, hverdict, hdecided₁, hdecided] at hscan
      cases hscan
  have hreachable : Reachable Config.standard _ torn :=
    ((Reachable.boot hbooted).serve (.command .startConfig 0)).serve (.command .startConfig 10)
  exact (Engine.InPhase.quiet htorn.quiet).truthful_iff.mp (halways _ _ _ hflaw hreachable) htorn

end Beacon

import Beacon.Proofs.Phases

/-!
# Running without a central

Timers fire, the radio reports, modes come and go and parameters are saved: none
of it touches the setup of the beacon or marks the parameters as changed.  Only
reads and writes of attributes are left to look at where the setup matters.
-/

namespace Beacon

namespace Scheduler

section Provider

variable {π β : Type} [AdvertProvider π] {view : π → β}
  (htransmitted : ∀ slot p, view (AdvertProvider.transmitted slot p) = view p)
  (hprepare : ∀ slot now, Act.Keeps view (AdvertProvider.prepare slot now))

include htransmitted

theorem keeps_transmit (slot : Nat) (advert : PreparedAdvert) :
    Act.Keeps (fun x : Scheduler × π => view x.2) (transmit slot advert) := by
  refine Act.Keeps.bind (fun _ => rfl) fun _ => ?_
  refine Act.Keeps.bind (fun _ => rfl) fun _ => ?_
  refine Act.Keeps.bind (fun _ => rfl) fun _ => ?_
  refine Act.Keeps.bind (fun _ => rfl) fun answer => ?_
  cases answer with
  | error fault => exact fun _ => rfl
  | ok _ => exact fun x => htransmitted slot x.2

include hprepare

theorem keeps_broadcast (slot now : Nat) :
    Act.Keeps (fun x : Scheduler × π => view x.2) (broadcast slot now) := by
  refine Act.Keeps.bind (fun x => hprepare slot now x.2) fun advert => ?_
  cases advert with
  | none => exact fun _ => rfl
  | some advert => exact keeps_transmit htransmitted slot advert

theorem keeps_manageRadio (now : Nat) :
    Act.Keeps (fun x : Scheduler × π => view x.2) (manageRadio now) := by
  refine Act.Keeps.bind (fun _ => rfl) fun x => ?_
  obtain ⟨s, p⟩ := x
  simp only
  cases s.queue with
  | nil => exact fun _ => rfl
  | cons slot rest =>
      refine Act.Keeps.bind (fun _ => rfl) fun _ => ?_
      refine Act.Keeps.bind (fun _ => rfl) fun _ => ?_
      exact (keeps_broadcast htransmitted hprepare slot now).bind fun _ _ => rfl

theorem keeps_enqueue (slot now : Nat) :
    Act.Keeps (fun x : Scheduler × π => view x.2) (enqueue slot now) := by
  intro x
  obtain ⟨s, p⟩ := x
  obtain ⟨queue, -, h | ⟨-, h⟩⟩ := enqueue_cases slot now s p
  · rw [h]
  · rw [h]
    exact keeps_manageRadio htransmitted hprepare now _

theorem keeps_start (now : Nat) :
    Act.Keeps (fun x : Scheduler × π => view x.2) (start now) := by
  intro x
  obtain ⟨s, p⟩ := x
  by_cases hsilent : ∀ slot : SlotIndex, AdvertProvider.interval? p slot = none
  · rw [(start_of_silent hsilent now s).2]
  · obtain ⟨slot, hslot⟩ := not_forall.mp hsilent
    obtain ⟨_, _, -, -, -, h⟩ := start_of_interval hslot now s
    rw [h]
    exact keeps_manageRadio htransmitted hprepare now _

end Provider

end Scheduler

namespace Engine

/-- The setup, and whether it is marked as changed. -/
def marked (e : Engine) : Setup × Bool :=
  (e.state.setup, e.paramsDirty)

theorem marked_onAir {α : Type} {action : Act (Scheduler × State) α}
    (hkeeps : Act.Keeps (fun x => x.2.setup) action) : Act.Keeps marked (onAir action) := by
  intro e
  exact congrArg (·, e.paramsDirty) (hkeeps (e.scheduler, e.state))

theorem marked_onState {α : Type} {action : Act State α}
    (hkeeps : Act.Keeps State.setup action) : Act.Keeps marked (onState action) := by
  intro e
  exact congrArg (·, e.paramsDirty) (hkeeps e.state)

theorem marked_manageRadio (now : Nat) : Act.Keeps marked (onAir (Scheduler.manageRadio now)) := by
  apply marked_onAir
  exact Scheduler.keeps_manageRadio (fun _ => State.setup_countAdvert) State.setup_prepare now

theorem marked_enqueue (slot now : Nat) :
    Act.Keeps marked (onAir (Scheduler.enqueue slot now)) := by
  apply marked_onAir
  exact Scheduler.keeps_enqueue (fun _ => State.setup_countAdvert) State.setup_prepare slot now

theorem marked_drainEvents : Act.Keeps marked (onState State.drainEvents) :=
  marked_onState State.setup_drainEvents

/-- The state itself, and whether it is marked as changed. -/
def held (e : Engine) : State × Bool :=
  (e.state, e.paramsDirty)

theorem marked_of_held {α : Type} {action : Act Engine α} (hkeeps : Act.Keeps held action) :
    Act.Keeps marked action := by
  intro e
  have hheld := hkeeps e
  exact congrArg (fun x : State × Bool => (x.1.setup, x.2)) hheld

theorem held_setMode (mode : Mode) : Act.Keeps held (setMode mode) := by
  intro e
  simp only [setMode, Act.bind_apply, Act.get_apply, Done.after_nil]
  split <;> rfl

theorem held_leaveMode : Act.Keeps held leaveMode := fun _ => rfl

theorem held_askRadio (call : RadioCall) : Act.Keeps held (askRadio call) := by
  refine Act.Keeps.bind (fun _ => rfl) fun answer => ?_
  cases answer <;> exact fun _ => rfl

theorem held_startConfigAdvert (scan payload : Bytes) :
    Act.Keeps held (startConfigAdvert scan payload) := by
  refine (held_askRadio _).bind fun answer => ?_
  cases answer with
  | error fault => exact fun _ => rfl
  | ok _ =>
      refine Act.Keeps.bind (fun _ => rfl) fun e => ?_
      refine Act.Keeps.bind (fun _ => rfl) fun _ => ?_
      refine Act.Keeps.bind (fun _ => rfl) fun _ => ?_
      exact Act.Keeps.bind (fun _ => rfl) fun _ => held_askRadio _

theorem held_enterConfig (scan payload : Bytes) (now : Nat) :
    Act.Keeps held (enterConfig scan payload now) := by
  refine (held_startConfigAdvert scan payload).bind fun answer => ?_
  cases answer with
  | error fault => exact fun _ => rfl
  | ok _ =>
      refine Act.Keeps.bind (fun _ => rfl) fun e => ?_
      refine Act.Keeps.bind (fun _ => rfl) fun _ => ?_
      refine Act.Keeps.bind (fun _ => rfl) fun _ => ?_
      refine Act.Keeps.bind (fun _ => rfl) fun _ => ?_
      exact (held_setMode .config).bind fun _ _ => rfl

theorem held_startConfig (now : Nat) : Act.Keeps held (startConfig now) := by
  intro e
  cases hadvert : configAdvert e.state with
  | error fault => rw [startConfig_of_error hadvert]
  | ok advert =>
      obtain ⟨scan, payload⟩ := advert
      rw [startConfig_of_advert hadvert]
      exact (held_enterConfig scan payload now _).trans (held_leaveMode e)

theorem held_stop : Act.Keeps held stop := by
  apply held_leaveMode.bind
  intro a
  exact held_setMode .idle

theorem held_awaitResume (now : Nat) : Act.Keeps held (awaitResume now) := by
  refine Act.Keeps.bind (fun _ => rfl) fun e => ?_
  refine Act.Keeps.bind (fun _ => rfl) fun handle => ?_
  exact Act.Keeps.bind (fun _ => rfl) fun _ => held_setMode .idle

theorem held_rearm (slot now : Nat) : Act.Keeps held (rearm slot now) := by
  intro e
  simp only [rearm, Act.bind_apply, Act.get_apply, Done.after_nil]
  split <;> rfl

theorem marked_setMode (mode : Mode) : Act.Keeps marked (setMode mode) :=
  marked_of_held (held_setMode mode)

theorem marked_leaveMode : Act.Keeps marked leaveMode :=
  marked_of_held held_leaveMode

theorem marked_startConfig (now : Nat) : Act.Keeps marked (startConfig now) :=
  marked_of_held (held_startConfig now)

theorem marked_stop : Act.Keeps marked stop :=
  marked_of_held held_stop

theorem marked_awaitResume (now : Nat) : Act.Keeps marked (awaitResume now) :=
  marked_of_held (held_awaitResume now)

theorem marked_enterBeacon (now : Nat) : Act.Keeps marked (enterBeacon now) := by
  refine (marked_onAir (Scheduler.keeps_start (fun _ => State.setup_countAdvert)
    State.setup_prepare now)).bind fun answer => ?_
  cases answer with
  | error fault => exact (marked_setMode .idle).bind fun _ _ => rfl
  | ok _ => exact (marked_setMode .beacon).bind fun _ => marked_drainEvents.bind fun _ _ => rfl

theorem marked_startBeacon (now : Nat) : Act.Keeps marked (startBeacon now) := by
  refine marked_leaveMode.bind fun _ => ?_
  refine Act.Keeps.bind ?_ fun _ => marked_enterBeacon now
  refine Act.Keeps.bind (fun _ => rfl) fun answer => ?_
  cases answer <;> exact fun _ => rfl

theorem marked_startBeaconOrConfig (now : Nat) : Act.Keeps marked (startBeaconOrConfig now) := by
  refine (marked_startBeacon now).bind fun answer => ?_
  cases answer with
  | ok _ => exact fun _ => rfl
  | error fault =>
      refine Act.Keeps.bind (fun _ => rfl) fun _ => ?_
      refine (marked_startConfig now).bind fun answer => ?_
      cases answer <;> exact fun _ => rfl

theorem marked_perform (task : Task) (now : Nat) : Act.Keeps marked (perform task now) := by
  cases task with
  | enqueue slot => exact marked_enqueue slot now
  | manageRadio => exact marked_manageRadio now
  | configTimeout =>
      refine Act.Keeps.bind (fun _ => rfl) fun _ => ?_
      exact Act.Keeps.bind (fun _ => rfl) fun _ => marked_startBeaconOrConfig now
  | resumeBeacon => exact Act.Keeps.bind (fun _ => rfl) fun _ => marked_startBeaconOrConfig now

theorem marked_fireOne (now : Nat) : Act.Keeps marked (fireOne now) := by
  refine Act.Keeps.bind (fun _ => rfl) fun fired => ?_
  cases fired with
  | none => exact fun _ => rfl
  | some fired => exact (marked_perform fired.2 now).bind fun _ _ => rfl

theorem marked_poll (now : Nat) : Act.Keeps marked (poll now) := by
  apply (marked_fireOne now).gather.bind
  intro fired
  exact marked_drainEvents

theorem marked_rearm (slot now : Nat) : Act.Keeps marked (rearm slot now) :=
  marked_of_held (held_rearm slot now)

theorem restart_state (now : Nat) (e : Engine) :
    (restart now e).state = (startBeacon now e).state := by
  simp only [restart, Act.bind_apply, Done.state_after]
  cases (startBeacon now e).value <;> rfl

theorem marked_follow (effect : WriteEffect) (now : Nat) :
    Act.Keeps marked (follow effect now) := by
  cases effect with
  | none => exact fun _ => rfl
  | intervalChanged slot => exact marked_rearm slot now
  | slotChanged slot => exact (marked_rearm slot now).bind fun _ _ => rfl
  | lock state => exact fun _ => rfl
  | factoryReset =>
      refine Act.Keeps.bind (fun _ => rfl) fun _ => ?_
      refine Act.Keeps.bind (fun _ => rfl) fun e => ?_
      split
      next =>
        intro t
        rw [restart_state]
        exact marked_startBeacon now t
      next => exact fun _ => rfl

/-! ## Requests of a central -/

theorem marked_readAttribute (attr : Attribute) (now : Nat) (e : Engine) :
    (readAttribute attr now e).state.marked =
      ((attr.read now e.state).state.setup, e.paramsDirty) := rfl

theorem writeAttribute_of_error {attr : Attribute} {offset : Nat} {data : Bytes} {now : Nat}
    {e : Engine} {fault : Fault} (h : (attr.write offset data now e.state).value = .error fault) :
    (writeAttribute attr offset data now e).value = .error fault ∧
      (writeAttribute attr offset data now e).state =
        { e with state := (attr.write offset data now e.state).state } := by
  simp only [writeAttribute, onState, Act.bind_apply, Act.within_apply, Done.value_after,
    Done.state_after, h]
  exact ⟨rfl, rfl⟩

theorem writeAttribute_of_ok {attr : Attribute} {offset : Nat} {data : Bytes} {now : Nat}
    {e : Engine} {effect : WriteEffect}
    (h : (attr.write offset data now e.state).value = .ok effect) :
    (writeAttribute attr offset data now e).value = .ok () ∧
      (writeAttribute attr offset data now e).state =
        (onState State.drainEvents (follow effect now
          { e with
            state := (attr.write offset data now e.state).state
            paramsDirty := true }).state).state := by
  simp only [writeAttribute, onState, Act.bind_apply, Act.within_apply, Done.value_after,
    Done.state_after, h]
  exact ⟨rfl, rfl⟩

theorem marked_writeAttribute_of_ok {attr : Attribute} {offset : Nat} {data : Bytes} {now : Nat}
    {e : Engine} {effect : WriteEffect}
    (h : (attr.write offset data now e.state).value = .ok effect) :
    (writeAttribute attr offset data now e).state.marked =
      ((attr.write offset data now e.state).state.setup, true) := by
  rw [(writeAttribute_of_ok h).2, marked_drainEvents, marked_follow]
  rfl

theorem setup_writeAttribute (attr : Attribute) (offset : Nat) (data : Bytes) (now : Nat)
    (e : Engine) :
    (writeAttribute attr offset data now e).state.state.setup =
      (attr.write offset data now e.state).state.setup := by
  cases h : (attr.write offset data now e.state).value with
  | error fault => rw [(writeAttribute_of_error h).2]
  | ok effect => exact congrArg Prod.fst (marked_writeAttribute_of_ok h)

end Engine

/-- The state with the time of the boot noted, as it is saved. -/
def State.recorded (now : Nat) (s : State) : State :=
  { s with clock := s.clock.record now, clockDirty := false }

namespace Device

def setup (d : Device) : Setup :=
  d.1.state.setup

theorem setup_onEngine {α : Type} {action : Act Engine α} (hkeeps : Act.Keeps Engine.marked action) :
    Act.Keeps setup (onEngine action) := by
  intro d
  exact congrArg Prod.fst (hkeeps d.1)

theorem persist_cases (now : Nat) (d : Device) :
    ((Store.save (d.1.state.recorded now).snapshot d.2).value = .ok () ∧
        (persist now d).value = true ∧
        (persist now d).state =
          ({ d.1 with state := d.1.state.recorded now, paramsDirty := false },
            (Store.save (d.1.state.recorded now).snapshot d.2).state)) ∨
      ((∃ fault, (Store.save (d.1.state.recorded now).snapshot d.2).value = .error fault) ∧
        (persist now d).value = false ∧
        (persist now d).state =
          ({ d.1 with state := d.1.state.recorded now },
            (Store.save (d.1.state.recorded now).snapshot d.2).state)) := by
  obtain ⟨e, store⟩ := d
  simp only [persist, State.recorded, onStore, Act.bind_apply, Act.modify_apply, Act.get_apply,
    Act.onSnd_apply, Done.after_nil, Done.value_after, Done.state_after]
  cases (Store.save _ store).value with
  | ok _ => exact .inl ⟨rfl, rfl, rfl⟩
  | error fault => exact .inr ⟨⟨fault, rfl⟩, rfl, rfl⟩

theorem engine_persist (now : Nat) (d : Device) :
    ∃ state dirty, (persist now d).state.1 = { d.1 with state, paramsDirty := dirty } := by
  rcases persist_cases now d with ⟨-, -, h⟩ | ⟨-, -, h⟩ <;> rw [h]
  · exact ⟨_, _, rfl⟩
  · exact ⟨_, d.1.paramsDirty, rfl⟩

theorem setup_persist (now : Nat) : Act.Keeps setup (persist now) := by
  refine Act.Keeps.bind (fun _ => rfl) fun _ => ?_
  refine Act.Keeps.bind (fun _ => rfl) fun d => ?_
  refine Act.Keeps.bind (fun _ => rfl) fun answer => ?_
  cases answer <;> exact fun _ => rfl

theorem saveClockIfDirty_cases (d : Device) :
    (d.1.state.clockDirty = false ∧ (saveClockIfDirty d).state = d) ∨
      (d.1.state.clockDirty = true ∧
        (saveClockIfDirty d).state =
          ({ d.1 with state := { d.1.state with clockDirty := false } },
            (Store.saveClock d.1.state.clock d.2).state)) := by
  simp only [saveClockIfDirty, Act.bind_apply, Act.get_apply, Done.after_nil]
  cases hdirty : d.1.state.clockDirty with
  | false => exact .inl ⟨rfl, rfl⟩
  | true =>
      refine .inr ⟨rfl, ?_⟩
      simp only [onStore, if_true, Act.bind_apply, Act.set_apply, Act.onSnd_apply, Done.after_nil,
        Done.state_after]
      cases (Store.saveClock d.1.state.clock d.2).value <;> rfl

theorem saveIfDirty_state (now : Nat) (d : Device) :
    (saveIfDirty now d).state =
      if d.1.paramsDirty then (persist now d).state else (saveClockIfDirty d).state := by
  simp only [saveIfDirty, Act.bind_apply, Act.get_apply, Done.after_nil]
  split <;> rfl

theorem saveIfDirty_of_dirty {d : Device} (h : d.1.paramsDirty = true) (now : Nat) :
    saveIfDirty now d = persist now d := by
  simp only [saveIfDirty, Act.bind_apply, Act.get_apply, Done.after_nil, h, if_true]

theorem saveIfDirty_of_clean {d : Device} (h : d.1.paramsDirty = false) (now : Nat) :
    saveIfDirty now d = saveClockIfDirty d := by
  simp only [saveIfDirty, Act.bind_apply, Act.get_apply, Done.after_nil, h, Bool.false_eq_true,
    if_false]

theorem engine_saveIfDirty (now : Nat) (d : Device) :
    ∃ state dirty, (saveIfDirty now d).state.1 = { d.1 with state, paramsDirty := dirty } := by
  rw [saveIfDirty_state]
  split
  next => exact engine_persist now d
  next =>
    rcases saveClockIfDirty_cases d with ⟨-, h⟩ | ⟨-, h⟩ <;> rw [h]
    · exact ⟨d.1.state, d.1.paramsDirty, rfl⟩
    · exact ⟨_, d.1.paramsDirty, rfl⟩

theorem setup_saveClockIfDirty : Act.Keeps setup saveClockIfDirty := by
  intro d
  rcases saveClockIfDirty_cases d with ⟨-, h⟩ | ⟨-, h⟩
  · rw [h]
  · rw [h]
    rfl

theorem setup_saveIfDirty (now : Nat) : Act.Keeps setup (saveIfDirty now) := by
  refine Act.Keeps.bind (fun _ => rfl) fun d => ?_
  split
  next => exact setup_persist now
  next => exact setup_saveClockIfDirty

theorem setup_pause (now : Nat) : Act.Keeps setup (pause now) := by
  apply (setup_persist now).bind
  intro saved
  exact setup_onEngine (Engine.marked_awaitResume now)

/-- A central has gone. -/
theorem radioEvent_of_connected {d : Device} (hmode : d.1.mode = .connected) (now : Nat) :
    radioEvent .disconnected now d = pause now d := by
  simp only [radioEvent, Act.bind_apply, Act.get_apply, Done.after_nil, hmode]

theorem radioEvent_cases (event : RadioEvent) (now : Nat) (d : Device) :
    (event = .connected ∧
        (radioEvent event now d).state =
          ((Engine.setMode .connected (Engine.leaveMode d.1).state).state, d.2)) ∨
      (event = .disconnected ∧ d.1.mode = .connected ∧
        (radioEvent event now d).state = (pause now d).state) ∨
      (event ≠ .connected ∧ (radioEvent event now d).state = d) := by
  simp only [radioEvent, Act.bind_apply, Act.get_apply, Done.after_nil]
  cases event with
  | connected => exact .inl ⟨rfl, rfl⟩
  | disconnected =>
      cases hmode : d.1.mode with
      | connected => exact .inr (.inl ⟨rfl, rfl, rfl⟩)
      | idle => exact .inr (.inr ⟨by decide, rfl⟩)
      | config => exact .inr (.inr ⟨by decide, rfl⟩)
      | beacon => exact .inr (.inr ⟨by decide, rfl⟩)
  | advertisingStarted => cases d.1.mode <;> exact .inr (.inr ⟨by decide, rfl⟩)
  | advertisingStopped => exact .inr (.inr ⟨by decide, rfl⟩)

theorem setup_radioEvent (event : RadioEvent) (now : Nat) :
    Act.Keeps setup (radioEvent event now) := by
  intro d
  rcases radioEvent_cases event now d with ⟨-, h⟩ | ⟨-, -, h⟩ | ⟨-, h⟩
  · rw [h]
    exact setup_onEngine (Engine.marked_leaveMode.bind fun _ => Engine.marked_setMode .connected) d
  · rw [h]
    exact setup_pause now d
  · rw [h]

theorem setup_command (command : Command) (now : Nat) :
    Act.Keeps setup (Device.command command now) := by
  cases command with
  | startConfig => exact setup_onEngine (Engine.marked_startConfig now)
  | startBeacon => exact setup_onEngine (Engine.marked_startBeacon now)
  | stop => exact (setup_onEngine Engine.marked_stop).bind fun _ _ => rfl
  | updateBattery millivolts => exact fun _ => rfl
  | updateTemperature temperature => exact fun _ => rfl
  | saveParams => exact (setup_persist now).bind fun _ _ => rfl

/-- Without a central the setup stays as it is. -/
theorem setup_serve {request : Request} (hread : ∀ attr now, request ≠ .read attr now)
    (hwrite : ∀ attr offset data now, request ≠ .write attr offset data now) :
    Act.Keeps setup (serve request) := by
  cases request with
  | read attr now => exact absurd rfl (hread attr now)
  | write attr offset data now => exact absurd rfl (hwrite attr offset data now)
  | poll now => exact (setup_onEngine (Engine.marked_poll now)).bind fun _ _ => rfl
  | radioEvent event now => exact (setup_radioEvent event now).bind fun _ _ => rfl
  | command command now => exact (setup_command command now).bind fun _ _ => rfl
  | saveIfDirty now => exact (setup_saveIfDirty now).bind fun _ _ => rfl

end Device

end Beacon

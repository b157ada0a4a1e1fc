import Beacon.Proofs.Airtime

/-!
# What happens within a request

A request of a device is followed from the answer to a central through the turns
that slots take: its moments lead from the state in which it found the beacon to
the one in which it left it.
-/

namespace Beacon

open Act Transcript

variable {α : Type} {now : Nat} {eligible : Nat → Prop}

/-! ## Saving -/

theorem Flash.asides_saveClock (clock : Clock) : Asides (saveClock clock) := by
  simp only [saveClock]
  split
  · exact asides_pure _
  · exact (asides_modify _).bind fun _ => asides_pure _

theorem Flash.asides_save (params : Params) : Asides (save params) := by
  simp only [save]
  split
  · exact asides_pure _
  · apply (asides_modify _).bind
    intro _
    apply (asides_saveClock params.clock).bind
    intro answer
    cases answer with
    | error fault => exact asides_pure _
    | ok _ => exact (asides_note rfl).bind fun _ => asides_pure _

theorem Medium.asides_save (params : Params) : Asides (save params) := by
  intro medium
  cases medium with
  | memory stored => exact fun _ hmem => absurd hmem List.not_mem_nil
  | flash held =>
      simp only [save]
      exact Flash.asides_save params held

theorem Medium.asides_saveClock (clock : Clock) : Asides (saveClock clock) := by
  intro medium
  cases medium with
  | memory stored => exact fun _ hmem => absurd hmem List.not_mem_nil
  | flash held =>
      simp only [saveClock]
      exact Flash.asides_saveClock clock held

theorem Store.plain_call {work : Act Medium (Except StoreFault α)} (hwork : Plain work)
    (request : StoreCall) : Plain (call request work) := by
  unfold call
  apply Act.Plain.bind (fun _ => plain_nil)
  intro held
  apply (Act.plain_put rfl).bind
  intro _
  apply Act.Plain.bind (fun _ => plain_nil)
  intro _
  cases held.verdict held.calls request with
  | some fault => exact Act.plain_pure _
  | none => exact hwork.within

namespace Device

theorem plain_persist (now : Nat) : Plain (persist now) := by
  unfold persist
  apply Act.Plain.bind (fun _ => plain_nil)
  intro _
  apply Act.Plain.bind (fun _ => plain_nil)
  intro held
  apply (Store.plain_call (Medium.asides_save _).plain _).within.bind
  intro answer
  cases answer with
  | error fault => exact (Act.plain_put rfl).bind fun _ => Act.plain_pure _
  | ok _ =>
      apply Act.Plain.bind (fun _ => plain_nil)
      intro _
      exact (Act.plain_put rfl).bind fun _ => Act.plain_pure _

theorem plain_saveClockIfDirty : Plain saveClockIfDirty := by
  unfold saveClockIfDirty
  apply Act.Plain.bind (fun _ => plain_nil)
  rintro ⟨e, store⟩
  simp only
  split
  · apply Act.Plain.bind (fun _ => plain_nil)
    intro _
    apply (Store.plain_call (Medium.asides_saveClock _).plain _).within.bind
    intro answer
    cases answer with
    | error fault => exact (Act.plain_put rfl).bind fun _ => Act.plain_pure _
    | ok _ => exact Act.plain_pure _
  · exact Act.plain_pure _

theorem plain_saveIfDirty (now : Nat) : Plain (saveIfDirty now) := by
  unfold saveIfDirty
  apply Act.Plain.bind (fun _ => plain_nil)
  intro held
  split
  · exact plain_persist now
  · exact plain_saveClockIfDirty

theorem turnless_persist (now : Nat) (d : Device) : Turnless (persist now d).output :=
  (plain_persist now d).turnless

theorem turnless_saveIfDirty (now : Nat) (d : Device) : Turnless (saveIfDirty now d).output :=
  (plain_saveIfDirty now d).turnless

end Device

/-! ## The device -/

/-- What leads from a state to a device: slots that were eligible took turns, and nothing else
happened to the slots and to the time at which the boot started. -/
structure Course (now : Nat) (eligible : Nat → Prop) (s : State) (out : Transcript)
    (d : Device) : Prop where
  replays : ∀ started, ∃ t,
    Replays s.hush ((out.turns started).map fun turn => .took turn now) t ∧
      t.slots = d.1.state.slots ∧ t.clock.prior = d.1.state.clock.prior
  took : ∀ started, ∀ turn ∈ out.turns started, eligible turn.slot
  onAir : ∀ started slot, .notice (.slotOnAir slot) ∈ out →
    ∃ payload, ⟨slot, some payload⟩ ∈ out.turns started
  within : Within eligible d.1.airing

theorem Passage.course {now : Nat} {eligible : Nat → Prop} {s : State} {out : Transcript}
    {e : Engine} (h : Passage now eligible s out e.airing) (store : Store) :
    Course now eligible s out (e, store) := by
  constructor
  · intro started
    exact ⟨e.state.hush, h.replays started, rfl, rfl⟩
  · exact h.took
  · exact h.onAir
  · exact h.within

namespace Device

variable {now : Nat} {eligible : Nat → Prop}

theorem course_of_idle {s : State} {out : Transcript} {d : Device}
    (hslots : d.1.state.slots = s.slots) (hprior : d.1.state.clock.prior = s.clock.prior)
    (hturnless : out.Turnless) (hwithin : Within eligible d.1.airing) : Course now eligible s out d := by
  constructor
  · intro started
    rw [hturnless.turns_eq_nil]
    exact ⟨s.hush, Replays.refl _, hslots.symm, hprior.symm⟩
  · intro started turn hmem
    rw [hturnless.turns_eq_nil] at hmem
    cases hmem
  · intro started slot hmem
    exact absurd hmem (hturnless.not_onAir slot)
  · exact hwithin

theorem course_onEngine {action : Act Engine α} (h : Passes Engine.airing now eligible action)
    {d : Device} (hd : Within eligible d.1.airing) :
    Course now eligible d.1.state (onEngine action d).output (onEngine action d).state :=
  (h d.1 hd).course d.2

/-- Saving parameters keeps all but how far the boot has come. -/
theorem persist_keeps (now : Nat) (d : Device) :
    (persist now d).state.1.scheduler = d.1.scheduler ∧
      (persist now d).state.1.state.slots = d.1.state.slots ∧
      (persist now d).state.1.state.clock.prior = d.1.state.clock.prior ∧
      (persist now d).state.1.state.pendingEvents = d.1.state.pendingEvents := by
  rcases persist_cases now d with ⟨-, -, h⟩ | ⟨-, -, h⟩
  · rw [h]
    exact ⟨rfl, rfl, rfl, rfl⟩
  · rw [h]
    exact ⟨rfl, rfl, rfl, rfl⟩

theorem saveIfDirty_keeps (now : Nat) (d : Device) :
    (saveIfDirty now d).state.1.scheduler = d.1.scheduler ∧
      (saveIfDirty now d).state.1.state.slots = d.1.state.slots ∧
      (saveIfDirty now d).state.1.state.clock.prior = d.1.state.clock.prior ∧
      (saveIfDirty now d).state.1.state.pendingEvents = d.1.state.pendingEvents := by
  rw [saveIfDirty_state]
  split
  · exact persist_keeps now d
  · rcases saveClockIfDirty_cases d with ⟨-, h⟩ | ⟨-, h⟩
    · rw [h]
      exact ⟨rfl, rfl, rfl, rfl⟩
    · rw [h]
      exact ⟨rfl, rfl, rfl, rfl⟩

theorem within_of_slots_eq {x y : Scheduler × State} (hx : Within eligible x)
    (hscheduler : y.1 = x.1) (hslots : y.2.slots = x.2.slots) : Within eligible y := by
  intro slot h
  rw [hscheduler, State.interval?, hslots] at h
  exact hx slot h

theorem course_persist {d : Device} (hd : Within eligible d.1.airing) (start : Nat) :
    Course now eligible d.1.state (persist start d).output (persist start d).state := by
  obtain ⟨hscheduler, hslots, hprior, -⟩ := persist_keeps start d
  exact course_of_idle hslots hprior (turnless_persist start d)
    (within_of_slots_eq hd hscheduler hslots)

theorem pause_keeps (start : Nat) (d : Device) :
    (pause start d).state.1.state.slots = d.1.state.slots ∧
      (pause start d).state.1.state.clock.prior = d.1.state.clock.prior := by
  obtain ⟨-, hslots, hprior, -⟩ := persist_keeps start d
  have hstate : (pause start d).state.1.state = (persist start d).state.1.state :=
    congrArg Prod.fst (Engine.held_awaitResume start (persist start d).state.1)
  constructor
  · rw [hstate, hslots]
  · rw [hstate, hprior]

theorem within_pause {d : Device} (hd : Within eligible d.1.airing) (start : Nat) :
    Within eligible (pause start d).state.1.airing := by
  obtain ⟨hscheduler, hslots, -, -⟩ := persist_keeps start d
  have hpersisted : Within eligible (persist start d).state.1.airing :=
    within_of_slots_eq hd hscheduler hslots
  have hpasses : Passes Engine.airing start eligible (Engine.awaitResume start) :=
    Engine.passes_awaitResume start
  exact (hpasses _ hpersisted).within

theorem turnless_pause (now : Nat) (d : Device) : Turnless (pause now d).output := by
  apply (turnless_persist now d).append
  exact Engine.turnless_awaitResume now _

theorem turnless_radioEvent (event : RadioEvent) (now : Nat) (d : Device) :
    Turnless (radioEvent event now d).output := by
  have hunexpected (mode : Mode) :
      Turnless [.notice (.unexpected event mode), .event .unexpectedRadioEvent] :=
    (turnless_singleton rfl).append (turnless_singleton rfl)
  simp only [radioEvent, Act.bind_apply, Act.get_apply, Done.after_nil]
  cases event with
  | connected =>
      exact (Engine.inner_leaveMode.turnless d.1).append (Engine.turnless_setMode .connected _)
  | disconnected =>
      cases d.1.mode with
      | connected => exact turnless_pause now d
      | idle => exact hunexpected .idle
      | config => exact hunexpected .config
      | beacon => exact hunexpected .beacon
  | advertisingStarted =>
      cases d.1.mode with
      | connected => exact hunexpected .connected
      | idle => exact hunexpected .idle
      | config => exact turnless_note rfl d
      | beacon => exact turnless_note rfl d
  | advertisingStopped => exact turnless_note rfl d

theorem course_radioEvent {d : Device} (hd : Within eligible d.1.airing) (event : RadioEvent) :
    Course now eligible d.1.state (radioEvent event now d).output
      (radioEvent event now d).state := by
  have hturnless := turnless_radioEvent event now d
  rcases radioEvent_cases event now d with ⟨-, h⟩ | ⟨-, -, h⟩ | ⟨-, h⟩
  · have hleft : Passes Engine.airing now eligible Engine.leaveMode := Engine.passes_leaveMode
    have hwithin := ((hleft.bind fun _ => Engine.passes_setMode .connected) d.1 hd).within
    have hheld := (Engine.held_leaveMode.bind fun _ => Engine.held_setMode .connected) d.1
    have hstate := congrArg Prod.fst hheld
    rw [h]
    apply course_of_idle (congrArg State.slots hstate) (congrArg (fun s => s.clock.prior) hstate)
    · exact hturnless
    · exact hwithin
  · have hkept := pause_keeps now d
    rw [h]
    exact course_of_idle hkept.1 hkept.2 hturnless (within_pause hd now)
  · rw [h]
    exact course_of_idle rfl rfl hturnless hd

theorem course_command {d : Device} (hd : Within eligible d.1.airing) (command : Command) :
    Course now eligible d.1.state (Device.command command now d).output
      (Device.command command now d).state := by
  cases command with
  | startConfig => exact course_onEngine (Engine.passes_startConfig now) hd
  | startBeacon => exact course_onEngine Engine.passes_startBeacon hd
  | stop =>
      rw [Device.command, Act.bind_pure_apply]
      exact course_onEngine Engine.passes_stop hd
  | updateBattery millivolts => exact course_of_idle rfl rfl turnless_nil hd
  | updateTemperature temperature => exact course_of_idle rfl rfl turnless_nil hd
  | saveParams =>
      rw [Device.command, Act.bind_pure_apply]
      exact course_persist hd now

end Device

/-! ## Events are told at once -/

namespace Engine

/-- A start of the scheduler that fails leaves the state alone; otherwise the events are told. -/
theorem pendingEvents_startBeacon {e : Engine} (h : e.state.pendingEvents = []) (now : Nat) :
    (startBeacon now e).state.state.pendingEvents = [] := by
  obtain ⟨calls, heq⟩ := startBeacon_eq now e
  rw [heq, Done.state_after]
  have hcleared : (clearScanResponse (leaveMode e).state).state.state.pendingEvents = [] := by
    rw [state_cleared, h]
  generalize (clearScanResponse (leaveMode e).state).state = cleared at hcleared ⊢
  by_cases hsilent : cleared.Silent
  · obtain ⟨hvalue, hstate⟩ :=
      Scheduler.start_of_silent (p := cleared.state) hsilent now cleared.scheduler
    simp only [enterBeacon, onAir, Act.bind_apply, Act.within_apply, hvalue, hstate,
      Done.state_after, setMode_state]
    exact hcleared
  · obtain ⟨i, hi⟩ := not_forall.mp hsilent
    have hi : AdvertProvider.interval? cleared.state i.val ≠ none := hi
    obtain ⟨-, -, -, -, hvalue, -⟩ := Scheduler.start_of_interval hi now cleared.scheduler
    simp only [enterBeacon, onAir, Act.bind_apply, Act.within_apply, hvalue, Done.state_after]
    rfl

end Engine

namespace Device

theorem pendingEvents_adopted (loaded : Except StoreFault (Option Params)) {s : State}
    (h : s.pendingEvents = []) : (adopted loaded s).pendingEvents = [] := by
  cases loaded with
  | error fault => exact h
  | ok stored => cases stored <;> exact h

/-- No event waits between two requests. -/
theorem pendingEvents_serve {d : Device} (h : d.1.state.pendingEvents = []) (request : Request) :
    (serve request d).state.1.state.pendingEvents = [] := by
  cases request with
  | read attr now => rfl
  | write attr offset data now =>
      have hstate : (serve (.write attr offset data now) d).state.1 =
          (Engine.writeAttribute attr offset data now d.1).state := rfl
      rw [hstate]
      cases hwrite : (attr.write offset data now d.1.state).value with
      | ok effect =>
          rw [(Engine.writeAttribute_of_ok hwrite).2]
          rfl
      | error fault =>
          rw [(Engine.writeAttribute_of_error hwrite).2, Attribute.write_state_of_error hwrite]
          split
          · exact h
          · exact h
  | poll now => rfl
  | radioEvent event now =>
      have hstate : (serve (.radioEvent event now) d).state = (radioEvent event now d).state := rfl
      rw [hstate]
      rcases radioEvent_cases event now d with ⟨-, h'⟩ | ⟨-, -, h'⟩ | ⟨-, h'⟩
      · have hheld := (Engine.held_leaveMode.bind fun _ => Engine.held_setMode .connected) d.1
        rw [h']
        exact (congrArg (fun x : State × Bool => x.1.pendingEvents) hheld).trans h
      · have hheld := Engine.held_awaitResume now (persist now d).state.1
        rw [h']
        exact (congrArg (fun x : State × Bool => x.1.pendingEvents) hheld).trans
          ((persist_keeps now d).2.2.2.trans h)
      · rw [h']
        exact h
  | command command now =>
      cases command with
      | startConfig =>
          have hheld := Engine.held_startConfig now d.1
          exact (congrArg (fun x : State × Bool => x.1.pendingEvents) hheld).trans h
      | startBeacon => exact Engine.pendingEvents_startBeacon h now
      | stop =>
          have hheld := Engine.held_stop d.1
          exact (congrArg (fun x : State × Bool => x.1.pendingEvents) hheld).trans h
      | updateBattery millivolts => exact h
      | updateTemperature temperature => exact h
      | saveParams => exact (persist_keeps now d).2.2.2.trans h
  | saveIfDirty now =>
      exact (saveIfDirty_keeps now d).2.2.2.trans h

theorem Booted.pendingEvents {config : Config} {store : Store} {d : Device}
    (hbooted : Booted config store d) : d.1.state.pendingEvents = [] := by
  obtain ⟨radio, slots, identity, rng, now, -, -, rfl⟩ := hbooted.exists_state
  rw [(persist_keeps now _).2.2.2]
  exact pendingEvents_adopted _ rfl

theorem Reachable.pendingEvents {config : Config} {store : Store} {d : Device}
    (hreach : Reachable config store d) : d.1.state.pendingEvents = [] := by
  apply hreach.invariant (P := fun d => d.1.state.pendingEvents = []) Booted.pendingEvents
  intro d request h
  exact pendingEvents_serve h request

end Device

/-! ## One request -/

namespace Entry

/-- The state in which a central has been answered. -/
def answered (x : Entry) : State :=
  match x.request with
  | .read attr now => (attr.read now x.before.1.state).state
  | .write attr offset data now => (attr.write offset data now x.before.1.state).state
  | _ => x.before.1.state

/-- Once a central has been answered, slots that are eligible then take turns, and nothing else
happens. -/
theorem course {eligible : Nat → Prop} {x : Entry}
    (hx : Within eligible (x.before.1.scheduler, x.answered)) :
    Course x.request.time eligible x.answered x.output x.after := by
  obtain ⟨d, request⟩ := x
  rw [output, after]
  cases request with
  | read attr now =>
      rw [Device.serve, Act.bind_pure_apply]
      exact (Engine.passage_readAttribute hx).course d.2
  | write attr offset data now =>
      rw [Device.serve, Act.bind_pure_apply]
      exact (Engine.passage_writeAttribute hx).course d.2
  | poll now =>
      rw [Device.serve, Act.bind_pure_apply]
      exact Device.course_onEngine Engine.passes_poll hx
  | radioEvent event now =>
      rw [Device.serve, Act.bind_pure_apply]
      exact Device.course_radioEvent hx event
  | command command now =>
      rw [Device.serve, Act.bind_pure_apply]
      exact Device.course_command hx command
  | saveIfDirty now =>
      obtain ⟨hscheduler, hslots, hprior, -⟩ := Device.saveIfDirty_keeps now d
      rw [Device.serve, Act.bind_pure_apply]
      exact Device.course_of_idle hslots hprior (Device.turnless_saveIfDirty now d)
        (Device.within_of_slots_eq hx hscheduler hslots)

/-- The slot waits, or the central leaves it to be broadcast. -/
def Eligible (x : Entry) (slot : Nat) : Prop :=
  x.before.1.scheduler.Waits slot ∨ x.answered.interval? slot ≠ none

theorem course_eligible (x : Entry) :
    Course x.request.time x.Eligible x.answered x.output x.after :=
  course fun _ h => h

/-- No event waits when a central asks, and so what it asks for is done in the very state in which
the request found the beacon. -/
theorem replays_asked {x : Entry} (htold : x.before.1.state.pendingEvents = []) :
    Replays x.before.1.state.hush x.request.asked x.answered.hush := by
  obtain ⟨d, request⟩ := x
  have hhush : d.1.state.hush = d.1.state := State.hush_of_nil htold
  have hasked (access : Access) : Replays d.1.state.hush [.asked access]
      (access.perform d.1.state).state.hush := by
    have hfaithful : Moment.Faithful ⟨d.1.state, .asked access⟩ := nofun
    rw [hhush]
    exact Replays.single hfaithful
  cases request with
  | read attr now => exact hasked (.read attr now)
  | write attr offset data now => exact hasked (.write attr offset data now)
  | poll now => exact Replays.refl _
  | radioEvent event now => exact Replays.refl _
  | command command now => exact Replays.refl _
  | saveIfDirty now => exact Replays.refl _

/-- The moments of a request are real: they lead from the state in which it found the beacon to the
one in which it left it, and what the radio took in them is what the slots had to send. -/
theorem replays {x : Entry} (htold : x.before.1.state.pendingEvents = []) :
    ∃ t, Replays x.before.1.state.hush x.deeds t ∧ t.slots = x.after.1.state.slots ∧
      t.clock.prior = x.after.1.state.clock.prior := by
  obtain ⟨t, hturns, hslots, hprior⟩ := x.course_eligible.replays none
  exact ⟨t, (replays_asked htold).trans hturns, hslots, hprior⟩

theorem faithful {x : Entry} (htold : x.before.1.state.pendingEvents = []) {m : Moment}
    (hm : m ∈ x.moments) : m.Faithful := by
  obtain ⟨t, hreplays, -⟩ := replays htold
  exact hreplays.faithful m hm

/-- A turn was reported, and it found the beacon set up as a central had left it. -/
theorem turn_of_moment {x : Entry} (htold : x.before.1.state.pendingEvents = []) {m : Moment}
    (hm : m ∈ x.moments) {turn : Turn} {now : Nat} (hdeed : m.deed = .took turn now) :
    turn ∈ x.output.turns none ∧ now = x.request.time ∧ m.state.setup = x.answered.setup := by
  rw [moments, deeds, State.moments_append, (replays_asked htold).state] at hm
  cases List.mem_append.mp hm with
  | inl hm =>
      have hasked := State.deed_of_mem_moments hm
      obtain ⟨d, request⟩ := x
      rw [hdeed] at hasked
      cases request <;> simp [Request.asked] at hasked
  | inr hm =>
      obtain ⟨t, hturns, -⟩ := x.course_eligible.replays none
      have hmem := State.deed_of_mem_moments hm
      obtain ⟨taken, htaken, hsame⟩ := List.mem_map.mp hmem
      rw [hdeed] at hsame
      cases hsame
      exact ⟨htaken, rfl, hturns.setup_eq.1 m hm⟩

/-- Whenever a slot is reported to be on air there is a moment at which it had its turn, with a
payload that the radio has taken. -/
theorem exists_moment_of_onAir {x : Entry} {slot : Nat}
    (h : .notice (.slotOnAir slot) ∈ x.output) :
    ∃ m ∈ x.moments, ∃ payload, m.deed = .took ⟨slot, some payload⟩ x.request.time ∧
      .radio (.start payload) none ∈ x.output := by
  obtain ⟨payload, hturn⟩ := x.course_eligible.onAir none slot h
  have htook : .took ⟨slot, some payload⟩ x.request.time ∈ x.deeds :=
    List.mem_append_right _ (List.mem_map_of_mem hturn)
  obtain ⟨m, hm, hdeed⟩ := State.exists_moment_of_mem (s := x.before.1.state.hush) htook
  refine ⟨m, hm, payload, hdeed, ?_⟩
  cases Transcript.start_mem_of_turn hturn with
  | inl hnone => cases hnone
  | inr hstart => exact hstart

end Entry

end Beacon

import Beacon.Proofs.Courses
import Beacon.Proofs.Polling

/-!
# Silenced slots

A slot whose interval is zero is to send nothing, and no timer puts it into the
queue.  But a write that sets the interval to zero does not take the slot out of
the queue: where it already waits for the radio it lingers, and it is broadcast
once more when its turn comes.

This is the only way on air for a slot without an interval, and none leads there
for a slot without a frame.
-/

namespace Beacon

/-! ## Slots that are set to send nothing -/

namespace State

/-- The interval of the slot is zero. -/
def Silenced (slot : Nat) (s : State) : Prop :=
  (s.slots.slot? slot).map Slot.interval = some 0

theorem silenced_iff_settings {slot : Nat} {s : State} :
    s.Silenced slot ↔ (s.settings.slots[slot]?).map Slot.interval = some 0 := by
  rw [Silenced, Slots.slot?, settings, Vector.getElem?_map, Option.map_map]
  rfl

theorem silenced_iff_of_setup_eq {s t : State} (h : s.setup = t.setup) (slot : Nat) :
    s.Silenced slot ↔ t.Silenced slot := by
  have hsettings : s.settings = t.settings := congrArg Setup.settings h
  rw [silenced_iff_settings, silenced_iff_settings, hsettings]

theorem Silenced.interval?_eq_none {slot : Nat} {s : State} (h : s.Silenced slot) :
    s.interval? slot = none := by
  rw [Silenced] at h
  rw [interval?]
  cases hslot : s.slots.slot? slot with
  | none => rfl
  | some held =>
      have hzero : held.interval = 0 := by simpa [hslot] using h
      simp [Slot.isBroadcast, hzero]

theorem slot?_settings (slot : Nat) (s : State) :
    s.settings.slots[slot]? = (s.slots.slot? slot).map Slot.settings :=
  Vector.getElem?_map ..

/-- A slot has something to send only if it has a frame. -/
theorem frame_of_prepare {slot now : Nat} {s : State} {advert : PreparedAdvert}
    (h : (State.prepare slot now s).value = some advert) :
    ∃ held, s.slots.slot? slot = some held ∧ held.frame.isSome := by
  obtain ⟨frame, hlive, -⟩ := prepare_of_some h
  obtain ⟨rotated, old, hslot, hframe, -⟩ := liveFrame_of_some hlive
  have hsetup := congrArg (fun setup => setup.settings.slots[slot]?) (setup_rotateIfDue slot now s)
  have hsettings : (s.slots.slot? slot).map Slot.settings = some rotated.settings := by
    rw [← slot?_settings, ← Option.map_some, ← hslot, ← slot?_settings]
    exact hsetup.symm
  obtain ⟨held, hheld, hsame⟩ := Option.map_eq_some_iff.mp hsettings
  refine ⟨held, hheld, ?_⟩
  have hframes := congrArg (fun slot : Slot => slot.frame.isSome) hsame
  simp only [Slot.settings, Option.isSome_map, hframe, Option.isSome_some] at hframes
  exact hframes

end State

/-! ## Turns outside of a poll -/

namespace Engine

/-- Nobody waits while the engine is quiet. -/
theorem Quiet.within {e : Engine} (hquiet : e.Quiet) :
    Within (fun slot => e.state.interval? slot ≠ none) e.airing := by
  intro slot h
  rcases h with (hqueue | ⟨t, hmem, -⟩) | hinterval
  · have hempty : e.airing.1.queue = [] := hquiet.atRest.queue
    rw [hempty] at hqueue
    cases hqueue
  · have hempty : e.airing.1.timers.pending = [] := hquiet.pending
    rw [hempty] at hmem
    cases hmem
  · exact hinterval

/-- What follows once a mode has been left gives turns to slots that are to be broadcast. -/
theorem took_after_leaveMode {α : Type} {e : Engine} (hphase : e.InPhase) (now : Nat)
    (action : Act Engine α) (haction : ∀ eligible, Act.Passes airing now eligible action)
    {started : Option Bytes} {turn : Turn}
    (hturn : turn ∈ Transcript.turns started
      ((leaveMode e).output ++ (action (leaveMode e).state).output)) :
    e.state.interval? turn.slot ≠ none := by
  rw [Transcript.turns_append, (inner_leaveMode.turnless e).turns_eq_nil] at hturn
  have hquiet := hphase.leaveMode
  exact (haction _ (leaveMode e).state hquiet.within).took _ turn hturn

theorem took_startBeacon {e : Engine} (hphase : e.InPhase) {now : Nat}
    {started : Option Bytes} {turn : Turn}
    (hturn : turn ∈ Transcript.turns started (startBeacon now e).output) :
    e.state.interval? turn.slot ≠ none := by
  apply took_after_leaveMode hphase now (do clearScanResponse; enterBeacon now) ?_ hturn
  intro e
  exact passes_clearScanResponse.bind fun _ => passes_enterBeacon

theorem took_startConfig {e : Engine} (hphase : e.InPhase) {now : Nat}
    {started : Option Bytes} {turn : Turn}
    (hturn : turn ∈ Transcript.turns started (startConfig now e).output) :
    e.state.interval? turn.slot ≠ none := by
  cases hadvert : configAdvert e.state with
  | error fault =>
      rw [startConfig_of_error hadvert] at hturn
      cases hturn
  | ok advert =>
      rw [startConfig_of_advert hadvert, Done.output_after] at hturn
      exact took_after_leaveMode hphase now _ (fun _ => passes_enterConfig _ _ now) hturn

theorem took_restart {e : Engine} (hphase : e.InPhase) {now : Nat} {started : Option Bytes}
    {turn : Turn} (hturn : turn ∈ Transcript.turns started (restart now e).output) :
    e.state.interval? turn.slot ≠ none := by
  have hanswered : ∃ rest : Transcript, rest.Turnless ∧
      (restart now e).output = (startBeacon now e).output ++ rest := by
    simp only [restart, Act.bind_apply, Done.output_after]
    cases (startBeacon now e).value with
    | ok _ => exact ⟨[], Transcript.turnless_nil, rfl⟩
    | error fault =>
        exact ⟨[.notice (.restartFailed fault)], Transcript.turnless_singleton rfl, rfl⟩
  obtain ⟨rest, hrest, houtput⟩ := hanswered
  rw [houtput, Transcript.turns_append, hrest.turns_eq_nil, List.append_nil] at hturn
  exact took_startBeacon hphase hturn

theorem turnless_rearm (slot now : Nat) (e : Engine) :
    Transcript.Turnless (rearm slot now e).output := by
  simp only [rearm, Act.bind_apply, Act.get_apply, Done.after_nil]
  split
  · exact (Scheduler.inner_rearm e.state slot now).turnless e.scheduler
  · exact Transcript.turnless_nil

/-- Of what follows a write only a restart after a factory reset gives slots their turns. -/
theorem took_follow {e : Engine} (hphase : e.InPhase) {effect : WriteEffect} {now : Nat}
    {started : Option Bytes} {turn : Turn}
    (hturn : turn ∈ Transcript.turns started (follow effect now e).output) :
    e.state.interval? turn.slot ≠ none := by
  have hnone {action : Act Engine Unit} (hturnless : ∀ e, Transcript.Turnless (action e).output)
      (hturn : turn ∈ Transcript.turns started (action e).output) :
      e.state.interval? turn.slot ≠ none := by
    rw [(hturnless e).turns_eq_nil] at hturn
    cases hturn
  cases effect with
  | none => exact hnone (Transcript.turnless_pure _) hturn
  | intervalChanged slot => exact hnone (turnless_rearm slot now) hturn
  | slotChanged slot =>
      have hturnless : ∀ e, Transcript.Turnless (follow (.slotChanged slot) now e).output :=
        Transcript.turnless_bind (turnless_rearm slot now) fun _ _ =>
          Transcript.turnless_singleton rfl
      exact hnone hturnless hturn
  | lock state => exact hnone (fun _ => Transcript.turnless_singleton rfl) hturn
  | factoryReset =>
      simp only [follow, Act.bind_apply, Act.emit_apply, Act.get_apply, Done.after_nil,
        Done.output_after, Transcript.turns_append] at hturn
      split at hturn
      · exact took_restart hphase hturn
      · cases hturn

end Engine

namespace Engine

theorem turnless_stop (e : Engine) : Transcript.Turnless (stop e).output := by
  apply (inner_leaveMode.turnless e).append
  exact turnless_setMode .idle _

/-- A write that is accepted gives no turn before its effect is followed. -/
theorem took_writeAttribute {e : Engine} (hphase : e.InPhase) {attr : Attribute} {offset : Nat}
    {data : Bytes} {now : Nat} {turn : Turn}
    (hturn : turn ∈ Transcript.turns none (writeAttribute attr offset data now e).output) :
    (attr.write offset data now e.state).state.interval? turn.slot ≠ none := by
  have hasides := (Attribute.asides_write attr offset data now e.state).turnless
  cases hwrite : (attr.write offset data now e.state).value with
  | error fault =>
      have hturnless : Transcript.Turnless (writeAttribute attr offset data now e).output := by
        rw [writeAttribute_output_of_error hwrite]
        exact hasides.append
          ((Transcript.turnless_singleton rfl).append (Transcript.turnless_singleton rfl))
      rw [hturnless.turns_eq_nil] at hturn
      cases hturn
  | ok effect =>
      have hwritten := (hphase.withState (attr.write offset data now e.state).state true).phase
      rw [writeAttribute_output_of_ok hwrite, Transcript.turns_append, hasides.turns_eq_nil,
        List.nil_append, Transcript.turns_append, (turnless_drainEvents _).turns_eq_nil,
        List.append_nil] at hturn
      exact took_follow hwritten hturn

end Engine

/-- Unless the host polls, a slot that has a turn is to be broadcast. -/
theorem Entry.took_of_not_poll {x : Entry} (hphase : x.before.1.InPhase)
    (hpoll : ∀ now, x.request ≠ .poll now) {turn : Turn} (hturn : turn ∈ x.output.turns none) :
    x.answered.interval? turn.slot ≠ none := by
  have hnone (hturnless : x.output.Turnless) : x.answered.interval? turn.slot ≠ none := by
    rw [hturnless.turns_eq_nil] at hturn
    cases hturn
  obtain ⟨d, request⟩ := x
  rw [output] at hturn hnone
  cases request with
  | read attr now =>
      rw [Device.serve, Act.bind_pure_apply] at hnone
      exact hnone (Engine.turnless_readAttribute attr now d.1)
  | write attr offset data now =>
      rw [Device.serve, Act.bind_pure_apply] at hturn
      exact Engine.took_writeAttribute hphase hturn
  | poll now => exact absurd rfl (hpoll now)
  | radioEvent event now =>
      rw [Device.serve, Act.bind_pure_apply] at hnone
      exact hnone (Device.turnless_radioEvent event now d)
  | command command now =>
      rw [Device.serve, Act.bind_pure_apply] at hturn hnone
      cases command with
      | startConfig => exact Engine.took_startConfig hphase hturn
      | startBeacon => exact Engine.took_startBeacon hphase hturn
      | stop =>
          rw [Device.command, Act.bind_pure_apply] at hnone
          exact hnone (Engine.turnless_stop d.1)
      | updateBattery millivolts => exact hnone Transcript.turnless_nil
      | updateTemperature temperature => exact hnone Transcript.turnless_nil
      | saveParams =>
          rw [Device.command, Act.bind_pure_apply] at hnone
          exact hnone (Device.turnless_persist now d)
  | saveIfDirty now =>
      rw [Device.serve, Act.bind_pure_apply] at hnone
      exact hnone (Device.turnless_saveIfDirty now d)

/-! ## Slots that linger -/

namespace Entry

/-- Answering a central silences a slot only if the central has written. -/
theorem answered_silenced_iff {x : Entry}
    (hwrite : ∀ attr offset data now, x.request ≠ .write attr offset data now) (slot : Nat) :
    x.answered.Silenced slot ↔ x.before.1.state.Silenced slot := by
  obtain ⟨d, request⟩ := x
  cases request with
  | read attr now =>
      have hsettings := Attribute.settings_read attr now d.1.state
      rw [State.silenced_iff_settings, State.silenced_iff_settings, answered, hsettings]
  | write attr offset data now => exact absurd rfl (hwrite attr offset data now)
  | poll now => exact Iff.rfl
  | radioEvent event now => exact Iff.rfl
  | command command now => exact Iff.rfl
  | saveIfDirty now => exact Iff.rfl

/-- What happens once a central has been answered silences no slot. -/
theorem after_silenced_iff (x : Entry) (slot : Nat) :
    x.after.1.state.Silenced slot ↔ x.answered.Silenced slot := by
  obtain ⟨t, hturns, hslots, -⟩ := x.course_eligible.replays none
  have hsetup := State.silenced_iff_of_setup_eq hturns.setup_eq.2 slot
  rw [State.Silenced, ← hslots]
  exact hsetup

/-- A write sets the interval of a slot to zero, and the slot keeps waiting. -/
structure Silences (slot : Nat) (x : Entry) : Prop where
  write : ∃ attr offset data now, x.request = .write attr offset data now
  before : ¬x.before.1.state.Silenced slot
  after : x.after.1.state.Silenced slot
  waits : x.after.1.scheduler.Waits slot

/-- The slot has an interval again, or it waits no more. -/
def Settles (slot : Nat) (x : Entry) : Prop :=
  ¬(x.after.1.scheduler.Waits slot ∧ x.after.1.state.Silenced slot)

/-- A slot that is silenced is not made to wait. -/
theorem waits_of_silenced {x : Entry} {slot : Nat} (hsilenced : x.after.1.state.Silenced slot)
    (hwaits : x.after.1.scheduler.Waits slot) : x.before.1.scheduler.Waits slot := by
  cases x.course_eligible.within slot (.inl hwaits) with
  | inl hbefore => exact hbefore
  | inr hinterval =>
      have hanswered := (x.after_silenced_iff slot).mp hsilenced
      exact absurd hanswered.interval?_eq_none hinterval

end Entry

/-- A write has silenced the slot while it waited, and it has waited ever since. -/
def History.Lingers (slot : Nat) : History → Prop :=
  History.Since (Entry.Silences slot) (Entry.Settles slot)

namespace Device

theorem Booted.not_waits {config : Config} {store : Store} {d : Device}
    (hbooted : Booted config store d) (slot : Nat) : ¬d.1.scheduler.Waits slot := by
  obtain ⟨radio, slots, identity, rng, now, -, -, rfl⟩ := hbooted.exists_state
  rw [(persist_keeps now _).1]
  intro hwaits
  cases hwaits with
  | inl hqueue => cases hqueue
  | inr htimer =>
      obtain ⟨t, hmem, -⟩ := htimer
      cases hmem

/-- The silenced slots that wait are those that linger. -/
theorem waits_silenced_iff_lingers {config : Config} {store : Store} {start d : Device}
    {history : History} (hbooted : Booted config store start) (hrun : Run start history d)
    (slot : Nat) :
    d.1.scheduler.Waits slot ∧ d.1.state.Silenced slot ↔ history.Lingers slot := by
  induction hrun with
  | start =>
      constructor
      · intro h
        exact absurd h.1 (hbooted.not_waits slot)
      · intro h
        exact absurd h (History.not_since_nil _ _)
  | @serve history d request _ ih =>
      let x : Entry := ⟨d, request⟩
      rw [History.Lingers, History.since_append]
      constructor
      · rintro ⟨hwaits, hsilenced⟩
        have hsettles : ¬x.Settles slot := fun h => h ⟨hwaits, hsilenced⟩
        have hbefore := Entry.waits_of_silenced (x := x) hsilenced hwaits
        -- Either the slot was silenced before, or the request is what has silenced it.
        by_cases h : d.1.state.Silenced slot
        · exact .inr ⟨ih.mp ⟨hbefore, h⟩, hsettles⟩
        · left
          refine ⟨?_, h, hsilenced, hwaits⟩
          by_contra hwrite
          have hanswered := (x.after_silenced_iff slot).mp hsilenced
          refine h ((Entry.answered_silenced_iff ?_ slot).mp hanswered)
          intro attr offset data now hrequest
          exact hwrite ⟨attr, offset, data, now, hrequest⟩
      · intro h
        cases h with
        | inl hsilences => exact ⟨hsilences.waits, hsilences.after⟩
        | inr hlingers => exact not_not.mp hlingers.2

/-- A slot that is reported to be on air has been taken by the radio at some moment.  Whenever the
radio takes what a slot has to send, the slot has a frame, and it has an interval unless it lingers
and the host polls. -/
theorem airs_silenced_iff_lingers {config : Config} {store : Store} {start d : Device}
    {history : History} (hbooted : Booted config store start) (hrun : Run start history d)
    (request : Request) :
    (∀ slot, .notice (.slotOnAir slot) ∈ Entry.output ⟨d, request⟩ →
        ∃ m ∈ Entry.moments ⟨d, request⟩, ∃ payload,
          m.deed = .took ⟨slot, some payload⟩ request.time ∧
            .radio (.start payload) none ∈ Entry.output ⟨d, request⟩) ∧
      ∀ m ∈ Entry.moments ⟨d, request⟩, ∀ {slot now : Nat} {payload : Bytes},
        m.deed = .took ⟨slot, some payload⟩ now →
          ∃ held, m.state.slots.slot? slot = some held ∧ held.frame.isSome ∧
            (held.interval = 0 ↔ request = .poll now ∧ history.Lingers slot) := by
  let x : Entry := ⟨d, request⟩
  have hreach := (Reachable.boot hbooted).of_run hrun
  have htold : x.before.1.state.pendingEvents = [] := hreach.pendingEvents
  refine ⟨fun slot hnotice => Entry.exists_moment_of_onAir hnotice,
    fun m hm {slot now payload} hdeed => ?_⟩
  obtain ⟨advert, hadvert, -⟩ := Entry.faithful htold hm slot payload now hdeed
  obtain ⟨held, hheld, hframe⟩ := State.frame_of_prepare hadvert
  obtain ⟨hturn, htime, hsetup⟩ := Entry.turn_of_moment htold hm hdeed
  have hlingers := waits_silenced_iff_lingers hbooted hrun slot
  have hinterval : held.interval = 0 ↔ x.answered.Silenced slot := by
    rw [← State.silenced_iff_of_setup_eq hsetup, State.Silenced, hheld, Option.map_some,
      Option.some.injEq]
  refine ⟨held, hheld, hframe, hinterval.trans ?_⟩
  constructor
  · intro hsilenced
    by_cases hpoll : ∃ time, request = .poll time
    · obtain ⟨time, rfl⟩ := hpoll
      refine ⟨congrArg Request.poll htime.symm, hlingers.mp ?_⟩
      cases x.course_eligible.took none _ hturn with
      | inl hwaits => exact ⟨hwaits, hsilenced⟩
      | inr hinterval => exact absurd hsilenced.interval?_eq_none hinterval
    · -- Other requests clear the queue before they give a slot its turn.
      have hnot (time : Nat) : x.request ≠ .poll time := fun h => hpoll ⟨time, h⟩
      have hinterval := Entry.took_of_not_poll hreach.inPhase hnot hturn
      exact absurd hsilenced.interval?_eq_none hinterval
  · rintro ⟨rfl, h⟩
    exact (hlingers.mpr h).2

/-! ## A slot that goes on air although it is silenced -/

/-- Two slots take turns. -/
def paired : Config :=
  { Config.standard with slotIntervals := #v[700, 700, 0] }

/-- The first slot goes on air, and the second one is silenced while it waits. -/
def silencing (start : Device) : Device :=
  let beaconing := (serve (.command .startBeacon 0) start).state
  let chosen := (serve (.write .activeSlot 0 [1] 0) beaconing).state
  (serve (.write .advInterval 0 [0, 0] 0) chosen).state

/-- What the second slot is set to, and what the next poll is going to do. -/
def upcoming (d : Device) : Option UInt16 × List (Nat × Bool) × List Bool :=
  let round := Engine.fireOne 100 d.1
  let turns := Transcript.turns none round.output
  ((d.1.state.slots.slot? 1).map Slot.interval,
    turns.map fun turn => (turn.slot, turn.sent.isSome),
    [round.value.isSome, (Engine.fireOne 100 round.state).value.isSome])

theorem exists_upcoming :
    ∃ start, Booted paired ⟨.memory none, fun _ _ => none, 0⟩ start ∧
      upcoming (silencing start) = (some 0, [(1, true)], [true, false]) :=
  exists_booted_of_eq (.idle 100 10240 fun _ _ => none) (some (Octets.zero 32)) 0
    (fun start => upcoming (silencing start)) (by decide +kernel)

/-- What a poll puts out begins with what the first timer that is due does. -/
theorem output_poll_of_some {d : Device} {now : Nat} {task : Task}
    (hsome : (Engine.fireOne now d.1).value = some task)
    (hends : Act.Ends (Engine.fireOne now) (Engine.fireOne now d.1).state) :
    ∃ rest : Transcript,
      Entry.output ⟨d, .poll now⟩ = (Engine.fireOne now d.1).output ++ rest := by
  have hgather := Act.gather_of_some hsome hends
  simp only [Entry.output, serve, onEngine, Engine.poll, Act.bind_apply, Act.onFst_apply,
    Act.pure_apply, Done.output_after, List.append_nil, hgather, List.append_assoc]
  exact ⟨_, rfl⟩

theorem run_silencing (start : Device) : ∃ history, Run start history (silencing start) := by
  have hbeaconing := (Run.start : Run start [] start).serve (.command .startBeacon 0)
  have hchosen := hbeaconing.serve (.write .activeSlot 0 [1] 0)
  exact ⟨_, hchosen.serve (.write .advInterval 0 [0, 0] 0)⟩

theorem exists_moment_of_upcoming {d : Device} {interval : Option UInt16}
    (h : upcoming d = (interval, [(1, true)], [true, false])) :
    ∃ m payload, m ∈ Entry.moments ⟨d, .poll 100⟩ ∧ m.deed = .took ⟨1, some payload⟩ 100 ∧
      (m.state.slots.slot? 1).map Slot.interval = interval := by
  simp only [upcoming, Prod.mk.injEq, List.cons.injEq, and_true] at h
  obtain ⟨hinterval, hturns, hsome, hnone⟩ := h
  obtain ⟨task, hsome⟩ := Option.isSome_iff_exists.mp hsome
  have hends : Act.Ends (Engine.fireOne 100) (Engine.fireOne 100 d.1).state :=
    .stop (Option.not_isSome_iff_eq_none.mp (by simp [hnone]))
  obtain ⟨rest, houtput⟩ := output_poll_of_some hsome hends
  obtain ⟨⟨slot, sent⟩, others, hfirst, hturn, -⟩ := List.map_eq_cons_iff.mp hturns
  simp only [Prod.mk.injEq] at hturn
  obtain ⟨rfl, hsent⟩ := hturn
  obtain ⟨payload, rfl⟩ := Option.isSome_iff_exists.mp hsent
  refine ⟨⟨d.1.state.hush, .took ⟨1, some payload⟩ 100⟩, payload, ?_, rfl, hinterval⟩
  rw [Entry.moments, Entry.deeds, houtput, Transcript.turns_append, hfirst]
  exact List.mem_cons_self

/-- A slot that is silenced while it waits goes on air when its turn comes. -/
theorem exists_silenced_airing :
    ∃ store start history d m payload, Booted paired store start ∧ Run start history d ∧
      m ∈ Entry.moments ⟨d, .poll 100⟩ ∧ m.deed = .took ⟨1, some payload⟩ 100 ∧
      (m.state.slots.slot? 1).map Slot.interval = some 0 := by
  obtain ⟨start, hbooted, hupcoming⟩ := exists_upcoming
  obtain ⟨history, hrun⟩ := run_silencing start
  obtain ⟨m, payload, hm, hdeed, hinterval⟩ := exists_moment_of_upcoming hupcoming
  exact ⟨_, start, history, _, m, payload, hbooted, hrun, hm, hdeed, hinterval⟩

/-- A slot that lingers goes on air. -/
theorem lingering_slot_airs :
    ∃ store start history d m payload, Booted paired store start ∧ Run start history d ∧
      m ∈ Entry.moments ⟨d, .poll 100⟩ ∧ m.deed = .took ⟨1, some payload⟩ 100 ∧
      history.Lingers 1 := by
  obtain ⟨store, start, history, d, m, payload, hbooted, hrun, hm, hdeed, hinterval⟩ :=
    exists_silenced_airing
  obtain ⟨held, hheld, -, hlingers⟩ := (airs_silenced_iff_lingers hbooted hrun _).2 m hm hdeed
  rw [hheld, Option.map_some, Option.some.injEq] at hinterval
  exact ⟨store, start, history, d, m, payload, hbooted, hrun, hm, hdeed, (hlingers.mp hinterval).2⟩

/-- Not every slot that goes on air has an interval. -/
theorem not_always_with_interval :
    ¬∀ (config : Config) (store : Store) (start d : Device) (history : History) (request : Request)
        (m : Moment) (slot now : Nat) (payload : Bytes), Booted config store start →
      Run start history d → m ∈ Entry.moments ⟨d, request⟩ →
      m.deed = .took ⟨slot, some payload⟩ now →
      ∃ held, m.state.slots.slot? slot = some held ∧ held.frame.isSome ∧ held.interval ≠ 0 := by
  intro halways
  obtain ⟨store, start, history, d, m, payload, hbooted, hrun, hm, hdeed, hinterval⟩ :=
    exists_silenced_airing
  obtain ⟨held, hheld, -, hne⟩ := halways _ _ _ _ _ _ _ _ _ _ hbooted hrun hm hdeed
  rw [hheld, Option.map_some, Option.some.injEq] at hinterval
  exact hne hinterval

end Device

end Beacon

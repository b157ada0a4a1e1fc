import Beacon.Proofs.Coherence
import Beacon.Proofs.Setup

/-!
# Phases of the engine

Between two requests the engine is in one of four phases: quiet, with no timer
at all, waiting for the end of configuration mode, waiting to resume, or on air.
The phase is what the timers and their handles say; the mode is only reported.

Here the modes are entered and left.  Whatever the phase was, leaving it makes
the engine quiet.
-/

namespace Beacon

namespace Engine

variable {α : Type}

/-- No timer is pending and nothing is on air. -/
structure Quiet (e : Engine) : Prop where
  atRest : e.scheduler.AtRest
  pending : e.scheduler.timers.pending = []
  configTimer : e.configTimer = none
  resumeTimer : e.resumeTimer = none

/-- The configuration service is on air until a timer fires. -/
structure Configuring (t : Timer) (e : Engine) : Prop where
  mode : e.mode = .config
  atRest : e.scheduler.AtRest
  pending : e.scheduler.timers.pending = [t]
  task : t.task = .configTimeout
  period : t.period = none
  configTimer : e.configTimer = some t.id
  resumeTimer : e.resumeTimer = none

/-- Nothing is on air until a timer fires. -/
structure Pausing (t : Timer) (e : Engine) : Prop where
  mode : e.mode = .idle
  atRest : e.scheduler.AtRest
  pending : e.scheduler.timers.pending = [t]
  task : t.task = .resumeBeacon
  period : t.period = none
  configTimer : e.configTimer = none
  resumeTimer : e.resumeTimer = some t.id

/-- The slots take turns on air. -/
structure Beaconing (e : Engine) : Prop where
  mode : e.mode = .beacon
  running : e.scheduler.running = true
  coherent : e.scheduler.Coherent
  configTimer : e.configTimer = none
  resumeTimer : e.resumeTimer = none

inductive InPhase (e : Engine) : Prop
  | quiet : e.Quiet → InPhase e
  | configuring {t : Timer} : e.Configuring t → InPhase e
  | pausing {t : Timer} : e.Pausing t → InPhase e
  | beaconing : e.Beaconing → InPhase e

/-- The scheduler is at rest, but on air. -/
theorem InPhase.atRest_or_beaconing {e : Engine} (hphase : e.InPhase) :
    e.scheduler.AtRest ∨ e.Beaconing := by
  cases hphase with
  | quiet h => exact .inl h.atRest
  | configuring h => exact .inl h.atRest
  | pausing h => exact .inl h.atRest
  | beaconing h => exact .inr h

theorem InPhase.beaconing_of_running {e : Engine} (hphase : e.InPhase)
    (hrunning : e.scheduler.running = true) : e.Beaconing := by
  apply hphase.atRest_or_beaconing.resolve_left
  intro hrest
  cases hrest.running.symm.trans hrunning

/-- Every pending timer is one that the engine can cancel. -/
theorem InPhase.owned {e : Engine} (hphase : e.InPhase) :
    e.scheduler.timers.ids.Perm
      (e.configTimer.toList ++ (e.resumeTimer.toList ++ (e.scheduler.handles ++ []))) := by
  cases hphase with
  | quiet h =>
      simp [TimerQueue.ids, h.pending, h.configTimer, h.resumeTimer, h.atRest.handles_eq]
  | configuring h =>
      simp [TimerQueue.ids, h.pending, h.configTimer, h.resumeTimer, h.atRest.handles_eq]
  | pausing h =>
      simp [TimerQueue.ids, h.pending, h.configTimer, h.resumeTimer, h.atRest.handles_eq]
  | beaconing h => simpa [h.configTimer, h.resumeTimer] using h.coherent.owned

/-! ## Parts of the engine -/

theorem onRadio_apply (action : Act Radio α) (e : Engine) :
    onRadio action e =
      ⟨(action e.scheduler.radio).value,
        { e with scheduler.radio := (action e.scheduler.radio).state },
        (action e.scheduler.radio).output⟩ := rfl

theorem setMode_state (mode : Mode) (e : Engine) : (setMode mode e).state = { e with mode } := by
  simp only [setMode, Act.bind_apply, Act.get_apply, Done.after_nil]
  split
  next hmode =>
    subst hmode
    rfl
  next => rfl

/-! ## Leaving a mode -/

theorem InPhase.leaveMode {e : Engine} (hphase : e.InPhase) : (leaveMode e).state.Quiet where
  atRest := Scheduler.atRest_stop _
  pending := by
    have howned : (cancelModeTimers e).scheduler.timers.ids.Perm (e.scheduler.handles ++ []) :=
      TimerQueue.ids_cancel?_perm (TimerQueue.ids_cancel?_perm hphase.owned)
    exact TimerQueue.pending_eq_nil_of_ids (Scheduler.ids_stop_perm howned)
  configTimer := rfl
  resumeTimer := rfl

theorem verdict_leaveMode : Act.Keeps (fun e : Engine => e.scheduler.radio.verdict) leaveMode := by
  intro e
  exact Radio.verdict_quiet e.scheduler.radio

theorem decided_leaveMode : Act.Keeps (fun e : Engine => e.scheduler.radio.decided) leaveMode := by
  intro e
  exact Radio.decided_quiet e.scheduler.radio

/-! ## Configuration mode -/

/-- The stack accepts the configuration advert in the call after `n` others and in the next. -/
def Accepts (n : Nat) (scan payload : Bytes) (radio : Radio) : Prop :=
  radio.refusal? n (.scanResponse scan) = none ∧ radio.refusal? (n + 1) (.start payload) = none

theorem accepts_congr {radio other : Radio} (h : radio.verdict = other.verdict) (n : Nat)
    (scan payload : Bytes) : Accepts n scan payload radio ↔ Accepts n scan payload other := by
  rw [Accepts, Accepts, Radio.refusal?_congr h, Radio.refusal?_congr h]

theorem askRadio_of_refusal {call : RadioCall} {e : Engine} {fault : RadioFault}
    (h : e.scheduler.radio.refusal? e.scheduler.radio.decided call = some fault) :
    (askRadio call e).value = .error (.radio fault) ∧
      (askRadio call e).state =
        { e with scheduler.radio.decided := e.scheduler.radio.decided + 1 } := by
  simp only [askRadio, Act.bind_apply, Done.value_after, Done.state_after, onRadio_apply,
    Radio.ask_of_refusal h]
  exact ⟨rfl, rfl⟩

theorem askRadio_of_no_refusal {call : RadioCall} {e : Engine}
    (h : e.scheduler.radio.refusal? e.scheduler.radio.decided call = none) :
    (askRadio call e).value = .ok () ∧
      (askRadio call e).state =
        { e with
          scheduler.radio :=
            Radio.apply call
              { e.scheduler.radio with decided := e.scheduler.radio.decided + 1 } } := by
  simp only [askRadio, Act.bind_apply, Done.value_after, Done.state_after, onRadio_apply,
    Radio.ask_of_no_refusal h]
  exact ⟨rfl, rfl⟩

theorem startConnectable_eq (payload : Bytes) (e : Engine) :
    ∃ told calls,
      told.verdict = e.scheduler.radio.verdict ∧ told.decided = e.scheduler.radio.decided ∧
      startConnectable payload e =
        (askRadio (.start payload) { e with scheduler.radio := told }).after calls := by
  simp only [startConnectable, Act.bind_apply, Act.get_apply, onRadio_apply,
    Radio.tell_apply, Done.after_after]
  refine ⟨_, _, ?_, ?_, rfl⟩
  · simp only [Radio.verdict_apply]
  · simp only [Radio.decided_apply]

theorem startConnectable_cases (payload : Bytes) (e : Engine) :
    ∃ radio,
      (startConnectable payload e).state = { e with scheduler.radio := radio } ∧
      radio.verdict = e.scheduler.radio.verdict ∧
      radio.decided = e.scheduler.radio.decided + 1 ∧
      (startConnectable payload e).value =
        match e.scheduler.radio.refusal? e.scheduler.radio.decided (.start payload) with
        | none => .ok ()
        | some fault => .error (.radio fault) := by
  obtain ⟨told, calls, hverdict, hdecided, heq⟩ := startConnectable_eq payload e
  have hrefusal : e.scheduler.radio.refusal? e.scheduler.radio.decided (.start payload) =
      told.refusal? told.decided (.start payload) := by
    rw [hdecided]
    exact Radio.refusal?_congr hverdict.symm _ _
  rw [heq, hrefusal, ← hverdict, ← hdecided]
  cases h : told.refusal? told.decided (.start payload) with
  | none =>
      obtain ⟨hvalue, hstate⟩ :=
        askRadio_of_no_refusal (e := { e with scheduler.radio := told }) h
      exact ⟨_, hstate, rfl, rfl, hvalue⟩
  | some fault =>
      obtain ⟨hvalue, hstate⟩ :=
        askRadio_of_refusal (e := { e with scheduler.radio := told }) h
      exact ⟨_, hstate, rfl, rfl, hvalue⟩

theorem startConfigAdvert_cases (scan payload : Bytes) (e : Engine) :
    ∃ radio,
      (startConfigAdvert scan payload e).state = { e with scheduler.radio := radio } ∧
      radio.verdict = e.scheduler.radio.verdict ∧
      ((¬Accepts e.scheduler.radio.decided scan payload e.scheduler.radio ∧
          ∃ fault, (startConfigAdvert scan payload e).value = .error (.radio fault)) ∨
        (Accepts e.scheduler.radio.decided scan payload e.scheduler.radio ∧
          (startConfigAdvert scan payload e).value = .ok () ∧
          radio.decided = e.scheduler.radio.decided + 2)) := by
  unfold startConfigAdvert
  simp only [Act.bind_apply, Done.value_after, Done.state_after]
  cases hscan : e.scheduler.radio.refusal? e.scheduler.radio.decided (.scanResponse scan) with
  | some fault =>
      obtain ⟨hvalue, hstate⟩ := askRadio_of_refusal hscan
      rw [hvalue, hstate]
      refine ⟨_, rfl, rfl, .inl ⟨?_, fault, rfl⟩⟩
      intro haccepts
      simp [haccepts.1] at hscan
  | none =>
      obtain ⟨hvalue, hstate⟩ := askRadio_of_no_refusal hscan
      rw [hvalue, hstate]
      let loaded : Engine :=
        { e with
          scheduler.radio := Radio.apply (.scanResponse scan)
            { e.scheduler.radio with decided := e.scheduler.radio.decided + 1 } }
      obtain ⟨radio, hstate, hverdict, hdecided, hvalue⟩ := startConnectable_cases payload loaded
      refine ⟨radio, hstate, hverdict, ?_⟩
      have hvalue : (startConnectable payload loaded).value =
          match e.scheduler.radio.refusal? (e.scheduler.radio.decided + 1) (.start payload) with
          | none => .ok ()
          | some fault => .error (.radio fault) := hvalue
      cases hstart : e.scheduler.radio.refusal? (e.scheduler.radio.decided + 1) (.start payload) with
      | some fault =>
          rw [hstart] at hvalue
          refine .inl ⟨fun haccepts => ?_, fault, hvalue⟩
          simp [haccepts.2] at hstart
      | none =>
          rw [hstart] at hvalue
          exact .inr ⟨⟨hscan, hstart⟩, hvalue, hdecided⟩

theorem Quiet.room {e : Engine} (hquiet : e.Quiet) :
    e.scheduler.timers.pending.length < TimerQueue.capacity := by
  rw [hquiet.pending]
  exact Nat.zero_lt_succ 5

theorem Quiet.pending_posted {e : Engine} (hquiet : e.Quiet) (deadline : Nat) (period : Option Nat)
    (task : Task) :
    (e.scheduler.timers.posted deadline period task).pending =
      [⟨e.scheduler.timers.nextId, deadline, period, task⟩] := by
  have hadmits := TimerQueue.admits_posted hquiet.room deadline period task
  exact hadmits.pending_of_nil hquiet.pending

theorem Quiet.onTimers_postIn {e : Engine} (hquiet : e.Quiet) (now delay : Nat) (task : Task) :
    onTimers (TimerQueue.postIn now delay task) e =
      ⟨some e.scheduler.timers.nextId,
        { e with scheduler.timers := e.scheduler.timers.posted (now + delay) none task }, []⟩ := by
  simp only [onTimers, onScheduler, Scheduler.onTimers, Act.within_apply, TimerQueue.postIn,
    TimerQueue.insert_of_room hquiet.room]

theorem Quiet.enterConfig_cases {e : Engine} (hquiet : e.Quiet) (scan payload : Bytes) (now : Nat) :
    (enterConfig scan payload now e).state.scheduler.radio.verdict = e.scheduler.radio.verdict ∧
      ((¬Accepts e.scheduler.radio.decided scan payload e.scheduler.radio ∧
          (∃ fault, (enterConfig scan payload now e).value = .error (.radio fault)) ∧
          (enterConfig scan payload now e).state.Quiet ∧
          (enterConfig scan payload now e).state.mode = e.mode) ∨
        (Accepts e.scheduler.radio.decided scan payload e.scheduler.radio ∧
          (enterConfig scan payload now e).value = .ok () ∧
          (enterConfig scan payload now e).state.scheduler.radio.decided =
            e.scheduler.radio.decided + 2 ∧
          ∃ t, (enterConfig scan payload now e).state.Configuring t ∧
            t.deadline = now + e.state.config.configTimeout.toNat * 1000)) := by
  obtain ⟨radio, hstate, hverdict, hcase⟩ := startConfigAdvert_cases scan payload e
  have hafter : { e with scheduler.radio := radio }.Quiet :=
    ⟨⟨hquiet.atRest.slotTimers, hquiet.atRest.manager, hquiet.atRest.queue, hquiet.atRest.running⟩,
      hquiet.pending, hquiet.configTimer, hquiet.resumeTimer⟩
  unfold enterConfig
  simp only [Act.bind_apply, Done.value_after, Done.state_after]
  rcases hcase with ⟨hrefused, fault, hvalue⟩ | ⟨haccepted, hvalue, hcalls⟩
  · rw [hvalue, hstate]
    exact ⟨hverdict, .inl ⟨hrefused, ⟨fault, rfl⟩, hafter, rfl⟩⟩
  · rw [hvalue, hstate]
    simp only [Act.bind_apply, Act.get_apply, Done.after_nil, hafter.onTimers_postIn,
      Act.modify_apply, Act.note_apply, Done.value_after, Done.state_after, setMode_state]
    exact ⟨hverdict, .inr ⟨haccepted, rfl, hcalls, _,
      ⟨rfl, ⟨hquiet.atRest.slotTimers, hquiet.atRest.manager, hquiet.atRest.queue,
        hquiet.atRest.running⟩, hquiet.pending_posted _ _ _, rfl, rfl, rfl, hquiet.resumeTimer⟩, rfl⟩⟩

theorem startConfig_of_error {e : Engine} {fault : Fault} (h : configAdvert e.state = .error fault)
    (now : Nat) : startConfig now e = ⟨.error fault, e, []⟩ := by
  simp only [startConfig, Act.bind_apply, Act.get_apply, Done.after_nil, h]
  rfl

theorem startConfig_of_advert {e : Engine} {scan payload : Bytes}
    (h : configAdvert e.state = .ok (scan, payload)) (now : Nat) :
    startConfig now e =
      (enterConfig scan payload now (leaveMode e).state).after (leaveMode e).output := by
  simp only [startConfig, Act.bind_apply, Act.get_apply, Done.after_nil, h]

/-- Configuration mode is entered if there is an advert for it and the stack accepts that.  If
there is none the engine stays as it was; if the stack refuses it the engine has gone quiet, but
says that it is in the mode that it has left. -/
theorem InPhase.startConfig_cases {e : Engine} (hphase : e.InPhase) {scan payload : Bytes}
    (hadvert : configAdvert e.state = .ok (scan, payload)) (now : Nat) :
    (startConfig now e).state.scheduler.radio.verdict = e.scheduler.radio.verdict ∧
      ((¬Accepts e.scheduler.radio.decided scan payload e.scheduler.radio ∧
          (∃ fault, (startConfig now e).value = .error (.radio fault)) ∧
          (startConfig now e).state.Quiet ∧ (startConfig now e).state.mode = e.mode) ∨
        (Accepts e.scheduler.radio.decided scan payload e.scheduler.radio ∧
          (startConfig now e).value = .ok () ∧
          (startConfig now e).state.scheduler.radio.decided = e.scheduler.radio.decided + 2 ∧
          ∃ t, (startConfig now e).state.Configuring t ∧
            t.deadline = now + e.state.config.configTimeout.toNat * 1000)) := by
  have hverdict := verdict_leaveMode e
  have hdecided := decided_leaveMode e
  have hcases := hphase.leaveMode.enterConfig_cases scan payload now
  simp only at hverdict hdecided
  rw [startConfig_of_advert hadvert, Done.state_after, Done.value_after]
  rw [hverdict, hdecided, accepts_congr hverdict] at hcases
  exact hcases

/-! ## Beaconing -/

theorem clearScanResponse_state (e : Engine) :
    (clearScanResponse e).state =
      { e with
        scheduler.radio := (Radio.ask (.scanResponse []) e.scheduler.radio).state } := by
  simp only [clearScanResponse, Act.bind_apply, Done.state_after, onRadio_apply]
  cases (Radio.ask (.scanResponse []) e.scheduler.radio).value <;> rfl

def Silent (e : Engine) : Prop :=
  ∀ i : SlotIndex, e.state.interval? i = none

theorem Quiet.pending_disarm {e : Engine} (hquiet : e.Quiet) :
    e.scheduler.disarm.timers.pending = [] := by
  apply TimerQueue.pending_eq_nil_of_ids
  apply Scheduler.ids_stop_perm (s := e.scheduler)
  simp [TimerQueue.ids, hquiet.pending, hquiet.atRest.handles_eq]

theorem Quiet.enterBeacon_of_silent {e : Engine} (hquiet : e.Quiet) (hsilent : e.Silent)
    (now : Nat) :
    (enterBeacon now e).value = .error .invalidInterval ∧
      (enterBeacon now e).state.Quiet ∧
      (enterBeacon now e).state.mode = .idle ∧
      (enterBeacon now e).state.state = e.state ∧
      (enterBeacon now e).state.scheduler.radio.verdict = e.scheduler.radio.verdict ∧
      (enterBeacon now e).state.scheduler.radio.decided = e.scheduler.radio.decided := by
  obtain ⟨hvalue, hstate⟩ := Scheduler.start_of_silent (p := e.state) hsilent now e.scheduler
  simp only [enterBeacon, onAir, Act.bind_apply, Act.within_apply, hvalue, hstate,
    Done.value_after, Done.state_after, setMode_state]
  refine ⟨rfl, ⟨Scheduler.atRest_stop _, hquiet.pending_disarm, hquiet.configTimer,
    hquiet.resumeTimer⟩, rfl, rfl, ?_, ?_⟩
  · exact Radio.verdict_quiet e.scheduler.radio
  · exact Radio.decided_quiet e.scheduler.radio

theorem Quiet.enterBeacon_of_not_silent {e : Engine} (hquiet : e.Quiet) (hloud : ¬e.Silent)
    (now : Nat) :
    (enterBeacon now e).value = .ok () ∧ (enterBeacon now e).state.Beaconing := by
  obtain ⟨i, hi⟩ := not_forall.mp hloud
  have hi : AdvertProvider.interval? e.state i.val ≠ none := hi
  obtain ⟨-, -, -, -, hvalue, -⟩ :=
    Scheduler.start_of_interval hi now e.scheduler
  obtain ⟨hcoherent, hrunning⟩ :=
    Scheduler.Coherent.start hi now hquiet.pending_disarm
  simp only [enterBeacon, onAir, Act.bind_apply, Act.within_apply, hvalue,
    Done.value_after, Done.state_after, setMode_state]
  exact ⟨rfl, rfl, hrunning, hcoherent, hquiet.configTimer, hquiet.resumeTimer⟩

theorem startBeacon_eq (now : Nat) (e : Engine) :
    ∃ calls, startBeacon now e =
      (enterBeacon now (clearScanResponse (leaveMode e).state).state).after calls := by
  simp only [startBeacon, Act.bind_apply, Done.after_after]
  exact ⟨_, rfl⟩

theorem Quiet.cleared {e : Engine} (hquiet : e.Quiet) : (clearScanResponse e).state.Quiet := by
  rw [clearScanResponse_state]
  exact ⟨⟨hquiet.atRest.slotTimers, hquiet.atRest.manager, hquiet.atRest.queue,
    hquiet.atRest.running⟩, hquiet.pending, hquiet.configTimer, hquiet.resumeTimer⟩

theorem InPhase.cleared {e : Engine} (hphase : e.InPhase) :
    (clearScanResponse (Engine.leaveMode e).state).state.Quiet :=
  hphase.leaveMode.cleared

theorem state_cleared (e : Engine) :
    (clearScanResponse (leaveMode e).state).state.state = e.state := by
  rw [clearScanResponse_state]
  rfl

/-- If no slot is to be broadcast the engine is idle. -/
theorem InPhase.startBeacon_of_silent {e : Engine} (hphase : e.InPhase) (hsilent : e.Silent)
    (now : Nat) :
    (startBeacon now e).value = .error .invalidInterval ∧
      (startBeacon now e).state.Quiet ∧
      (startBeacon now e).state.mode = .idle ∧
      (startBeacon now e).state.state = e.state ∧
      (startBeacon now e).state.scheduler.radio.verdict = e.scheduler.radio.verdict ∧
      (startBeacon now e).state.scheduler.radio.decided = e.scheduler.radio.decided + 1 := by
  obtain ⟨calls, heq⟩ := startBeacon_eq now e
  rw [heq]
  have hsilent : (clearScanResponse (Engine.leaveMode e).state).state.Silent := by
    rwa [Silent, state_cleared]
  obtain ⟨hvalue, hquiet, hmode, hstate, hverdict, hdecided⟩ :=
    hphase.cleared.enterBeacon_of_silent hsilent now
  refine ⟨hvalue, hquiet, hmode, hstate.trans (state_cleared e), hverdict.trans ?_,
    hdecided.trans ?_⟩
  · rw [clearScanResponse_state]
    exact (Radio.verdict_ask _ _).trans (verdict_leaveMode e)
  · rw [clearScanResponse_state]
    exact (Radio.decided_ask _ _).trans (congrArg (· + 1) (decided_leaveMode e))

theorem InPhase.startBeacon_of_not_silent {e : Engine} (hphase : e.InPhase) (hloud : ¬e.Silent)
    (now : Nat) : (startBeacon now e).value = .ok () ∧ (startBeacon now e).state.Beaconing := by
  obtain ⟨calls, heq⟩ := startBeacon_eq now e
  rw [heq]
  have hloud : ¬(clearScanResponse (Engine.leaveMode e).state).state.Silent := by
    rwa [Silent, state_cleared]
  exact hphase.cleared.enterBeacon_of_not_silent hloud now

theorem startBeaconOrConfig_state (now : Nat) (e : Engine) :
    (startBeaconOrConfig now e).state =
      match (startBeacon now e).value with
      | .ok () => (startBeacon now e).state
      | .error _ => (startConfig now (startBeacon now e).state).state := by
  simp only [startBeaconOrConfig, Act.bind_apply, Done.state_after]
  cases (startBeacon now e).value with
  | ok _ => rfl
  | error fault =>
      simp only [Act.bind_apply, Act.note_apply, Done.state_after]
      cases (startConfig now (startBeacon now e).state).value <;> rfl

/-- Without a slot to broadcast the engine goes back to configuration mode. -/
theorem InPhase.startBeaconOrConfig_of_silent {e : Engine} (hphase : e.InPhase)
    (hsilent : e.Silent) (now : Nat) :
    (startBeaconOrConfig now e).state.scheduler.radio.verdict = e.scheduler.radio.verdict ∧
      (((¬∃ scan payload, configAdvert e.state = .ok (scan, payload) ∧
            Accepts (e.scheduler.radio.decided + 1) scan payload e.scheduler.radio) ∧
          (startBeaconOrConfig now e).state.Quiet ∧
          (startBeaconOrConfig now e).state.mode = .idle) ∨
        ((∃ scan payload, configAdvert e.state = .ok (scan, payload) ∧
            Accepts (e.scheduler.radio.decided + 1) scan payload e.scheduler.radio) ∧
          (startBeaconOrConfig now e).state.scheduler.radio.decided =
            e.scheduler.radio.decided + 3 ∧
          ∃ t, (startBeaconOrConfig now e).state.Configuring t ∧
            t.deadline = now + e.state.config.configTimeout.toNat * 1000)) := by
  obtain ⟨hvalue, hquiet, hmode, hstate, hverdict, hdecided⟩ :=
    hphase.startBeacon_of_silent hsilent now
  rw [startBeaconOrConfig_state, hvalue]
  simp only
  cases hadvert : configAdvert e.state with
  | error fault =>
      rw [startConfig_of_error (hstate ▸ hadvert)]
      refine ⟨hverdict, .inl ⟨?_, hquiet, hmode⟩⟩
      rintro ⟨scan, payload, hok, -⟩
      simp at hok
  | ok advert =>
      obtain ⟨scan, payload⟩ := advert
      have hcases := (InPhase.quiet hquiet).startConfig_cases (hstate ▸ hadvert) now
      rw [hverdict, hdecided, hstate, hmode, accepts_congr hverdict] at hcases
      obtain ⟨hverdict, ⟨hrefused, -, hquiet, hmode⟩ | ⟨haccepted, -, hdecided, ht⟩⟩ := hcases
      · refine ⟨hverdict, .inl ⟨?_, hquiet, hmode⟩⟩
        rintro ⟨scan', payload', hok, haccepted⟩
        simp only [Except.ok.injEq, Prod.mk.injEq] at hok
        obtain ⟨rfl, rfl⟩ := hok
        exact hrefused haccepted
      · exact ⟨hverdict, .inr ⟨⟨scan, payload, rfl, haccepted⟩, hdecided, ht⟩⟩

end Engine

end Beacon

import Beacon.Proofs.Paths

/-!
# What goes on air

A scheduler that comes on air sets the interval and arms the slots.  For
configuration mode the scan response is loaded, and if that goes well the power,
the interval and the connectable flag are set and the payload is started.
-/

namespace Beacon

namespace State

/-- The power of a slot and the connectable flag can be read off the setup. -/
theorem radioTx_of_setup_eq {s t : State} (h : s.setup = t.setup) (slot : Nat) :
    (s.slots.slot? slot).map Slot.radioTx = (t.slots.slot? slot).map Slot.radioTx := by
  have hread (u : State) : (u.slots.slot? slot).map Slot.radioTx =
      (u.setup.settings.slots[slot]?).map Slot.radioTx := by
    simp only [setup, settings, Slots.slot?, Vector.getElem?_map, Option.map_map]
    rfl
  rw [hread, hread, h]

end State

namespace Scheduler

/-- The radio is set to the shortest interval. -/
def hasten (s : Scheduler) : Scheduler :=
  { s with radio := Radio.apply (.interval s.radio.minInterval) s.radio }

/-- Coming on air sets the interval and arms the slots. -/
theorem comeOnAir_apply (now : Nat) (s : Scheduler) (p : State) :
    comeOnAir now (s, p) =
      ⟨(), ({ (armAll p now SlotIndex.all s.hasten).state with running := true }, p),
        .radio (.interval s.radio.minInterval) none ::
          (armAll p now SlotIndex.all s.hasten).output⟩ := by
  simp only [comeOnAir, onRadio, hasten, Act.bind_apply, Act.get_apply, Act.onFst_apply,
    Act.within_apply, Radio.tell_apply, Act.modify_apply, Done.after, List.append_nil,
    List.nil_append, List.singleton_append]

end Scheduler

namespace Engine

theorem setMode_eq (mode : Mode) (e : Engine) :
    ∃ reports : Transcript, reports.Plain ∧ setMode mode e = ⟨(), { e with mode }, reports⟩ := by
  simp only [setMode, Act.bind_apply, Act.get_apply, Done.after_nil]
  split
  next hmode =>
    subst hmode
    exact ⟨[], Transcript.plain_nil, rfl⟩
  next =>
    have hnotice : Transcript.Plain [.notice (.modeChanged e.mode mode)] :=
      Transcript.plain_singleton rfl
    exact ⟨_, hnotice.append (Transcript.plain_singleton rfl), rfl⟩

theorem clearScanResponse_eq (e : Engine) :
    ∃ (fault : Option RadioFault) (report : Transcript), report.Plain ∧
      clearScanResponse e =
        ⟨(), { e with scheduler.radio := (Radio.ask (.scanResponse []) e.scheduler.radio).state },
          .radio (.scanResponse []) fault :: report⟩ := by
  cases h : e.scheduler.radio.refusal? e.scheduler.radio.decided (.scanResponse []) with
  | none =>
      refine ⟨none, [], Transcript.plain_nil, ?_⟩
      simp only [clearScanResponse, Act.bind_apply, onRadio_apply, Radio.ask_of_no_refusal h]
      rfl
  | some fault =>
      refine ⟨some fault, [.notice (.scanResponseKept fault)], Transcript.plain_singleton rfl, ?_⟩
      simp only [clearScanResponse, Act.bind_apply, onRadio_apply, Radio.ask_of_refusal h]
      rfl

/-- Ready to come on air: without a scan response, and with nothing armed or queued. -/
def cleared (e : Engine) : Engine :=
  (onScheduler Scheduler.stop (clearScanResponse e).state).state

theorem raise_apply (now : Nat) (e : Engine) :
    raise now e =
      ⟨(), { e.cleared with
          scheduler :=
            { (Scheduler.armAll e.cleared.state now SlotIndex.all
                e.cleared.scheduler.hasten).state with
              running := true } },
        (clearScanResponse e).output ++
          ((Radio.quiet (clearScanResponse e).state.scheduler.radio).output ++
            .radio (.interval e.cleared.scheduler.radio.minInterval) none ::
              (Scheduler.armAll e.cleared.state now SlotIndex.all
                e.cleared.scheduler.hasten).output)⟩ := by
  simp only [raise, onAir, Act.bind_apply, Act.within_apply, Scheduler.comeOnAir_apply, Done.after]
  rfl

/-- The calls to the radio for configuration mode once the scan response is loaded. -/
def configCalls (state : State) (payload : Bytes) (fault : Option RadioFault) : Transcript :=
  [.radio (.txPower state.radioLevels.top) none,
    .radio (.interval state.config.configInterval) none,
    .radio (.connectable true) none, .radio (.start payload) fault]

theorem startConnectable_apply (payload : Bytes) (e : Engine) :
    ∃ radio fault,
      startConnectable payload e =
        ⟨(match fault with
          | none => .ok ()
          | some fault => .error (.radio fault)),
          { e with scheduler.radio := radio }, configCalls e.state payload fault⟩ := by
  let told := Radio.apply (.connectable true)
    (Radio.apply (.interval e.state.config.configInterval)
      (Radio.apply (.txPower e.state.radioLevels.top) e.scheduler.radio))
  refine ⟨(Radio.ask (.start payload) told).state, told.refusal? told.decided (.start payload), ?_⟩
  simp only [startConnectable, askRadio, Act.bind_apply, Act.get_apply, onRadio_apply,
    Radio.tell_apply, Done.after_after]
  cases h : told.refusal? told.decided (.start payload) with
  | none =>
      rw [Radio.ask_of_no_refusal h]
      rfl
  | some fault =>
      rw [Radio.ask_of_refusal h]
      rfl

/-- The engine with the timer of configuration mode and nothing else to wait for. -/
def timed (radio : Radio) (now : Nat) (e : Engine) : Engine :=
  { e with
    scheduler :=
      { e.scheduler with
        radio
        timers := e.scheduler.timers.posted (now + e.state.config.configTimeout.toNat * 1000) none
          .configTimeout }
    configTimer := some e.scheduler.timers.nextId }

/-- The stack refuses the scan response or the payload, or configuration mode is on. -/
inductive ConfigOutcome (scan payload : Bytes) (now : Nat) (e : Engine) :
    Done Engine (Except Fault Unit) → Prop
  | unscanned (radio : Radio) (fault : RadioFault) :
      ConfigOutcome scan payload now e
        ⟨.error (.radio fault), { e with scheduler.radio := radio },
          [.radio (.scanResponse scan) (some fault)]⟩
  | refused (radio : Radio) (fault : RadioFault) :
      ConfigOutcome scan payload now e
        ⟨.error (.radio fault), { e with scheduler.radio := radio },
          .radio (.scanResponse scan) none :: configCalls e.state payload (some fault)⟩
  | entered (radio : Radio) {reports : Transcript} : reports.Plain →
      ConfigOutcome scan payload now e
        ⟨.ok (), { e.timed radio now with mode := .config },
          .radio (.scanResponse scan) none :: configCalls e.state payload none ++
            (.notice (.configMode e.state.config.configTimeout.toNat) :: reports)⟩

theorem Quiet.enterConfig_outcome {e : Engine} (hquiet : e.Quiet) (scan payload : Bytes)
    (now : Nat) :
    ConfigOutcome scan payload now e (enterConfig scan payload now e) := by
  cases hscan : e.scheduler.radio.refusal? e.scheduler.radio.decided (.scanResponse scan) with
  | some fault =>
      simp only [enterConfig, startConfigAdvert, askRadio, Act.bind_apply, onRadio_apply,
        Radio.ask_of_refusal hscan]
      exact .unscanned _ fault
  | none =>
      let loaded : Engine :=
        { e with
          scheduler.radio := Radio.apply (.scanResponse scan)
            { e.scheduler.radio with decided := e.scheduler.radio.decided + 1 } }
      obtain ⟨radio, fault, hstart⟩ := startConnectable_apply payload loaded
      have hadvert : startConfigAdvert scan payload e =
          (startConnectable payload loaded).after [.radio (.scanResponse scan) none] := by
        simp only [startConfigAdvert, askRadio, Act.bind_apply, onRadio_apply,
          Radio.ask_of_no_refusal hscan]
        rfl
      rw [hstart] at hadvert
      cases fault with
      | some fault =>
          simp only [enterConfig, Act.bind_apply, hadvert]
          exact .refused radio fault
      | none =>
          have hquiet : { loaded with scheduler.radio := radio }.Quiet :=
            ⟨⟨hquiet.atRest.slotTimers, hquiet.atRest.manager, hquiet.atRest.queue,
              hquiet.atRest.running⟩, hquiet.pending, hquiet.configTimer, hquiet.resumeTimer⟩
          have hpost := hquiet.onTimers_postIn now (e.state.config.configTimeout.toNat * 1000)
            .configTimeout
          obtain ⟨reports, hreports, hmode⟩ := setMode_eq .config (e.timed radio now)
          have henter : enterConfig scan payload now e =
              ((Engine.setMode .config >>= fun _ => return .ok () : Act Engine (Except Fault Unit))
                (e.timed radio now)).after
                (.radio (.scanResponse scan) none :: configCalls e.state payload none ++
                  [.notice (.configMode e.state.config.configTimeout.toNat)]) := by
            simp only [enterConfig, Act.bind_apply, hadvert, Done.value_after, Done.state_after,
              Act.get_apply, Done.after_nil]
            rw [hpost]
            rfl
          rw [henter, Act.bind_pure_apply, hmode, Done.after, List.append_assoc]
          exact .entered radio hreports

end Engine

end Beacon

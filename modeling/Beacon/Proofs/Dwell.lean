import Beacon.Proofs.Holding

/-!
# How long a slot stays on air

Once a slot is on air nothing stops the radio or starts something else before the
shortest interval of the radio is over, however late a poll comes and whatever a
central reads or writes meanwhile, unless a request leaves beacon mode or starts it
anew.
-/

namespace Beacon

open Transcript Scheduler

variable {limit now : Nat}

theorem Engine.InPhase.running_of_heldUntil {e : Engine} (hphase : e.InPhase)
    (h : e.scheduler.HeldUntil limit) : e.scheduler.running = true := by
  have hbeaconing := hphase.atRest_or_beaconing.resolve_left fun hrest => hrest.not_heldUntil h
  exact hbeaconing.running

theorem Device.mute_radioEvent {event : RadioEvent} (hevent : event ≠ .connected) (now : Nat)
    (d : Device) : Mute (radioEvent event now d).output := by
  have hunexpected (mode : Mode) :
      Mute [.notice (.unexpected event mode), .event .unexpectedRadioEvent] :=
    Mute.append (a := [_]) (mute_singleton rfl) (mute_singleton rfl)
  simp only [radioEvent, Act.bind_apply, Act.get_apply, Done.after_nil]
  cases event with
  | connected => exact absurd rfl hevent
  | disconnected =>
      cases d.1.mode with
      | connected =>
          exact (plain_persist now d).mute.append ((Engine.spares_awaitResume now).mute _)
      | idle => exact hunexpected .idle
      | config => exact hunexpected .config
      | beacon => exact hunexpected .beacon
  | advertisingStarted =>
      cases d.1.mode with
      | connected => exact hunexpected .connected
      | idle => exact hunexpected .idle
      | config => exact mute_singleton rfl
      | beacon => exact mute_singleton rfl
  | advertisingStopped => exact mute_singleton rfl

namespace Entry

/-! ## Requests -/

/-- The request takes the radio away before a time only if it leaves beacon mode or starts it anew,
and puts no slot on air for less. -/
structure Dwells (limit : Nat) (x : Entry) : Prop where
  stays : ¬x.Interrupts → x.before.1.scheduler.HeldUntil limit →
    Undisturbed x.output ∧ x.after.1.scheduler.HeldUntil limit
  airs : Airs limit x.output x.after.1.scheduler

theorem dwells_of_scheduler {x : Entry}
    (h : Scheduler.Dwells limit x.before.1.scheduler x.output x.after.1.scheduler) :
    x.Dwells limit := by
  constructor
  · intro hstays
    exact h.stays
  · exact h.airs

/-- Nothing is asked of the radio, and nothing happens to the slots. -/
theorem dwells_of_plain {x : Entry} (hplain : x.output.Plain)
    (hscheduler : x.after.1.scheduler = x.before.1.scheduler) : x.Dwells limit := by
  apply dwells_of_scheduler
  exact .plain hplain hscheduler

/-- On air the request would interrupt what is there. -/
theorem dwells_of_interrupting {x : Entry} (hphase : x.before.1.InPhase)
    (h : x.before.1.scheduler.running = true → x.Interrupts)
    (hairs : Airs limit x.output x.after.1.scheduler) : x.Dwells limit where
  stays hstays hheld := absurd (h (hphase.running_of_heldUntil hheld)) hstays
  airs := hairs

theorem dwells_read (attr : Attribute) (now : Nat) (d : Device) :
    Dwells limit ⟨d, .read attr now⟩ := by
  have hasides := (Attribute.asides_read attr now d.1.state).plain
  apply dwells_of_scheduler
  rw [output_read]
  exact .idle (hasides.mute.append (Engine.mute_drainEvents _))
    (hasides.turnless.append (Engine.turnless_drainEvents _)) id

theorem dwells_write {d : Device} (hphase : d.1.InPhase) {attr : Attribute} {offset : Nat}
    {data : Bytes} (hlimit : limit ≤ now + d.1.radio.minInterval.toNat) :
    Dwells limit ⟨d, .write attr offset data now⟩ := by
  have hasides := (Attribute.asides_write attr offset data now d.1.state).plain
  have houtput := output_write attr offset data now d
  have hafter : (after ⟨d, .write attr offset data now⟩).1 =
      (Engine.writeAttribute attr offset data now d.1).state := rfl
  cases hwrite : (attr.write offset data now d.1.state).value with
  | error fault =>
      have hrejected : Plain [.notice (.writeRejected attr fault), .event (.writeRejected attr)] :=
        Plain.append (a := [_]) (plain_singleton rfl) (plain_singleton rfl)
      apply dwells_of_plain
      · rw [houtput, Engine.writeAttribute_output_of_error hwrite]
        exact hasides.append hrejected
      · rw [hafter, (Engine.writeAttribute_of_error hwrite).2]
  | ok effect =>
      let written : Engine :=
        { d.1 with state := (attr.write offset data now d.1.state).state, paramsDirty := true }
      have hphase' : written.InPhase := (hphase.withState _ true).phase
      rw [Engine.writeAttribute_output_of_ok hwrite] at houtput
      rw [(Engine.writeAttribute_of_ok hwrite).2] at hafter
      by_cases hreset : effect = .factoryReset ∧ d.1.mode = .beacon
      · obtain ⟨rfl, hmode⟩ := hreset
        apply dwells_of_interrupting hphase
        · exact fun hrunning => (interrupts_write hwrite).mpr ⟨hrunning, rfl, hmode⟩
        · have hfollowed : Airs limit (Engine.follow .factoryReset now written).output
              (Engine.follow .factoryReset now written).state.scheduler :=
            hphase'.airs_reset hmode hlimit
          rw [houtput, hafter]
          exact (hfollowed.append (Engine.dwells_drainEvents _)).prepend hasides.turnless
      · have hfollowed : Engine.Dwells limit (Engine.follow effect now) written :=
          Engine.dwells_follow (e := written) hreset now
        apply dwells_of_scheduler
        rw [houtput, hafter]
        have hanswered : Scheduler.Dwells limit d.1.scheduler _ written.scheduler :=
          .plain hasides rfl
        exact hanswered.append (Scheduler.Dwells.append hfollowed (Engine.dwells_drainEvents _))

theorem dwells_radioEvent {d : Device} (hphase : d.1.InPhase) (event : RadioEvent) (now : Nat) :
    Dwells limit ⟨d, .radioEvent event now⟩ := by
  have houtput := output_radioEvent event now d
  have hturnless : (output ⟨d, .radioEvent event now⟩).Turnless :=
    houtput ▸ Device.turnless_radioEvent event now d
  have hafter : (after ⟨d, .radioEvent event now⟩).1 =
      (Device.radioEvent event now d).state.1 := rfl
  rcases Device.radioEvent_cases event now d with ⟨rfl, -⟩ | ⟨rfl, hmode, -⟩ | ⟨hevent, hsame⟩
  · exact dwells_of_interrupting hphase (fun hrunning => ⟨hrunning, .inl trivial⟩)
      (airs_of_turnless hturnless _)
  · exact dwells_of_scheduler (.free (hphase.quiet_of_connected hmode).atRest.manager
      (airs_of_turnless hturnless _))
  · apply dwells_of_scheduler
    rw [hafter, hsame]
    exact .idle (houtput ▸ Device.mute_radioEvent hevent now d) hturnless id

theorem dwells_startConfig {d : Device} (hphase : d.1.InPhase) (now : Nat) :
    Dwells limit ⟨d, .command .startConfig now⟩ := by
  have houtput : output ⟨d, .command .startConfig now⟩ = (Engine.startConfig now d.1).output :=
    output_command .startConfig now d
  have hturnless : (output ⟨d, .command .startConfig now⟩).Turnless :=
    houtput ▸ hphase.turnless_startConfig
  cases hadvert : Engine.configAdvert d.1.state with
  | error fault =>
      have hnothing : Engine.startConfig now d.1 = ⟨.error fault, d.1, []⟩ :=
        Engine.startConfig_of_error hadvert now
      apply dwells_of_plain
      · rw [houtput, hnothing]
        exact plain_nil
      · exact congrArg (fun done => done.state.scheduler) hnothing
  | ok advert =>
      exact dwells_of_interrupting hphase
        (fun hrunning => interrupts_startConfig hphase hadvert hrunning now)
        (airs_of_turnless hturnless _)

theorem dwells_command {d : Device} (hphase : d.1.InPhase) (command : Command)
    (hlimit : limit ≤ now + d.1.radio.minInterval.toNat) :
    Dwells limit ⟨d, .command command now⟩ := by
  have houtput := output_command command now d
  cases command with
  | startConfig => exact dwells_startConfig hphase now
  | startBeacon =>
      refine dwells_of_interrupting hphase (fun hrunning => ⟨hrunning, .inl trivial⟩) ?_
      rw [houtput]
      exact hphase.airs_startBeacon hlimit
  | stop =>
      refine dwells_of_interrupting hphase (fun hrunning => ⟨hrunning, .inl trivial⟩) ?_
      rw [output_stop]
      exact airs_of_turnless (Engine.turnless_stop d.1) _
  | updateBattery millivolts => exact dwells_of_plain (houtput ▸ plain_nil) rfl
  | updateTemperature temperature => exact dwells_of_plain (houtput ▸ plain_nil) rfl
  | saveParams =>
      refine dwells_of_plain ?_ (Device.persist_keeps now d).1
      rw [output_saveParams]
      exact Device.plain_persist now d

/-- A request leaves alone what is on air, unless it leaves beacon mode or starts it anew. -/
theorem dwells {x : Entry} (hphase : x.before.1.InPhase) (hearly : x.request.time < limit)
    (hlimit : limit ≤ x.request.time + x.before.1.radio.minInterval.toNat) : x.Dwells limit := by
  obtain ⟨d, request⟩ := x
  cases request with
  | read attr now => exact dwells_read attr now d
  | write attr offset data now => exact dwells_write hphase hlimit
  | poll now =>
      apply dwells_of_scheduler
      rw [output_poll]
      exact hphase.dwells_poll hearly hlimit
  | radioEvent event now => exact dwells_radioEvent hphase event now
  | command command now => exact dwells_command hphase command hlimit
  | saveIfDirty now =>
      refine dwells_of_plain ?_ (Device.saveIfDirty_keeps now d).1
      rw [output_saveIfDirty]
      exact Device.plain_saveIfDirty now d

theorem minInterval_after {x : Entry} (hphase : x.before.1.InPhase) :
    x.after.1.radio.minInterval = x.before.1.radio.minInterval := by
  rw [heard_eq hphase, Radio.minInterval_heard]

end Entry

/-! ## Runs -/

/-- A run comes to each of its requests and goes on after it. -/
theorem Run.split {d d' : Device} {earlier later : History} {x : Entry}
    (hrun : Run d (earlier ++ x :: later) d') : Run d earlier x.before ∧ Run x.after later d' := by
  generalize hwhole : earlier ++ x :: later = whole at hrun
  induction hrun generalizing later with
  | start => simp at hwhole
  | @serve history d' request hrun ih =>
      rcases List.eq_nil_or_concat later with rfl | ⟨front, y, rfl⟩
      · obtain ⟨rfl, hlast⟩ := List.append_inj' hwhole rfl
        cases hlast
        exact ⟨hrun, .start⟩
      · rw [List.concat_eq_append, ← List.cons_append, ← List.append_assoc] at hwhole
        obtain ⟨hfront, hlast⟩ := List.append_inj' hwhole rfl
        cases hlast
        obtain ⟨hbefore, hafter⟩ := ih hfront
        rw [List.concat_eq_append]
        exact ⟨hbefore, hafter.serve request⟩

section

variable {d d' : Device} {between : History}

theorem Run.inPhase (hrun : Run d between d') (hphase : d.1.InPhase) : d'.1.InPhase := by
  induction hrun with
  | start => exact hphase
  | @serve history d' request hrun ih => exact (Entry.leaves (x := ⟨d', request⟩) ih).phase

theorem Run.minInterval_eq (hrun : Run d between d') (hphase : d.1.InPhase) :
    d'.1.radio.minInterval = d.1.radio.minInterval := by
  induction hrun with
  | start => rfl
  | @serve history d' request hrun ih =>
      exact (Entry.minInterval_after (x := ⟨d', request⟩) (hrun.inPhase hphase)).trans ih

/-- As long as nothing interrupts it the radio is held until the shortest interval is over. -/
theorem Run.heldUntil (hrun : Run d between d') (hphase : d.1.InPhase)
    (hheld : d.1.scheduler.HeldUntil limit)
    (htimes : ∀ z ∈ between, z.request.time < limit ∧
      limit ≤ z.request.time + d.1.radio.minInterval.toNat)
    (hstays : ∀ z ∈ between, ¬z.Interrupts) : d'.1.scheduler.HeldUntil limit := by
  induction hrun with
  | start => exact hheld
  | @serve history d' request hrun ih =>
      have hbefore := ih (fun z hz => htimes z (List.mem_append_left _ hz))
        fun z hz => hstays z (List.mem_append_left _ hz)
      obtain ⟨hearly, hlimit⟩ := htimes ⟨d', request⟩ (by simp)
      rw [← hrun.minInterval_eq hphase] at hlimit
      have hdwells := Entry.dwells (x := ⟨d', request⟩) (hrun.inPhase hphase) hearly hlimit
      exact (hdwells.stays (hstays _ (by simp)) hbefore).2

theorem Run.undisturbed {y : Entry} (hrun : Run d between y.before) (hphase : d.1.InPhase)
    (hheld : d.1.scheduler.HeldUntil limit)
    (htimes : ∀ z ∈ between ++ [y], z.request.time < limit ∧
      limit ≤ z.request.time + d.1.radio.minInterval.toNat)
    (hstays : ∀ z ∈ between ++ [y], ¬z.Interrupts) : y.output.Undisturbed := by
  have hlast := hrun.heldUntil hphase hheld (fun z hz => htimes z (List.mem_append_left _ hz))
    fun z hz => hstays z (List.mem_append_left _ hz)
  obtain ⟨hearly, hlimit⟩ := htimes y (by simp)
  rw [← hrun.minInterval_eq hphase] at hlimit
  have hdwells := y.dwells (hrun.inPhase hphase) hearly hlimit
  exact (hdwells.stays (hstays y (by simp)) hlast).1

end

def Output.isOnAir : Output → Bool
  | .notice (.slotOnAir _) => true
  | _ => false

theorem Output.eq_onAir_of_isOnAir {output : Output} (h : output.isOnAir) :
    ∃ slot, output = .notice (.slotOnAir slot) := by
  cases output with
  | notice notice =>
      cases notice <;> first
        | exact ⟨_, rfl⟩
        | cases h
  | radio call fault => cases h
  | event event => cases h
  | store call fault => cases h

namespace Device

variable {config : Config} {store : Store} {start d : Device} {history : History}

/-- In a run whose times do not decrease a slot that goes on air stays there for the shortest
interval of the radio: before that is over nothing stops the radio or starts something else, neither
in the same request nor in one that follows, unless a request leaves beacon mode or starts it anew
meanwhile. -/
theorem slot_stays_on_air (hbooted : Booted config store start) (hrun : Run start history d)
    (hordered : history.Pairwise fun x y => x.request.time ≤ y.request.time)
    {earlier later : History} {x : Entry} (hhistory : history = earlier ++ x :: later)
    {before after : Transcript} {slot : Nat}
    (hout : x.output = before ++ .notice (.slotOnAir slot) :: after) :
    (0 < start.1.radio.minInterval.toNat → after.Undisturbed) ∧
      ∀ between y rest, later = between ++ y :: rest → (∀ z ∈ between ++ [y], ¬z.Interrupts) →
        y.request.time < x.request.time + start.1.radio.minInterval.toNat →
          y.output.Undisturbed := by
  subst hhistory
  obtain ⟨hearlier, hlater⟩ := hrun.split
  have hphase : start.1.InPhase := .quiet hbooted.quiet
  have hbefore := hearlier.inPhase hphase
  have hinterval := hearlier.minInterval_eq hphase
  have hinterval' := (Entry.minInterval_after hbefore).trans hinterval
  generalize start.1.radio.minInterval = shortest at hinterval hinterval' ⊢
  have hairs (hpositive : 0 < shortest.toNat) :
      after.Undisturbed ∧ x.after.1.scheduler.HeldUntil (x.request.time + shortest.toNat) := by
    have hlimit : x.request.time + shortest.toNat ≤
        x.request.time + x.before.1.radio.minInterval.toNat :=
      hinterval ▸ Nat.le_refl _
    exact (x.dwells hbefore (Nat.lt_add_of_pos_right hpositive) hlimit).airs before slot after hout
  refine ⟨fun hpositive => (hairs hpositive).1, ?_⟩
  rintro between y rest rfl hstays hearly
  obtain ⟨hfirst, hothers⟩ := List.pairwise_cons.mp (List.pairwise_append.mp hordered).2.1
  have htimes (z : Entry) (hz : z ∈ between ++ [y]) :
      x.request.time ≤ z.request.time ∧ z.request.time ≤ y.request.time := by
    cases List.mem_append.mp hz with
    | inl hz =>
        exact ⟨hfirst z (List.mem_append_left _ hz),
          (List.pairwise_append.mp hothers).2.2 z hz y List.mem_cons_self⟩
    | inr hz =>
        rw [List.mem_singleton.mp hz]
        exact ⟨hfirst y (by simp), Nat.le_refl _⟩
  have hheld := (hairs (by have := hfirst y (by simp); omega)).2
  refine hlater.split.1.undisturbed (x.leaves hbefore).phase hheld (fun z hz => ?_) hstays
  obtain ⟨hlate, hbeforehand⟩ := htimes z hz
  rw [hinterval']
  exact ⟨Nat.lt_of_le_of_lt hbeforehand hearly, Nat.add_le_add_right hlate _⟩

/-- A start, a write that arms a slot anew, and a poll at the last moment at which the first slot is
to have the radio. -/
def dwelling (start : Device) : History :=
  let x : Entry := ⟨start, .command .startBeacon 0⟩
  let y : Entry := ⟨x.after, .write .advInterval 0 [11, 184] 50⟩
  [x, y, ⟨y.after, .poll 999⟩]

theorem run_dwelling (start : Device) : ∃ d, Run start (dwelling start) d :=
  ⟨_, ((Run.start.serve _).serve _).serve _⟩

/-- With a shortest interval of one second the first slot has the radio for a second, although the
second one is rung for meanwhile. -/
theorem slot_stays_on_air_for_a_second :
    ∃ start x y z slot, Booted paired ⟨.memory none, fun _ _ => none, 0⟩ start ∧
      dwelling start = [x, y, z] ∧ .notice (.slotOnAir slot) ∈ x.output ∧
      z.output.Undisturbed := by
  obtain ⟨start, hbooted, hstart⟩ :
      ∃ start, Booted paired ⟨.memory none, fun _ _ => none, 0⟩ start ∧
        (start.1.radio.minInterval,
          (Entry.output ⟨start, .command .startBeacon 0⟩).any Output.isOnAir) = (1000, true) :=
    exists_booted_of_eq (.idle 1000 10240 fun _ _ => none) (some (Octets.zero 32)) 0
      (fun start => (start.1.radio.minInterval,
        (Entry.output ⟨start, .command .startBeacon 0⟩).any Output.isOnAir)) (by decide +kernel)
  obtain ⟨hinterval, hany⟩ := Prod.mk.inj hstart
  obtain ⟨output, honAir, hisOnAir⟩ := List.any_eq_true.mp hany
  obtain ⟨slot, rfl⟩ := Output.eq_onAir_of_isOnAir hisOnAir
  obtain ⟨before, after, hout⟩ := List.append_of_mem honAir
  obtain ⟨d, hrun⟩ := run_dwelling start
  have hordered : (dwelling start).Pairwise fun x y => x.request.time ≤ y.request.time := by
    simp [dwelling, Request.time]
  have hhistory : dwelling start = [] ++ _ :: _ := rfl
  have hstays := (slot_stays_on_air hbooted hrun hordered hhistory hout).2
  refine ⟨start, _, _, _, slot, hbooted, rfl, honAir, hstays [_] _ [] rfl ?_ ?_⟩
  · intro x hx
    simp only [List.cons_append, List.nil_append, List.mem_cons, List.not_mem_nil, or_false] at hx
    rcases hx with rfl | rfl <;> exact Entry.not_interrupts (by simp [Entry.Reenters]) (by simp)
  · rw [hinterval]
    exact (by decide : 999 < 0 + (1000 : UInt16).toNat)

end Device

end Beacon

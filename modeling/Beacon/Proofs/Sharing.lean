import Beacon.Proofs.QueueRounds
import Beacon.Proofs.Silencing

/-!
# Slots share the radio in turn

The line of a request is made up of what the timers of a poll do and of what the
log tells of anything else.  A request that leaves beacon mode or starts it anew
empties the queue first; every other request goes on with the queue that it
finds.

So as long as beacon mode is neither left nor started anew, a run leads from one
queue to the other: slots are taken in the order in which they joined, and no slot
lets more than two others go before it.
-/

namespace Beacon

open Transcript Lineup

namespace Engine

variable {now : Nat} {e : Engine}

/-- How a request deals with the slots that wait: if it leaves beacon mode or starts it anew, what
it does begins with an empty queue. -/
structure Conducts (anew : Prop) (s : Scheduler) (line : Lineup) (s' : Scheduler) : Prop where
  fromEmpty : anew → Moves [] line s'.queue
  fromQueue : ¬anew → Moves s.queue line s'.queue
  served : s.Served → s'.Served

namespace Conducts

variable {anew anew' : Prop} {s s' : Scheduler} {line : Lineup}

theorem idle (hnot : ¬anew) (hline : line = []) (hqueue : s'.queue = s.queue)
    (hmanager : s'.manager = s.manager) : Conducts anew s line s' where
  fromEmpty h := absurd h hnot
  fromQueue _ := by
    rw [hline, hqueue]
    exact .done _
  served h := by rwa [Scheduler.Served, hqueue, hmanager]

theorem afresh (hmoves : Moves [] line s'.queue) (hserved : s.Served → s'.Served)
    (hqueue : ¬anew → s.queue = []) : Conducts anew s line s' where
  fromEmpty _ := hmoves
  fromQueue h := by rwa [hqueue h]
  served := hserved

theorem congr (h : Conducts anew s line s') (hiff : anew ↔ anew') : Conducts anew' s line s' := by
  refine ⟨fun hanew => ?_, fun hnot => ?_, h.served⟩
  · exact h.fromEmpty (hiff.mpr hanew)
  · exact h.fromQueue fun hanew => hnot (hiff.mp hanew)

end Conducts

theorem InPhase.queue_eq_nil (hphase : e.InPhase) (h : ¬e.scheduler.running = true) :
    e.scheduler.queue = [] := by
  cases hphase.atRest_or_beaconing with
  | inl hrest => exact hrest.queue
  | inr hbeaconing => exact absurd hbeaconing.running h

theorem rearm_keeps (slot now : Nat) (e : Engine) :
    lineup (rearm slot now e).output = [] ∧
      (rearm slot now e).state.scheduler.queue = e.scheduler.queue ∧
      (rearm slot now e).state.scheduler.manager = e.scheduler.manager := by
  simp only [rearm, Act.bind_apply, Act.get_apply, Done.after_nil]
  split
  · exact ⟨Scheduler.lineup_rearm e.state slot now e.scheduler,
      Scheduler.rearm_keeps e.state slot now e.scheduler⟩
  · exact ⟨rfl, rfl, rfl⟩

theorem lineup_restart (now : Nat) (e : Engine) :
    lineup (restart now e).output = lineup (startBeacon now e).output := by
  simp only [restart, Act.bind_apply, Done.output_after, lineup_append]
  cases (startBeacon now e).value with
  | ok _ => exact List.append_nil _
  | error fault => exact List.append_nil _

theorem InPhase.conducts_follow (hphase : e.InPhase) (effect : WriteEffect) (now : Nat) :
    Conducts (e.scheduler.running = true ∧ effect = .factoryReset ∧ e.mode = .beacon) e.scheduler
      (lineup (Engine.follow effect now e).output)
      (Engine.follow effect now e).state.scheduler := by
  cases effect with
  | none => exact .idle (by simp) rfl rfl rfl
  | lock state => exact .idle (by simp) rfl rfl rfl
  | intervalChanged slot =>
      obtain ⟨hline, hqueue, hmanager⟩ := rearm_keeps slot now e
      exact .idle (by simp) hline hqueue hmanager
  | slotChanged slot =>
      obtain ⟨hline, hqueue, hmanager⟩ := rearm_keeps slot now e
      refine .idle (by simp) ?_ hqueue hmanager
      rw [Engine.follow, Act.bind_apply, Done.output_after, lineup_append, hline]
      rfl
  | factoryReset =>
      simp only [Engine.follow, Act.bind_apply, Act.emit_apply, Act.get_apply, Done.after_nil,
        Done.output_after, Done.state_after, lineup_append]
      split
      next hmode =>
        rw [lineup_restart, restart_state]
        refine .afresh (hphase.moves_startBeacon now) (fun _ => hphase.served_startBeacon now) ?_
        exact fun hnot => hphase.queue_eq_nil fun hrunning => hnot ⟨hrunning, trivial, hmode⟩
      next hmode => exact .idle (fun h => hmode h.2.2) rfl rfl rfl

theorem lineup_awaitResume (now : Nat) (e : Engine) :
    lineup (awaitResume now e).output = [] := by
  simp only [awaitResume, Act.bind_apply, Act.get_apply, Act.modify_apply, Done.after_nil,
    Done.output_after, lineup_append]
  obtain ⟨reports, hreports, hmode⟩ := setMode_eq .idle
    { (onTimers (TimerQueue.postIn now e.state.config.resumeDelay.toNat .resumeBeacon) e).state with
      resumeTimer :=
        (onTimers (TimerQueue.postIn now e.state.config.resumeDelay.toNat .resumeBeacon) e).value }
  rw [hmode, hreports.untimed.lineup_eq_nil, List.append_nil]
  exact Scheduler.lineup_insert ..

theorem awaitResume_keeps (now : Nat) (e : Engine) :
    (awaitResume now e).state.scheduler.queue = e.scheduler.queue ∧
      (awaitResume now e).state.scheduler.manager = e.scheduler.manager := by
  simp only [awaitResume, Act.bind_apply, Act.get_apply, Act.modify_apply, Done.after_nil,
    Done.state_after, setMode_state]
  exact ⟨rfl, rfl⟩

end Engine

/-! ## Requests -/

theorem Device.lineup_radioEvent {event : RadioEvent} (hevent : event ≠ .connected) {now : Nat}
    {d : Device} : lineup (radioEvent event now d).output = [] := by
  simp only [radioEvent, Act.bind_apply, Act.get_apply, Done.after_nil]
  cases event with
  | connected => exact absurd rfl hevent
  | disconnected =>
      cases d.1.mode with
      | connected =>
          have hpause : (pause now d).output = (persist now d).output ++
              (Engine.awaitResume now (persist now d).state.1).output := rfl
          have hpersist := (plain_persist now d).untimed.lineup_eq_nil
          rw [hpause, lineup_append, hpersist, Engine.lineup_awaitResume]
          rfl
      | idle => rfl
      | config => rfl
      | beacon => rfl
  | advertisingStarted => cases d.1.mode <;> rfl
  | advertisingStopped => rfl

theorem State.lt_three_of_interval? {s : State} {slot : Nat} (h : s.interval? slot ≠ none) :
    slot < 3 := by
  by_contra hlt
  apply h
  have hnone : s.slots.slot? slot = none := Vector.getElem?_eq_none (Nat.le_of_not_lt hlt)
  rw [State.interval?, hnone]
  rfl

namespace Entry

/-- What happens to the slots in a request. -/
def line (x : Entry) : Lineup :=
  match x.request with
  | .poll now => x.before.1.pollLine now
  | _ => x.output.lineup

/-- The slots that are taken are those whose turns the log reports. -/
theorem takes_line (x : Entry) : x.line.takes = (x.output.turns none).map Turn.slot := by
  rw [← takes_lineup]
  obtain ⟨d, request⟩ := x
  cases request with
  | poll now =>
      rw [output_poll, Engine.lineup_poll]
      exact Engine.takes_pollLine now d.1
  | _ => rfl

/-- Leaves beacon mode or starts it anew. -/
def Interrupts (x : Entry) : Prop :=
  x.before.1.scheduler.running = true ∧ (x.Reenters ∨ x.TearsDown)

theorem not_interrupts {d : Device} {request : Request} (hreenters : ¬Reenters ⟨d, request⟩)
    (hrequest : ∀ now, request ≠ .command .startConfig now) : ¬Interrupts ⟨d, request⟩ := by
  rintro ⟨-, h | ⟨-, ⟨now, h⟩, -⟩⟩
  · exact hreenters h
  · exact hrequest now h

/-- Of writes only a reset on air interrupts anything. -/
theorem interrupts_write {d : Device} {attr : Attribute} {offset : Nat} {data : Bytes} {now : Nat}
    {effect : WriteEffect} (hwrite : (attr.write offset data now d.1.state).value = .ok effect) :
    Interrupts ⟨d, .write attr offset data now⟩ ↔
      d.1.scheduler.running = true ∧ effect = .factoryReset ∧ d.1.mode = .beacon := by
  have hnot : ¬TearsDown ⟨d, .write attr offset data now⟩ := by
    rintro ⟨-, ⟨_, h⟩, -⟩
    cases h
  rw [Interrupts, or_iff_left hnot, reenters_write, Attribute.effect_eq_factoryReset_iff hwrite]
  simp [(Engine.writeAttribute_of_ok hwrite).1, and_assoc]

/-- Configuration mode takes a beacon off air even where the radio refuses it. -/
theorem interrupts_startConfig {d : Device} (hphase : d.1.InPhase) {scan payload : Bytes}
    (hadvert : Engine.configAdvert d.1.state = .ok (scan, payload))
    (hrunning : d.1.scheduler.running = true) (now : Nat) :
    Interrupts ⟨d, .command .startConfig now⟩ := by
  have hanswer : answer ⟨d, .command .startConfig now⟩ =
      .done (Engine.startConfig now d.1).value := rfl
  refine ⟨hrunning, ?_⟩
  rcases (hphase.startConfig_cases hadvert now).2 with ⟨-, ⟨fault, hvalue⟩, -⟩ | ⟨-, hvalue, -⟩
  · exact .inr ⟨.inr ((hphase.beaconing_of_running hrunning).mode), ⟨now, rfl⟩, fault,
      hanswer.trans (congrArg _ hvalue)⟩
  · exact .inl (hanswer.trans (congrArg _ hvalue))

/-- A request that enters a mode anew, but interrupts nothing, finds nobody waiting. -/
theorem queue_eq_nil {x : Entry} (hphase : x.before.1.InPhase) (hreenters : x.Reenters)
    (hstays : ¬x.Interrupts) : x.before.1.scheduler.queue = [] := by
  apply hphase.queue_eq_nil
  intro hrunning
  exact hstays ⟨hrunning, .inl hreenters⟩

abbrev Conducts (x : Entry) : Prop :=
  Engine.Conducts x.Interrupts x.before.1.scheduler x.line x.after.1.scheduler

/-- Nothing happens to the slots. -/
theorem conducts_idle {x : Entry} (hnot : ¬x.Interrupts) (hline : x.line = x.output.lineup)
    (hplain : x.output.lineup = []) (hscheduler : x.after.1.scheduler = x.before.1.scheduler) :
    x.Conducts := by
  refine .idle hnot (hline.trans hplain) ?_ ?_
  · rw [hscheduler]
  · rw [hscheduler]

theorem conducts_read (attr : Attribute) (now : Nat) (d : Device) :
    Conducts ⟨d, .read attr now⟩ := by
  apply conducts_idle (not_interrupts (by simp [Reenters]) (by simp)) rfl ?_ rfl
  have hasides := (Attribute.asides_read attr now d.1.state).plain.untimed.lineup_eq_nil
  have hdrained := Engine.lineup_drainEvents { d.1 with state := (attr.read now d.1.state).state }
  rw [output_read, lineup_append, hasides, hdrained]
  rfl

theorem conducts_write {d : Device} (hphase : d.1.InPhase) (attr : Attribute) (offset : Nat)
    (data : Bytes) (now : Nat) : Conducts ⟨d, .write attr offset data now⟩ := by
  have hasides :=
    (Attribute.asides_write attr offset data now d.1.state).plain.untimed.lineup_eq_nil
  have houtput := output_write attr offset data now d
  have hafter : (after ⟨d, .write attr offset data now⟩).1 =
      (Engine.writeAttribute attr offset data now d.1).state := rfl
  have hline : line ⟨d, .write attr offset data now⟩ =
      lineup (output ⟨d, .write attr offset data now⟩) := rfl
  have hreenters : Reenters ⟨d, .write attr offset data now⟩ ↔
      attr = .factoryReset ∧ data ≠ [0] ∧ d.1.mode = .beacon ∧
        (Engine.writeAttribute attr offset data now d.1).value = .ok () := reenters_write
  cases hwrite : (attr.write offset data now d.1.state).value with
  | error fault =>
      obtain ⟨hvalue, hstate⟩ := Engine.writeAttribute_of_error hwrite
      have hnot : ¬Interrupts ⟨d, .write attr offset data now⟩ :=
        not_interrupts (by simp [hreenters, hvalue]) (by simp)
      refine conducts_idle hnot rfl ?_ (by rw [hafter, hstate])
      rw [houtput, Engine.writeAttribute_output_of_error hwrite, lineup_append, hasides]
      rfl
  | ok effect =>
      have hstate := (Engine.writeAttribute_of_ok hwrite).2
      have hwritten := (hphase.withState (attr.write offset data now d.1.state).state true).phase
      have hfollow := hwritten.conducts_follow effect now
      rw [Conducts, hline, houtput, hafter, hstate, Engine.writeAttribute_output_of_ok hwrite,
        lineup_append, lineup_append, hasides, Engine.lineup_drainEvents, List.append_nil]
      exact hfollow.congr (interrupts_write hwrite).symm

theorem conducts_poll {d : Device} (h : d.1.Queueing) (now : Nat) :
    Conducts ⟨d, .poll now⟩ where
  fromEmpty hinterrupts := absurd hinterrupts (not_interrupts (by simp [Reenters]) (by simp))
  fromQueue _ := (h.poll now).1
  served _ := (h.poll now).2

theorem conducts_radioEvent {d : Device} (hphase : d.1.InPhase) (event : RadioEvent)
    (now : Nat) : Conducts ⟨d, .radioEvent event now⟩ := by
  have hline : line ⟨d, .radioEvent event now⟩ =
      lineup (Device.radioEvent event now d).output :=
    congrArg lineup (output_radioEvent event now d)
  have hnot (hevent : event ≠ .connected) : ¬Interrupts ⟨d, .radioEvent event now⟩ := by
    refine not_interrupts ?_ (by simp)
    cases event with
    | connected => exact absurd rfl hevent
    | _ => exact fun h => h
  have hafter : (after ⟨d, .radioEvent event now⟩).1 =
      (Device.radioEvent event now d).state.1 := rfl
  rw [Conducts, hafter]
  rcases Device.radioEvent_cases event now d with ⟨rfl, h⟩ | ⟨rfl, -, h⟩ | ⟨hevent, h⟩
  · have hquiet := (hphase.leaveMode.setMode .connected).1
    rw [h, hline]
    exact .afresh (Engine.moves_after_leaveMode (Engine.lines_setMode .connected _))
      (fun _ => hquiet.atRest.served) (queue_eq_nil hphase trivial)
  · obtain ⟨hqueue, hmanager⟩ := Engine.awaitResume_keeps now (Device.persist now d).state.1
    have hscheduler := (Device.persist_keeps now d).1
    have hpaused : (Device.pause now d).state.1 =
        (Engine.awaitResume now (Device.persist now d).state.1).state := rfl
    rw [h, hpaused]
    refine .idle (hnot (by decide)) ?_ ?_ ?_
    · rw [hline, Device.lineup_radioEvent (by decide)]
    · rw [hqueue, hscheduler]
    · rw [hmanager, hscheduler]
  · rw [h]
    exact .idle (hnot hevent) (hline.trans (Device.lineup_radioEvent hevent)) rfl rfl

theorem conducts_startConfig {d : Device} (hphase : d.1.InPhase) (now : Nat) :
    Conducts ⟨d, .command .startConfig now⟩ := by
  have hline : line ⟨d, .command .startConfig now⟩ =
      lineup (Engine.startConfig now d.1).output :=
    congrArg lineup (output_command .startConfig now d)
  have hafter : (after ⟨d, .command .startConfig now⟩).1 = (Engine.startConfig now d.1).state := rfl
  have hanswer : answer ⟨d, .command .startConfig now⟩ =
      .done (Engine.startConfig now d.1).value := rfl
  rw [Conducts, hline, hafter]
  cases hadvert : Engine.configAdvert d.1.state with
  | error fault =>
      rw [Engine.startConfig_of_error hadvert] at hanswer ⊢
      refine .idle ?_ rfl rfl rfl
      rintro ⟨-, h | ⟨-, -, radioFault, h⟩⟩
      · exact absurd (hanswer.symm.trans h) (by simp)
      · cases hanswer.symm.trans h
        exact Engine.configAdvert_ne_radio _ _ hadvert
  | ok advert =>
      obtain ⟨scan, payload⟩ := advert
      refine .afresh (hphase.moves_startConfig hadvert now)
        (fun hserved => hphase.served_startConfig hserved now) fun hstays => ?_
      exact hphase.queue_eq_nil fun hrunning =>
        hstays (interrupts_startConfig hphase hadvert hrunning now)

theorem conducts_command {d : Device} (hphase : d.1.InPhase) (command : Command) (now : Nat) :
    Conducts ⟨d, .command command now⟩ := by
  have hline : line ⟨d, .command command now⟩ = lineup (Device.command command now d).output :=
    congrArg lineup (output_command command now d)
  cases command with
  | startConfig => exact conducts_startConfig hphase now
  | startBeacon =>
      rw [Conducts, hline]
      exact .afresh (hphase.moves_startBeacon now) (fun _ => hphase.served_startBeacon now)
        (queue_eq_nil hphase trivial)
  | stop =>
      have hquiet := (hphase.leaveMode.setMode .idle).1
      have hafter : (after ⟨d, .command .stop now⟩).1 = (Engine.stop d.1).state := rfl
      have hline : line ⟨d, .command .stop now⟩ = lineup (Engine.stop d.1).output :=
        congrArg lineup (output_stop now d)
      rw [Conducts, hline, hafter]
      exact .afresh (Engine.moves_stop d.1) (fun _ => hquiet.atRest.served)
        (queue_eq_nil hphase trivial)
  | updateBattery millivolts =>
      exact .idle (not_interrupts (fun h => h) (by simp)) hline rfl rfl
  | updateTemperature temperature =>
      exact .idle (not_interrupts (fun h => h) (by simp)) hline rfl rfl
  | saveParams =>
      have hplain := (Device.plain_persist now d).untimed.lineup_eq_nil
      have hscheduler := (Device.persist_keeps now d).1
      have hnot : ¬Interrupts ⟨d, .command .saveParams now⟩ :=
        not_interrupts (by simp [Reenters]) (by simp)
      apply conducts_idle hnot rfl ?_ hscheduler
      rw [output_saveParams, hplain]

theorem conducts_saveIfDirty (now : Nat) (d : Device) : Conducts ⟨d, .saveIfDirty now⟩ := by
  have hplain := (Device.plain_saveIfDirty now d).untimed.lineup_eq_nil
  have hscheduler := (Device.saveIfDirty_keeps now d).1
  have hnot : ¬Interrupts ⟨d, .saveIfDirty now⟩ := not_interrupts (by simp [Reenters]) (by simp)
  apply conducts_idle hnot rfl ?_ hscheduler
  rw [output_saveIfDirty, hplain]

theorem conducts {x : Entry} (h : x.before.1.Queueing) : x.Conducts := by
  obtain ⟨d, request⟩ := x
  cases request with
  | read attr now => exact conducts_read attr now d
  | write attr offset data now => exact conducts_write h.phase attr offset data now
  | poll now => exact conducts_poll h now
  | radioEvent event now => exact conducts_radioEvent h.phase event now
  | command command now => exact conducts_command h.phase command now
  | saveIfDirty now => exact conducts_saveIfDirty now d

theorem queueing {x : Entry} (h : x.before.1.Queueing) : x.after.1.Queueing where
  phase := (x.leaves h.phase).phase
  within := by
    have hanswered : Within (· < 3) (x.before.1.scheduler, x.answered) := by
      intro slot hslot
      cases hslot with
      | inl hwaits => exact h.within slot (.inl hwaits)
      | inr hinterval => exact State.lt_three_of_interval? hinterval
    exact (x.course hanswered).within
  nodup := by
    by_cases hinterrupts : x.Interrupts
    · exact ((conducts h).fromEmpty hinterrupts).nodup List.nodup_nil
    · exact ((conducts h).fromQueue hinterrupts).nodup h.nodup
  served := (conducts h).served h.served

end Entry

/-! ## Runs -/

/-- What happens to the slots in a run. -/
def History.line (history : History) : Lineup :=
  history.flatMap Entry.line

theorem History.takes_line (history : History) :
    history.line.takes = (history.flatMap fun x => x.output.turns none).map Turn.slot := by
  induction history with
  | nil => rfl
  | cons x rest ih =>
      rw [line, List.flatMap_cons, Lineup.takes_append, x.takes_line, List.flatMap_cons,
        List.map_append, ← ih, line]

theorem Run.of_nil {d d' : Device} (hrun : Run d [] d') : d' = d := by
  generalize hwhole : ([] : History) = whole at hrun
  cases hrun with
  | start => rfl
  | serve request hrun => simp at hwhole

/-- What follows a request is a run of its own. -/
theorem Run.of_cons {d d' : Device} {x : Entry} {later : History} (hrun : Run d (x :: later) d') :
    x.before = d ∧ Run x.after later d' := by
  generalize hwhole : x :: later = whole at hrun
  induction hrun generalizing later with
  | start => cases hwhole
  | @serve history d' request hrun ih =>
      cases history with
      | nil =>
          cases hwhole
          rw [hrun.of_nil]
          exact ⟨rfl, .start⟩
      | cons y rest =>
          cases hwhole
          obtain ⟨hbefore, hrest⟩ := ih rfl
          exact ⟨hbefore, hrest.serve request⟩

theorem Run.queueing {d d' : Device} {later : History} (hrun : Run d later d')
    (h : d.1.Queueing) : d'.1.Queueing := by
  induction hrun with
  | start => exact h
  | @serve history d' request hrun ih => exact Entry.queueing (x := ⟨d', request⟩) ih

/-- As long as nothing interrupts it, a run leads from one queue to the other. -/
theorem Run.moves {d d' : Device} {later : History} (hrun : Run d later d') (h : d.1.Queueing)
    (hstays : ∀ x ∈ later, ¬x.Interrupts) :
    Moves d.1.scheduler.queue later.line d'.1.scheduler.queue := by
  induction hrun with
  | start => exact .done _
  | @serve history d' request hrun ih =>
      have hlast : History.line [⟨d', request⟩] = Entry.line ⟨d', request⟩ := List.append_nil _
      have hserved := Entry.conducts (x := ⟨d', request⟩) (hrun.queueing h)
      rw [History.line, List.flatMap_append]
      apply (ih fun x hmem => hstays x (List.mem_append_left _ hmem)).append
      change Moves _ (History.line [⟨d', request⟩]) _
      rw [hlast]
      exact hserved.fromQueue (hstays _ (by simp))

/-! ## Taking turns -/

/-- What holds of the slots that wait, at any time. -/
structure Engine.Shares (e : Engine) : Prop where
  distinct : e.scheduler.queue.Nodup
  slots : ∀ slot ∈ e.scheduler.queue, slot < 3
  timers : ∀ t ∈ e.scheduler.timers.pending, ∀ slot, t.task = .enqueue slot → slot < 3
  /-- A slot that is put into the queue waits then, and no slot is skipped. -/
  room : ∀ slot < 3, Scheduler.offer slot e.scheduler =
    ⟨(), { e.scheduler with
      queue :=
        if slot ∈ e.scheduler.queue then e.scheduler.queue
        else e.scheduler.queue ++ [slot] }, []⟩
  stopped : e.scheduler.running = false → e.scheduler.queue = []
  managed : e.scheduler.queue ≠ [] → ∃ t ∈ e.scheduler.timers.pending, t.task = .manageRadio

/-- Between two queues slots have taken turns. -/
structure Lineup.InTurn (queue : List Nat) (line : Lineup) (queue' : List Nat) : Prop where
  /-- Slots are taken in the order in which they joined. -/
  order : queue ++ line.joins = line.takes ++ queue'
  /-- From when a slot joins until it is taken two others are taken at most. -/
  patience : ∀ (before between after : Lineup) slot,
    line = before ++ .joined slot :: (between ++ after) → .taken slot ∉ between →
      between.takes.length ≤ 2

theorem Lineup.Moves.inTurn {queue queue' : List Nat} {line : Lineup} (h : Moves queue line queue')
    (hnodup : queue.Nodup) (hlt : ∀ slot ∈ queue, slot < 3) : InTurn queue line queue' where
  order := h.in_order
  patience _ _ _ _ hline hwaits := (hline ▸ h).patience hnodup hlt hwaits

/-- The timer of the radio manager is pending while slots wait. -/
theorem Engine.Queueing.shares {e : Engine} (h : e.Queueing) {n : Nat} (haccounts : e.Accounts n) :
    e.Shares where
  distinct := h.nodup
  slots := h.lt_three
  timers t ht slot htask := h.within slot (.inl (.inr ⟨t, ht, htask⟩))
  room slot hslot := h.offer_eq hslot rfl
  stopped hstopped := h.phase.queue_eq_nil (by simp [hstopped])
  managed hwaits := by
    obtain ⟨id, hid⟩ := Option.ne_none_iff_exists'.mp (h.served hwaits)
    have hticket : ⟨id, .manageRadio, false⟩ ∈ e.scheduler.tickets :=
      Scheduler.mem_tickets.mpr (.inr ⟨hid, rfl, rfl⟩)
    have hpending := haccounts.matched.mem_iff.mpr (List.mem_append_left _ hticket)
    obtain ⟨t, ht, hsame⟩ := List.mem_map.mp hpending
    exact ⟨t, ht, congrArg Ticket.task hsame⟩

namespace Device

variable {config : Config} {store : Store} {start d : Device} {history : History}

theorem Booted.queueing (hbooted : Booted config store d) : d.1.Queueing where
  phase := .quiet hbooted.quiet
  within := by
    intro slot hslot
    cases hslot with
    | inl hwaits => exact absurd hwaits (hbooted.not_waits slot)
    | inr hinterval => exact State.lt_three_of_interval? hinterval
  nodup := by
    rw [hbooted.quiet.atRest.queue]
    exact List.nodup_nil
  served := hbooted.quiet.atRest.served

/-- As long as not all timer ids have been given out, distinct slots wait for the radio between any
two timers of a poll, there is room for the others, nobody waits unless the scheduler is running,
and the radio manager has a timer while somebody does.  In a run that does not leave beacon mode or
start it anew slots take turns, and so they do after a request that does.  The slots that are taken
are those whose turns the log reports. -/
theorem shares_radio_in_turn (hbooted : Booted config store start) (hrun : Run start history d)
    (now fired : Nat)
    (hfew :
      history.posts + Transcript.posts (Engine.fireSome now fired d.1).output < UInt32.size) :
    (Engine.fireSome now fired d.1).state.Shares ∧
      (∀ later d', Run d later d' → (∀ x ∈ later, ¬x.Interrupts) →
        InTurn d.1.scheduler.queue later.line d'.1.scheduler.queue) ∧
      (∀ x later d', Run d (x :: later) d' → x.Interrupts → (∀ y ∈ later, ¬y.Interrupts) →
        InTurn [] (History.line (x :: later)) d'.1.scheduler.queue) ∧
      ∀ later : History,
        later.line.takes = (later.flatMap fun x => x.output.turns none).map Turn.slot := by
  have hqueueing := hrun.queueing hbooted.queueing
  refine ⟨?_, fun later d' hlater hstays => ?_, fun x later d' hlater hinterrupts hstays => ?_,
    History.takes_line⟩
  · have hfewer := Nat.lt_of_le_of_lt (Nat.le_add_right _ _) hfew
    have haccounts := (accounts_of_run hbooted hrun hfewer).2
    have hfired := (hqueueing.phase.takes_fireSome now fired).balances haccounts
    exact (hqueueing.rounds now fired).2.shares (hfired hfew).2
  · exact (hlater.moves hqueueing hstays).inTurn hqueueing.nodup hqueueing.lt_three
  · obtain ⟨rfl, hafter⟩ := hlater.of_cons
    have hfirst := (Entry.conducts hqueueing).fromEmpty hinterrupts
    have hmoves := hfirst.append (hafter.moves (Entry.queueing hqueueing) hstays)
    exact hmoves.inTurn List.nodup_nil (fun slot hmem => (nomatch hmem))

/-- The queue after a start and whether the scheduler runs, how many timers have been posted by then
and by the first three timers of a poll, the queue that these leave, and what starting anew does. -/
def sharing (start : Device) : List Nat × Bool × Nat × List Nat × Lineup :=
  let d := (serve (.command .startBeacon 0) start).state
  let fired := Engine.fireSome 700 3 d.1
  (d.1.scheduler.queue, d.1.scheduler.running,
    History.posts [⟨start, .command .startBeacon 0⟩] + Transcript.posts fired.output,
    fired.state.scheduler.queue, History.line [⟨d, .command .startBeacon 50⟩])

/-- Two slots that take turns, and start anew while one of them waits. -/
theorem shares_radio_in_turn_paired :
    ∃ start d d' d'', Booted paired ⟨.memory none, fun _ _ => none, 0⟩ start ∧
      Run start [⟨start, .command .startBeacon 0⟩] d ∧ Run d [⟨d, .poll 700⟩] d' ∧
      Run d [⟨d, .command .startBeacon 50⟩] d'' ∧
      (Engine.fireSome 700 3 d.1).state.scheduler.queue = [0, 1] ∧
      (Engine.fireSome 700 3 d.1).state.Shares ∧
      InTurn [1] (History.line [⟨d, .poll 700⟩]) d'.1.scheduler.queue ∧
      InTurn [] [.joined 0, .joined 1, .taken 0] d''.1.scheduler.queue := by
  obtain ⟨start, hbooted, hsharing⟩ :
      ∃ start, Booted paired ⟨.memory none, fun _ _ => none, 0⟩ start ∧
        sharing start = ([1], true, 4, [0, 1], [.joined 0, .joined 1, .taken 0]) :=
    exists_booted_of_eq (.idle 100 10240 fun _ _ => none) (some (Octets.zero 32)) 0 sharing
      (by decide +kernel)
  simp only [sharing, Prod.mk.injEq] at hsharing
  obtain ⟨hqueue, hrunning, hposts, hfired, hline⟩ := hsharing
  have hrun : Run start [⟨start, .command .startBeacon 0⟩] _ := Run.start.serve _
  obtain ⟨hshares, hgoesOn, hanew, -⟩ := shares_radio_in_turn hbooted hrun 700 3
    (hposts ▸ (by decide : 4 < UInt32.size))
  refine ⟨start, _, _, _, hbooted, hrun, Run.start.serve (.poll 700),
    Run.start.serve (.command .startBeacon 50), hfired, hshares, ?_, ?_⟩
  · have hpolled := hgoesOn _ _ (Run.start.serve (.poll 700)) fun x hmem => by
      rw [List.mem_singleton.mp hmem]
      exact Entry.not_interrupts (by simp [Entry.Reenters]) (by simp)
    rwa [hqueue] at hpolled
  · have hrestarted := hanew _ _ _ (Run.start.serve (.command .startBeacon 50))
      ⟨hrunning, .inl trivial⟩ (by simp)
    rwa [hline] at hrestarted

end Device

end Beacon

import Beacon.Proofs.Arming
import Beacon.Proofs.Silencing
import Beacon.Proofs.Tuning

/-!
# Slots on air have their timers

While the beacon is on air a slot has a timer if and only if it has a frame and an
interval, and the timer repeats at that interval.  Coming on air arms all slots when
nothing rings for any of them; a write may break the agreement for one slot, and the
engine arms that very slot anew.  No post is dropped as long as there are ids left.
-/

namespace Beacon

namespace Engine

open Transcript

variable {α : Type} {now n : Nat} {e e' : Engine}

/-- On air the timers of the slots agree with the state. -/
def Armed (e : Engine) : Prop :=
  e.scheduler.running = true → ∀ i, e.scheduler.ArmedAt e.state i

theorem armed_of_off (hoff : e.scheduler.running = false) : e.Armed := by
  intro hon
  cases hoff.symm.trans hon

theorem Armed.passedBy (h : e.Armed) (hrunning : e'.scheduler.running = e.scheduler.running)
    (hpasses : ∀ i, Scheduler.PassesBy i e.scheduler e'.scheduler)
    (hsame : ∀ i : SlotIndex, e'.state.interval? i = e.state.interval? i) : e'.Armed := by
  intro hon i
  have hbefore : e.scheduler.running = true := hrunning.symm.trans hon
  exact (h hbefore i).passedBy (hpasses i) (hsame i)

/-- A quiet engine that comes on air arms every slot that is to be broadcast. -/
theorem Quiet.armed_raise (hquiet : e.Quiet) (hdropless : Dropless (raise now e).output) :
    (raise now e).state.Armed := by
  have hcleared : e.cleared.Quiet := hquiet.cleared.hushed
  have hunarmed (i : SlotIndex) : e.cleared.scheduler.hasten.Unarmed i := by
    constructor
    · change e.cleared.scheduler.slotTimers.value i = none
      rw [hcleared.atRest.slotTimers, PerSlot.value_all]
    · intro x hx
      rw [show e.cleared.scheduler.hasten.timers.pending = [] from hcleared.pending] at hx
      cases hx
  rw [raise_apply] at hdropless ⊢
  intro _ i
  have hall := Scheduler.armedAt_armAll (by decide : SlotIndex.all.Nodup)
    (fun j _ => hunarmed j) (Dropless.right (a := [_]) hdropless.right.right) i i.mem_all
  exact hall.passedBy (Scheduler.passesBy_of_eq rfl rfl) rfl

/-- On air only the scheduler has timers. -/
theorem Beaconing.accounts (hbeaconing : e.Beaconing) (h : e.Accounts n) :
    e.scheduler.Accounts [] n := by
  rw [Accounts, hbeaconing.modeTickets_eq] at h
  exact h

/-- All timers are accounted for, and on air those of the slots agree with the state. -/
structure Tended (e : Engine) (n : Nat) : Prop where
  accounts : e.Accounts n
  armed : e.Armed

theorem Move.armed {action : Act Engine α} (hmove : Move now e action) (haccounts : e.Accounts n)
    (h : e.Armed) (hdropless : Dropless (action e).output) : (action e).state.Armed := by
  have hsame (i : SlotIndex) : (action e).state.state.interval? i = e.state.interval? i :=
    State.interval?_eq_of_setup_eq hmove.setup i
  cases hmove with
  | note _ => exact h
  | emit event => exact h
  | drain => exact h.passedBy rfl (fun _ => Scheduler.passesBy_of_eq rfl rfl) hsame
  | turnTo mode =>
      rw [setMode_state]
      exact h
  | leave hphase => exact armed_of_off hphase.leaveMode.atRest.running
  | hush hquiet => exact armed_of_off hquiet.hushed.atRest.running
  | clear hquiet => exact armed_of_off hquiet.cleared.atRest.running
  | @configure scan payload hquiet _ =>
      apply armed_of_off
      have houtcome := hquiet.enterConfig_outcome scan payload now
      generalize enterConfig scan payload now e = done at houtcome ⊢
      cases houtcome with
      | unscanned radio fault => exact hquiet.atRest.running
      | refused radio fault => exact hquiet.atRest.running
      | entered radio hreports => exact hquiet.atRest.running
  | raise hquiet _ => exact hquiet.armed_raise hdropless
  | manage hrunning _ =>
      exact h.passedBy (Scheduler.running_manageRadio now e.scheduler e.state)
        (Scheduler.passesBy_manageRadio now e.scheduler e.state) hsame
  | @ring id slot hbeaconing hfired =>
      refine h.passedBy (running_offer slot _) (fun i => ?_) hsame
      exact (Scheduler.passesBy_popDue now e.scheduler i).trans
        (Scheduler.passesBy_offer slot _ i)
  | release hbeaconing hfired =>
      refine h.passedBy rfl (fun i => ?_) hsame
      exact (Scheduler.passesBy_popDue now e.scheduler i).trans (Scheduler.passesBy_of_eq rfl rfl)
  | wake hwaiting hdue => exact armed_of_off (hwaiting.quiet_wake hdue).atRest.running
  | rearm slot hbeaconing =>
      intro _ i
      exact (hbeaconing.accounts haccounts).armedAt_rearm hbeaconing.running
        (fun j _ => h hbeaconing.running j) hdropless i

/-- As long as there are ids left, a path leaves the timers of the slots in agreement with the
state. -/
theorem Path.armed {out : Transcript} (hpath : Path now e out e') (haccounts : e.Accounts n)
    (h : e.Armed) : Balances e'.Tended n out := by
  induction hpath generalizing n with
  | refl e => exact untimed_nil.balances ⟨haccounts, h⟩
  | @step γ e e' action out hmove _ ih =>
      have hone : Balances (action e).state.Tended n (action e).output := by
        intro hfew
        obtain ⟨hdropless, hkept⟩ := hmove.balances haccounts hfew
        exact ⟨hdropless, ⟨hkept, hmove.armed haccounts h hdropless⟩⟩
      exact hone.append fun m hm => ih hm.accounts hm.armed

/-! ### Following a write -/

theorem InPhase.armed_startBeacon (hphase : e.InPhase) (haccounts : e.Accounts n) (now : Nat) :
    Balances (Engine.startBeacon now e).state.Tended n (Engine.startBeacon now e).output := by
  have hquiet := hphase.leaveMode
  have hleave : Move now e Engine.leaveMode := .leave hphase
  exact (hleave.balances haccounts).append fun m hm =>
    hquiet.takes_clear_enterBeacon.armed hm (armed_of_off hquiet.atRest.running)

theorem InPhase.armed_restart (hphase : e.InPhase) (haccounts : e.Accounts n) (now : Nat) :
    Balances (Engine.restart now e).state.Tended n (Engine.restart now e).output := by
  have hstarted := hphase.armed_startBeacon haccounts now
  rw [restart_state, Engine.restart, Act.bind_apply]
  cases (Engine.startBeacon now e).value with
  | ok _ => exact hstarted.append fun m hm => untimed_nil.balances hm
  | error fault => exact hstarted.append fun m hm => (untimed_singleton rfl).balances hm

/-- A slot that is rearmed agrees with the state, if the others do. -/
theorem InPhase.armed_rearm (hphase : e.InPhase) (haccounts : e.Accounts n) {slot : SlotIndex}
    (hothers : e.scheduler.running = true → ∀ i, slot ≠ i → e.scheduler.ArmedAt e.state i)
    (now : Nat) :
    Balances (Engine.rearm slot now e).state.Tended n (Engine.rearm slot now e).output := by
  intro hfew
  obtain ⟨hdropless, hkept⟩ := (hphase.takes_rearm slot).balances haccounts hfew
  refine ⟨hdropless, hkept, ?_⟩
  clear hkept
  revert hdropless
  simp only [Engine.rearm, Act.bind_apply, Act.get_apply, Done.after_nil]
  cases hphase.atRest_or_beaconing with
  | inl hrest =>
      intro _
      apply armed_of_off
      split
      · exact (Scheduler.running_rearm _ _ now e.scheduler).trans hrest.running
      · exact hrest.running
  | inr hbeaconing =>
      rw [if_pos hbeaconing.mode]
      intro hdropless _ i
      have hothers (j : SlotIndex) (hj : slot.val ≠ j.val) :
          e.scheduler.ArmedAt e.state j :=
        hothers hbeaconing.running j fun heq => hj (congrArg Fin.val heq)
      exact (hbeaconing.accounts haccounts).armedAt_rearm hbeaconing.running hothers hdropless i

/-- What follows a write brings back the agreement, if it held for the slots that the write was not
about. -/
theorem InPhase.armed_follow (hphase : e.InPhase) (haccounts : e.Accounts n) {effect : WriteEffect}
    (hspared : e.scheduler.running = true → ∀ i, effect.Spares i → e.scheduler.ArmedAt e.state i)
    (now : Nat) :
    Balances (Engine.follow effect now e).state.Tended n (Engine.follow effect now e).output := by
  have hemitted (event : Event) : Untimed [.event event] := untimed_singleton rfl
  cases effect with
  | none => exact untimed_nil.balances ⟨haccounts, fun hon i => hspared hon i trivial⟩
  | lock state => exact (hemitted _).balances ⟨haccounts, fun hon i => hspared hon i trivial⟩
  | intervalChanged slot => exact hphase.armed_rearm haccounts hspared now
  | slotChanged slot =>
      exact (hphase.armed_rearm haccounts hspared now).append fun m hm => (hemitted _).balances hm
  | factoryReset =>
      simp only [Engine.follow, Act.bind_apply, Act.emit_apply, Act.get_apply, Done.after_nil]
      apply ((hemitted _).balances (P := fun m => m = n) rfl).append
      rintro m rfl
      split
      next => exact hphase.armed_restart haccounts now
      next hmode =>
        have hrest := hphase.atRest_or_beaconing.resolve_right fun h => hmode h.mode
        exact untimed_nil.balances ⟨haccounts, armed_of_off hrest.running⟩

end Engine

/-! ## Requests -/

namespace Entry

open Transcript

variable {x : Entry} {n : Nat}

theorem posts_of_stays (hstays : x.pauses = false) : x.posts = x.output.posts := by
  rw [posts, hstays]
  rfl

/-- A request that changes nothing of what the slots are to send. -/
theorem armed_of_answered (hphase : x.before.1.InPhase) (haccounts : x.before.1.Accounts n)
    (h : x.before.1.Armed) (hfew : n + x.posts < UInt32.size)
    (hanswered : ∀ i : SlotIndex, x.answered.interval? i = x.before.1.state.interval? i) :
    x.after.1.Armed := by
  have hsame {t : State} {dirty : Bool}
      (ht : ∀ i : SlotIndex, t.interval? i = x.before.1.state.interval? i) :
      { x.before.1 with state := t, paramsDirty := dirty }.Armed :=
    h.passedBy rfl (fun _ => Scheduler.passesBy_of_eq rfl rfl) ht
  cases x.route hphase with
  | served opening dirty hstays _ houtput hopening hpath =>
      rw [posts_of_stays hstays, houtput, posts_append, hopening.untimed.posts_eq_zero,
        Nat.zero_add] at hfew
      exact (hpath.armed haccounts (hsame hanswered) hfew).2.armed
  | kept clock clockDirty dirty _ _ hafter _ =>
      rw [hafter]
      exact hsame fun _ => rfl
  | @paused now e clock clockDirty dirty opening hrequest hmode he _ _ hafter =>
      have hquiet := hphase.quiet_of_connected hmode
      apply Engine.armed_of_off
      rw [hafter, Engine.running_awaitResume, he]
      exact hquiet.atRest.running

theorem armed_write {d : Device} {attr : Attribute} {offset : Nat} {data : Bytes} {now : Nat}
    {effect : WriteEffect} (hphase : d.1.InPhase) (haccounts : d.1.Accounts n) (h : d.1.Armed)
    (hwrite : (attr.write offset data now d.1.state).value = .ok effect)
    (hfew : n + posts ⟨d, .write attr offset data now⟩ < UInt32.size) :
    (after ⟨d, .write attr offset data now⟩).1.Armed := by
  have hanswered := (hphase.withState (attr.write offset data now d.1.state).state true).phase
  have hspared (hon : d.1.scheduler.running = true) (i : SlotIndex) (hi : effect.Spares i) :
      d.1.scheduler.ArmedAt (attr.write offset data now d.1.state).state i :=
    (h hon i).passedBy (Scheduler.passesBy_of_eq rfl rfl) (Attribute.interval?_write hwrite hi)
  have hfollowed := hanswered.armed_follow (n := n) haccounts hspared now
  have houtput := output_write attr offset data now d
  rw [Engine.writeAttribute_output_of_ok hwrite] at houtput
  rw [posts_of_stays rfl, houtput, posts_append, posts_append] at hfew
  have harmed := (hfollowed (by omega)).2.armed
  have hafter : (after ⟨d, .write attr offset data now⟩).1 =
      (Engine.writeAttribute attr offset data now d.1).state := rfl
  rw [hafter, (Engine.writeAttribute_of_ok hwrite).2]
  exact harmed.passedBy rfl (fun _ => Scheduler.passesBy_of_eq rfl rfl) fun _ => rfl

/-- A request leaves the timers of the slots in agreement with the state. -/
theorem armed (hphase : x.before.1.InPhase) (haccounts : x.before.1.Accounts n)
    (h : x.before.1.Armed) (hfew : n + x.posts < UInt32.size) : x.after.1.Armed := by
  obtain ⟨d, request⟩ := x
  cases request with
  | read attr now =>
      have hsettings : (answered ⟨d, .read attr now⟩).settings = d.1.state.settings :=
        Attribute.settings_read attr now d.1.state
      refine armed_of_answered hphase haccounts h hfew fun i => ?_
      rw [State.interval?_eq_settings, hsettings, ← State.interval?_eq_settings]
  | write attr offset data now =>
      cases hwrite : (attr.write offset data now d.1.state).value with
      | ok effect => exact armed_write hphase haccounts h hwrite hfew
      | error fault =>
          exact armed_of_answered hphase haccounts h hfew
            (Attribute.interval?_write_of_error hwrite)
  | poll now => exact armed_of_answered hphase haccounts h hfew fun _ => rfl
  | radioEvent event now => exact armed_of_answered hphase haccounts h hfew fun _ => rfl
  | command command now => exact armed_of_answered hphase haccounts h hfew fun _ => rfl
  | saveIfDirty now => exact armed_of_answered hphase haccounts h hfew fun _ => rfl

end Entry

/-! ## Runs -/

namespace Scheduler

/-- The timers that put a slot into the queue. -/
def ringers (s : Scheduler) (i : SlotIndex) : List Timer :=
  s.timers.pending.filter (·.task = .enqueue i)

theorem filter_held (handle : Option TimerId) (task : Task) (repeats : Bool) (wanted : Task) :
    (Ticket.held handle task repeats).filter (·.task = wanted) =
      if task = wanted then Ticket.held handle task repeats else [] := by
  cases handle with
  | none => simp [Ticket.held]
  | some id => by_cases h : task = wanted <;> simp [Ticket.held, h]

theorem filter_tickets (s : Scheduler) (i : SlotIndex) :
    s.tickets.filter (·.task = .enqueue i) =
      Ticket.held (s.slotTimers.value i) (.enqueue i) true := by
  simp only [tickets, slotTickets_eq, List.filter_append, filter_held]
  obtain rfl | rfl | rfl : i = 0 ∨ i = 1 ∨ i = 2 := by decide +revert
  · simp
  · simp
  · simp

/-- A slot is rung for by the timer that its handle names, and by no other. -/
theorem Accounts.ringers {n : Nat} {s : Scheduler} (h : s.Accounts [] n) (i : SlotIndex) :
    (s.ringers i).map Timer.ticket = Ticket.held (s.slotTimers.value i) (.enqueue i) true := by
  have hmatched := h.matched.filter (·.task = .enqueue i)
  rw [List.append_nil, filter_tickets, List.filter_map] at hmatched
  cases hhandle : s.slotTimers.value i with
  | none =>
      rw [hhandle] at hmatched
      exact hmatched.eq_nil
  | some id =>
      rw [hhandle] at hmatched
      exact List.perm_singleton.mp hmatched

theorem Accounts.ringers_of_interval {n : Nat} {s : Scheduler} {p : State} {i : SlotIndex}
    (h : s.Accounts [] n) (harmed : s.ArmedAt p i) {interval : UInt16}
    (hinterval : p.interval? i = some interval) :
    ∃ t, s.ringers i = [t] ∧ s.slotTimers.value i = some t.id ∧ t.period = some interval.toNat := by
  have hhandle := harmed.handle
  rw [hinterval, Option.isSome_some] at hhandle
  obtain ⟨id, hid⟩ := Option.isSome_iff_exists.mp hhandle
  have hringers := h.ringers i
  rw [hid] at hringers
  obtain ⟨t, others, hcons, hticket, hothers⟩ := List.map_eq_cons_iff.mp hringers
  have hsingle : s.ringers i = [t] := by rw [hcons, List.map_eq_nil_iff.mp hothers]
  have hmem : t ∈ s.ringers i := hsingle ▸ List.mem_singleton_self t
  obtain ⟨hpending, htask⟩ := List.mem_filter.mp hmem
  obtain ⟨found, hfound, hperiod⟩ := harmed.period t hpending (of_decide_eq_true htask)
  cases hinterval.symm.trans hfound
  exact ⟨t, hsingle, hid.trans (congrArg (fun ticket => some ticket.id) hticket.symm), hperiod⟩

theorem Accounts.ringers_of_none {n : Nat} {s : Scheduler} {p : State} {i : SlotIndex}
    (h : s.Accounts [] n) (harmed : s.ArmedAt p i) (hnone : p.interval? i = none) :
    s.ringers i = [] ∧ s.slotTimers.value i = none := by
  have hhandle := harmed.handle
  rw [hnone, Option.isSome_none, Option.isSome_eq_false_iff, Option.isNone_iff_eq_none] at hhandle
  have hringers := h.ringers i
  rw [hhandle] at hringers
  exact ⟨List.map_eq_nil_iff.mp hringers, hhandle⟩

end Scheduler

namespace Engine

theorem fireSome_zero (now : Nat) (e : Engine) : Engine.fireSome now 0 e = ⟨(), e, []⟩ := rfl

theorem InPhase.fireSome {e : Engine} (hphase : e.InPhase) (now fired : Nat) :
    (Engine.fireSome now fired e).state.InPhase := by
  induction fired generalizing e with
  | zero => exact hphase
  | succ fired ih => exact ih (hphase.fireOne now).phase

end Engine

namespace Device

variable {config : Config} {store : Store} {start d : Device} {history : History}

theorem armed_of_run (hbooted : Booted config store start) (hrun : Run start history d)
    (hfew : history.posts < UInt32.size) : d.1.Armed := by
  induction hrun with
  | start => exact Engine.armed_of_off hbooted.quiet.atRest.running
  | @serve history d request hrun ih =>
      have hone : History.posts [⟨d, request⟩] = Entry.posts ⟨d, request⟩ := Nat.add_zero _
      rw [History.posts_append, hone] at hfew
      have hfewer : history.posts < UInt32.size := Nat.lt_of_le_of_lt (Nat.le_add_right _ _) hfew
      have haccounts := (accounts_of_run hbooted hrun hfewer).2
      have hphase := (Reachable.of_run (.boot hbooted) hrun).inPhase
      exact Entry.armed (x := ⟨d, request⟩) hphase haccounts (ih hfewer) hfew

/-- Whenever the beacon is on air, between two requests or amid a poll, a slot is armed if and only
if it has a frame and an interval; then exactly one timer rings for it, which its handle names and
which repeats at that interval, and otherwise none does. -/
theorem armed_exactly_when_broadcast (hbooted : Booted config store start)
    (hrun : Run start history d) {now fired : Nat} {e : Engine}
    (hfired : e = (Engine.fireSome now fired d.1).state)
    (hfew : history.posts + Transcript.posts (Engine.fireSome now fired d.1).output < UInt32.size)
    (hrunning : e.scheduler.running = true) (i : SlotIndex) {slot : Slot}
    (hslot : e.state.slots.table.value i = slot) :
    (e.scheduler.isArmed i = true ↔ slot.frame.isSome ∧ slot.interval ≠ 0) ∧
      (slot.frame.isSome ∧ slot.interval ≠ 0 →
        ∃ t, e.scheduler.ringers i = [t] ∧ e.scheduler.slotTimers.value i = some t.id ∧
          t.period = some slot.interval.toNat) ∧
      (¬(slot.frame.isSome ∧ slot.interval ≠ 0) →
        e.scheduler.ringers i = [] ∧ e.scheduler.slotTimers.value i = none) := by
  have hphase := (Reachable.of_run (.boot hbooted) hrun).inPhase
  have hfewer : history.posts < UInt32.size := Nat.lt_of_le_of_lt (Nat.le_add_right _ _) hfew
  have haccounts := (accounts_of_run hbooted hrun hfewer).2
  have hpath := hphase.takes_fireSome now fired
  obtain ⟨-, hkept, harmed⟩ := hpath.armed haccounts (armed_of_run hbooted hrun hfewer) hfew
  have hlater := hphase.fireSome now fired
  rw [← hfired] at hkept harmed hlater
  have hslots := (hlater.beaconing_of_running hrunning).accounts hkept
  have harmedAt := harmed hrunning i
  have hisArmed : e.scheduler.isArmed i = (e.scheduler.slotTimers.value i).isSome := by
    rw [Scheduler.isArmed, PerSlot.getElem?_eq_value, Option.getD_some]
  have hbroadcast : slot.isBroadcast = true ↔ slot.frame.isSome ∧ slot.interval ≠ 0 := by
    simp [Slot.isBroadcast]
  have hinterval := e.state.interval?_eq_ite i
  rw [hslot] at hinterval
  rw [hisArmed, ← hbroadcast]
  cases hslotCase : slot.isBroadcast with
  | true =>
      rw [hslotCase, if_pos rfl] at hinterval
      obtain ⟨t, hringers, hhandle, hperiod⟩ := hslots.ringers_of_interval harmedAt hinterval
      refine ⟨?_, fun _ => ⟨t, hringers, hhandle, hperiod⟩, fun hnot => absurd rfl hnot⟩
      simp only [hhandle, Option.isSome_some]
  | false =>
      rw [hslotCase, if_neg Bool.false_ne_true] at hinterval
      obtain ⟨hringers, hhandle⟩ := hslots.ringers_of_none harmedAt hinterval
      refine ⟨?_, fun hon => absurd hon Bool.false_ne_true, fun _ => ⟨hringers, hhandle⟩⟩
      simp only [hhandle, Option.isSome_none]

/-- The second of two slots is set to three seconds while they take turns. -/
def retuning (start : Device) : History :=
  let beaconing := (serve (.command .startBeacon 0) start).state
  let chosen := (serve (.write .activeSlot 0 [1] 50) beaconing).state
  [⟨start, .command .startBeacon 0⟩, ⟨beaconing, .write .activeSlot 0 [1] 50⟩,
    ⟨chosen, .write .advInterval 0 [11, 184] 60⟩]

def retuned (start : Device) : Device :=
  let beaconing := (serve (.command .startBeacon 0) start).state
  let chosen := (serve (.write .activeSlot 0 [1] 50) beaconing).state
  (serve (.write .advInterval 0 [11, 184] 60) chosen).state

theorem run_retuned (start : Device) : Run start (retuning start) (retuned start) := by
  have hbeaconing := (Run.start : Run start [] start).serve (.command .startBeacon 0)
  have hchosen := hbeaconing.serve (.write .activeSlot 0 [1] 50)
  exact hchosen.serve (.write .advInterval 0 [11, 184] 60)

/-- How many timers have been posted by then, whether the scheduler runs, and what the two last
slots are set to. -/
def retunedTo (start : Device) : Nat × Bool × List (Bool × UInt16) :=
  let e := (retuned start).1
  let setting (i : SlotIndex) : Bool × UInt16 :=
    ((e.state.slots.table.value i).frame.isSome, (e.state.slots.table.value i).interval)
  ((retuning start).posts, e.scheduler.running, [setting .second, setting .third])

/-- The slot that has been set anew is rung for every three seconds, and the last one not at all. -/
theorem armed_exactly_when_broadcast_retuned :
    ∃ start, Booted paired ⟨.memory none, fun _ _ => none, 0⟩ start ∧
      (∃ t, (retuned start).1.scheduler.ringers .second = [t] ∧ t.period = some 3000) ∧
      (retuned start).1.scheduler.ringers .third = [] := by
  obtain ⟨start, hbooted, hretuned⟩ :
      ∃ start, Booted paired ⟨.memory none, fun _ _ => none, 0⟩ start ∧
        retunedTo start = (4, true, [(true, 3000), (true, 0)]) :=
    exists_booted_of_eq (.idle 100 10240 fun _ _ => none) (some (Octets.zero 32)) 0 retunedTo
      (by decide +kernel)
  simp only [retunedTo, Prod.mk.injEq, List.cons.injEq, and_true] at hretuned
  obtain ⟨hposts, hrunning, ⟨hframe, hinterval⟩, -, hnone⟩ := hretuned
  have hfew : (retuning start).posts +
      Transcript.posts (Engine.fireSome 60 0 (retuned start).1).output < UInt32.size := by
    rw [Engine.fireSome_zero, hposts]
    exact (by decide : 4 < UInt32.size)
  have hidle : (retuned start).1 = (Engine.fireSome 60 0 (retuned start).1).state := by
    rw [Engine.fireSome_zero]
  have hset : ((retuned start).1.state.slots.table.value .second).interval ≠ 0 := by
    rw [hinterval]
    decide
  obtain ⟨-, hrings, -⟩ := armed_exactly_when_broadcast hbooted (run_retuned start) hidle hfew
    hrunning .second rfl
  obtain ⟨-, -, hsilent⟩ := armed_exactly_when_broadcast hbooted (run_retuned start) hidle hfew
    hrunning .third rfl
  obtain ⟨t, hringers, -, hperiod⟩ := hrings ⟨hframe, hset⟩
  rw [hinterval] at hperiod
  exact ⟨start, hbooted, ⟨t, hringers, hperiod⟩, (hsilent fun h => h.2 hnone).1⟩

end Device

end Beacon

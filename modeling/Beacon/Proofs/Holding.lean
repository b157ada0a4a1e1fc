import Beacon.Proofs.Rounds
import Beacon.Proofs.Sharing
import Beacon.Proofs.Tuning

/-!
# Holding the radio

A slot that is put on air has the radio for its shortest interval: until then the
radio manager waits for the one timer it has.  While it does, a slot that is rung
for only joins the queue, and arming a slot anew touches no timer but its own, so
nothing stops the radio or starts something else.
-/

namespace Beacon

open Transcript

variable {limit now : Nat}

/-! ## The shortest interval stays -/

namespace Radio

theorem minInterval_heard (transcript : Transcript) (radio : Radio) :
    (radio.heard transcript).minInterval = radio.minInterval := by
  induction transcript generalizing radio with
  | nil => rfl
  | cons output rest ih =>
      have hfirst : (radio.hear output).minInterval = radio.minInterval := by
        cases output with
        | radio call fault => cases call <;> cases fault <;> rfl
        | notice notice => rfl
        | event event => rfl
        | store call fault => rfl
      exact (ih _).trans hfirst

end Radio

theorem Act.Heeds.minInterval {σ α : Type} {view : σ → Radio} {action : Act σ α}
    (h : Act.Heeds view action) (s : σ) :
    (view (action s).state).minInterval = (view s).minInterval := by
  rw [h s, Radio.minInterval_heard]

/-! ## What disturbs a slot on air -/

/-- The radio is stopped or something is started. -/
def Output.disturbs : Output → Bool
  | .radio .stop _ => true
  | .radio (.start _) _ => true
  | _ => false

namespace Transcript

/-- What is on air stays on air. -/
def Undisturbed (transcript : Transcript) : Prop :=
  ∀ output ∈ transcript, output.disturbs = false

theorem Undisturbed.append {a b : Transcript} (ha : a.Undisturbed) (hb : b.Undisturbed) :
    Undisturbed (a ++ b) := by
  intro output hmem
  cases List.mem_append.mp hmem with
  | inl hmem => exact ha output hmem
  | inr hmem => exact hb output hmem

theorem Mute.undisturbed {transcript : Transcript} (h : transcript.Mute) :
    transcript.Undisturbed := by
  intro output hmem
  have hcall := h output hmem
  cases output with
  | radio call fault => cases hcall
  | notice notice => rfl
  | event event => rfl
  | store call fault => rfl

/-- An output of one transcript and then another is put out in the first or in the second. -/
theorem eq_of_append_eq {a b before after : Transcript} {output : Output}
    (h : a ++ b = before ++ output :: after) :
    (∃ rest, a = before ++ output :: rest ∧ after = rest ++ b) ∨
      ∃ rest, before = a ++ rest ∧ b = rest ++ output :: after := by
  rcases List.append_eq_append_iff.mp h with ⟨rest, hbefore, hb⟩ | ⟨rest, ha, hrest⟩
  · exact .inr ⟨rest, hbefore, hb⟩
  · rcases List.cons_eq_append_iff.mp hrest with ⟨rfl, hb⟩ | ⟨mid, rfl, hafter⟩
    · rw [List.append_nil] at ha
      exact .inr ⟨[], by rw [ha, List.append_nil], hb⟩
    · exact .inl ⟨mid, ha, hafter⟩

end Transcript

/-! ## The radio manager waits -/

namespace Scheduler

/-- The radio manager waits, and not for a timer that is due before. -/
structure HeldUntil (limit : Nat) (s : Scheduler) : Prop where
  manager : s.manager ≠ none
  waits : ∀ t ∈ s.timers.pending, t.task = .manageRadio → limit ≤ t.deadline

variable {s s' s'' : Scheduler}

/-- The timers of slots do not matter. -/
theorem HeldUntil.keeps (h : s.HeldUntil limit) (hmanager : s'.manager = s.manager)
    (hpending : ∀ t ∈ s'.timers.pending, t.task = .manageRadio → t ∈ s.timers.pending) :
    s'.HeldUntil limit where
  manager := by rw [hmanager]; exact h.manager
  waits t ht htask := h.waits t (hpending t ht htask) htask

theorem AtRest.not_heldUntil (hrest : s.AtRest) : ¬s.HeldUntil limit := by
  intro hheld
  exact hheld.manager hrest.manager

theorem HeldUntil.rearm (h : s.HeldUntil limit) (p : State) (slot now : Nat) :
    (rearm p slot now s).state.HeldUntil limit := by
  refine h.keeps (rearm_keeps p slot now s).2 fun t ht htask => ?_
  rcases rearm_cases p slot now s with hsame | ⟨i, -, hdisarmed | ⟨interval, harmed⟩⟩
  · rwa [hsame] at ht
  · rw [hdisarmed] at ht
    exact (TimerQueue.pending_cancel?_sublist _ _).subset ht
  · rw [harmed, arm_state] at ht
    rcases TimerQueue.mem_insert ht with ht | ⟨-, -, -, hnew⟩
    · exact (TimerQueue.pending_cancel?_sublist _ _).subset ht
    · cases htask.symm.trans hnew

/-- A slot that is rung for is rung for again later. -/
theorem HeldUntil.popDue (h : s.HeldUntil limit) {id : TimerId} {slot : Nat}
    (hfired : (TimerQueue.popDue now s.timers).value = some (id, .enqueue slot)) :
    { s with timers := (TimerQueue.popDue now s.timers).state }.HeldUntil limit := by
  refine h.keeps rfl fun u hu htask => ?_
  rcases TimerQueue.popDue_cases now s.timers with ⟨-, hpop⟩ | ⟨t, timers, hfires, -, -, hpop⟩
  · rwa [hpop] at hu
  · rw [hpop] at hfired
    simp only [Option.some.injEq, Prod.mk.injEq] at hfired
    simp only [hpop] at hu
    cases hfires.mem_after hu with
    | inl hagain =>
        have hslot : u.task = .enqueue slot := (Timer.task_of_again hagain).trans hfired.2
        cases htask.symm.trans hslot
    | inr hu => exact hu

theorem HeldUntil.offer (h : s.HeldUntil limit) (slot : Nat) :
    (offer slot s).state.HeldUntil limit := by
  obtain ⟨queue, hoffer, -⟩ := offer_cases slot s
  rw [hoffer]
  exact ⟨h.manager, h.waits⟩

/-- As long as the radio is held the timer of the radio manager does not fire. -/
theorem HeldUntil.not_fired (h : s.HeldUntil limit) (hearly : now < limit) {id : TimerId} :
    (TimerQueue.popDue now s.timers).value ≠ some (id, .manageRadio) := by
  intro hfired
  rcases TimerQueue.popDue_cases now s.timers with
    ⟨-, hpop⟩ | ⟨t, timers, hfires, hdue, -, hpop⟩
  · rw [hpop] at hfired
    cases hfired
  · rw [hpop] at hfired
    simp only [Option.some.injEq, Prod.mk.injEq] at hfired
    have hlate := h.waits t hfires.mem hfired.2
    exact absurd hearly (Nat.not_lt.mpr (Nat.le_trans hlate hdue))

/-! ## A slot on air -/

/-- Once a slot is on air nothing disturbs it any more, and the radio is held. -/
def Airs (limit : Nat) (out : Transcript) (s : Scheduler) : Prop :=
  ∀ (before : Transcript) (slot : Nat) (after : Transcript),
    out = before ++ .notice (.slotOnAir slot) :: after →
      after.Undisturbed ∧ s.HeldUntil limit

theorem airs_of_turnless {out : Transcript} (h : out.Turnless) (s : Scheduler) :
    Airs limit out s := by
  rintro before slot after rfl
  exact absurd (List.mem_append_right before List.mem_cons_self) (h.not_onAir slot)

theorem Airs.prepend {a b : Transcript} (hb : Airs limit b s) (ha : a.Turnless) :
    Airs limit (a ++ b) s := by
  intro before slot after hout
  rcases eq_of_append_eq hout with ⟨rest, rfl, -⟩ | ⟨rest, -, hrest⟩
  · exact absurd (List.mem_append_right before List.mem_cons_self) (ha.not_onAir slot)
  · exact hb rest slot after hrest

/-- The report comes last, but for what does not matter. -/
theorem airs_of_last {a b : Transcript} (ha : a.Turnless) (notice : Notice) (hturnless : b.Turnless)
    (hquiet : b.Undisturbed) (hheld : s.HeldUntil limit) :
    Airs limit (a ++ .notice notice :: b) s := by
  apply Airs.prepend ?_ ha
  intro before slot after hout
  cases before with
  | nil =>
      cases hout
      exact ⟨hquiet, hheld⟩
  | cons output before =>
      obtain ⟨-, rfl⟩ := List.cons.inj hout
      exact absurd (List.mem_append_right before List.mem_cons_self) (hturnless.not_onAir slot)

/-- What leads from one scheduler to another neither takes the radio away before a time nor puts a
slot on air for less. -/
structure Dwells (limit : Nat) (s : Scheduler) (out : Transcript) (s' : Scheduler) : Prop where
  stays : s.HeldUntil limit → out.Undisturbed ∧ s'.HeldUntil limit
  airs : Airs limit out s'

theorem Airs.append {a b : Transcript} (ha : Airs limit a s) (hb : Dwells limit s b s') :
    Airs limit (a ++ b) s' := by
  intro before slot after hout
  rcases eq_of_append_eq hout with ⟨rest, hfirst, rfl⟩ | ⟨rest, -, hsecond⟩
  · obtain ⟨hrest, hheld⟩ := ha before slot rest hfirst
    obtain ⟨hafter, hlast⟩ := hb.stays hheld
    exact ⟨hrest.append hafter, hlast⟩
  · exact hb.airs rest slot after hsecond

namespace Dwells

theorem append {a b : Transcript} (ha : Dwells limit s a s') (hb : Dwells limit s' b s'') :
    Dwells limit s (a ++ b) s'' where
  stays h := by
    obtain ⟨hfirst, hheld⟩ := ha.stays h
    obtain ⟨hrest, hlast⟩ := hb.stays hheld
    exact ⟨hfirst.append hrest, hlast⟩
  airs := ha.airs.append hb

theorem idle {out : Transcript} (hmute : out.Mute) (hturnless : out.Turnless)
    (hheld : s.HeldUntil limit → s'.HeldUntil limit) : Dwells limit s out s' := by
  constructor
  · intro h
    exact ⟨hmute.undisturbed, hheld h⟩
  · exact airs_of_turnless hturnless s'

theorem plain {out : Transcript} (h : out.Plain) (hsame : s' = s) : Dwells limit s out s' := by
  apply idle h.mute h.turnless
  intro hheld
  rwa [hsame]

/-- Where nobody has the radio nobody loses it. -/
theorem free {out : Transcript} (hfree : s.manager = none) (h : Airs limit out s') :
    Dwells limit s out s' := by
  constructor
  · intro hheld
    exact absurd hfree hheld.manager
  · exact h

end Dwells

/-! ## The radio manager -/

theorem length_pending_le (hcoh : s.Coherent) (hfree : s.manager = none) :
    s.timers.pending.length ≤ 3 := by
  have hlength := hcoh.owned.length_eq
  rw [TimerQueue.ids, List.length_map, handles, hfree, Option.toList_none, List.append_nil]
    at hlength
  exact hlength ▸ s.length_slotHandles_le

/-- The radio manager has one timer only. -/
theorem Coherent.eq_of_manageRadio (hcoh : s.Coherent) {t u : Timer} (ht : t ∈ s.timers.pending)
    (hu : u ∈ s.timers.pending) (httask : t.task = .manageRadio) (hutask : u.task = .manageRadio) :
    t = u := by
  have hmem {v : Timer} (hv : v ∈ s.timers.pending) (htask : v.task = .manageRadio) :
      v ∈ s.timers.pending.filter (·.task = .manageRadio) :=
    List.mem_filter.mpr ⟨hv, decide_eq_true htask⟩
  have hfirst := hmem ht httask
  have hsecond := hmem hu hutask
  have hone := hcoh.managed.length_le
  rw [List.length_map] at hone
  have hone := Nat.le_trans hone s.manager.length_toList_le
  generalize s.timers.pending.filter (·.task = .manageRadio) = waiting at hfirst hsecond hone
  match waiting with
  | [only] => rw [List.mem_singleton.mp hfirst, List.mem_singleton.mp hsecond]

/-- The radio manager has posted its timer, for which those of the slots leave room. -/
theorem Coherent.heldUntil_of_posted {timers : TimerQueue} {delay : Nat} (hcoh : s.Coherent)
    (htimers : s.timers = (TimerQueue.postIn now delay .manageRadio timers).state)
    (hmanager : s.manager = (TimerQueue.postIn now delay .manageRadio timers).value)
    (hlimit : limit ≤ now + delay) : s.HeldUntil limit := by
  rw [TimerQueue.postIn] at htimers hmanager
  rcases TimerQueue.insert_cases (now + delay) none .manageRadio timers with
    ⟨hfull, hinsert⟩ | ⟨-, hadmits, hinsert⟩
  · rw [hinsert] at htimers hmanager
    have hlength := length_pending_le hcoh hmanager
    rw [htimers] at hlength
    exact absurd (Nat.le_trans hfull hlength) (by decide)
  · rw [hinsert] at htimers hmanager
    constructor
    · rw [hmanager]
      exact Option.some_ne_none _
    · intro t ht htask
      have hposted : ⟨timers.nextId, now + delay, none, .manageRadio⟩ ∈ s.timers.pending := by
        rw [htimers]
        exact hadmits.mem_iff.mpr (.inl rfl)
      rw [hcoh.eq_of_manageRadio ht hposted htask rfl]
      exact hlimit

theorem minInterval_broadcast (slot now : Nat) (x : Scheduler × State) :
    (broadcast slot now x).state.1.radio.minInterval = x.1.radio.minInterval :=
  (heeds_broadcast slot now).minInterval x

/-- The slot that has its turn keeps the radio for the shortest interval. -/
theorem giveTurn_eq (slot now : Nat) (s : Scheduler) (p : State) :
    (giveTurn slot now (s, p)).output =
        (Radio.quiet s.radio).output ++
          ((broadcast slot now ({ s with radio := (Radio.quiet s.radio).state }, p)).output ++
            (TimerQueue.postIn now s.radio.minInterval.toNat .manageRadio s.timers).output) ∧
      (giveTurn slot now (s, p)).state.1.timers =
        (TimerQueue.postIn now s.radio.minInterval.toNat .manageRadio s.timers).state ∧
      (giveTurn slot now (s, p)).state.1.manager =
        (TimerQueue.postIn now s.radio.minInterval.toNat .manageRadio s.timers).value := by
  let sent := broadcast slot now ({ s with radio := (Radio.quiet s.radio).state }, p)
  have htimers : sent.state.1.timers = s.timers :=
    congrArg Agenda.timers (agenda_broadcast slot now ({ s with radio := _ }, p))
  have hinterval : sent.state.1.radio.minInterval = s.radio.minInterval :=
    (minInterval_broadcast slot now _).trans (Radio.heeds_quiet.minInterval s.radio)
  have hpost : TimerQueue.postIn now s.radio.minInterval.toNat .manageRadio s.timers =
      TimerQueue.postIn now sent.state.1.radio.minInterval.toNat .manageRadio
        sent.state.1.timers := by
    rw [htimers, hinterval]
  rw [hpost]
  simp only [giveTurn, onRadio, onTimers, Act.bind_apply, Act.onFst_apply, Act.within_apply,
    Act.get_apply, Act.modify_apply, Done.output_after, Done.state_after, Done.after_nil,
    List.append_nil]
  exact ⟨rfl, rfl, rfl⟩

/-- How a turn went is reported last. -/
theorem broadcast_output (slot now : Nat) (x : Scheduler × State) :
    ∃ (prelude : Transcript) (report : Notice), prelude.Turnless ∧
      (broadcast slot now x).output = prelude ++ [.notice report] := by
  have hprepare := (State.asides_prepare slot now x.2).turnless
  cases hvalue : (State.prepare slot now x.2).value with
  | none => exact ⟨_, _, hprepare, (broadcast_of_none hvalue).1⟩
  | some advert =>
      obtain ⟨addressing, fault, -, hout, -⟩ := broadcast_of_some hvalue
      have hsettings : Turnless [.radio (.txPower advert.radioTx) none,
          .radio (.connectable advert.connectable) none, .radio (.start advert.payload) fault] := by
        intro output hmem
        simp only [List.mem_cons, List.not_mem_nil, or_false] at hmem
        rcases hmem with rfl | rfl | rfl <;> rfl
      refine ⟨_, .onStart slot fault,
        hprepare.append (addressing.turnless_outputs.append hsettings), ?_⟩
      simp only [hout, PreparedAdvert.outputs, List.append_assoc, List.cons_append, List.nil_append]

/-- The slot that is given the radio has it for the shortest interval. -/
theorem airs_manageRadio {p : State} (hlimit : limit ≤ now + s.radio.minInterval.toNat)
    (hcoh : (manageRadio now (s, p)).state.1.Coherent) :
    Airs limit (manageRadio now (s, p)).output (manageRadio now (s, p)).state.1 := by
  cases hqueue : s.queue with
  | nil =>
      rw [manageRadio_eq_of_nil hqueue]
      exact airs_of_turnless (Radio.inner_quiet.turnless s.radio) _
  | cons slot rest =>
      rw [manageRadio_of_cons hqueue] at hcoh ⊢
      obtain ⟨hout, htimers, hmanager⟩ :=
        giveTurn_eq slot now { s with manager := none, queue := rest } p
      generalize giveTurn slot now ({ s with manager := none, queue := rest }, p) = done
        at hcoh hout htimers hmanager ⊢
      obtain ⟨prelude, report, hprelude, hbroadcast⟩ := broadcast_output slot now
        ({ s with manager := none, queue := rest, radio := (Radio.quiet s.radio).state }, p)
      have hpost := TimerQueue.mute_insert (now + s.radio.minInterval.toNat) none .manageRadio
        s.timers
      have hturnless :=
        (TimerQueue.inner_postIn now s.radio.minInterval.toNat .manageRadio).turnless s.timers
      have hheld := hcoh.heldUntil_of_posted htimers hmanager hlimit
      rw [hout, hbroadcast, List.append_assoc, ← List.append_assoc]
      exact airs_of_last ((Radio.inner_quiet.turnless s.radio).append hprelude) report hturnless
        hpost.undisturbed hheld

end Scheduler

/-! ## The engine -/

namespace Engine

variable {α β : Type} {e : Engine}

/-- The action neither takes the radio away before a time nor puts a slot on air for less. -/
def Dwells (limit : Nat) (action : Act Engine α) (e : Engine) : Prop :=
  Scheduler.Dwells limit e.scheduler (action e).output (action e).state.scheduler

theorem Dwells.bind {action : Act Engine α} {next : α → Act Engine β}
    (hfirst : Dwells limit action e)
    (hnext : Dwells limit (next (action e).value) (action e).state) :
    Dwells limit (action >>= next) e :=
  Scheduler.Dwells.append hfirst hnext

theorem Dwells.congr {action other : Act Engine α} (h : Dwells limit other e)
    (heq : action e = other e) : Dwells limit action e := by
  rwa [Dwells, heq]

theorem dwells_pure (a : α) (e : Engine) : Dwells limit (pure a) e :=
  .plain plain_nil rfl

theorem dwells_note {notice : Notice} (h : notice.isAside) (e : Engine) :
    Dwells limit (Act.note notice) e :=
  .plain (plain_singleton h) rfl

theorem dwells_emit (event : Event) (e : Engine) : Dwells limit (Act.emit event) e :=
  .plain (plain_singleton rfl) rfl

theorem dwells_drainEvents (e : Engine) : Dwells limit (onState State.drainEvents) e :=
  .idle (mute_drainEvents e) (turnless_drainEvents e) id

theorem dwells_setMode (mode : Mode) (e : Engine) : Dwells limit (setMode mode) e := by
  obtain ⟨reports, hreports, hmode⟩ := setMode_eq mode e
  rw [Dwells, hmode]
  exact .plain hreports rfl

/-- Where nobody has the radio the action may do anything but put a slot on air. -/
theorem dwells_of_free {action : Act Engine α} (hfree : e.scheduler.manager = none)
    (hturnless : Turnless (action e).output) : Dwells limit action e := by
  apply Scheduler.Dwells.free hfree
  exact Scheduler.airs_of_turnless hturnless _

theorem dwells_rearm (slot now : Nat) (e : Engine) : Dwells limit (rearm slot now) e := by
  simp only [Dwells, rearm, Act.bind_apply, Act.get_apply, Done.after_nil]
  split
  · exact .idle ((Scheduler.spares_rearm e.state slot now).mute _)
      ((Scheduler.inner_rearm e.state slot now).turnless e.scheduler)
      fun h => h.rearm e.state slot now
  · exact .plain plain_nil rfl

theorem dwells_manageRadio (hfree : e.scheduler.manager = none)
    (hlimit : limit ≤ now + e.radio.minInterval.toNat)
    (hcoh : (onAir (Scheduler.manageRadio now) e).state.scheduler.Coherent) :
    Dwells limit (onAir (Scheduler.manageRadio now)) e := by
  apply Scheduler.Dwells.free hfree
  exact Scheduler.airs_manageRadio hlimit hcoh

theorem dwells_manageIfFree (hlimit : limit ≤ now + e.radio.minInterval.toNat)
    (hcoh : (manageIfFree now e).state.scheduler.Coherent) : Dwells limit (manageIfFree now) e := by
  simp only [Dwells, manageIfFree, Act.bind_apply, Act.get_apply, Done.after_nil] at hcoh ⊢
  split
  next hfree =>
    rw [if_pos hfree] at hcoh
    exact dwells_manageRadio (Option.isNone_iff_eq_none.mp hfree) hlimit hcoh
  next => exact .plain plain_nil rfl

theorem turnless_comeOnAir (now : Nat) (e : Engine) :
    Turnless (onAir (Scheduler.comeOnAir now) e).output := by
  simp only [onAir, Act.within_apply, Scheduler.comeOnAir_apply]
  exact Turnless.append (a := [_]) (turnless_singleton rfl)
    ((Scheduler.inner_armAll _ now _).turnless _)

theorem InPhase.turnless_startConfig (hphase : e.InPhase) :
    Turnless (Engine.startConfig now e).output := by
  cases hadvert : configAdvert e.state with
  | error fault =>
      rw [startConfig_of_error hadvert]
      exact turnless_nil
  | ok advert =>
      obtain ⟨scan, payload⟩ := advert
      rw [startConfig_of_advert hadvert]
      exact (inner_leaveMode.turnless e).append
        (hphase.leaveMode.still_enterConfig scan payload).turnless

/-- A quiet engine comes on air with the first slot at once. -/
theorem Quiet.dwells_enterBeacon (hquiet : e.Quiet)
    (hlimit : limit ≤ now + e.radio.minInterval.toNat) : Dwells limit (enterBeacon now) e := by
  have hfree := hquiet.atRest.manager
  by_cases hsilent : e.Silent
  · apply Dwells.congr ?_ (enterBeacon_eq_of_silent hsilent now)
    apply Dwells.bind (dwells_of_free hfree (Radio.inner_quiet.turnless _))
    apply Dwells.bind (dwells_note rfl _)
    exact Dwells.bind (dwells_setMode .idle _) (dwells_pure _ _)
  · let raised := (onAir (Scheduler.comeOnAir now) (onScheduler Scheduler.stop e).state).state
    have hcoh : (onAir (Scheduler.manageRadio now) raised).state.scheduler.Coherent := by
      have hentered := (hquiet.enterBeacon_of_not_silent hsilent now).2.coherent
      rw [enterBeacon_eq_of_not_silent hsilent] at hentered
      simp only [Act.bind_apply, Done.state_after, setMode_state] at hentered
      exact hentered
    have hinterval : raised.radio.minInterval = e.radio.minInterval :=
      ((heeds_onAir (Scheduler.heeds_comeOnAir now)).minInterval _).trans
        ((heeds_onScheduler Scheduler.heeds_stop).minInterval e)
    have hraised : raised.scheduler.manager = none :=
      Scheduler.manager_armAll _ now SlotIndex.all _
    apply Dwells.congr ?_ (enterBeacon_eq_of_not_silent hsilent now)
    apply Dwells.bind (dwells_of_free hfree (Radio.inner_quiet.turnless _))
    apply Dwells.bind (dwells_of_free rfl (turnless_comeOnAir now _))
    apply Dwells.bind (dwells_manageRadio hraised (hinterval ▸ hlimit) hcoh)
    apply Dwells.bind (dwells_setMode .beacon _)
    exact Dwells.bind (dwells_drainEvents _) (dwells_pure _ _)

theorem Quiet.dwells_clear_enterBeacon (hquiet : e.Quiet)
    (hlimit : limit ≤ now + e.radio.minInterval.toNat) :
    Dwells limit (clearScanResponse >>= fun _ => enterBeacon now) e := by
  apply Dwells.bind (dwells_of_free hquiet.atRest.manager (still_clearScanResponse e).turnless)
  apply hquiet.cleared.dwells_enterBeacon
  rwa [heeds_clearScanResponse.minInterval]

theorem Quiet.dwells_startConfig (hquiet : e.Quiet) (now : Nat) :
    Dwells limit (startConfig now) e := by
  have hfree := hquiet.atRest.manager
  exact dwells_of_free hfree (InPhase.quiet hquiet).turnless_startConfig

/-- A wait that is over is followed by a start, or by configuration mode again. -/
theorem Quiet.dwells_resume (hquiet : e.Quiet) (hlimit : limit ≤ now + e.radio.minInterval.toNat) :
    Dwells limit (resume now) e := by
  rw [resume, ← bind_assoc]
  apply Dwells.bind (hquiet.dwells_clear_enterBeacon hlimit)
  have hcleared := hquiet.cleared
  simp only [Act.bind_apply, Done.value_after, Done.state_after]
  by_cases hsilent : (clearScanResponse e).state.Silent
  · obtain ⟨hvalue, hentered, -⟩ := hcleared.enterBeacon_of_silent hsilent now
    rw [hvalue]
    apply Dwells.bind (dwells_note rfl _)
    apply Dwells.bind (hentered.dwells_startConfig now)
    cases (startConfig now (enterBeacon now (clearScanResponse e).state).state).value with
    | ok _ => exact dwells_pure _ _
    | error fault => exact dwells_note rfl _
  · rw [(hcleared.enterBeacon_of_not_silent hsilent now).1]
    exact dwells_pure _ _

/-! ### Timers -/

/-- A slot that is rung for joins the queue, and has its turn only if nobody has the radio. -/
theorem Beaconing.dwells_fireOne (hbeaconing : e.Beaconing) (hearly : now < limit)
    (hlimit : limit ≤ now + e.radio.minInterval.toNat) : Dwells limit (Engine.fireOne now) e := by
  rcases TimerQueue.popDue_cases now e.scheduler.timers with
    ⟨-, hpop⟩ | ⟨t, timers, hfires, -, -, hpop⟩
  · exact Dwells.congr (dwells_pure none e) (fireOne_of_none hpop)
  have hfired : (TimerQueue.popDue now e.scheduler.timers).value = some (t.id, t.task) := by
    rw [hpop]
  have hcoh := (hbeaconing.fireOne now).coherent
  cases hbeaconing.coherent.onAir t hfires.mem with
  | @enqueue id deadline period slot _ =>
      have hround := fireOne_eq_of_enqueue hfired
      have hring : Dwells limit (ring slot now) e :=
        .idle ((Scheduler.spares_offer slot).mute _) ((Scheduler.inner_offer slot).turnless _)
          fun h => (h.popDue hfired).offer slot
      have hinterval : (ring slot now e).state.radio.minInterval = e.radio.minInterval :=
        (Move.ring hbeaconing hfired).heeds.minInterval e
      rw [hround] at hcoh
      apply Dwells.congr ?_ hround
      apply Dwells.bind hring
      exact Dwells.bind (dwells_manageIfFree (hinterval ▸ hlimit) hcoh) (dwells_pure _ _)
  | @manageRadio id deadline =>
      have hround := fireOne_eq_of_manageRadio hfired
      rw [hround] at hcoh
      have hmanaged : Dwells limit (onAir (Scheduler.manageRadio now) >>= fun _ =>
          pure (some Task.manageRadio)) (release now e).state :=
        Dwells.bind (dwells_manageRadio rfl hlimit hcoh) (dwells_pure _ _)
      -- The radio manager's timer has fired, and so the radio was not held.
      refine ⟨fun hheld => absurd hfired (hheld.not_fired hearly), ?_⟩
      rw [hround]
      exact hmanaged.airs

theorem Waiting.dwells_fireOne {t : Timer} (hwaiting : e.Waiting t)
    (hlimit : limit ≤ now + e.radio.minInterval.toNat) : Dwells limit (Engine.fireOne now) e := by
  have hrest : e.scheduler.AtRest := hwaiting.elim Configuring.atRest Pausing.atRest
  by_cases hdue : t.deadline ≤ now
  · apply Dwells.congr ?_ (hwaiting.fireOne_eq hdue)
    have hwoken : Dwells limit (wake now >>= fun _ => resume now >>= fun _ =>
        pure (some t.task)) e := by
      apply Dwells.bind (dwells_of_free hrest.manager (Radio.inner_quiet.turnless _))
      have hinterval : (wake now e).state.radio.minInterval = e.radio.minInterval :=
        (Move.wake hwaiting hdue).heeds.minInterval e
      apply Dwells.bind ((hwaiting.quiet_wake hdue).dwells_resume (hinterval ▸ hlimit))
      exact dwells_pure _ _
    split
    · exact Dwells.bind (dwells_note rfl e) hwoken
    · exact hwoken
  · exact Dwells.congr (dwells_pure none e) (hwaiting.fireOne_of_lt (Nat.lt_of_not_le hdue))

theorem InPhase.dwells_fireOne (hphase : e.InPhase) (hearly : now < limit)
    (hlimit : limit ≤ now + e.radio.minInterval.toNat) : Dwells limit (Engine.fireOne now) e := by
  cases hphase with
  | quiet hquiet => exact Dwells.congr (dwells_pure none e) (hquiet.fireOne now)
  | configuring hconfiguring => exact Waiting.dwells_fireOne (.inl hconfiguring) hlimit
  | pausing hpausing => exact Waiting.dwells_fireOne (.inr hpausing) hlimit
  | beaconing hbeaconing => exact hbeaconing.dwells_fireOne hearly hlimit

theorem InPhase.dwells_fireSome (hphase : e.InPhase) (hearly : now < limit)
    (hlimit : limit ≤ now + e.radio.minInterval.toNat) (n : Nat) :
    Dwells limit (Engine.fireSome now n) e := by
  induction n generalizing e with
  | zero => exact dwells_pure () e
  | succ n ih =>
      have hinterval : (Engine.fireOne now e).state.radio.minInterval = e.radio.minInterval := by
        rw [hphase.takes_fireOne.heard_eq, Radio.minInterval_heard]
      apply Dwells.bind (hphase.dwells_fireOne hearly hlimit)
      exact ih (hphase.fireOne now).phase (hinterval ▸ hlimit)

theorem InPhase.dwells_poll (hphase : e.InPhase) (hearly : now < limit)
    (hlimit : limit ≤ now + e.radio.minInterval.toNat) : Dwells limit (Engine.poll now) e := by
  apply Dwells.bind ?_ (dwells_drainEvents _)
  obtain ⟨fired, hfired⟩ := gather_fireOne now e
  rw [Dwells, hfired]
  exact hphase.dwells_fireSome hearly hlimit fired.length

/-! ### Starts and writes -/

theorem InPhase.airs_startBeacon (hphase : e.InPhase)
    (hlimit : limit ≤ now + e.radio.minInterval.toNat) :
    Scheduler.Airs limit (Engine.startBeacon now e).output
      (Engine.startBeacon now e).state.scheduler := by
  have hinterval : (Engine.leaveMode e).state.radio.minInterval = e.radio.minInterval :=
    heeds_leaveMode.minInterval e
  have hstarted := hphase.leaveMode.dwells_clear_enterBeacon (hinterval ▸ hlimit)
  exact hstarted.airs.prepend (inner_leaveMode.turnless e)

theorem InPhase.airs_restart (hphase : e.InPhase)
    (hlimit : limit ≤ now + e.radio.minInterval.toNat) :
    Scheduler.Airs limit (Engine.restart now e).output
      (Engine.restart now e).state.scheduler := by
  have hstarted := hphase.airs_startBeacon hlimit
  rw [Engine.restart, Act.bind_apply]
  cases (Engine.startBeacon now e).value with
  | ok _ => exact hstarted.append (dwells_pure () _)
  | error fault => exact hstarted.append (dwells_note rfl _)

/-- What follows a write takes the radio from nobody, unless beacon mode is started anew. -/
theorem dwells_follow {effect : WriteEffect} (hstays : ¬(effect = .factoryReset ∧ e.mode = .beacon))
    (now : Nat) : Dwells limit (follow effect now) e := by
  cases effect with
  | none => exact dwells_pure () e
  | lock state => exact dwells_emit _ e
  | intervalChanged slot => exact dwells_rearm slot now e
  | slotChanged slot => exact Dwells.bind (dwells_rearm slot now e) (dwells_emit _ _)
  | factoryReset =>
      have hmode : ¬e.mode = .beacon := fun h => hstays ⟨rfl, h⟩
      apply Dwells.bind (dwells_emit _ e)
      simp only [Dwells, Act.bind_apply, Act.emit_apply, Act.get_apply, Done.after_nil,
        if_neg hmode]
      exact dwells_pure () e

theorem InPhase.airs_reset (hphase : e.InPhase) (hmode : e.mode = .beacon)
    (hlimit : limit ≤ now + e.radio.minInterval.toNat) :
    Scheduler.Airs limit (Engine.follow .factoryReset now e).output
      (Engine.follow .factoryReset now e).state.scheduler := by
  simp only [Engine.follow, Act.bind_apply, Act.emit_apply, Act.get_apply, Done.after_nil,
    Done.output_after, Done.state_after, if_pos hmode]
  exact (hphase.airs_restart hlimit).prepend (turnless_singleton rfl)

end Engine

end Beacon

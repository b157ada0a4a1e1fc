import Beacon.Proofs.Courses
import Beacon.Proofs.Polling

/-!
# Paths of the engine

All that an engine does when it is asked something is made of a few moves, and
each move is made in one situation only: a quiet engine comes on air or loads the
configuration advert, one that is on air fires a timer or serves its queue, and
any engine may go quiet.  A path is one move after the other with all that they
put out, so that what every move preserves holds after every request.
-/

namespace Beacon

open Act

variable {α β : Type}

namespace Act

variable {σ τ : Type}

theorem bind_congr_apply {action other : Act σ α} {s : σ} (h : action s = other s)
    (next : α → Act σ β) : (action >>= next) s = (other >>= next) s := by
  rw [bind_apply, bind_apply, h]

theorem bind_congr_state {action : Act σ α} {next other : α → Act σ β} {s : σ}
    (h : next (action s).value (action s).state = other (action s).value (action s).state) :
    (action >>= next) s = (action >>= other) s := by
  rw [bind_apply, bind_apply, h]

theorem within_bind (get : τ → σ) (set : τ → σ → τ) (hget : ∀ t s, get (set t s) = s)
    (hset : ∀ t s s', set (set t s) s' = set t s') (action : Act σ α) (next : α → Act σ β) :
    (action >>= next).within get set =
      action.within get set >>= fun a => (next a).within get set := by
  funext t
  simp only [within_apply, bind_apply, hget, hset, Done.after]

end Act

namespace Scheduler

section Provider

variable {π : Type} [AdvertProvider π]

/-- Arms every slot that is to be broadcast, for adverts at the shortest interval. -/
def comeOnAir (now : Nat) : Act (Scheduler × π) Unit := do
  let (s, provider) ← get
  Act.onFst (onRadio (Radio.tell (.interval s.radio.minInterval)))
  Act.onFst (armAll provider now SlotIndex.all)
  modify fun (s, provider) => ({ s with running := true }, provider)

theorem start_eq_of_silent {p : π}
    (hsilent : ∀ slot : SlotIndex, AdvertProvider.interval? p slot = none)
    (now : Nat) (s : Scheduler) :
    start now (s, p) =
      (do
        Act.onFst stop
        Act.note .noSlotToBroadcast
        return .error .invalidInterval : Act (Scheduler × π) (Except Fault Unit)) (s, p) := by
  have hall :
      (SlotIndex.all.all fun slot => (AdvertProvider.interval? p slot.val).isNone) = true := by
    simp [hsilent]
  simp only [start, Act.bind_apply, Act.onFst_apply, Act.get_apply, Done.after_nil, hall, if_true]

theorem start_eq_of_interval {p : π} {slot : SlotIndex}
    (hslot : AdvertProvider.interval? p slot ≠ none) (now : Nat) (s : Scheduler) :
    start now (s, p) =
      (do
        Act.onFst stop
        comeOnAir now
        manageRadio now
        return .ok () : Act (Scheduler × π) (Except Fault Unit)) (s, p) := by
  have hall :
      (SlotIndex.all.all fun slot => (AdvertProvider.interval? p slot.val).isNone) = false := by
    rw [Bool.eq_false_iff]
    intro hsilent
    have hnone := List.all_eq_true.mp hsilent slot slot.mem_all
    exact hslot (Option.isNone_iff_eq_none.mp hnone)
  simp only [start, comeOnAir, bind_assoc]
  simp only [Act.bind_apply, Act.onFst_apply, Act.get_apply, Done.after_nil, hall,
    Bool.false_eq_true, if_false]

theorem manager_armAll (p : π) (now : Nat) (slots : List SlotIndex) :
    Act.Keeps manager (armAll p now slots) := by
  induction slots with
  | nil => exact fun _ => rfl
  | cons slot rest ih =>
      intro s
      rw [armAll_cons]
      cases AdvertProvider.interval? p slot.val with
      | none => exact ih s
      | some interval => exact ih _

theorem manageRadio_of_manager (now : Nat) (s : Scheduler) (p : π) :
    manageRadio now ({ s with manager := none }, p) = manageRadio now (s, p) := by
  obtain ⟨radio, timers, queue, slotTimers, manager, running⟩ := s
  cases queue <;> rfl

end Provider

end Scheduler

namespace Engine

variable {now : Nat}

theorem onAir_bind (action : Act (Scheduler × State) α) (next : α → Act (Scheduler × State) β) :
    onAir (action >>= next) = onAir action >>= fun a => onAir (next a) :=
  Act.within_bind (fun e : Engine => (e.scheduler, e.state))
    (fun e (x : Scheduler × State) => { e with scheduler := x.1, state := x.2 })
    (fun _ _ => rfl) (fun _ _ _ => rfl) action next

theorem onAir_congr {action other : Act (Scheduler × State) α} {e : Engine}
    (h : action (e.scheduler, e.state) = other (e.scheduler, e.state)) :
    onAir action e = onAir other e := by
  simp only [onAir, Act.within_apply, h]

/-! ## Moves -/

/-- Comes on air, with no scan response beside the slots. -/
def raise (now : Nat) : Act Engine Unit := do
  clearScanResponse
  onScheduler Scheduler.stop
  onAir (Scheduler.comeOnAir now)

/-- The timer of a slot puts it into the queue. -/
def ring (slot now : Nat) : Act Engine Unit := do
  let _ ← onTimers (TimerQueue.popDue now)
  onScheduler (Scheduler.offer slot)

/-- The radio manager's timer takes the slot that is on air off its hands. -/
def release (now : Nat) : Act Engine Unit := do
  let _ ← onTimers (TimerQueue.popDue now)
  modify fun e => { e with scheduler.manager := none }

/-- Serves the queue if nobody has the radio. -/
def manageIfFree (now : Nat) : Act Engine Unit := do
  if (← get).scheduler.manager.isNone then onAir (Scheduler.manageRadio now)

/-- The wait is over, and the engine goes quiet. -/
def wake (now : Nat) : Act Engine Unit := do
  let _ ← onTimers (TimerQueue.popDue now)
  modify fun e => { e with configTimer := none, resumeTimer := none }
  leaveMode

/-- The first timer has fired, and the modes wait for nothing more. -/
def woken (now : Nat) (e : Engine) : Engine :=
  { e with
    scheduler.timers := (TimerQueue.popDue now e.scheduler.timers).state
    configTimer := none
    resumeTimer := none }

theorem wake_apply (now : Nat) (e : Engine) : wake now e = leaveMode (e.woken now) := rfl

/-- Beacons, or goes back to configuration mode, once the mode before has been left. -/
def resume (now : Nat) : Act Engine Unit := do
  clearScanResponse
  match ← enterBeacon now with
  | .ok () => pure ()
  | .error fault =>
    Act.note (.beaconUnavailable fault)
    match ← startConfig now with
    | .ok () => pure ()
    | .error fault => Act.note (.configUnavailable fault)

theorem startBeaconOrConfig_eq (now : Nat) :
    startBeaconOrConfig now = leaveMode >>= fun _ => resume now := by
  have hcleared : (fun _ : Unit => (clearScanResponse >>= fun _ => enterBeacon now) >>= _) =
      fun _ : Unit => resume now := funext fun _ => bind_assoc ..
  exact (bind_assoc ..).trans (congrArg (leaveMode >>= ·) hcleared)

/-- What the engine may do next. -/
inductive Move (now : Nat) (e : Engine) : {α : Type} → Act Engine α → Prop
  | note {notice : Notice} : notice.isAside → Move now e (Act.note notice)
  | emit (event : Event) : Move now e (Act.emit event)
  | drain : Move now e (onState State.drainEvents)
  | turnTo (mode : Mode) : Move now e (setMode mode)
  | leave : e.InPhase → Move now e leaveMode
  | hush : e.Quiet → Move now e (onScheduler Scheduler.stop)
  | clear : e.Quiet → Move now e clearScanResponse
  | configure {scan payload : Bytes} : e.Quiet → configAdvert e.state = .ok (scan, payload) →
      Move now e (enterConfig scan payload now)
  | raise : e.Quiet → ¬e.Silent → Move now e (raise now)
  | manage : e.scheduler.running = true → e.scheduler.manager = none →
      Move now e (onAir (Scheduler.manageRadio now))
  | ring {id : TimerId} {slot : Nat} : e.Beaconing →
      (TimerQueue.popDue now e.scheduler.timers).value = some (id, .enqueue slot) →
      Move now e (ring slot now)
  | release {id : TimerId} : e.Beaconing →
      (TimerQueue.popDue now e.scheduler.timers).value = some (id, .manageRadio) →
      Move now e (release now)
  | wake {t : Timer} : e.Waiting t → t.deadline ≤ now → Move now e (wake now)
  | rearm (slot : Nat) : e.Beaconing → Move now e (onScheduler (Scheduler.rearm e.state slot now))

/-- One move after the other, with all that they put out. -/
inductive Path (now : Nat) : Engine → Transcript → Engine → Prop
  | refl (e : Engine) : Path now e [] e
  | step {γ : Type} {e e' : Engine} {action : Act Engine γ} {out : Transcript} :
      Move now e action → Path now (action e).state out e' →
      Path now e ((action e).output ++ out) e'

theorem Path.trans {e e' e'' : Engine} {a b : Transcript} (h : Path now e a e')
    (h' : Path now e' b e'') : Path now e (a ++ b) e'' := by
  induction h with
  | refl e => exact h'
  | step hmove _ ih =>
      rw [List.append_assoc]
      exact .step hmove (ih h')

/-- The action is a path from the engine on. -/
def Takes (now : Nat) (action : Act Engine α) (e : Engine) : Prop :=
  Path now e (action e).output (action e).state

theorem Move.takes {e : Engine} {action : Act Engine α} (h : Move now e action) :
    Takes now action e := by
  have hpath := Path.step h (.refl _)
  rwa [List.append_nil] at hpath

theorem Takes.bind {e : Engine} {action : Act Engine α} {next : α → Act Engine β}
    (hfirst : Takes now action e)
    (hnext : Takes now (next (action e).value) (action e).state) :
    Takes now (action >>= next) e :=
  Path.trans hfirst hnext

theorem Takes.congr {e : Engine} {action other : Act Engine α} (h : Takes now other e)
    (heq : action e = other e) : Takes now action e := by
  rwa [Takes, heq]

theorem takes_pure (a : α) (e : Engine) : Takes now (pure a) e := Path.refl e

/-! ## Entering and leaving modes -/

theorem InPhase.takes_startConfig {e : Engine} (hphase : e.InPhase) :
    Takes now (Engine.startConfig now) e := by
  cases hadvert : configAdvert e.state with
  | error fault =>
      rw [Takes, startConfig_of_error hadvert]
      exact .refl e
  | ok advert =>
      obtain ⟨scan, payload⟩ := advert
      have hstate : (Engine.leaveMode e).state.state = e.state :=
        congrArg Prod.fst (held_leaveMode e)
      have hadvert' : configAdvert (Engine.leaveMode e).state.state = .ok (scan, payload) := by
        rw [hstate, hadvert]
      rw [Takes, startConfig_of_advert hadvert]
      exact Path.trans (Move.leave hphase).takes (Move.configure hphase.leaveMode hadvert').takes

/-- With nothing to send the engine only says so. -/
theorem enterBeacon_eq_of_silent {e : Engine} (hsilent : e.Silent) (now : Nat) :
    enterBeacon now e =
      (do
        onScheduler Scheduler.stop
        Act.note .noSlotToBroadcast
        setMode .idle
        return .error .invalidInterval : Act Engine (Except Fault Unit)) e := by
  have hstart := onAir_congr (Scheduler.start_eq_of_silent (p := e.state) hsilent now e.scheduler)
  rw [enterBeacon, Act.bind_congr_apply hstart]
  simp only [onAir_bind, bind_assoc]
  rfl

theorem enterBeacon_eq_of_not_silent {e : Engine} (hloud : ¬e.Silent) (now : Nat) :
    enterBeacon now e =
      (do
        onScheduler Scheduler.stop
        onAir (Scheduler.comeOnAir now)
        onAir (Scheduler.manageRadio now)
        setMode .beacon
        onState State.drainEvents
        return .ok () : Act Engine (Except Fault Unit)) e := by
  obtain ⟨i, hi⟩ := not_forall.mp hloud
  have hi : AdvertProvider.interval? e.state i.val ≠ none := hi
  have hstart := onAir_congr (Scheduler.start_eq_of_interval hi now e.scheduler)
  rw [enterBeacon, Act.bind_congr_apply hstart]
  simp only [onAir_bind, bind_assoc]
  rfl

/-- A quiet engine comes on air if it has something to send. -/
theorem Quiet.takes_clear_enterBeacon {e : Engine} (hquiet : e.Quiet) :
    Takes now (clearScanResponse >>= fun _ => enterBeacon now) e := by
  have hstate : (clearScanResponse e).state.state = e.state := by
    rw [clearScanResponse_state]
  have hsame : (clearScanResponse e).state.Silent ↔ e.Silent := by
    rw [Silent, Silent, hstate]
  by_cases hsilent : e.Silent
  · apply Takes.bind (Move.clear hquiet).takes
    rw [Takes, enterBeacon_eq_of_silent (hsame.mpr hsilent)]
    apply Takes.bind (Move.hush hquiet.cleared).takes
    apply Takes.bind (Move.note rfl).takes
    exact Takes.bind (Move.turnTo .idle).takes (takes_pure _ _)
  · have hraise : (clearScanResponse >>= fun _ => enterBeacon now) e =
        (do
          raise now
          onAir (Scheduler.manageRadio now)
          Engine.setMode .beacon
          onState State.drainEvents
          return .ok () : Act Engine (Except Fault Unit)) e := by
      rw [Act.bind_apply, enterBeacon_eq_of_not_silent (hsame.not.mpr hsilent)]
      simp only [raise, bind_assoc]
      rfl
    rw [Takes, hraise]
    apply Takes.bind (Move.raise hquiet hsilent).takes
    apply Takes.bind (Move.manage rfl (Scheduler.manager_armAll _ now SlotIndex.all _)).takes
    apply Takes.bind (Move.turnTo .beacon).takes
    exact Takes.bind Move.drain.takes (takes_pure _ _)

theorem InPhase.takes_startBeacon {e : Engine} (hphase : e.InPhase) :
    Takes now (Engine.startBeacon now) e := by
  apply Takes.bind (Move.leave hphase).takes
  exact hphase.leaveMode.takes_clear_enterBeacon

theorem InPhase.takes_stop {e : Engine} (hphase : e.InPhase) : Takes now Engine.stop e := by
  apply Takes.bind (Move.leave hphase).takes
  exact (Move.turnTo .idle).takes

theorem Quiet.inPhase_enterBeacon {e : Engine} (hquiet : e.Quiet) (now : Nat) :
    (enterBeacon now e).state.InPhase := by
  by_cases hsilent : e.Silent
  · exact .quiet (hquiet.enterBeacon_of_silent hsilent now).2.1
  · exact .beaconing (hquiet.enterBeacon_of_not_silent hsilent now).2

theorem Quiet.takes_resume {e : Engine} (hquiet : e.Quiet) : Takes now (Engine.resume now) e := by
  rw [Engine.resume, ← bind_assoc]
  apply Takes.bind hquiet.takes_clear_enterBeacon
  have hentered := hquiet.cleared.inPhase_enterBeacon now
  simp only [Act.bind_apply, Done.value_after, Done.state_after]
  cases (enterBeacon now (clearScanResponse e).state).value with
  | ok _ => exact takes_pure _ _
  | error fault =>
      apply Takes.bind (Move.note rfl).takes
      apply Takes.bind hentered.takes_startConfig
      cases (Engine.startConfig now (enterBeacon now (clearScanResponse e).state).state).value with
      | ok _ => exact takes_pure _ _
      | error fault => exact (Move.note rfl).takes

/-! ## Timers -/

theorem fireOne_eq_of_some {e : Engine} {id : TimerId} {task : Task}
    (h : (TimerQueue.popDue now e.scheduler.timers).value = some (id, task)) :
    fireOne now e =
      (do
        let _ ← onTimers (TimerQueue.popDue now)
        perform task now
        return some task : Act Engine (Option Task)) e := by
  have hvalue : (onTimers (TimerQueue.popDue now) e).value = some (id, task) := h
  simp only [fireOne, Act.bind_apply, hvalue]

theorem takes_manageIfFree {e : Engine} (hrunning : e.scheduler.running = true) :
    Takes now (manageIfFree now) e := by
  simp only [Takes, manageIfFree, Act.bind_apply, Act.get_apply, Done.after_nil]
  split
  next hfree => exact (Move.manage hrunning (Option.isNone_iff_eq_none.mp hfree)).takes
  next => exact takes_pure _ _

theorem onAir_enqueue (slot now : Nat) (e : Engine) :
    onAir (Scheduler.enqueue slot now) e =
      (onScheduler (Scheduler.offer slot) >>= fun _ => manageIfFree now) e := by
  rw [Scheduler.enqueue, onAir_bind]
  apply Act.bind_congr_state
  rw [onAir_bind]
  by_cases hfree : (Scheduler.offer slot e.scheduler).state.manager.isNone
  · simp only [manageIfFree, onAir, Act.bind_apply, Act.within_apply, Act.onFst_apply,
      Act.get_apply, hfree, if_true]
  · simp only [manageIfFree, onAir, Act.bind_apply, Act.within_apply, Act.onFst_apply,
      Act.get_apply, hfree]
    rfl

theorem fireOne_eq_of_enqueue {e : Engine} {id : TimerId} {slot : Nat}
    (h : (TimerQueue.popDue now e.scheduler.timers).value = some (id, .enqueue slot)) :
    fireOne now e =
      (do
        ring slot now
        manageIfFree now
        return some (.enqueue slot) : Act Engine (Option Task)) e := by
  rw [fireOne_eq_of_some h]
  simp only [ring, bind_assoc]
  apply Act.bind_congr_state
  rw [← bind_assoc]
  exact Act.bind_congr_apply (onAir_enqueue slot now _) _

theorem fireOne_eq_of_manageRadio {e : Engine} {id : TimerId}
    (h : (TimerQueue.popDue now e.scheduler.timers).value = some (id, .manageRadio)) :
    fireOne now e =
      (do
        release now
        onAir (Scheduler.manageRadio now)
        return some .manageRadio : Act Engine (Option Task)) e := by
  rw [fireOne_eq_of_some h]
  simp only [release, bind_assoc]
  apply Act.bind_congr_state
  have hmanage (e : Engine) : perform .manageRadio now e =
      ((modify fun e => { e with scheduler.manager := none }) >>= fun _ =>
        onAir (Scheduler.manageRadio now) : Act Engine Unit) e := by
    simp only [perform, onAir, Act.bind_apply, Act.modify_apply, Done.after_nil, Act.within_apply,
      Scheduler.manageRadio_of_manager]
  rw [Act.bind_congr_apply (hmanage _), bind_assoc]

theorem running_offer (slot : Nat) : Act.Keeps Scheduler.running (Scheduler.offer slot) := by
  intro s
  obtain ⟨queue, h, -⟩ := Scheduler.offer_cases slot s
  rw [h]

/-- The engine does what the timer is for. -/
theorem Beaconing.takes_fireOne {e : Engine} (hbeaconing : e.Beaconing) :
    Takes now (Engine.fireOne now) e := by
  rcases TimerQueue.popDue_cases now e.scheduler.timers with
    ⟨-, h⟩ | ⟨t, timers, hfires, -, -, h⟩
  · rw [Takes, fireOne_of_none h]
    exact .refl e
  have hfired : (TimerQueue.popDue now e.scheduler.timers).value = some (t.id, t.task) := by rw [h]
  have hrunning := hbeaconing.running
  cases hbeaconing.coherent.onAir t hfires.mem with
  | @enqueue id deadline period slot _ =>
      apply Takes.congr ?_ (fireOne_eq_of_enqueue hfired)
      apply Takes.bind (Move.ring hbeaconing hfired).takes
      have hstill : (ring slot now e).state.scheduler.running = true :=
        (running_offer slot _).trans hrunning
      exact Takes.bind (takes_manageIfFree hstill) (takes_pure _ _)
  | @manageRadio id deadline =>
      apply Takes.congr ?_ (fireOne_eq_of_manageRadio hfired)
      apply Takes.bind (Move.release hbeaconing hfired).takes
      have hstill : (release now e).state.scheduler.running = true := hrunning
      exact Takes.bind (Move.manage hstill rfl).takes (takes_pure _ _)

/-- A wait that is over leaves nothing to wait for. -/
theorem Waiting.quiet_wake {e : Engine} {t : Timer} (hwaiting : e.Waiting t)
    (hdue : t.deadline ≤ now) :
    (Engine.wake now e).state.Quiet := by
  obtain ⟨timers, hnil, hpop⟩ := hwaiting.popDue hdue
  have hrest : e.scheduler.AtRest := hwaiting.elim Configuring.atRest Pausing.atRest
  have hwoken : (e.woken now).Quiet := by
    constructor
    · exact ⟨hrest.slotTimers, hrest.manager, hrest.queue, hrest.running⟩
    · exact (congrArg (fun done => done.state.pending) hpop).trans hnil
    · rfl
    · rfl
  exact (InPhase.quiet hwoken).leaveMode

theorem Waiting.fireOne_eq {e : Engine} {t : Timer} (hwaiting : e.Waiting t)
    (hdue : t.deadline ≤ now) :
    Engine.fireOne now e =
      (do
        if t.task = .configTimeout then Act.note .configTimeout
        Engine.wake now
        Engine.resume now
        return some t.task : Act Engine (Option Task)) e := by
  obtain ⟨timers, -, hpop⟩ := hwaiting.popDue hdue
  have hfired : (TimerQueue.popDue now e.scheduler.timers).value = some (t.id, t.task) := by
    rw [hpop]
  have hquiet : (onTimers (TimerQueue.popDue now) e).output = [] :=
    congrArg (fun done => done.output) hpop
  rw [fireOne_eq_of_some hfired]
  rcases hwaiting with h | h
  · have hresume : (onTimers (TimerQueue.popDue now) e).state.resumeTimer = none := h.resumeTimer
    rw [h.task, if_pos rfl]
    simp only [perform, Engine.wake, startBeaconOrConfig_eq, bind_assoc]
    simp only [Act.bind_apply, Act.modify_apply, Act.note_apply, Done.after_after, hquiet,
      List.nil_append, hresume]
  · have hconfig : (onTimers (TimerQueue.popDue now) e).state.configTimer = none := h.configTimer
    rw [h.task, if_neg Task.noConfusion]
    simp only [perform, Engine.wake, startBeaconOrConfig_eq, bind_assoc]
    simp only [Act.bind_apply, Act.modify_apply, Done.after_nil, hquiet, hconfig]

theorem Waiting.takes_fireOne {e : Engine} {t : Timer} (hwaiting : e.Waiting t) :
    Takes now (Engine.fireOne now) e := by
  by_cases hdue : t.deadline ≤ now
  · apply Takes.congr ?_ (hwaiting.fireOne_eq hdue)
    have hrest : Takes now (Engine.wake now >>= fun _ => Engine.resume now >>= fun _ =>
        pure (some t.task)) e := by
      apply Takes.bind (Move.wake hwaiting hdue).takes
      exact Takes.bind (hwaiting.quiet_wake hdue).takes_resume (takes_pure _ _)
    split
    · exact Takes.bind (Move.note rfl).takes hrest
    · exact hrest
  · rw [Takes, hwaiting.fireOne_of_lt (Nat.lt_of_not_le hdue)]
    exact .refl e

theorem InPhase.takes_fireOne {e : Engine} (hphase : e.InPhase) :
    Takes now (Engine.fireOne now) e := by
  cases hphase with
  | quiet h =>
      rw [Takes, h.fireOne]
      exact .refl e
  | configuring h => exact Waiting.takes_fireOne (.inl h)
  | pausing h => exact Waiting.takes_fireOne (.inr h)
  | beaconing h => exact h.takes_fireOne

/-- The first timers that a poll fires. -/
def fireSome (now : Nat) : Nat → Act Engine Unit
  | 0 => pure ()
  | n + 1 => do
    let _ ← fireOne now
    fireSome now n

theorem InPhase.takes_fireSome {e : Engine} (hphase : e.InPhase) (now n : Nat) :
    Takes now (fireSome now n) e := by
  induction n generalizing e with
  | zero => exact takes_pure () e
  | succ n ih => exact Takes.bind hphase.takes_fireOne (ih (hphase.fireOne now).phase)

theorem InPhase.takes_gather {e : Engine} (hphase : e.InPhase) :
    Takes now (Act.gather (Engine.fireOne now)) e := by
  by_cases hends : Act.Ends (Engine.fireOne now) e
  · induction hends with
    | @stop e hnone =>
        rw [Takes, Act.gather_of_none hnone]
        exact hphase.takes_fireOne
    | @more e task hsome hrest ih =>
        rw [Takes, Act.gather_of_some hsome hrest]
        exact Path.trans hphase.takes_fireOne (ih (hphase.fireOne now).phase)
  · rw [Takes, Act.gather_of_not_ends hends]
    exact .refl e

theorem InPhase.takes_poll {e : Engine} (hphase : e.InPhase) : Takes now (Engine.poll now) e := by
  apply Takes.bind hphase.takes_gather
  exact Move.drain.takes

/-! ## What a central has brought about -/

theorem InPhase.takes_rearm {e : Engine} (hphase : e.InPhase) (slot : Nat) :
    Takes now (Engine.rearm slot now) e := by
  simp only [Takes, Engine.rearm, Act.bind_apply, Act.get_apply, Done.after_nil]
  split
  next hmode =>
    cases hphase with
    | quiet h =>
        have hsame : Scheduler.rearm e.state slot now e.scheduler = ⟨(), e.scheduler, []⟩ := by
          simp only [Scheduler.rearm]
          split
          · simp [h.atRest.running]
          · rfl
        simp only [onScheduler, Act.within_apply, hsame]
        exact .refl e
    | configuring h => cases h.mode.symm.trans hmode
    | pausing h => cases h.mode.symm.trans hmode
    | beaconing h => exact (Move.rearm slot h).takes
  next => exact takes_pure _ _

theorem InPhase.takes_restart {e : Engine} (hphase : e.InPhase) :
    Takes now (Engine.restart now) e := by
  apply Takes.bind hphase.takes_startBeacon
  cases (Engine.startBeacon now e).value with
  | ok _ => exact takes_pure _ _
  | error fault => exact (Move.note rfl).takes

theorem InPhase.takes_follow {e : Engine} (hphase : e.InPhase) (effect : WriteEffect) :
    Takes now (Engine.follow effect now) e := by
  cases effect with
  | none => exact takes_pure _ _
  | intervalChanged slot => exact hphase.takes_rearm slot
  | slotChanged slot => exact Takes.bind (hphase.takes_rearm slot) (Move.emit _).takes
  | lock state => exact (Move.emit _).takes
  | factoryReset =>
      apply Takes.bind (Move.emit _).takes
      simp only [Takes, Act.bind_apply, Act.get_apply, Done.after_nil]
      split
      · exact hphase.takes_restart
      · exact takes_pure _ _

end Engine

/-! ## Requests -/

/-- The telemetry with what the host has measured. -/
def Request.measured : Request → Telemetry → Telemetry
  | .command (.updateBattery millivolts) _, t => { t with batteryMv := millivolts }
  | .command (.updateTemperature temperature) _, t => { t with temperature }
  | _, t => t

namespace Entry

/-- A central has gone. -/
def pauses (x : Entry) : Bool :=
  match x.request, x.before.1.mode with
  | .radioEvent .disconnected _, .connected => true
  | _, _ => false

/-- How a request is served: a central is answered or something else is told, and the engine takes
a path from there; the clock is saved or a measurement taken; or a central has gone, and the engine
pauses. -/
inductive Route (x : Entry) : Prop
  | served (opening : Transcript) (dirty : Bool) {out : Transcript} :
      x.pauses = false → x.request.measured = id → x.output = opening ++ out → opening.Plain →
      Engine.Path x.request.time { x.before.1 with state := x.answered, paramsDirty := dirty } out
        x.after.1 → Route x
  | kept (clock : Clock) (clockDirty dirty : Bool) :
      x.pauses = false → x.output.Plain →
      x.after.1 =
        { x.before.1 with
          state :=
            { x.before.1.state with
              clock, clockDirty
              telemetry := x.request.measured x.before.1.state.telemetry }
          paramsDirty := dirty } → x.answered = x.before.1.state → Route x
  | paused {now : Nat} {e : Engine} (clock : Clock) (clockDirty dirty : Bool)
      {opening : Transcript} :
      x.request = .radioEvent .disconnected now → x.before.1.mode = .connected →
      e = { x.before.1 with
        state := { x.before.1.state with clock, clockDirty }
        paramsDirty := dirty } →
      x.output = opening ++ (Engine.awaitResume now e).output → opening.Plain →
      x.after.1 = (Engine.awaitResume now e).state → Route x

/-- The engine, with nobody to answer, takes a path by itself. -/
theorem Route.of_takes {x : Entry} (action : Act Engine α) (hstays : x.pauses = false)
    (hmeasured : x.request.measured = id) (hanswered : x.answered = x.before.1.state)
    (houtput : x.output = (action x.before.1).output)
    (hafter : x.after.1 = (action x.before.1).state)
    (htakes : Engine.Takes x.request.time action x.before.1) : x.Route := by
  refine .served [] x.before.1.paramsDirty hstays hmeasured houtput Transcript.plain_nil ?_
  rw [hanswered, hafter]
  exact htakes

/-! ### What a request puts out -/

theorem output_read (attr : Attribute) (now : Nat) (d : Device) :
    output ⟨d, .read attr now⟩ =
      (attr.read now d.1.state).output ++
        (Engine.onState State.drainEvents
          { d.1 with state := (attr.read now d.1.state).state }).output := by
  rw [output, Device.serve, Act.bind_pure_apply]
  simp only [Device.onEngine, Engine.readAttribute, Engine.onState, Act.onFst_apply,
    Act.bind_apply, Act.within_apply, Act.pure_apply, Done.output_after, List.append_nil]

theorem output_write (attr : Attribute) (offset : Nat) (data : Bytes) (now : Nat) (d : Device) :
    output ⟨d, .write attr offset data now⟩ =
      (Engine.writeAttribute attr offset data now d.1).output := by
  rw [output, Device.serve, Act.bind_pure_apply]
  rfl

theorem output_poll (now : Nat) (d : Device) :
    output ⟨d, .poll now⟩ = (Engine.poll now d.1).output := by
  rw [output, Device.serve, Act.bind_pure_apply]
  rfl

theorem output_radioEvent (event : RadioEvent) (now : Nat) (d : Device) :
    output ⟨d, .radioEvent event now⟩ = (Device.radioEvent event now d).output := by
  rw [output, Device.serve, Act.bind_pure_apply]

theorem output_command (command : Command) (now : Nat) (d : Device) :
    output ⟨d, .command command now⟩ = (Device.command command now d).output := by
  rw [output, Device.serve, Act.bind_pure_apply]

theorem output_stop (now : Nat) (d : Device) :
    output ⟨d, .command .stop now⟩ = (Engine.stop d.1).output := by
  rw [output_command, Device.command, Act.bind_pure_apply]
  rfl

theorem output_saveParams (now : Nat) (d : Device) :
    output ⟨d, .command .saveParams now⟩ = (Device.persist now d).output := by
  rw [output_command, Device.command, Act.bind_pure_apply]

theorem output_saveIfDirty (now : Nat) (d : Device) :
    output ⟨d, .saveIfDirty now⟩ = (Device.saveIfDirty now d).output := by
  rw [output, Device.serve, Act.bind_pure_apply]

/-! ### Routes -/

theorem route_read {d : Device} (attr : Attribute) (now : Nat) : Route ⟨d, .read attr now⟩ :=
  .served _ d.1.paramsDirty rfl rfl (output_read attr now d)
    (Attribute.asides_read attr now d.1.state).plain Engine.Move.drain.takes

theorem route_write {d : Device} (hphase : d.1.InPhase) (attr : Attribute) (offset : Nat)
    (data : Bytes) (now : Nat) : Route ⟨d, .write attr offset data now⟩ := by
  have hplain := (Attribute.asides_write attr offset data now d.1.state).plain
  have houtput := output_write attr offset data now d
  have hafter : (after ⟨d, .write attr offset data now⟩).1 =
      (Engine.writeAttribute attr offset data now d.1).state := rfl
  cases hwrite : (attr.write offset data now d.1.state).value with
  | error fault =>
      rw [Engine.writeAttribute_output_of_error hwrite] at houtput
      rw [(Engine.writeAttribute_of_error hwrite).2] at hafter
      refine .served _ d.1.paramsDirty rfl rfl houtput hplain ?_
      rw [hafter]
      exact Engine.Path.trans (Engine.Move.note rfl).takes (Engine.Move.emit _).takes
  | ok effect =>
      rw [Engine.writeAttribute_output_of_ok hwrite] at houtput
      rw [(Engine.writeAttribute_of_ok hwrite).2] at hafter
      have hanswered := (hphase.withState (attr.write offset data now d.1.state).state true).phase
      refine .served _ true rfl rfl houtput hplain ?_
      rw [hafter]
      exact Engine.Path.trans (hanswered.takes_follow effect) Engine.Move.drain.takes

theorem route_persist {d : Device} {request : Request} {now : Nat}
    (hstays : pauses ⟨d, request⟩ = false) (hmeasured : request.measured = id)
    (houtput : output ⟨d, request⟩ = (Device.persist now d).output)
    (hafter : after ⟨d, request⟩ = (Device.persist now d).state)
    (hanswered : answered ⟨d, request⟩ = d.1.state) : Route ⟨d, request⟩ := by
  have hplain : (output ⟨d, request⟩).Plain := houtput ▸ Device.plain_persist now d
  rcases Device.persist_cases now d with ⟨-, -, h⟩ | ⟨-, -, h⟩
  · refine .kept (d.1.state.clock.record now) false false hstays hplain ?_ hanswered
    rw [hafter, h, hmeasured]
    rfl
  · refine .kept (d.1.state.clock.record now) false d.1.paramsDirty hstays hplain ?_ hanswered
    rw [hafter, h, hmeasured]
    rfl

theorem route_saveIfDirty {d : Device} (now : Nat) : Route ⟨d, .saveIfDirty now⟩ := by
  have houtput := output_saveIfDirty now d
  have hafter : after ⟨d, .saveIfDirty now⟩ = (Device.saveIfDirty now d).state := rfl
  have hplain : (output ⟨d, .saveIfDirty now⟩).Plain := houtput ▸ Device.plain_saveIfDirty now d
  cases hdirty : d.1.paramsDirty with
  | true =>
      have hpersist := Device.saveIfDirty_of_dirty hdirty now
      exact route_persist rfl rfl (hpersist ▸ houtput) (hpersist ▸ hafter) rfl
  | false =>
      rw [Device.saveIfDirty_state, hdirty] at hafter
      rcases Device.saveClockIfDirty_cases d with ⟨-, h⟩ | ⟨-, h⟩
      · refine .kept d.1.state.clock d.1.state.clockDirty d.1.paramsDirty rfl
          hplain ?_ rfl
        rw [hafter]
        exact congrArg Prod.fst h
      · refine .kept d.1.state.clock false d.1.paramsDirty rfl hplain ?_ rfl
        rw [hafter]
        exact congrArg Prod.fst h

/-- Something else is told, and the engine does not heed it. -/
theorem route_told {d : Device} {event : RadioEvent} {now : Nat} (action : Act Engine Unit)
    (hstays : pauses ⟨d, .radioEvent event now⟩ = false)
    (h : Device.radioEvent event now d = ⟨(), d, (action d.1).output⟩)
    (hstate : (action d.1).state = d.1) (htakes : Engine.Takes now action d.1) :
    Route ⟨d, .radioEvent event now⟩ := by
  have houtput := output_radioEvent event now d
  rw [h] at houtput
  have hafter : (after ⟨d, .radioEvent event now⟩).1 = (action d.1).state := by
    rw [hstate]
    exact congrArg (fun done : Done Device Unit => done.state.1) h
  exact .of_takes action hstays rfl rfl houtput hafter htakes

theorem route_pause {d : Device} (hmode : d.1.mode = .connected) (now : Nat) :
    Route ⟨d, .radioEvent .disconnected now⟩ := by
  have hevent := Device.radioEvent_of_connected hmode now
  have houtput := output_radioEvent .disconnected now d
  rw [hevent] at houtput
  have hafter : (after ⟨d, .radioEvent .disconnected now⟩).1 =
      (Engine.awaitResume now (Device.persist now d).state.1).state :=
    congrArg (fun done : Done Device Unit => done.state.1) hevent
  have hplain := Device.plain_persist now d
  rcases Device.persist_cases now d with ⟨-, -, h⟩ | ⟨-, -, h⟩
  · exact .paused (d.1.state.clock.record now) false false rfl hmode (congrArg Prod.fst h) houtput
      hplain hafter
  · exact .paused (d.1.state.clock.record now) false d.1.paramsDirty rfl hmode
      (congrArg Prod.fst h) houtput hplain hafter

theorem route_radioEvent {d : Device} (hphase : d.1.InPhase) (event : RadioEvent) (now : Nat) :
    Route ⟨d, .radioEvent event now⟩ := by
  have hnote (notice : Notice) (hnotice : notice.isAside)
      (hstays : pauses ⟨d, .radioEvent event now⟩ = false)
      (h : Device.radioEvent event now d = Act.note notice d) : Route ⟨d, .radioEvent event now⟩ :=
    route_told (Act.note notice) hstays h rfl (Engine.Move.note hnotice).takes
  have hunexpected (hstays : pauses ⟨d, .radioEvent event now⟩ = false)
      (h : Device.radioEvent event now d =
      (Act.note (.unexpected event d.1.mode) >>= fun _ => Act.emit .unexpectedRadioEvent) d) :
      Route ⟨d, .radioEvent event now⟩ := by
    apply route_told (Act.note (.unexpected event d.1.mode) >>= fun _ =>
      Act.emit .unexpectedRadioEvent) hstays h rfl
    exact Engine.Takes.bind (Engine.Move.note rfl).takes (Engine.Move.emit _).takes
  simp only [Device.radioEvent, Act.bind_apply, Act.get_apply, Done.after_nil] at hnote hunexpected
  cases event with
  | connected =>
      apply Route.of_takes (Engine.leaveMode >>= fun _ => Engine.setMode .connected) rfl rfl rfl
        (output_radioEvent .connected now d) rfl
      exact Engine.Takes.bind (Engine.Move.leave hphase).takes (Engine.Move.turnTo .connected).takes
  | disconnected =>
      cases hmode : d.1.mode with
      | connected => exact route_pause hmode now
      | idle => exact hunexpected (by rw [pauses, hmode]) (by rw [hmode]; rfl)
      | config => exact hunexpected (by rw [pauses, hmode]) (by rw [hmode]; rfl)
      | beacon => exact hunexpected (by rw [pauses, hmode]) (by rw [hmode]; rfl)
  | advertisingStarted =>
      cases hmode : d.1.mode with
      | connected => exact hunexpected (by rw [pauses, hmode]) (by rw [hmode]; rfl)
      | idle => exact hunexpected (by rw [pauses, hmode]) (by rw [hmode]; rfl)
      | config => exact hnote .advertisingStarted rfl rfl (by rw [hmode])
      | beacon => exact hnote .advertisingStarted rfl rfl (by rw [hmode])
  | advertisingStopped => exact hnote .advertisingStopped rfl rfl rfl

theorem route_command {d : Device} (hphase : d.1.InPhase) (command : Command) (now : Nat) :
    Route ⟨d, .command command now⟩ := by
  have houtput := output_command command now d
  cases command with
  | startConfig => exact .of_takes _ rfl rfl rfl houtput rfl hphase.takes_startConfig
  | startBeacon => exact .of_takes _ rfl rfl rfl houtput rfl hphase.takes_startBeacon
  | stop => exact .of_takes _ rfl rfl rfl (output_stop now d) rfl hphase.takes_stop
  | updateBattery millivolts =>
      exact .kept _ _ _ rfl (houtput ▸ Transcript.plain_nil) rfl rfl
  | updateTemperature temperature =>
      exact .kept _ _ _ rfl (houtput ▸ Transcript.plain_nil) rfl rfl
  | saveParams => exact route_persist rfl rfl (output_saveParams now d) rfl rfl

theorem route {x : Entry} (hphase : x.before.1.InPhase) : x.Route := by
  obtain ⟨d, request⟩ := x
  cases request with
  | read attr now => exact route_read attr now
  | write attr offset data now => exact route_write hphase attr offset data now
  | poll now => exact .of_takes _ rfl rfl rfl (output_poll now d) rfl hphase.takes_poll
  | radioEvent event now => exact route_radioEvent hphase event now
  | command command now => exact route_command hphase command now
  | saveIfDirty now => exact route_saveIfDirty now

end Entry

end Beacon

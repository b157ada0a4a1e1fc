import Beacon.Proofs.QueueSteps

/-!
# Polls and the queue for the radio

What a poll does it does timer by timer, and each of them may put a slot into the
queue, give a slot its turn or both.  The line of a poll is made up of what its
timers do.

Distinct slots wait, and somebody has the radio while they do; every timer
preserves this, whatever the phase.
-/

namespace Beacon

open Transcript Lineup

/-! ## One timer -/

namespace Engine

variable {now : Nat} {e : Engine}

/-- The slot that a timer puts into the queue, unless it is there. -/
def entering (now : Nat) (e : Engine) : Lineup :=
  match (fireOne now e).value with
  | some (.enqueue slot) => if slot ∈ e.scheduler.queue then [] else [.joined slot]
  | _ => []

/-- What happens to the slots when one timer fires. -/
def roundLine (now : Nat) (e : Engine) : Lineup :=
  entering now e ++ lineup (fireOne now e).output

/-- Distinct slots wait, and somebody has the radio while they do. -/
structure Queueing (e : Engine) : Prop where
  phase : e.InPhase
  within : Within (· < 3) e.airing
  nodup : e.scheduler.queue.Nodup
  served : e.scheduler.Served

theorem Queueing.lt_three (h : e.Queueing) : ∀ slot ∈ e.scheduler.queue, slot < 3 := by
  intro slot hmem
  exact h.within slot (.inl (.inl hmem))

theorem roundLine_of_none (h : fireOne now e = ⟨none, e, []⟩) : roundLine now e = [] := by
  simp only [roundLine, entering, h]
  rfl

/-- There is room for every slot that does not wait. -/
theorem Queueing.offer_eq (h : e.Queueing) {slot : Nat} (hslot : slot < 3) {s : Scheduler}
    (hqueue : s.queue = e.scheduler.queue) :
    Scheduler.offer slot s =
      ⟨(), { s with queue := if slot ∈ s.queue then s.queue else s.queue ++ [slot] }, []⟩ := by
  by_cases hmem : slot ∈ s.queue
  · rw [Scheduler.offer_of_mem hmem, if_pos hmem]
  · have hroom : s.queue.length ≤ 2 := by
      rw [hqueue] at hmem ⊢
      exact length_le_two h.nodup h.lt_three hmem hslot
    rw [Scheduler.offer_of_room hmem (Nat.lt_succ_of_le hroom), if_neg hmem]

theorem served_manageIfFree (hcoh : (manageIfFree now e).state.scheduler.Coherent) :
    (manageIfFree now e).state.scheduler.Served := by
  simp only [manageIfFree, Act.bind_apply, Act.get_apply, Done.after_nil] at hcoh ⊢
  split
  next hfree =>
    rw [if_pos hfree] at hcoh
    exact Scheduler.served_manageRadio hcoh
  next hheld =>
    intro _ hnone
    exact hheld (Option.isNone_iff_eq_none.mpr hnone)

/-- The slot of a timer waits where it does, or behind all others. -/
theorem Queueing.ring_eq (h : e.Queueing) {slot : Nat} (hslot : slot < 3) (now : Nat) :
    ring slot now e =
      ⟨(), { e with
        scheduler :=
          { e.scheduler with
            timers := (TimerQueue.popDue now e.scheduler.timers).state
            queue :=
              if slot ∈ e.scheduler.queue then e.scheduler.queue
              else e.scheduler.queue ++ [slot] } }, []⟩ := by
  have hoffer := h.offer_eq hslot (s := { e.scheduler with
    timers := (TimerQueue.popDue now e.scheduler.timers).state }) rfl
  have hring : ring slot now e =
      ⟨(), { e with
        scheduler := (Scheduler.offer slot { e.scheduler with
          timers := (TimerQueue.popDue now e.scheduler.timers).state }).state },
        (Scheduler.offer slot { e.scheduler with
          timers := (TimerQueue.popDue now e.scheduler.timers).state }).output⟩ := rfl
  rw [hring, hoffer]

/-- A slot's timer makes the slot wait, and if nobody has the radio the first has its turn. -/
theorem Queueing.round_enqueue (h : e.Queueing) {id : TimerId} {slot : Nat} (hslot : slot < 3)
    (hfired : (TimerQueue.popDue now e.scheduler.timers).value = some (id, .enqueue slot)) :
    Moves e.scheduler.queue (roundLine now e) (fireOne now e).state.scheduler.queue ∧
      ((fireOne now e).state.scheduler.Coherent → (fireOne now e).state.scheduler.Served) := by
  have hround := fireOne_eq_of_enqueue hfired
  let rung : Engine := (ring slot now e).state
  have hvalue : (fireOne now e).value = some (.enqueue slot) := by
    rw [hround]
    rfl
  have hstate : (fireOne now e).state = (manageIfFree now rung).state := by
    rw [hround]
    rfl
  have hline : lineup (fireOne now e).output = lineup (manageIfFree now rung).output := by
    rw [hround]
    simp only [Act.bind_apply, Act.pure_apply, Done.output_after, List.append_nil, rung,
      h.ring_eq hslot, List.nil_append]
  have hmanaged := lines_manageIfFree now rung
  rw [hstate]
  refine ⟨?_, served_manageIfFree⟩
  rw [roundLine, entering, hvalue, hline]
  have hqueue : rung.scheduler.queue =
      if slot ∈ e.scheduler.queue then e.scheduler.queue else e.scheduler.queue ++ [slot] := by
    simp only [rung, h.ring_eq hslot]
  rw [Lines, hqueue] at hmanaged
  simp only
  split
  next hmem =>
    rw [if_pos hmem] at hmanaged
    exact hmanaged
  next hnew =>
    rw [if_neg hnew] at hmanaged
    exact .join hnew hslot hmanaged

theorem round_manageRadio {id : TimerId}
    (hfired : (TimerQueue.popDue now e.scheduler.timers).value = some (id, .manageRadio)) :
    Moves e.scheduler.queue (roundLine now e) (fireOne now e).state.scheduler.queue ∧
      ((fireOne now e).state.scheduler.Coherent → (fireOne now e).state.scheduler.Served) := by
  let released : Engine := (release now e).state
  have hround : fireOne now e =
      ⟨some .manageRadio, (onAir (Scheduler.manageRadio now) released).state,
        (onAir (Scheduler.manageRadio now) released).output⟩ := by
    rw [fireOne_eq_of_manageRadio hfired]
    simp only [Act.bind_apply, Act.pure_apply, Done.after, List.append_nil]
    rfl
  have hmanaged : Lines (onAir (Scheduler.manageRadio now)) released := lines_manageRadio now _
  rw [roundLine, entering, hround]
  exact ⟨hmanaged, Scheduler.served_manageRadio⟩

/-- A wait that is over is followed by a start, or nobody waits then either. -/
theorem Waiting.round {t : Timer} (hwaiting : e.Waiting t) (now : Nat) :
    Moves e.scheduler.queue (roundLine now e) (Engine.fireOne now e).state.scheduler.queue ∧
      (Engine.fireOne now e).state.scheduler.Served := by
  have hrest : e.scheduler.AtRest := hwaiting.elim Configuring.atRest Pausing.atRest
  by_cases hdue : t.deadline ≤ now
  · obtain ⟨q, hquiet, -, -, -, hstate⟩ := hwaiting.fireOne_of_le hdue
    obtain ⟨timers, -, hpop⟩ := hwaiting.popDue hdue
    have hvalue := (fireOne_of_some hpop).1
    have hentering : entering now e = [] := by
      rw [entering, hvalue]
      rcases hwaiting with h | h <;> rw [h.task]
    have hlines : Lines (Engine.fireOne now) e := by
      apply Lines.congr ?_ (hwaiting.fireOne_eq hdue)
      have hresumed : Lines (wake now >>= fun _ => resume now >>= fun _ =>
          pure (some t.task)) e := by
        apply Lines.bind
        · exact lines_of_idle (Radio.untimed_quiet e.scheduler.radio).lineup_eq_nil hrest.queue.symm
        · exact Lines.bind ((hwaiting.quiet_wake hdue).lines_resume now) (lines_pure _ _)
      split
      · exact Lines.bind (lines_note rfl e) hresumed
      · exact hresumed
    rw [roundLine, hentering]
    refine ⟨hlines, ?_⟩
    rw [hstate]
    exact (InPhase.quiet hquiet).served_startBeaconOrConfig now
  · have hearly := hwaiting.fireOne_of_lt (Nat.lt_of_not_le hdue)
    rw [roundLine_of_none hearly, hearly]
    exact ⟨.done _, hrest.served⟩

/-- Whatever fires, the line tells what happens to the slots. -/
theorem Queueing.round (h : e.Queueing) (now : Nat) :
    Moves e.scheduler.queue (roundLine now e) (Engine.fireOne now e).state.scheduler.queue ∧
      (Engine.fireOne now e).state.scheduler.Served := by
  cases h.phase with
  | quiet hquiet =>
      rw [roundLine_of_none (hquiet.fireOne now), hquiet.fireOne]
      exact ⟨.done _, h.served⟩
  | configuring hconfiguring => exact Waiting.round (.inl hconfiguring) now
  | pausing hpausing => exact Waiting.round (.inr hpausing) now
  | beaconing hbeaconing =>
      rcases TimerQueue.popDue_cases now e.scheduler.timers with
        ⟨-, hpop⟩ | ⟨t, timers, hfires, -, -, hpop⟩
      · rw [roundLine_of_none (fireOne_of_none hpop), fireOne_of_none hpop]
        exact ⟨.done _, h.served⟩
      have hmem : t ∈ e.scheduler.timers.pending := hfires.mem
      have hfired : (TimerQueue.popDue now e.scheduler.timers).value = some (t.id, t.task) := by
        rw [hpop]
      have hcoh := (hbeaconing.fireOne now).coherent
      cases hbeaconing.coherent.onAir t hmem with
      | @enqueue id deadline period slot _ =>
          have hslot : slot < 3 := h.within slot (.inl (.inr ⟨_, hmem, rfl⟩))
          exact (h.round_enqueue hslot hfired).imp_right fun hserved => hserved hcoh
      | @manageRadio id deadline =>
          exact (round_manageRadio hfired).imp_right fun hserved => hserved hcoh

theorem Queueing.fireOne (h : e.Queueing) (now : Nat) : (Engine.fireOne now e).state.Queueing where
  phase := (h.phase.fireOne now).phase
  within := (passes_fireOne e h.within).within
  nodup := (h.round now).1.nodup h.nodup
  served := (h.round now).2

/-! ## A poll -/

/-- What happens to the slots when the first timers of a poll fire. -/
def roundsLine (now : Nat) : Nat → Engine → Lineup
  | 0, _ => []
  | n + 1, e => roundLine now e ++ roundsLine now n (fireOne now e).state

theorem Queueing.rounds (h : e.Queueing) (now n : Nat) :
    Moves e.scheduler.queue (roundsLine now n e) (fireSome now n e).state.scheduler.queue ∧
      (fireSome now n e).state.Queueing := by
  induction n generalizing e with
  | zero => exact ⟨.done _, h⟩
  | succ n ih =>
      obtain ⟨hmoves, hqueueing⟩ := ih (h.fireOne now)
      exact ⟨(h.round now).1.append hmoves, hqueueing⟩

theorem fireOne_of_value_none (h : (fireOne now e).value = none) :
    fireOne now e = ⟨none, e, []⟩ := by
  rcases TimerQueue.popDue_tasks now e.scheduler.timers with hpop | ⟨t, -, timers, -, hpop⟩
  · exact fireOne_of_none hpop
  · rw [(fireOne_of_some hpop).1] at h
    cases h

/-- A poll fires its timers one after the other. -/
theorem gather_fireOne (now : Nat) (e : Engine) :
    ∃ fired, Act.gather (fireOne now) e =
      ⟨fired, (fireSome now fired.length e).state, (fireSome now fired.length e).output⟩ := by
  by_cases hends : Act.Ends (fireOne now) e
  · induction hends with
    | @stop e hnone =>
        rw [Act.gather_of_none hnone, fireOne_of_value_none hnone]
        exact ⟨[], rfl⟩
    | @more e task hsome hrest ih =>
        obtain ⟨fired, hfired⟩ := ih
        rw [Act.gather_of_some hsome hrest, hfired]
        exact ⟨task :: fired, rfl⟩
  · rw [Act.gather_of_not_ends hends]
    exact ⟨[], rfl⟩

/-- What happens to the slots when a poll fires what is due. -/
def pollLine (now : Nat) (e : Engine) : Lineup :=
  roundsLine now (Act.gather (fireOne now) e).value.length e

theorem takes_roundsLine (now n : Nat) (e : Engine) :
    (roundsLine now n e).takes = takes (lineup (fireSome now n e).output) := by
  induction n generalizing e with
  | zero => rfl
  | succ n ih =>
      have hentering : takes (entering now e) = [] := by
        unfold entering
        split
        · split <;> rfl
        · rfl
      rw [roundsLine, roundLine, takes_append, takes_append, hentering, List.nil_append, ih,
        ← takes_append, ← lineup_append]
      rfl

theorem lineup_poll (now : Nat) (e : Engine) :
    lineup (Engine.poll now e).output = lineup (Act.gather (fireOne now) e).output := by
  rw [Engine.poll, Act.bind_apply, Done.output_after, lineup_append, lineup_drainEvents,
    List.append_nil]

/-- Of the slots that a poll takes the log tells. -/
theorem takes_pollLine (now : Nat) (e : Engine) :
    (pollLine now e).takes = takes (lineup (Act.gather (fireOne now) e).output) := by
  obtain ⟨fired, hfired⟩ := gather_fireOne now e
  rw [pollLine, hfired, takes_roundsLine]

theorem Queueing.poll (h : e.Queueing) (now : Nat) :
    Moves e.scheduler.queue (pollLine now e) (Engine.poll now e).state.scheduler.queue ∧
      (Engine.poll now e).state.scheduler.Served := by
  obtain ⟨fired, hfired⟩ := gather_fireOne now e
  obtain ⟨hmoves, hqueueing⟩ := h.rounds now fired.length
  have hscheduler : (Engine.poll now e).state.scheduler =
      (fireSome now fired.length e).state.scheduler := by
    simp only [Engine.poll, Act.bind_apply, Done.state_after, hfired]
    rfl
  rw [pollLine, hfired, hscheduler]
  exact ⟨hmoves, hqueueing.served⟩

end Engine

end Beacon

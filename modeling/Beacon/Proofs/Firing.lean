import Beacon.Proofs.Phases

/-!
# Timers of the engine

What one timer that fires does to the phase of the engine.  A quiet engine has
none.  On air the engine stays on air, and a timer that ends a wait sends it on
air or back to configuration mode.
-/

namespace Beacon

namespace Engine

theorem fireOne_of_none {e : Engine} {now : Nat}
    (h : TimerQueue.popDue now e.scheduler.timers = ⟨none, e.scheduler.timers, []⟩) :
    fireOne now e = ⟨none, e, []⟩ := by
  simp only [fireOne, onTimers, onScheduler, Scheduler.onTimers, Act.bind_apply, Act.within_apply, h]
  rfl

theorem fireOne_of_some {e : Engine} {now : Nat} {id : TimerId} {task : Task} {timers : TimerQueue}
    (h : TimerQueue.popDue now e.scheduler.timers = ⟨some (id, task), timers, []⟩) :
    (fireOne now e).value = some task ∧
      (fireOne now e).state =
        (perform task now { e with scheduler.timers := timers }).state := by
  simp only [fireOne, onTimers, onScheduler, Scheduler.onTimers, Act.bind_apply, Act.within_apply, h]
  exact ⟨rfl, rfl⟩

theorem Quiet.fireOne {e : Engine} (hquiet : e.Quiet) (now : Nat) :
    fireOne now e = ⟨none, e, []⟩ := by
  apply fireOne_of_none
  rcases TimerQueue.popDue_cases now e.scheduler.timers with ⟨-, h⟩ | ⟨t, timers, hfires, -⟩
  · exact h
  · have hmem := hfires.mem
    rw [hquiet.pending] at hmem
    cases hmem

def Waiting (t : Timer) (e : Engine) : Prop :=
  e.Configuring t ∨ e.Pausing t

theorem Waiting.pending {e : Engine} {t : Timer} (hwaiting : e.Waiting t) :
    e.scheduler.timers.pending = [t] := by
  rcases hwaiting with h | h
  · exact h.pending
  · exact h.pending

theorem Waiting.fireOne_of_lt {e : Engine} {t : Timer} (hwaiting : e.Waiting t) {now : Nat}
    (hearly : now < t.deadline) : Engine.fireOne now e = ⟨none, e, []⟩ := by
  apply fireOne_of_none
  rcases TimerQueue.popDue_cases now e.scheduler.timers with
    ⟨-, h⟩ | ⟨u, timers, hfires, hdue, -⟩
  · exact h
  · have hmem := hfires.mem
    rw [hwaiting.pending, List.mem_singleton] at hmem
    rw [hmem] at hdue
    omega

theorem Waiting.period {e : Engine} {t : Timer} (hwaiting : e.Waiting t) : t.period = none := by
  rcases hwaiting with h | h
  · exact h.period
  · exact h.period

theorem Waiting.popDue {e : Engine} {t : Timer} (hwaiting : e.Waiting t) {now : Nat}
    (hdue : t.deadline ≤ now) :
    ∃ timers : TimerQueue, timers.pending = [] ∧
      TimerQueue.popDue now e.scheduler.timers = ⟨some (t.id, t.task), timers, []⟩ := by
  rcases TimerQueue.popDue_cases now e.scheduler.timers with
    ⟨hearly, -⟩ | ⟨u, timers, hfires, -, -, h⟩
  · have hlt := hearly t (by rw [hwaiting.pending]; exact .head [])
    omega
  · have hmem := hfires.mem
    rw [hwaiting.pending, List.mem_singleton] at hmem
    obtain rfl := hmem
    have hperm := hfires.perm_of_once hwaiting.period
    rw [hwaiting.pending] at hperm
    exact ⟨timers, List.nil_perm.mp hperm.cons_inv, h⟩

/-- A wait that is over leaves a quiet engine, which then starts beaconing. -/
theorem Waiting.fireOne_of_le {e : Engine} {t : Timer} (hwaiting : e.Waiting t) {now : Nat}
    (hdue : t.deadline ≤ now) :
    ∃ q : Engine, q.Quiet ∧ q.state = e.state ∧ q.scheduler.radio = e.scheduler.radio ∧
      (Engine.fireOne now e).value ≠ none ∧
      (Engine.fireOne now e).state = (startBeaconOrConfig now q).state := by
  obtain ⟨timers, hnil, hfired⟩ := hwaiting.popDue hdue
  obtain ⟨hvalue, hstate⟩ := fireOne_of_some hfired
  have hsome : (Engine.fireOne now e).value ≠ none := by
    rw [hvalue]
    exact Option.some_ne_none _
  rcases hwaiting with h | h
  · refine ⟨{ e with
      scheduler.timers := timers
      configTimer := none }, ⟨?_, hnil, rfl, h.resumeTimer⟩, rfl, rfl, hsome, ?_⟩
    · exact ⟨h.atRest.slotTimers, h.atRest.manager, h.atRest.queue, h.atRest.running⟩
    · rw [hstate, h.task]
      rfl
  · refine ⟨{ e with
      scheduler.timers := timers
      resumeTimer := none }, ⟨?_, hnil, h.configTimer, rfl⟩, rfl, rfl, hsome, ?_⟩
    · exact ⟨h.atRest.slotTimers, h.atRest.manager, h.atRest.queue, h.atRest.running⟩
    · rw [hstate, h.task]
      rfl

/-- On air the engine stays on air, whatever fires. -/
theorem Beaconing.fireOne {e : Engine} (hbeaconing : e.Beaconing) (now : Nat) :
    (Engine.fireOne now e).state.Beaconing := by
  rcases TimerQueue.popDue_cases now e.scheduler.timers with ⟨-, h⟩ | ⟨t, timers, -, -, -, h⟩
  · rw [fireOne_of_none h]
    exact hbeaconing
  · have hfired : (TimerQueue.popDue now e.scheduler.timers).value = some (t.id, t.task) := by rw [h]
    have hcases := hbeaconing.coherent.popDue hfired
    rw [(fireOne_of_some h).2]
    rw [h] at hcases
    rcases hcases with ⟨slot, htask, hcoherent⟩ | ⟨htask, hfree⟩
    · rw [htask]
      exact ⟨hbeaconing.mode, (Scheduler.running_enqueue slot now _ e.state).trans hbeaconing.running,
        hcoherent.enqueue slot now e.state, hbeaconing.configTimer, hbeaconing.resumeTimer⟩
    · rw [htask]
      exact ⟨hbeaconing.mode, (Scheduler.running_manageRadio now _ e.state).trans hbeaconing.running,
        Scheduler.Coherent.manageRadio hfree now e.state, hbeaconing.configTimer,
        hbeaconing.resumeTimer⟩

end Engine

end Beacon

import Beacon.Proofs.Firing
import Beacon.Proofs.Rejection
import Beacon.Proofs.Turns

/-!
# Turns under the engine

The engine starts and stops the scheduler, fires its timers and arms slots anew.
Whatever it does, a slot has its turn only if it waited before or is to be
broadcast, and what the turns do to the state is all that is done to it.
-/

namespace Beacon

open Act

variable {α : Type} {now : Nat} {eligible : Nat → Prop}

namespace Engine

/-- The part of the engine that decides what is on air. -/
def airing (e : Engine) : Scheduler × State :=
  (e.scheduler, e.state)

theorem passes_onAir {action : Act (Scheduler × State) α} (h : Passes id now eligible action) :
    Passes airing now eligible (onAir action) := by
  intro e he
  exact h (e.scheduler, e.state) he

theorem passes_onRadio {action : Act Radio α}
    (hturnless : ∀ radio, Transcript.Turnless (action radio).output) :
    Passes airing now eligible (onRadio action) := by
  apply passes_of_idle (fun _ => rfl) ?_ fun _ _ h => h
  intro e
  exact hturnless e.scheduler.radio

theorem passes_note {notice : Notice} (h : notice.endsTurn = false) :
    Passes airing now eligible (Act.note notice) := by
  apply passes_of_idle (fun _ => rfl) ?_ fun _ _ h => h
  intro e
  exact Transcript.turnless_singleton h

theorem passes_emit (event : Event) : Passes airing now eligible (Act.emit event) := by
  apply passes_of_idle (fun _ => rfl) ?_ fun _ _ h => h
  intro e
  exact Transcript.turnless_singleton rfl

theorem turnless_drainEvents (e : Engine) :
    Transcript.Turnless (onState State.drainEvents e).output := by
  intro output hmem
  obtain ⟨event, -, rfl⟩ := List.mem_map.mp hmem
  rfl

theorem passes_drainEvents : Passes airing now eligible (onState State.drainEvents) :=
  passes_of_idle (fun _ => rfl) turnless_drainEvents fun _ _ h => h

theorem turnless_setMode (mode : Mode) (e : Engine) :
    Transcript.Turnless (setMode mode e).output := by
  simp only [setMode, Act.bind_apply, Act.get_apply, Done.after_nil]
  split
  · exact Transcript.turnless_nil
  · exact (Transcript.turnless_singleton rfl).append (Transcript.turnless_singleton rfl)

theorem passes_setMode (mode : Mode) : Passes airing now eligible (setMode mode) := by
  apply passes_of_idle
  · intro e
    rw [setMode_state]
    rfl
  · exact turnless_setMode mode
  · intro e slot h
    rw [setMode_state] at h
    exact h

theorem passes_leaveMode : Passes airing now eligible leaveMode := by
  apply Passes.bind
  · apply passes_of_idle (fun _ => rfl) (fun _ => Transcript.turnless_nil)
    intro e slot h
    cases h with
    | inl hqueue => exact .inl hqueue
    | inr htimer =>
        obtain ⟨t, hmem, htask⟩ := htimer
        have hmem := (TimerQueue.pending_cancel?_sublist _ _).subset hmem
        exact .inr ⟨t, (TimerQueue.pending_cancel?_sublist _ _).subset hmem, htask⟩
  · exact fun _ e he => Scheduler.passes_stop (e.scheduler, e.state) he

theorem passes_askRadio (call : RadioCall) : Passes airing now eligible (askRadio call) := by
  apply (passes_onRadio (Radio.inner_ask call).turnless).bind
  intro answer
  cases answer <;> exact passes_pure _

theorem passes_startConfigAdvert (scan payload : Bytes) :
    Passes airing now eligible (startConfigAdvert scan payload) := by
  apply (passes_askRadio _).bind
  intro answer
  cases answer with
  | error fault => exact passes_pure _
  | ok _ =>
      apply passes_get_bind
      intro e _
      apply (passes_onRadio (Radio.inner_tell _).turnless).bind
      intro _
      apply (passes_onRadio (Radio.inner_tell _).turnless).bind
      intro _
      apply (passes_onRadio (Radio.inner_tell _).turnless).bind
      intro _
      exact passes_askRadio _

theorem passes_postIn {task : Task} (htask : ∀ slot, task ≠ .enqueue slot) (start delay : Nat) :
    Passes airing now eligible (onTimers (TimerQueue.postIn start delay task)) := by
  intro e he
  exact Scheduler.passes_postIn htask start delay (e.scheduler, e.state) he

theorem passes_enterConfig (scan payload : Bytes) (start : Nat) :
    Passes airing now eligible (enterConfig scan payload start) := by
  apply (passes_startConfigAdvert scan payload).bind
  intro answer
  cases answer with
  | error fault => exact passes_pure _
  | ok _ =>
      apply passes_get_bind
      intro e _
      apply (passes_postIn (fun _ => Task.noConfusion) _ _).bind
      intro handle
      apply Passes.bind
      · exact passes_of_idle (fun _ => rfl) (fun _ => Transcript.turnless_nil) fun _ _ h => h
      · intro _
        apply (passes_note rfl).bind
        intro _
        exact (passes_setMode .config).bind fun _ => passes_pure _

theorem passes_startConfig (start : Nat) : Passes airing now eligible (startConfig start) := by
  apply passes_get_bind
  intro e _
  cases configAdvert e.state with
  | error fault => exact passes_pure _
  | ok advert => exact passes_leaveMode.bind fun _ => passes_enterConfig _ _ _

theorem passes_clearScanResponse : Passes airing now eligible clearScanResponse := by
  apply (passes_onRadio (Radio.inner_ask _).turnless).bind
  intro answer
  cases answer with
  | ok _ => exact passes_pure _
  | error fault => exact passes_note rfl

theorem passes_enterBeacon : Passes airing now eligible (enterBeacon now) := by
  apply (passes_onAir Scheduler.passes_start).bind
  intro answer
  cases answer with
  | error fault => exact (passes_setMode .idle).bind fun _ => passes_pure _
  | ok _ =>
      apply (passes_setMode .beacon).bind
      intro _
      exact passes_drainEvents.bind fun _ => passes_pure _

theorem passes_startBeacon : Passes airing now eligible (startBeacon now) := by
  apply passes_leaveMode.bind
  intro _
  apply passes_clearScanResponse.bind
  intro _
  exact passes_enterBeacon

theorem passes_startBeaconOrConfig : Passes airing now eligible (startBeaconOrConfig now) := by
  apply passes_startBeacon.bind
  intro answer
  cases answer with
  | ok _ => exact passes_pure _
  | error fault =>
      apply (passes_note rfl).bind
      intro _
      apply (passes_startConfig now).bind
      intro answer
      cases answer with
      | ok _ => exact passes_pure _
      | error fault => exact passes_note rfl

/-- A timer may only put an eligible slot into the queue. -/
theorem passes_perform {task : Task} (htask : ∀ slot, task = .enqueue slot → eligible slot) :
    Passes airing now eligible (perform task now) := by
  cases task with
  | enqueue slot => exact passes_onAir (Scheduler.passes_enqueue (htask slot rfl))
  | manageRadio => exact passes_onAir Scheduler.passes_manageRadio
  | configTimeout =>
      apply Passes.bind
      · exact passes_of_idle (fun _ => rfl) (fun _ => Transcript.turnless_nil) fun _ _ h => h
      · exact fun _ => (passes_note rfl).bind fun _ => passes_startBeaconOrConfig
  | resumeBeacon =>
      apply Passes.bind
      · exact passes_of_idle (fun _ => rfl) (fun _ => Transcript.turnless_nil) fun _ _ h => h
      · exact fun _ => passes_startBeaconOrConfig

theorem fireOne_output_of_some {e : Engine} {id : TimerId} {task : Task} {timers : TimerQueue}
    (h : TimerQueue.popDue now e.scheduler.timers = ⟨some (id, task), timers, []⟩) :
    (fireOne now e).output = (perform task now { e with scheduler.timers := timers }).output := by
  simp only [fireOne, onTimers, onScheduler, Scheduler.onTimers, Act.bind_apply, Act.within_apply,
    h, Act.pure_apply, Done.output_after, List.nil_append, List.append_nil]

theorem passes_fireOne : Passes airing now eligible (fireOne now) := by
  intro e he
  rcases TimerQueue.popDue_tasks now e.scheduler.timers with h | ⟨t, hmem, timers, htimers, h⟩
  · rw [fireOne_of_none h]
    exact .idle rfl Transcript.turnless_nil he
  · have htask (slot : Nat) (hslot : t.task = .enqueue slot) : eligible slot :=
      he slot (.inl (.inr ⟨t, hmem, hslot⟩))
    have hpopped : Within eligible (airing { e with scheduler.timers := timers }) := by
      apply Within.withScheduler he
      intro slot h
      cases h with
      | inl hqueue => exact he slot (.inl (.inl hqueue))
      | inr htimer =>
          obtain ⟨u, hmem, hslot⟩ := htimer
          obtain ⟨v, hmem, hsame⟩ := htimers u hmem
          exact he slot (.inl (.inr ⟨v, hmem, hsame.trans hslot⟩))
    have hperform : Passes airing now eligible (perform t.task now) := passes_perform htask
    rw [(fireOne_of_some h).2, fireOne_output_of_some h]
    exact hperform _ hpopped

theorem passes_poll : Passes airing now eligible (poll now) := by
  apply passes_fireOne.gather.bind
  intro fired
  exact passes_drainEvents

theorem passes_rearm (slot : Nat) : Passes airing now eligible (rearm slot now) := by
  apply passes_get_bind
  intro e he
  split
  · intro e' he'
    exact Scheduler.passes_rearm (fun slot h => he slot (.inr h)) slot (e'.scheduler, e'.state) he'
  · exact passes_pure _

theorem passes_restart : Passes airing now eligible (restart now) := by
  apply passes_startBeacon.bind
  intro answer
  cases answer with
  | ok _ => exact passes_pure _
  | error fault => exact passes_note rfl

theorem passes_follow (effect : WriteEffect) : Passes airing now eligible (follow effect now) := by
  cases effect with
  | none => exact passes_pure _
  | intervalChanged slot => exact passes_rearm slot
  | slotChanged slot => exact (passes_rearm slot).bind fun _ => passes_emit _
  | lock state => exact passes_emit _
  | factoryReset =>
      apply (passes_emit _).bind
      intro _
      apply passes_get_bind
      intro e _
      split
      · exact passes_restart
      · exact passes_pure _

theorem passes_stop : Passes airing now eligible stop := by
  apply passes_leaveMode.bind
  intro a
  exact passes_setMode .idle

theorem turnless_awaitResume (start : Nat) (e : Engine) :
    Transcript.Turnless (awaitResume start e).output := by
  unfold awaitResume
  apply Transcript.turnless_bind (fun _ => Transcript.turnless_nil)
  intro _
  apply Transcript.turnless_bind
  · exact (inner_postIn _ _ _).turnless
  · intro _
    exact Transcript.turnless_bind (fun _ => Transcript.turnless_nil)
      fun _ => turnless_setMode .idle

theorem passes_awaitResume (start : Nat) : Passes airing now eligible (awaitResume start) := by
  apply passes_get_bind
  intro e _
  apply (passes_postIn (fun _ => Task.noConfusion) _ _).bind
  intro handle
  apply Passes.bind
  · exact passes_of_idle (fun _ => rfl) (fun _ => Transcript.turnless_nil) fun _ _ h => h
  · exact fun _ => passes_setMode .idle

/-! ## Requests of a central -/

theorem turnless_readAttribute (attr : Attribute) (now : Nat) (e : Engine) :
    Transcript.Turnless (readAttribute attr now e).output := by
  unfold readAttribute
  apply Transcript.turnless_bind
  · exact fun e => (Attribute.asides_read attr now e.state).turnless
  · intro answer
    exact Transcript.turnless_bind turnless_drainEvents fun _ => Transcript.turnless_pure _

/-- A read gives no slot a turn. -/
theorem passage_readAttribute {attr : Attribute} {e : Engine}
    (he : Within eligible (e.scheduler, (attr.read now e.state).state)) :
    Passage now eligible (attr.read now e.state).state (readAttribute attr now e).output
      (readAttribute attr now e).state.airing := by
  have hwithin : Within eligible (readAttribute attr now e).state.airing := he
  exact Passage.idle rfl (turnless_readAttribute attr now e) hwithin

theorem writeAttribute_output_of_ok {attr : Attribute} {offset : Nat} {data : Bytes} {e : Engine}
    {effect : WriteEffect} (h : (attr.write offset data now e.state).value = .ok effect) :
    (writeAttribute attr offset data now e).output =
      (attr.write offset data now e.state).output ++
        ((follow effect now
            { e with
              state := (attr.write offset data now e.state).state
              paramsDirty := true }).output ++
          (onState State.drainEvents (follow effect now
            { e with
              state := (attr.write offset data now e.state).state
              paramsDirty := true }).state).output) := by
  simp only [writeAttribute, onState, Act.bind_apply, Act.within_apply, h, Act.modify_apply,
    Act.pure_apply, Done.output_after, Done.after_nil, List.append_nil]

/-- A write that is accepted may start the scheduler anew or arm a slot anew. -/
theorem passage_writeAttribute {attr : Attribute} {offset : Nat} {data : Bytes} {e : Engine}
    (he : Within eligible (e.scheduler, (attr.write offset data now e.state).state)) :
    Passage now eligible (attr.write offset data now e.state).state
      (writeAttribute attr offset data now e).output
      (writeAttribute attr offset data now e).state.airing := by
  have hasides := (Attribute.asides_write attr offset data now e.state).turnless
  cases hwrite : (attr.write offset data now e.state).value with
  | error fault =>
      rw [writeAttribute_output_of_error hwrite, (writeAttribute_of_error hwrite).2]
      apply Passage.idle (y := (e.scheduler, (attr.write offset data now e.state).state)) rfl
      · exact hasides.append
          ((Transcript.turnless_singleton rfl).append (Transcript.turnless_singleton rfl))
      · exact he
  | ok effect =>
      let answered : Engine :=
        { e with
          state := (attr.write offset data now e.state).state
          paramsDirty := true }
      have hfollow : Passes airing now eligible (follow effect now) := passes_follow effect
      have hfollowed := hfollow answered he
      have hdrained := hfollowed.trans (passes_drainEvents _ hfollowed.within)
      have hwritten : Passage now eligible answered.state
          (attr.write offset data now e.state).output answered.airing := .idle rfl hasides he
      rw [writeAttribute_output_of_ok hwrite, (writeAttribute_of_ok hwrite).2]
      exact hwritten.trans hdrained

end Engine

end Beacon

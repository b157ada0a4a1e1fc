import Beacon.Proofs.Inward
import Beacon.Proofs.Paths

/-!
# Events

Whoever listens for the events of an engine learns of few things: the engine enters
another mode, events that have been waiting are told, or the engine remarks on
something that a central has asked for.  A slot that has its turn may leave an event
waiting.  All else that an engine does goes unheard.

Every action of the engine is followed here once, for the events that it tells and
for what it does to the mode and to the state.
-/

namespace Beacon

open Act Transcript

variable {σ τ α β : Type} {now : Nat}

/-- An event that neither reports a mode nor a new identifier. -/
def Event.isRemark : Event → Bool
  | .modeChanged _ _ => false
  | .eidRotated _ _ => false
  | _ => true

theorem Transcript.events_map_event (events : List Event) :
    Transcript.events (events.map .event) = events := by
  induction events with
  | nil => rfl
  | cons event rest ih => exact congrArg (event :: ·) ih

/-- Nothing that events tell of is different. -/
structure State.Unmoved (s t : State) : Prop where
  slots : t.slots = s.slots
  lock : t.lock.state = s.lock.state
  prior : t.clock.prior = s.clock.prior
  pendingEvents : t.pendingEvents = s.pendingEvents

theorem State.Unmoved.refl (s : State) : s.Unmoved s :=
  ⟨rfl, rfl, rfl, rfl⟩

/-- Leads from a mode and a state to others, with all that is put out on the way and the remarks
among it. -/
inductive Telling (now : Nat) : Mode × State → Transcript → List Event → Mode × State → Prop
  | unheard {mode : Mode} {s t : State} {out : Transcript} : out.events = [] → out.Turnless →
      s.Unmoved t → Telling now (mode, s) out [] (mode, t)
  | took {mode : Mode} {s t : State} {out : Transcript} : out.events = [] →
      (∀ started, ∃ turn : Turn, out.turns started = [turn] ∧ t = (turn.perform now s).state) →
      Telling now (mode, s) out [] (mode, t)
  | entered {old new : Mode} (s : State) : old ≠ new →
      Telling now (old, s) [.notice (.modeChanged old new), .event (.modeChanged old new)] []
        (new, s)
  | drained (mode : Mode) (s : State) :
      Telling now (mode, s) (s.pendingEvents.map .event) [] (mode, s.hush)
  | remarked (x : Mode × State) {event : Event} : event.isRemark →
      Telling now x [.event event] [event] x
  | trans {x y z : Mode × State} {a b : Transcript} {said also : List Event} :
      Telling now x a said y → Telling now y b also z → Telling now x (a ++ b) (said ++ also) z

theorem Telling.of_inner {out : Transcript} (h : out.Inner) (x : Mode × State) :
    Telling now x out [] x :=
  .unheard h.events_eq_nil h.turnless (.refl x.2)

namespace Act

/-- The action is followed, and makes no remark. -/
def Tells (view : σ → Mode × State) (now : Nat) (action : Act σ α) : Prop :=
  ∀ s, Telling now (view s) (action s).output [] (view (action s).state)

variable {view : σ → Mode × State}

theorem Tells.bind {action : Act σ α} {next : α → Act σ β}
    (hfirst : Tells view now action) (hnext : ∀ a, Tells view now (next a)) :
    Tells view now (action >>= next) := by
  intro s
  exact (hfirst s).trans (hnext _ _)

theorem tells_get_bind {next : σ → Act σ β} (h : ∀ s, Tells view now (next s)) :
    Tells view now (get >>= next) := by
  intro s
  exact h s s

/-- An action that nobody hears of. -/
theorem Inner.tells {action : Act σ α} (h : Inner action) (hkeeps : Keeps view action) :
    Tells view now action := by
  intro s
  rw [hkeeps s]
  exact .of_inner (h s) (view s)

theorem tells_pure (a : α) : Tells view now (pure a : Act σ α) :=
  (inner_pure a).tells fun _ => rfl

theorem tells_modify {f : σ → σ} (h : ∀ s, view (f s) = view s) :
    Tells view now (modify f : Act σ PUnit) :=
  (inner_modify f).tells h

theorem tells_note {notice : Notice} (h : notice.endsTurn = false) :
    Tells view now (note notice : Act σ Unit) :=
  (inner_note h).tells fun _ => rfl

theorem Tells.gather {action : Act σ (Option α)} (hround : Tells view now action) :
    Tells view now (Act.gather action) := by
  intro s
  by_cases hends : Ends action s
  · induction hends with
    | @stop s hnone =>
        rw [gather_of_none hnone]
        exact hround s
    | @more s a hsome hrest ih =>
        rw [gather_of_some hsome hrest]
        exact (hround s).trans ih
  · rw [gather_of_not_ends hends]
    exact .of_inner inner_nil (view s)

end Act

/-! ## The scheduler -/

namespace Scheduler

/-- The state behind a scheduler, in a mode that it does not know of. -/
def behind (mode : Mode) (x : Scheduler × State) : Mode × State :=
  (mode, x.2)

variable {mode : Mode}

theorem tells_onFst {action : Act Scheduler α} (h : Inner action) :
    Tells (behind mode) now (Act.onFst action : Act (Scheduler × State) α) :=
  Inner.tells (h.within _ _) fun _ => rfl

theorem events_broadcast (slot now : Nat) (x : Scheduler × State) :
    Transcript.events (broadcast slot now x).output = [] := by
  have haside := State.asides_prepare slot now x.2
  cases hvalue : (State.prepare slot now x.2).value with
  | none =>
      rw [(broadcast_of_none hvalue).1, events_append, haside.events_eq_nil]
      rfl
  | some advert =>
      obtain ⟨addressing, fault, -, houtput, -⟩ := broadcast_of_some hvalue
      have haddressing : Transcript.events addressing.outputs = [] := by
        match addressing with
        | none => rfl
        | some (address, none) => rfl
        | some (address, some refusal) => rfl
      rw [houtput, events_append, events_append, haside.events_eq_nil, haddressing]
      rfl

theorem tells_broadcast (slot : Nat) :
    Tells (behind mode) now (broadcast slot now : Act (Scheduler × State) Unit) := by
  intro x
  apply Telling.took (events_broadcast slot now x)
  intro started
  obtain ⟨turn, -, hturns, hstate, -⟩ := broadcast_cases slot now x started
  exact ⟨turn, hturns, hstate⟩

theorem tells_giveTurn (slot : Nat) : Tells (behind mode) now (giveTurn slot now) := by
  apply (tells_onFst (inner_onRadio Radio.inner_quiet)).bind
  intro _
  apply (tells_broadcast slot).bind
  intro _
  apply tells_get_bind
  intro _
  apply (tells_onFst ((TimerQueue.inner_insert _ _ _).within _ _)).bind
  intro _
  exact tells_modify fun _ => rfl

theorem tells_manageRadio :
    Tells (behind mode) now (manageRadio now : Act (Scheduler × State) Unit) := by
  rintro ⟨s, p⟩
  cases hqueue : s.queue with
  | nil =>
      rw [manageRadio_of_nil hqueue]
      exact tells_onFst (inner_onRadio Radio.inner_quiet) ({ s with manager := none }, p)
  | cons slot rest =>
      rw [manageRadio_of_cons hqueue]
      exact tells_giveTurn slot ({ s with manager := none, queue := rest }, p)

theorem tells_enqueue (slot : Nat) :
    Tells (behind mode) now (enqueue slot now : Act (Scheduler × State) Unit) := by
  apply (tells_onFst (inner_offer slot)).bind
  intro _
  apply tells_get_bind
  intro x
  split
  · exact tells_manageRadio
  · exact tells_pure _

theorem tells_start :
    Tells (behind mode) now
      (start now : Act (Scheduler × State) (Except Fault Unit)) := by
  apply (tells_onFst inner_stop).bind
  intro _
  apply tells_get_bind
  rintro ⟨s, p⟩
  simp only
  split
  · exact (tells_note rfl).bind fun _ => tells_pure _
  · apply (tells_onFst (inner_onRadio (Radio.inner_tell _))).bind
    intro _
    apply (tells_onFst (inner_armAll p now SlotIndex.all)).bind
    intro _
    apply Tells.bind
    · exact tells_modify fun _ => rfl
    · exact fun _ => tells_manageRadio.bind fun _ => tells_pure _

end Scheduler

/-! ## The engine -/

namespace Engine

/-- What events tell of. -/
def outlook (e : Engine) : Mode × State :=
  (e.mode, e.state)

theorem tells_onAir {action : Act (Scheduler × State) α}
    (h : ∀ mode, Tells (Scheduler.behind mode) now action) :
    Tells outlook now (onAir action) := by
  intro e
  exact h e.mode (e.scheduler, e.state)

theorem tells_onScheduler {action : Act Scheduler α} (h : Inner action) :
    Tells outlook now (onScheduler action) :=
  (inner_onScheduler h).tells fun _ => rfl

theorem tells_onRadio {action : Act Radio α} (h : Inner action) :
    Tells outlook now (onRadio action) :=
  tells_onScheduler (Scheduler.inner_onRadio h)

theorem tells_postIn (start delay : Nat) (task : Task) :
    Tells outlook now (onTimers (TimerQueue.postIn start delay task)) :=
  (inner_postIn start delay task).tells fun _ => rfl

theorem tells_drainEvents : Tells outlook now (onState State.drainEvents) := by
  intro e
  exact .drained e.mode e.state

/-- A mode is reported exactly when it is another one. -/
theorem tells_setMode (mode : Mode) : Tells outlook now (setMode mode) := by
  intro e
  simp only [setMode, Act.bind_apply, Act.get_apply, Done.after_nil]
  split
  next => exact tells_pure () e
  next hmode => exact .entered e.state hmode

theorem tells_leaveMode : Tells outlook now leaveMode :=
  inner_leaveMode.tells fun _ => rfl

theorem tells_clearScanResponse : Tells outlook now clearScanResponse := by
  apply (tells_onRadio (Radio.inner_ask _)).bind
  intro answer
  cases answer with
  | ok _ => exact tells_pure _
  | error fault => exact tells_note rfl

theorem tells_askRadio (call : RadioCall) : Tells outlook now (askRadio call) := by
  apply (tells_onRadio (Radio.inner_ask call)).bind
  intro answer
  cases answer <;> exact tells_pure _

theorem tells_startConfigAdvert (scan payload : Bytes) :
    Tells outlook now (startConfigAdvert scan payload) := by
  apply (tells_askRadio _).bind
  intro answer
  cases answer with
  | error fault => exact tells_pure _
  | ok _ =>
      apply tells_get_bind
      intro e
      apply (tells_onRadio (Radio.inner_tell _)).bind
      intro _
      apply (tells_onRadio (Radio.inner_tell _)).bind
      intro _
      apply (tells_onRadio (Radio.inner_tell _)).bind
      exact fun _ => tells_askRadio _

theorem tells_enterConfig (scan payload : Bytes) (start : Nat) :
    Tells outlook now (enterConfig scan payload start) := by
  apply (tells_startConfigAdvert scan payload).bind
  intro answer
  cases answer with
  | error fault => exact tells_pure _
  | ok _ =>
      apply tells_get_bind
      intro e
      apply (tells_postIn _ _ _).bind
      intro handle
      apply Tells.bind
      · exact tells_modify fun _ => rfl
      · intro _
        apply (tells_note rfl).bind
        intro _
        exact (tells_setMode .config).bind fun _ => tells_pure _

theorem tells_startConfig (start : Nat) : Tells outlook now (startConfig start) := by
  apply tells_get_bind
  intro e
  cases configAdvert e.state with
  | error fault => exact tells_pure _
  | ok advert => exact tells_leaveMode.bind fun _ => tells_enterConfig _ _ _

theorem tells_enterBeacon : Tells outlook now (enterBeacon now) := by
  apply (tells_onAir fun mode => Scheduler.tells_start).bind
  intro answer
  cases answer with
  | error fault => exact (tells_setMode .idle).bind fun _ => tells_pure _
  | ok _ =>
      apply (tells_setMode .beacon).bind
      intro _
      exact tells_drainEvents.bind fun _ => tells_pure _

theorem tells_startBeacon : Tells outlook now (startBeacon now) := by
  apply tells_leaveMode.bind
  intro _
  apply tells_clearScanResponse.bind
  intro _
  exact tells_enterBeacon

theorem tells_stop : Tells outlook now stop := by
  apply tells_leaveMode.bind
  intro a
  exact tells_setMode .idle

theorem tells_awaitResume (start : Nat) : Tells outlook now (awaitResume start) := by
  apply tells_get_bind
  intro e
  apply (tells_postIn _ _ _).bind
  intro handle
  apply Tells.bind
  · exact tells_modify fun _ => rfl
  · exact fun _ => tells_setMode .idle

theorem tells_startBeaconOrConfig : Tells outlook now (startBeaconOrConfig now) := by
  apply tells_startBeacon.bind
  intro answer
  cases answer with
  | ok _ => exact tells_pure _
  | error fault =>
      apply (tells_note rfl).bind
      intro _
      apply (tells_startConfig now).bind
      intro answer
      cases answer with
      | ok _ => exact tells_pure _
      | error fault => exact tells_note rfl

/-! ## Timers -/

theorem tells_perform (task : Task) : Tells outlook now (perform task now) := by
  cases task with
  | enqueue slot => exact tells_onAir fun mode => Scheduler.tells_enqueue slot
  | manageRadio => exact tells_onAir fun mode => Scheduler.tells_manageRadio
  | configTimeout =>
      apply Tells.bind
      · exact tells_modify fun _ => rfl
      · exact fun _ => (tells_note rfl).bind fun _ => tells_startBeaconOrConfig
  | resumeBeacon =>
      apply Tells.bind
      · exact tells_modify fun _ => rfl
      · exact fun _ => tells_startBeaconOrConfig

theorem tells_fireOne : Tells outlook now (fireOne now) := by
  have hpopped : Tells outlook now (onTimers (TimerQueue.popDue now)) := by
    apply tells_onScheduler
    exact Inner.within (TimerQueue.inner_popDue now) _ _
  apply hpopped.bind
  intro due
  cases due with
  | none => exact tells_pure _
  | some due => exact (tells_perform due.2).bind fun _ => tells_pure _

theorem tells_poll : Tells outlook now (poll now) := by
  apply tells_fireOne.gather.bind
  intro fired
  exact tells_drainEvents

/-! ## What a central has brought about -/

theorem tells_rearm (slot : Nat) : Tells outlook now (rearm slot now) := by
  apply tells_get_bind
  intro e
  split
  · exact tells_onScheduler (Scheduler.inner_rearm e.state slot now)
  · exact tells_pure _

theorem tells_restart : Tells outlook now (restart now) := by
  apply tells_startBeacon.bind
  intro answer
  cases answer with
  | ok _ => exact tells_pure _
  | error fault => exact tells_note rfl

end Engine

/-- What the engine remarks on once a central has been answered. -/
def WriteEffect.remarks : WriteEffect → List Event
  | .none => []
  | .intervalChanged _ => []
  | .slotChanged slot => [.slotUpdated slot]
  | .lock state => [.lockChanged state]
  | .factoryReset => [.factoryReset]

namespace Engine

theorem telling_follow (effect : WriteEffect) (e : Engine) :
    Telling now e.outlook (follow effect now e).output effect.remarks
      (follow effect now e).state.outlook := by
  cases effect with
  | none => exact tells_pure () e
  | intervalChanged slot => exact tells_rearm slot e
  | slotChanged slot => exact (tells_rearm slot e).trans (.remarked _ rfl)
  | lock state => exact .remarked _ rfl
  | factoryReset =>
      have hrestart : Tells outlook now
          (get >>= fun e : Engine => if e.mode = .beacon then restart now else pure ()) := by
        apply tells_get_bind
        intro e
        split
        · exact tells_restart
        · exact tells_pure _
      exact Telling.trans (.remarked _ rfl) (hrestart e)

theorem telling_writeAttribute_of_ok {attr : Attribute} {offset : Nat} {data : Bytes} {e : Engine}
    {effect : WriteEffect} (h : (attr.write offset data now e.state).value = .ok effect) :
    Telling now (e.mode, (attr.write offset data now e.state).state)
      (writeAttribute attr offset data now e).output effect.remarks
      (writeAttribute attr offset data now e).state.outlook := by
  have haside := Attribute.asides_write attr offset data now e.state
  let answered : Engine :=
    { e with
      state := (attr.write offset data now e.state).state
      paramsDirty := true }
  have hfollowed : Telling now answered.outlook (follow effect now answered).output effect.remarks
      (follow effect now answered).state.outlook := telling_follow effect answered
  rw [writeAttribute_output_of_ok h, (writeAttribute_of_ok h).2]
  have hdrained := hfollowed.trans (tells_drainEvents (follow effect now answered).state)
  rw [List.append_nil] at hdrained
  exact (Telling.of_inner haside.inner answered.outlook).trans hdrained

theorem telling_writeAttribute_of_error {attr : Attribute} {offset : Nat} {data : Bytes}
    {e : Engine} {fault : Fault} (h : (attr.write offset data now e.state).value = .error fault) :
    Telling now (e.mode, (attr.write offset data now e.state).state)
      (writeAttribute attr offset data now e).output [.writeRejected attr]
      (writeAttribute attr offset data now e).state.outlook := by
  have haside := Attribute.asides_write attr offset data now e.state
  rw [writeAttribute_output_of_error h, (writeAttribute_of_error h).2]
  apply Telling.trans (.of_inner haside.inner _)
  exact Telling.trans (.of_inner (inner_singleton rfl) _) (.remarked _ rfl)

end Engine

/-! ## Saving -/

namespace Act

/-- No event is told. -/
def Eventless (action : Act σ α) : Prop :=
  ∀ s, Transcript.events (action s).output = []

theorem Eventless.bind {action : Act σ α} {next : α → Act σ β} (hfirst : Eventless action)
    (hnext : ∀ a, Eventless (next a)) : Eventless (action >>= next) := by
  intro s
  rw [bind_apply, Done.output_after, events_append, hfirst s, hnext]
  rfl

theorem Asides.eventless {action : Act σ α} (h : Asides action) : Eventless action := by
  intro s
  exact (h s).events_eq_nil

theorem Eventless.within {action : Act σ α} (h : Eventless action) (get : τ → σ)
    (set : τ → σ → τ) : Eventless (action.within get set) := by
  intro t
  exact h (get t)

end Act

theorem Store.eventless_call {work : Act Medium (Except StoreFault α)} (hwork : Eventless work)
    (request : StoreCall) : Eventless (call request work) := by
  intro store
  simp only [call, Act.bind_apply, Act.get_apply, Act.put_apply, Act.set_apply, Done.after_nil,
    Done.output_after, List.singleton_append]
  cases store.verdict store.calls request with
  | some fault => rfl
  | none => exact hwork store.medium

namespace Device

theorem eventless_persist (now : Nat) : Eventless (persist now) := by
  unfold persist
  apply Eventless.bind (fun _ => rfl)
  intro _
  apply Eventless.bind (fun _ => rfl)
  intro held
  apply Eventless.bind ((Store.eventless_call (Medium.asides_save _).eventless _).within _ _)
  intro answer
  cases answer with
  | error fault => exact fun _ => rfl
  | ok _ => exact fun _ => rfl

theorem eventless_saveClockIfDirty : Eventless saveClockIfDirty := by
  apply Eventless.bind (fun _ => rfl)
  rintro ⟨e, store⟩
  simp only
  split
  · apply Eventless.bind (fun _ => rfl)
    intro _
    apply Eventless.bind ((Store.eventless_call (Medium.asides_saveClock _).eventless _).within _ _)
    intro answer
    cases answer with
    | error fault => exact fun _ => rfl
    | ok _ => exact fun _ => rfl
  · exact fun _ => rfl

theorem telling_persist (start : Nat) (d : Device) :
    Telling now d.1.outlook (persist start d).output [] (persist start d).state.1.outlook := by
  have hunmoved {t : State} (ht : t = d.1.state.recorded start) : d.1.state.Unmoved t := by
    rw [ht]
    exact ⟨rfl, rfl, rfl, rfl⟩
  have hevents := eventless_persist start d
  have hturnless := turnless_persist start d
  rcases persist_cases start d with ⟨-, -, h⟩ | ⟨-, -, h⟩
  · rw [h]
    exact .unheard hevents hturnless (hunmoved rfl)
  · rw [h]
    exact .unheard hevents hturnless (hunmoved rfl)

theorem telling_saveIfDirty (start : Nat) (d : Device) :
    Telling now d.1.outlook (saveIfDirty start d).output []
      (saveIfDirty start d).state.1.outlook := by
  cases hdirty : d.1.paramsDirty with
  | true =>
      rw [saveIfDirty_of_dirty hdirty]
      exact telling_persist start d
  | false =>
      rw [saveIfDirty_of_clean hdirty]
      have hevents := eventless_saveClockIfDirty d
      have hturnless := (plain_saveClockIfDirty d).turnless
      rcases saveClockIfDirty_cases d with ⟨-, h⟩ | ⟨-, h⟩
      · rw [h]
        exact .unheard hevents hturnless ⟨rfl, rfl, rfl, rfl⟩
      · rw [h]
        exact .unheard hevents hturnless ⟨rfl, rfl, rfl, rfl⟩

end Device

/-! ## Requests -/

/-- Nothing of the kind is expected in the mode. -/
def RadioEvent.isUnexpected (event : RadioEvent) (mode : Mode) : Bool :=
  match event, mode with
  | .disconnected, .connected => false
  | .disconnected, _ => true
  | .advertisingStarted, .config => false
  | .advertisingStarted, .beacon => false
  | .advertisingStarted, _ => true
  | _, _ => false

namespace Entry

/-- What is told of the request itself. -/
def remarks (x : Entry) : List Event :=
  match x.request with
  | .write attr offset data now =>
    match (attr.write offset data now x.before.1.state).value with
    | .error _ => [.writeRejected attr]
    | .ok effect => effect.remarks
  | .radioEvent event _ =>
    if event.isUnexpected x.before.1.mode then [.unexpectedRadioEvent] else []
  | _ => []

end Entry

theorem Device.telling_radioEvent (event : RadioEvent) (d : Device) :
    Telling now d.1.outlook (radioEvent event now d).output
      (if event.isUnexpected d.1.mode then [.unexpectedRadioEvent] else [])
      (radioEvent event now d).state.1.outlook := by
  have hnoted {notice : Notice} (h : notice.endsTurn = false) :
      Telling now d.1.outlook [.notice notice] [] d.1.outlook :=
    .of_inner (inner_singleton (by simp [Output.isInner, h])) _
  have hunexpected (mode : Mode) : Telling now d.1.outlook
      ([.notice (.unexpected event mode)] ++ [.event .unexpectedRadioEvent]) [.unexpectedRadioEvent]
      d.1.outlook := (hnoted rfl).trans (.remarked _ rfl)
  simp only [radioEvent, Act.bind_apply, Act.get_apply, Done.after_nil]
  cases event with
  | connected =>
      have hentered : Tells Engine.outlook now
          (Engine.leaveMode >>= fun _ => Engine.setMode .connected) :=
        Engine.tells_leaveMode.bind fun _ => Engine.tells_setMode .connected
      exact hentered d.1
  | disconnected =>
      cases hmode : d.1.mode with
      | connected => exact (telling_persist now d).trans (Engine.tells_awaitResume now _)
      | idle => exact hunexpected .idle
      | config => exact hunexpected .config
      | beacon => exact hunexpected .beacon
  | advertisingStarted =>
      cases hmode : d.1.mode with
      | connected => exact hunexpected .connected
      | idle => exact hunexpected .idle
      | config => exact hnoted rfl
      | beacon => exact hnoted rfl
  | advertisingStopped => exact hnoted rfl

theorem Device.telling_command (command : Command) (d : Device) :
    Telling now d.1.outlook (Device.command command now d).output []
      (Device.command command now d).state.1.outlook := by
  cases command with
  | startConfig => exact Engine.tells_startConfig now d.1
  | startBeacon => exact Engine.tells_startBeacon d.1
  | stop =>
      rw [Device.command, Act.bind_pure_apply]
      exact Engine.tells_stop d.1
  | updateBattery millivolts => exact .unheard rfl turnless_nil ⟨rfl, rfl, rfl, rfl⟩
  | updateTemperature temperature => exact .unheard rfl turnless_nil ⟨rfl, rfl, rfl, rfl⟩
  | saveParams =>
      rw [Device.command, Act.bind_pure_apply]
      exact telling_persist now d

/-- All that is told within a request, from the state in which a central has been answered on. -/
theorem Entry.telling (x : Entry) :
    Telling x.request.time (x.before.1.mode, x.answered) x.output x.remarks x.after.1.outlook := by
  obtain ⟨d, request⟩ := x
  rw [output, after]
  cases request with
  | read attr now =>
      rw [Device.serve, Act.bind_pure_apply]
      have haside := Attribute.asides_read attr now d.1.state
      have hdrains : Act.Tells Engine.outlook now (Engine.onState State.drainEvents) :=
        Engine.tells_drainEvents
      have hread := hdrains { d.1 with state := (attr.read now d.1.state).state }
      have houtput := output_read attr now d
      rw [output, Device.serve, Act.bind_pure_apply] at houtput
      rw [houtput]
      exact (Telling.of_inner haside.inner _).trans hread
  | write attr offset data now =>
      rw [Device.serve, Act.bind_pure_apply]
      cases hwrite : (attr.write offset data now d.1.state).value with
      | error fault =>
          have hremarks : remarks ⟨d, .write attr offset data now⟩ = [.writeRejected attr] := by
            simp only [remarks, hwrite]
          rw [hremarks]
          exact Engine.telling_writeAttribute_of_error hwrite
      | ok effect =>
          have hremarks : remarks ⟨d, .write attr offset data now⟩ = effect.remarks := by
            simp only [remarks, hwrite]
          rw [hremarks]
          exact Engine.telling_writeAttribute_of_ok hwrite
  | poll now =>
      rw [Device.serve, Act.bind_pure_apply]
      exact Engine.tells_poll d.1
  | radioEvent event now =>
      rw [Device.serve, Act.bind_pure_apply]
      exact Device.telling_radioEvent event d
  | command command now =>
      rw [Device.serve, Act.bind_pure_apply]
      exact Device.telling_command command d
  | saveIfDirty now =>
      rw [Device.serve, Act.bind_pure_apply]
      exact Device.telling_saveIfDirty now d

end Beacon

import Beacon.Proofs.Storing
import Beacon.Proofs.Telling

/-!
# The log of events

Whoever has listened since the start knows the mode and the state of the lock.  Each
report of a mode goes on from the one before it, and what there is to know of the lock
is told as soon as a central has been answered.

A poll that never ends is told of as well, one timer after the other.
-/

namespace Beacon

open Act Transcript

variable {now : Nat}

/-! ## What a listener makes of events -/

/-- The reports lead from the first mode to the last, each from the mode that the one before has
led to and to another one. -/
inductive Chained : Mode → List Event → Mode → Prop
  | done (mode : Mode) : Chained mode [] mode
  | change {old new last : Mode} {rest : List Event} : old ≠ new → Chained new rest last →
      Chained old (.modeChanged old new :: rest) last
  | other {mode last : Mode} {event : Event} {rest : List Event} :
      (∀ old new, event ≠ .modeChanged old new) → Chained mode rest last →
      Chained mode (event :: rest) last

namespace Chained

variable {first mode last : Mode} {a b : List Event}

theorem append (h : Chained first a mode) (h' : Chained mode b last) :
    Chained first (a ++ b) last := by
  induction h with
  | done mode => exact h'
  | change hne _ ih => exact .change hne (ih h')
  | other hother _ ih => exact .other hother (ih h')

theorem of_unchanged (h : ∀ event ∈ a, ∀ old new, event ≠ .modeChanged old new) (mode : Mode) :
    Chained mode a mode := by
  induction a with
  | nil => exact .done mode
  | cons event rest ih =>
      obtain ⟨hevent, hrest⟩ := List.forall_mem_cons.mp h
      exact .other hevent (ih hrest)

end Chained

namespace Event

/-- The mode once the event has been told. -/
def modeAfter (mode : Mode) : Event → Mode
  | .modeChanged _ new => new
  | _ => mode

/-- The state of the lock once the event has been told, where a reset brings back the initial
one. -/
def lockAfter (initial lock : LockState) : Event → LockState
  | .lockChanged state => state
  | .factoryReset => initial
  | _ => lock

theorem modeAfter_of_unchanged {event : Event} (h : ∀ old new, event ≠ .modeChanged old new)
    (mode : Mode) : modeAfter mode event = mode := by
  cases event with
  | modeChanged old new => exact absurd rfl (h old new)
  | _ => rfl

theorem not_modeChanged_of_isRemark {event : Event} (h : event.isRemark) (old new : Mode) :
    event ≠ .modeChanged old new := by
  rintro rfl
  cases h

theorem not_modeChanged_of_isRotation {event : Event} (h : event.isRotation) (old new : Mode) :
    event ≠ .modeChanged old new := by
  rintro rfl
  cases h

theorem isRemark_of_isRotation {event : Event} (h : event.isRotation) : event.isRemark = false := by
  cases event with
  | eidRotated slot time => rfl
  | _ => cases h

theorem lockAfter_of_not_isRemark {event : Event} (h : event.isRemark = false)
    (initial lock : LockState) : lockAfter initial lock event = lock := by
  cases event with
  | modeChanged old new => rfl
  | eidRotated slot time => rfl
  | _ => cases h

/-- Only remarks are about the lock. -/
theorem foldl_lockAfter_filter (initial lock : LockState) (events : List Event) :
    (events.filter isRemark).foldl (lockAfter initial) lock =
      events.foldl (lockAfter initial) lock := by
  induction events generalizing lock with
  | nil => rfl
  | cons event rest ih =>
      cases hremark : event.isRemark with
      | true =>
          rw [List.filter_cons_of_pos hremark]
          exact ih _
      | false =>
          rw [List.filter_cons_of_neg (by simp [hremark]), List.foldl_cons,
            lockAfter_of_not_isRemark hremark]
          exact ih lock

end Event

/-- The last report is all that is needed. -/
theorem Chained.foldl_eq {first last : Mode} {events : List Event} (h : Chained first events last) :
    events.foldl Event.modeAfter first = last := by
  induction h with
  | done mode => rfl
  | change _ _ ih => exact ih
  | other hother _ ih =>
      rw [List.foldl_cons, Event.modeAfter_of_unchanged hother]
      exact ih

/-! ## Events that wait -/

namespace State

/-- Whatever waits to be told is a rotation. -/
def AwaitsRotations (s : State) : Prop :=
  ∀ event ∈ s.pendingEvents, event.isRotation

variable {s : State}

theorem awaitsRotations_of_told (h : s.pendingEvents = []) : s.AwaitsRotations := by
  intro event hmem
  rw [h] at hmem
  cases hmem

theorem AwaitsRotations.rotated (h : s.AwaitsRotations) (i : SlotIndex) (tx : Int8) (id : Octets 8)
    (now : Nat) : (s.rotated i tx id now).AwaitsRotations := by
  intro event hmem
  cases List.mem_append.mp hmem with
  | inr hnew =>
      rw [List.mem_singleton.mp hnew]
      rfl
  | inl hold =>
      split at hold
      · exact h event (List.mem_of_mem_drop hold)
      · exact h event hold

theorem AwaitsRotations.rotateIfDue (h : s.AwaitsRotations) (slot now : Nat) :
    (State.rotateIfDue slot now s).state.AwaitsRotations := by
  rcases rotateIfDue_cases slot now s with ⟨notes, hsame⟩ | ⟨i, tx, old, id, -, -, -, -, hrotated⟩
  · rw [hsame]
    exact h
  · rw [hrotated]
    exact h.rotated i tx id now

theorem AwaitsRotations.perform (h : s.AwaitsRotations) (turn : Turn) (now : Nat) :
    (turn.perform now s).state.AwaitsRotations := by
  have hevents : (turn.perform now s).state.pendingEvents =
      (State.rotateIfDue turn.slot now s).state.pendingEvents :=
    congrArg (fun x => x.2.2) (turn.renewing_perform now s)
  intro event hmem
  rw [hevents] at hmem
  exact h.rotateIfDue turn.slot now event hmem

end State

/-! ## What is told on the way -/

namespace Telling

variable {x y : Mode × State} {out : Transcript} {said : List Event}

theorem lock_eq (h : Telling now x out said y) : y.2.lock.state = x.2.lock.state := by
  induction h with
  | unheard _ _ hunmoved => exact hunmoved.lock
  | @took mode s t out _ hturn =>
      obtain ⟨turn, -, rfl⟩ := hturn none
      exact congrArg (fun setup => setup.lock.state) (turn.setup_perform now s)
  | entered s _ => rfl
  | drained mode s => rfl
  | remarked x _ => rfl
  | trans _ _ ihx ihy => exact ihy.trans ihx

/-- Besides rotations and remarks there are only reports of modes, and they are chained. -/
theorem chained (h : Telling now x out said y) (hx : x.2.AwaitsRotations) :
    Chained x.1 out.events y.1 ∧ out.events.filter Event.isRemark = said ∧
      y.2.AwaitsRotations := by
  induction h with
  | @unheard mode s t out hevents _ hunmoved =>
      rw [hevents]
      refine ⟨.done mode, rfl, ?_⟩
      intro event hmem
      rw [hunmoved.pendingEvents] at hmem
      exact hx event hmem
  | @took mode s t out hevents hturn =>
      obtain ⟨turn, -, rfl⟩ := hturn none
      rw [hevents]
      exact ⟨.done mode, rfl, hx.perform turn now⟩
  | entered s hne => exact ⟨.change hne (.done _), rfl, hx⟩
  | drained mode s =>
      rw [events_map_event]
      refine ⟨?_, ?_, State.awaitsRotations_of_told rfl⟩
      · apply Chained.of_unchanged
        exact fun event hmem => Event.not_modeChanged_of_isRotation (hx event hmem)
      · apply List.filter_eq_nil_iff.mpr
        intro event hmem
        rw [Event.isRemark_of_isRotation (hx event hmem)]
        exact Bool.false_ne_true
  | remarked x hremark =>
      refine ⟨.other (Event.not_modeChanged_of_isRemark hremark) (.done _), ?_, hx⟩
      exact List.filter_cons_of_pos hremark
  | trans _ _ ihx ihy =>
      obtain ⟨hfirst, hsaid, hy⟩ := ihx hx
      obtain ⟨hsecond, halso, hz⟩ := ihy hy
      rw [events_append, List.filter_append, hsaid, halso]
      exact ⟨hfirst.append hsecond, rfl, hz⟩

end Telling

/-! ## What a listener knows -/

/-- From the events a listener learns how mode and lock have come to be what they are. -/
structure Recounts (initial : LockState) (before : Engine) (events : List Event) (after : Engine) :
    Prop where
  mode : Chained before.mode events after.mode
  lock : events.foldl (Event.lockAfter initial) before.state.lock.state = after.state.lock.state

namespace Recounts

variable {initial : LockState} {e e' e'' : Engine} {a b : List Event}

theorem refl (initial : LockState) (e : Engine) : Recounts initial e [] e :=
  ⟨.done e.mode, rfl⟩

theorem append (h : Recounts initial e a e') (h' : Recounts initial e' b e'') :
    Recounts initial e (a ++ b) e'' := by
  constructor
  · exact h.mode.append h'.mode
  · rw [List.foldl_append, h.lock, h'.lock]

end Recounts

/-- Without a remark the lock is what it was. -/
theorem Telling.recounts {e e' : Engine} {out : Transcript}
    (h : Telling now e.outlook out [] e'.outlook) (he : e.state.AwaitsRotations)
    (initial : LockState) : Recounts initial e out.events e' := by
  obtain ⟨hchained, hremarks, -⟩ := h.chained he
  constructor
  · exact hchained
  · rw [← Event.foldl_lockAfter_filter, hremarks]
    exact h.lock_eq.symm

/-! ## Requests -/

namespace Attribute

variable {attr : Attribute} {offset : Nat} {data : Bytes} {s : State} {effect : WriteEffect}

theorem lock_writeReset (h : (writeReset data s).value = .ok effect) :
    effect.remarks.foldl (Event.lockAfter s.config.lockState) s.lock.state =
      (writeReset data s).state.lock.state := by
  rcases writeReset_cases data s with
    ⟨fault, hvalue, -⟩ | ⟨-, hvalue, hstate⟩ |
      ⟨flag, slots, identity, rng, -, -, -, hvalue, hstate⟩
  · cases hvalue.symm.trans h
  · cases hvalue.symm.trans h
    rw [hstate]
    rfl
  · cases hvalue.symm.trans h
    rw [hstate]
    rfl

/-- What a central does to the lock is what is told of it. -/
theorem lock_write_of_ok (h : (attr.write offset data now s).value = .ok effect) :
    effect.remarks.foldl (Event.lockAfter s.config.lockState) s.lock.state =
      (attr.write offset data now s).state.lock.state := by
  by_cases hattr : attr = .factoryReset
  · subst hattr
    have hvalue := (write_of_ok h).2
    rw [hvalue] at h ⊢
    exact lock_writeReset h
  · have houtcome := outcome_write attr offset data now s
    rw [h] at houtcome
    generalize (attr.write offset data now s).state = t at houtcome
    cases houtcome with
    | unlocked token lock rng => rfl
    | locks lock => rfl
    | edited f heffect hedit hsetup =>
        have hlock : s.lock.state = t.lock.state :=
          congrArg (fun setup => setup.lock.state) hsetup.symm
        rw [heffect]
        cases attr with
        | factoryReset => exact absurd rfl hattr
        | lockState => rfl
        | unlock => rfl
        | _ => exact hlock
    | moved i => rfl
    | connectable on => rfl
    | spared => rfl
    | reset slots identity rng hreset => exact absurd hreset hattr

end Attribute

namespace Entry

theorem lock_answered (x : Entry) :
    x.remarks.foldl (Event.lockAfter x.before.1.state.config.lockState)
        x.before.1.state.lock.state = x.answered.lock.state := by
  obtain ⟨d, request⟩ := x
  have hkept {s t : State} (h : t.settings = s.settings) : s.lock.state = t.lock.state :=
    (congrArg (fun settings => settings.lock.state) h).symm
  cases request with
  | read attr now => exact hkept (Attribute.settings_read attr now d.1.state)
  | write attr offset data now =>
      cases hwrite : (attr.write offset data now d.1.state).value with
      | error fault =>
          simp only [remarks, hwrite]
          exact hkept (Attribute.settings_write_of_error hwrite)
      | ok effect =>
          simp only [remarks, hwrite]
          exact Attribute.lock_write_of_ok hwrite
  | poll now => rfl
  | radioEvent event now =>
      simp only [remarks]
      split <;> rfl
  | command command now => rfl
  | saveIfDirty now => rfl

theorem awaitsRotations_answered {x : Entry} (htold : x.before.1.state.pendingEvents = []) :
    x.answered.AwaitsRotations := by
  obtain ⟨d, request⟩ := x
  have hstart := State.awaitsRotations_of_told htold
  have hasked (access : Access) : (access.perform d.1.state).state.AwaitsRotations := by
    let m : Moment := ⟨d.1.state, .asked access⟩
    have hevents : (access.perform d.1.state).state.pendingEvents = m.events := rfl
    intro event hmem
    rw [hevents] at hmem
    cases m.ticks htold with
    | idle _ hnone => rw [hnone] at hmem; cases hmem
    | rotated i _ hone => rw [hone, List.mem_singleton] at hmem; rw [hmem]; rfl
    | reset _ hnone => rw [hnone] at hmem; cases hmem
  cases request with
  | read attr now => exact hasked (.read attr now)
  | write attr offset data now => exact hasked (.write attr offset data now)
  | poll now => exact hstart
  | radioEvent event now => exact hstart
  | command command now => exact hstart
  | saveIfDirty now => exact hstart

theorem recounts {x : Entry} (htold : x.before.1.state.pendingEvents = []) :
    Recounts x.before.1.state.config.lockState x.before.1 x.output.events x.after.1 := by
  obtain ⟨hchained, hremarks, -⟩ := x.telling.chained (awaitsRotations_answered htold)
  constructor
  · exact hchained
  · rw [← Event.foldl_lockAfter_filter, hremarks, x.lock_answered]
    exact x.telling.lock_eq.symm

end Entry

/-! ## Runs -/

/-- All events that were told. -/
def History.events (history : History) : List Event :=
  history.flatMap fun x => x.output.events

theorem History.events_concat (history : History) (x : Entry) :
    History.events (history ++ [x]) = history.events ++ x.output.events := by
  simp [History.events]

theorem Engine.tells_fireSome (now n : Nat) : Act.Tells outlook now (fireSome now n) := by
  induction n with
  | zero => exact tells_pure ()
  | succ n ih => exact tells_fireOne.bind fun _ => ih

namespace Device

variable {config : Config} {store : Store} {start d : Device} {history : History}

theorem Booted.mode_eq (hbooted : Booted config store d) : d.1.mode = .idle := by
  obtain ⟨radio, slots, identity, rng, now, -, -, rfl⟩ := hbooted.exists_state
  rcases persist_cases now (Engine.ofState radio (adopted (Store.load store).value
    (.factory config slots identity rng radio.minInterval radio.maxInterval)),
    (Store.load store).state) with ⟨-, -, h⟩ | ⟨-, -, h⟩
  · rw [h]
    rfl
  · rw [h]
    rfl

theorem recounts_of_run (hbooted : Booted config store start) (hrun : Run start history d) :
    Recounts config.lockState start.1 history.events d.1 := by
  induction hrun with
  | start => exact .refl config.lockState start.1
  | @serve history d request hrun ih =>
      have hreach := (Reachable.boot hbooted).of_run hrun
      have hrecounts := Entry.recounts (x := ⟨d, request⟩) hreach.pendingEvents
      rw [hreach.config_eq] at hrecounts
      rw [History.events_concat]
      exact ih.append hrecounts

/-- At each point of a run, and however many timers a poll has fired by then, the events since the
start tell how the mode has come to be what it is, from idle on, and how the lock has. -/
theorem events_recount (hbooted : Booted config store start) (hrun : Run start history d) :
    start.1.mode = .idle ∧ Recounts config.lockState start.1 history.events d.1 ∧
      ∀ now n, Recounts config.lockState start.1
        (history.events ++ events (Engine.fireSome now n d.1).output)
        (Engine.fireSome now n d.1).state := by
  have hrecounts := recounts_of_run hbooted hrun
  refine ⟨hbooted.mode_eq, hrecounts, ?_⟩
  intro now n
  have hreach := (Reachable.boot hbooted).of_run hrun
  have htelling := Engine.tells_fireSome now n d.1
  exact hrecounts.append (htelling.recounts (State.awaitsRotations_of_told hreach.pendingEvents)
    config.lockState)

/-- Beaconing starts, and then a central locks the beacon. -/
def closing (start : Device) : History :=
  [⟨start, .command .startBeacon 0⟩,
    ⟨(serve (.command .startBeacon 0) start).state, .write .lockState 0 [0] 1000⟩]

theorem closing_recounted :
    ∃ start d, Booted changing ⟨.memory none, fun _ _ => none, 0⟩ start ∧
      Run start (closing start) d ∧
      History.events (closing start) =
        [.modeChanged .idle .beacon, .eidRotated 2 0, .lockChanged .locked] ∧
      d.1.mode = .beacon ∧ d.1.state.lock.state = .locked := by
  obtain ⟨start, hbooted, hevents⟩ :
      ∃ start, Booted changing ⟨.memory none, fun _ _ => none, 0⟩ start ∧
        History.events (closing start) =
          [.modeChanged .idle .beacon, .eidRotated 2 0, .lockChanged .locked] :=
    exists_booted_of_eq (.idle 100 10240 fun _ _ => none) (some (Octets.zero 32)) 0
      (fun start => History.events (closing start)) (by decide +kernel)
  have hrun := ((Run.start : Run start [] start).serve (.command .startBeacon 0)).serve
    (.write .lockState 0 [0] 1000)
  obtain ⟨-, hrecounts, -⟩ := events_recount hbooted hrun
  have hmode := hrecounts.mode.foldl_eq
  have hlock := hrecounts.lock
  rw [closing] at hevents
  rw [List.nil_append, List.singleton_append, hevents] at hmode hlock
  exact ⟨start, _, hbooted, hrun, hevents, hmode.symm, hlock.symm⟩

end Device

end Beacon

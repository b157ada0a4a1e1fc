import Beacon.Proofs.Access
import Beacon.Proofs.Notes
import Beacon.Proofs.Runs

/-!
# Moments

Within one request a beacon may do several things: a central is answered, and
slots take turns on air.  A transcript tells which slots took a turn and what the
radio took of each, and since nothing else touches slots and clock, the state in
which each of these things was done follows from the state before the request.

A moment is one thing done together with the state in which it was done, up to
the events that wait to be told.
-/

namespace Beacon

/-- A slot had its turn, and the radio took what it had to send or did not. -/
structure Turn where
  slot : Nat
  sent : Option Bytes

/-! ## Turns in a transcript -/

namespace Output

/-- The payload that the radio took. -/
def started? : Output → Option Bytes
  | .radio (.start payload) none => some payload
  | _ => none

/-- The turn that the radio manager reports, given what the radio took last. -/
def turn? (started : Option Bytes) : Output → Option Turn
  | .notice (.slotOnAir slot) => some ⟨slot, started⟩
  | .notice (.slotRefused slot _) => some ⟨slot, none⟩
  | .notice (.slotSilent slot) => some ⟨slot, none⟩
  | _ => none

/-- A line in which the radio manager reports how a turn has ended. -/
def endsTurn : Output → Bool
  | .notice n => n.endsTurn
  | _ => false

theorem turn?_of_not_endsTurn {output : Output} (h : output.endsTurn = false)
    (started : Option Bytes) : output.turn? started = none := by
  cases output with
  | notice n =>
      cases n with
      | slotOnAir slot => cases h
      | slotRefused slot fault => cases h
      | slotSilent slot => cases h
      | _ => rfl
  | event event => rfl
  | radio call fault => rfl
  | store call fault => rfl

theorem started_of_turn? {output : Output} {started : Option Bytes} {slot : Nat} {payload : Bytes}
    (h : output.turn? started = some ⟨slot, some payload⟩) : started = some payload := by
  cases output with
  | notice n =>
      cases n <;> cases h
      rfl
  | event event => cases h
  | radio call fault => cases h
  | store call fault => cases h

theorem eq_start_of_started? {output : Output} {payload : Bytes}
    (h : output.started? = some payload) : output = .radio (.start payload) none := by
  cases output with
  | radio call fault =>
      cases call <;> cases fault <;> cases h
      rfl
  | notice n => cases h
  | event event => cases h
  | store call fault => cases h

theorem endsTurn_of_isPlain {output : Output} (h : output.isPlain) : output.endsTurn = false := by
  cases output with
  | notice n => exact Notice.endsTurn_of_isAside h
  | event event => rfl
  | radio call fault => rfl
  | store call fault => rfl

end Output

namespace Transcript

/-- What the radio took last. -/
def lastStarted (started : Option Bytes) (transcript : Transcript) : Option Bytes :=
  transcript.foldl (fun started output => output.started? <|> started) started

/-- The turns that the radio manager reports. -/
def turns (started : Option Bytes) : Transcript → List Turn
  | [] => []
  | output :: rest => (output.turn? started).toList ++ turns (output.started? <|> started) rest

theorem turns_append (started : Option Bytes) (a b : Transcript) :
    turns started (a ++ b) = turns started a ++ turns (lastStarted started a) b := by
  induction a generalizing started with
  | nil => rfl
  | cons output rest ih =>
      simp only [List.cons_append, turns, lastStarted, List.foldl_cons, List.append_assoc, ih]

/-- No turn is reported. -/
def Turnless (transcript : Transcript) : Prop :=
  ∀ output ∈ transcript, output.endsTurn = false

theorem turnless_nil : Turnless [] := by
  intro output hmem
  cases hmem

theorem turnless_singleton {output : Output} (h : output.endsTurn = false) : Turnless [output] := by
  intro other hmem
  rwa [List.mem_singleton.mp hmem]

theorem Turnless.append {a b : Transcript} (ha : a.Turnless) (hb : b.Turnless) :
    Turnless (a ++ b) := by
  intro output hmem
  cases List.mem_append.mp hmem with
  | inl hmem => exact ha output hmem
  | inr hmem => exact hb output hmem

theorem turnless_bind {σ α β : Type} {action : Act σ α} {next : α → Act σ β}
    (hfirst : ∀ s, Turnless (action s).output) (hnext : ∀ a s, Turnless (next a s).output) (s : σ) :
    Turnless ((action >>= next) s).output := by
  rw [Act.bind_apply, Done.output_after]
  exact (hfirst s).append (hnext _ _)

theorem turnless_note {σ : Type} {notice : Notice} (h : notice.endsTurn = false) (s : σ) :
    Turnless (Act.note notice s).output :=
  turnless_singleton h

theorem turnless_pure {σ α : Type} (a : α) (s : σ) : Turnless ((pure a : Act σ α) s).output :=
  turnless_nil

theorem Turnless.turns_eq_nil {transcript : Transcript} (h : transcript.Turnless)
    (started : Option Bytes) : transcript.turns started = [] := by
  induction transcript generalizing started with
  | nil => rfl
  | cons output rest ih =>
      have hrest := ih (fun other hmem => h other (List.mem_cons_of_mem _ hmem))
      rw [turns, Output.turn?_of_not_endsTurn (h output List.mem_cons_self), hrest]
      rfl

theorem Turnless.not_onAir {transcript : Transcript} (h : transcript.Turnless) (slot : Nat) :
    .notice (.slotOnAir slot) ∉ transcript := by
  intro hmem
  have hends := h _ hmem
  cases hends

theorem exists_turn_of_onAir {transcript : Transcript} {slot : Nat}
    (h : .notice (.slotOnAir slot) ∈ transcript) (started : Option Bytes) :
    ∃ turn ∈ transcript.turns started, turn.slot = slot := by
  induction transcript generalizing started with
  | nil => cases h
  | cons output rest ih =>
      cases h with
      | head => exact ⟨⟨slot, started⟩, List.mem_cons_self, rfl⟩
      | tail _ hmem =>
          obtain ⟨turn, hturn, hslot⟩ := ih hmem (output.started? <|> started)
          exact ⟨turn, List.mem_append_right _ hturn, hslot⟩

/-- A payload that a turn has sent is one that the radio took. -/
theorem start_mem_of_turn {transcript : Transcript} {slot : Nat} {payload : Bytes}
    {started : Option Bytes} (h : ⟨slot, some payload⟩ ∈ transcript.turns started) :
    started = some payload ∨ .radio (.start payload) none ∈ transcript := by
  induction transcript generalizing started with
  | nil => cases h
  | cons output rest ih =>
      cases List.mem_append.mp h with
      | inl hfirst => exact .inl (Output.started_of_turn? (Option.mem_toList.mp hfirst))
      | inr hrest =>
          cases ih hrest with
          | inr hmem => exact .inr (List.mem_cons_of_mem _ hmem)
          | inl hlast =>
              cases hstarted : output.started? with
              | none =>
                  rw [hstarted] at hlast
                  exact .inl hlast
              | some taken =>
                  rw [hstarted] at hlast
                  cases hlast
                  have hstart := Output.eq_start_of_started? hstarted
                  exact .inr (hstart ▸ List.mem_cons_self)

theorem Plain.turnless {transcript : Transcript} (h : transcript.Plain) : transcript.Turnless := by
  intro output hmem
  exact Output.endsTurn_of_isPlain (h output hmem)

theorem Aside.turnless {transcript : Transcript} (h : transcript.Aside) : transcript.Turnless :=
  h.plain.turnless

end Transcript

/-! ## Waiting events do not matter -/

namespace State

/-- The state with no event waiting. -/
def hush (s : State) : State :=
  { s with pendingEvents := [] }

theorem hush_of_nil {s : State} (h : s.pendingEvents = []) : s.hush = s := by
  rw [hush, ← h]

/-- What an action gives, and all that it leaves but the waiting events, is the same in two states
that differ in their waiting events only. -/
def Heedless {α : Type} (action : Act State α) : Prop :=
  ∀ s, (action s.hush).value = (action s).value ∧
    (action s.hush).state.hush = (action s).state.hush

theorem Heedless.congr {α : Type} {action : Act State α} (h : Heedless action) {s t : State}
    (hst : s.hush = t.hush) :
    (action s).value = (action t).value ∧ (action s).state.hush = (action t).state.hush := by
  have hs := h s
  have ht := h t
  rw [hst] at hs
  exact ⟨hs.1.symm.trans ht.1, hs.2.symm.trans ht.2⟩

theorem Heedless.bind {α β : Type} {action : Act State α} {next : α → Act State β}
    (hfirst : Heedless action) (hnext : ∀ a, Heedless (next a)) : Heedless (action >>= next) := by
  intro s
  obtain ⟨hvalue, hstate⟩ := hfirst s
  simp only [Act.bind_apply, Done.value_after, Done.state_after, hvalue]
  exact (hnext _).congr hstate

theorem heedless_pure {α : Type} (a : α) : Heedless (pure a) := fun _ => ⟨rfl, rfl⟩

theorem heedless_rotateIfDue (slot now : Nat) : Heedless (rotateIfDue slot now) := by
  intro s
  unfold rotateIfDue
  split
  next hslot =>
    simp only [Act.bind_apply, Act.get_apply, Done.after_nil, hush]
    cases (s.slots.table.value ⟨slot, hslot⟩).frame with
    | none => exact ⟨rfl, rfl⟩
    | some frame =>
        cases frame with
        | eid tx id =>
            simp only
            split
            · exact ⟨rfl, rfl⟩
            · cases Ephemeral.identifier (s.slots.table.value ⟨slot, hslot⟩).key
                  (s.slots.table.value ⟨slot, hslot⟩).exponent (s.clock.time now) <;>
                exact ⟨rfl, rfl⟩
        | uid tx id => exact ⟨rfl, rfl⟩
        | url tx address => exact ⟨rfl, rfl⟩
        | tlm t => exact ⟨rfl, rfl⟩
        | etlm t => exact ⟨rfl, rfl⟩
  next => exact ⟨rfl, rfl⟩

theorem heedless_sealTelemetry (now : Nat) : Heedless (sealTelemetry now) := by
  intro s
  simp only [sealTelemetry, Act.bind_apply, Act.get_apply, Done.after_nil, hush]
  cases s.slots.nextEid? s.sealingCursor <;> exact ⟨rfl, rfl⟩

theorem heedless_telemetryFrame (now : Nat) : Heedless (telemetryFrame now) := by
  apply (heedless_sealTelemetry now).bind
  intro sealed s
  cases sealed <;> exact ⟨rfl, rfl⟩

theorem heedless_liveFrame (slot now : Nat) : Heedless (liveFrame slot now) := by
  apply (heedless_rotateIfDue slot now).bind
  intro _ s
  simp only [Act.bind_apply, Act.get_apply, Done.after_nil, hush]
  cases (s.slots.slot? slot).bind Slot.frame with
  | none => exact ⟨rfl, rfl⟩
  | some frame =>
      cases frame with
      | tlm t => exact (heedless_telemetryFrame now).bind (fun _ => heedless_pure _) s
      | uid tx id => exact ⟨rfl, rfl⟩
      | url tx address => exact ⟨rfl, rfl⟩
      | etlm t => exact ⟨rfl, rfl⟩
      | eid tx id => exact ⟨rfl, rfl⟩

theorem heedless_prepare (slot now : Nat) : Heedless (State.prepare slot now) := by
  apply (heedless_liveFrame slot now).bind
  intro frame s
  cases frame with
  | none => exact ⟨rfl, rfl⟩
  | some frame =>
      simp only
      cases Advert.ofFrame frame with
      | error fault => exact ⟨rfl, rfl⟩
      | ok payload =>
          simp only [Act.bind_apply, Act.get_apply, Done.after_nil, hush]
          cases s.slots.slot? slot <;> exact ⟨rfl, rfl⟩

end State

/-! ## What a slot has to send -/

namespace State

/-- What is sent is the frame of the slot once it has been brought up to date; only telemetry is
made anew. -/
theorem liveFrame_of_some {slot now : Nat} {s : State} {frame : Frame}
    (h : (liveFrame slot now s).value = some frame) :
    ∃ held old, (rotateIfDue slot now s).state.slots.slot? slot = some held ∧
      held.frame = some old ∧ (old.kind ≠ .tlm → frame = old) := by
  simp only [liveFrame, Act.bind_apply, Act.get_apply, Done.after_nil, Done.value_after] at h
  generalize (rotateIfDue slot now s).state = rotated at h ⊢
  cases hslot : rotated.slots.slot? slot with
  | none => simp [hslot] at h
  | some held =>
      cases hframe : held.frame with
      | none => simp [hslot, hframe] at h
      | some old =>
          refine ⟨held, old, rfl, hframe, ?_⟩
          intro hkind
          simp only [hslot, hframe, Option.bind_some] at h
          cases old with
          | tlm telemetry => exact absurd rfl hkind
          | uid tx id => exact (Option.some.inj h).symm
          | url tx address => exact (Option.some.inj h).symm
          | etlm telemetry => exact (Option.some.inj h).symm
          | eid tx id => exact (Option.some.inj h).symm

theorem prepare_of_some {slot now : Nat} {s : State} {advert : PreparedAdvert}
    (h : (State.prepare slot now s).value = some advert) :
    ∃ frame, (liveFrame slot now s).value = some frame ∧
      Advert.ofFrame frame = .ok advert.payload := by
  simp only [State.prepare, Act.bind_apply, Done.value_after] at h
  cases hlive : (liveFrame slot now s).value with
  | none => simp [hlive] at h
  | some frame =>
      refine ⟨frame, rfl, ?_⟩
      simp only [hlive] at h
      cases hpayload : Advert.ofFrame frame with
      | error fault => simp [hpayload] at h
      | ok payload =>
          simp only [hpayload, Act.bind_apply, Act.get_apply, Done.after_nil] at h
          cases hslot : (liveFrame slot now s).state.slots.slot? slot with
          | none => simp [hslot] at h
          | some held =>
              simp only [hslot, Act.bind_apply, Act.set_apply, Act.pure_apply, Done.after_nil,
                Option.some.injEq] at h
              rw [← h]

end State

/-! ## Moments -/

/-- Brings the slot up to date, and counts the advert if the radio took it. -/
def Turn.perform (turn : Turn) (now : Nat) : Act State Unit := do
  let _ ← State.prepare turn.slot now
  if turn.sent.isSome then modify State.countAdvert

theorem Turn.setup_perform (turn : Turn) (now : Nat) :
    Act.Keeps State.setup (turn.perform now) := by
  apply (State.setup_prepare turn.slot now).bind
  intro _ s
  split
  · exact State.setup_countAdvert s
  · rfl

/-- One thing done to the state. -/
inductive Deed where
  | asked (access : Access)
  | took (turn : Turn) (now : Nat)

def Deed.perform (deed : Deed) : Act State Unit := do
  match deed with
  | .asked access =>
    let _ ← access.perform
  | .took turn now => turn.perform now

/-- A deed, and the state in which it was done, with no event waiting. -/
structure Moment where
  state : State
  deed : Deed

namespace Moment

def after (m : Moment) : State :=
  (m.deed.perform m.state).state.hush

/-- The events that the deed leaves to be told. -/
def events (m : Moment) : List Event :=
  (m.deed.perform m.state).state.pendingEvents

/-- What the radio took is what the slot had to send. -/
def Faithful (m : Moment) : Prop :=
  ∀ slot payload now, m.deed = .took ⟨slot, some payload⟩ now →
    ∃ advert, (State.prepare slot now m.state).value = some advert ∧ advert.payload = payload

end Moment

theorem Turn.heedless_perform (turn : Turn) (now : Nat) : State.Heedless (turn.perform now) := by
  apply (State.heedless_prepare turn.slot now).bind
  intro _ s
  split
  · exact ⟨rfl, rfl⟩
  · exact ⟨rfl, rfl⟩

/-- A turn does the same whatever events are waiting. -/
theorem Moment.faithful_hush {s : State} {turn : Turn} {now : Nat}
    (h : Faithful ⟨s, .took turn now⟩) : Faithful ⟨s.hush, .took turn now⟩ := by
  intro slot payload time hdeed
  obtain ⟨advert, hadvert, hpayload⟩ := h slot payload time hdeed
  refine ⟨advert, ?_, hpayload⟩
  rw [← hadvert]
  exact (State.heedless_prepare slot time s).1

theorem Moment.after_hush (s : State) (turn : Turn) (now : Nat) :
    after ⟨s.hush, .took turn now⟩ = (turn.perform now s).state.hush :=
  (turn.heedless_perform now s).2

namespace State

def moments (s : State) : List Deed → List Moment
  | [] => []
  | deed :: rest => ⟨s, deed⟩ :: moments (Moment.after ⟨s, deed⟩) rest

theorem map_deed_moments (s : State) (deeds : List Deed) :
    (s.moments deeds).map Moment.deed = deeds := by
  induction deeds generalizing s with
  | nil => rfl
  | cons deed rest ih => rw [moments, List.map_cons, ih]

theorem deed_of_mem_moments {s : State} {deeds : List Deed} {m : Moment}
    (hm : m ∈ s.moments deeds) :
    m.deed ∈ deeds := by
  have hdeed := List.mem_map_of_mem (f := Moment.deed) hm
  rwa [map_deed_moments] at hdeed

theorem exists_moment_of_mem {s : State} {deeds : List Deed} {deed : Deed} (h : deed ∈ deeds) :
    ∃ m ∈ s.moments deeds, m.deed = deed := by
  rw [← map_deed_moments s deeds] at h
  exact List.mem_map.mp h

/-- The state after one deed after the other. -/
def afterDeeds (s : State) (deeds : List Deed) : State :=
  deeds.foldl (fun s deed => Moment.after ⟨s, deed⟩) s

theorem moments_append (s : State) (a b : List Deed) :
    s.moments (a ++ b) = s.moments a ++ (s.afterDeeds a).moments b := by
  induction a generalizing s with
  | nil => rfl
  | cons deed rest ih =>
      rw [List.cons_append, moments, moments, ih]
      rfl

theorem afterDeeds_append (s : State) (a b : List Deed) :
    s.afterDeeds (a ++ b) = (s.afterDeeds a).afterDeeds b :=
  List.foldl_append

end State

/-- The deeds lead from one state to the other, and the radio took what there was to send. -/
structure Replays (s : State) (deeds : List Deed) (t : State) : Prop where
  state : s.afterDeeds deeds = t
  faithful : ∀ m ∈ s.moments deeds, m.Faithful

namespace Replays

theorem refl (s : State) : Replays s [] s := by
  constructor
  · rfl
  · intro m hmem
    cases hmem

theorem trans {s t u : State} {a b : List Deed} (hst : Replays s a t) (htu : Replays t b u) :
    Replays s (a ++ b) u := by
  constructor
  · rw [State.afterDeeds_append, hst.state, htu.state]
  · intro m hmem
    rw [State.moments_append, hst.state] at hmem
    cases List.mem_append.mp hmem with
    | inl hmem => exact hst.faithful m hmem
    | inr hmem => exact htu.faithful m hmem

theorem single {s : State} {deed : Deed} (hfaithful : Moment.Faithful ⟨s, deed⟩) :
    Replays s [deed] (Moment.after ⟨s, deed⟩) := by
  constructor
  · rfl
  · intro m hmem
    rwa [List.mem_singleton.mp hmem]

/-- What every deed preserves at a faithful moment holds at each moment and after all of them. -/
theorem invariant {P : State → Prop} {deeds : List Deed}
    (hdeed : ∀ m : Moment, m.deed ∈ deeds → m.Faithful → P m.state → P m.after)
    {s t : State} (h : Replays s deeds t) (hs : P s) :
    (∀ m ∈ s.moments deeds, P m.state) ∧ P t := by
  induction deeds generalizing s with
  | nil =>
      constructor
      · intro m hmem
        cases hmem
      · rw [← h.state]
        exact hs
  | cons deed rest ih =>
      have hfaithful := h.faithful ⟨s, deed⟩ List.mem_cons_self
      have hnext := hdeed ⟨s, deed⟩ List.mem_cons_self hfaithful hs
      have htail : Replays (Moment.after ⟨s, deed⟩) rest t :=
        ⟨h.state, fun m hmem => h.faithful m (List.mem_cons_of_mem _ hmem)⟩
      obtain ⟨hmoments, ht⟩ := ih (fun m hmem => hdeed m (List.mem_cons_of_mem _ hmem)) htail hnext
      constructor
      · intro m hmem
        cases hmem with
        | head => exact hs
        | tail _ hmem => exact hmoments m hmem
      · exact ht

/-- Turns do not touch the setup. -/
theorem setup_eq {s t : State} {turns : List Turn} {now : Nat}
    (h : Replays s (turns.map fun turn => .took turn now) t) :
    (∀ m ∈ s.moments (turns.map fun turn => .took turn now), m.state.setup = s.setup) ∧
      t.setup = s.setup := by
  apply h.invariant (P := fun other => other.setup = s.setup) _ rfl
  intro m hmem _ hm
  obtain ⟨turn, -, hdeed⟩ := List.mem_map.mp hmem
  have hafter : m.after.setup = m.state.setup := by
    rw [Moment.after, ← hdeed]
    exact turn.setup_perform now m.state
  exact hafter.trans hm

end Replays

/-! ## What was done when a device was asked -/

namespace Request

def time : Request → Nat
  | .read _ now => now
  | .write _ _ _ now => now
  | .poll now => now
  | .radioEvent _ now => now
  | .command _ now => now
  | .saveIfDirty now => now

/-- What a central asks for. -/
def asked : Request → List Deed
  | .read attr now => [.asked (.read attr now)]
  | .write attr offset data now => [.asked (.write attr offset data now)]
  | _ => []

end Request

namespace Entry

def output (x : Entry) : Transcript :=
  (Device.serve x.request x.before).output

/-- A central is answered first, and then slots take their turns. -/
def deeds (x : Entry) : List Deed :=
  x.request.asked ++ (x.output.turns none).map fun turn => .took turn x.request.time

def moments (x : Entry) : List Moment :=
  x.before.1.state.hush.moments x.deeds

end Entry

def History.moments (history : History) : List Moment :=
  history.flatMap Entry.moments

end Beacon

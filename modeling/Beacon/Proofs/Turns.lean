import Beacon.Proofs.Inward
import Beacon.Proofs.Upkeep

/-!
# Turns of the scheduler

A slot waits for the radio when it stands in the queue or a timer is going to put
it there.  Nothing but a start of the scheduler and a slot armed anew makes a slot
wait, and both go by the interval; nothing but a wait gives a slot a turn.

Every action of the scheduler is followed here once, for what it does to the state
by giving slots their turns and for which slots those are.
-/

namespace Beacon

variable {σ τ α β : Type}

namespace Scheduler

/-- The slot stands in the queue, or a timer is going to put it there. -/
def Waits (slot : Nat) (s : Scheduler) : Prop :=
  slot ∈ s.queue ∨ ∃ t ∈ s.timers.pending, t.task = .enqueue slot

theorem Waits.of_agenda_eq {slot : Nat} {s t : Scheduler} (h : s.Waits slot)
    (hagenda : s.agenda = t.agenda) : t.Waits slot := by
  have hqueue : s.queue = t.queue := congrArg Agenda.queue hagenda
  have htimers : s.timers = t.timers := congrArg Agenda.timers hagenda
  rwa [Waits, ← hqueue, ← htimers]

end Scheduler

/-- All slots that wait or are to be broadcast are among the eligible ones. -/
def Within (eligible : Nat → Prop) (x : Scheduler × State) : Prop :=
  ∀ slot, x.1.Waits slot ∨ x.2.interval? slot ≠ none → eligible slot

theorem State.interval?_eq_of_hush_eq {s t : State} (h : t.hush = s.hush) (slot : Nat) :
    t.interval? slot = s.interval? slot := by
  change t.hush.interval? slot = s.hush.interval? slot
  rw [h]

theorem Within.of_waits {eligible : Nat → Prop} {x y : Scheduler × State}
    (hx : Within eligible x) (hstate : y.2.hush = x.2.hush)
    (hwaits : ∀ slot, y.1.Waits slot → eligible slot) : Within eligible y := by
  intro slot h
  cases h with
  | inl h => exact hwaits slot h
  | inr h =>
      rw [State.interval?_eq_of_hush_eq hstate] at h
      exact hx slot (.inr h)

theorem Within.withScheduler {eligible : Nat → Prop} {x : Scheduler × State}
    (hx : Within eligible x) {s : Scheduler} (hwaits : ∀ slot, s.Waits slot → eligible slot) :
    Within eligible (s, x.2) :=
  hx.of_waits rfl hwaits

/-- What leads from a state to another one: slots that were eligible took turns, and nothing else
happened to the state. -/
structure Passage (now : Nat) (eligible : Nat → Prop) (s : State) (out : Transcript)
    (y : Scheduler × State) : Prop where
  replays : ∀ started,
    Replays s.hush ((out.turns started).map fun turn => .took turn now) y.2.hush
  took : ∀ started, ∀ turn ∈ out.turns started, eligible turn.slot
  onAir : ∀ started slot, .notice (.slotOnAir slot) ∈ out →
    ∃ payload, ⟨slot, some payload⟩ ∈ out.turns started
  within : Within eligible y

namespace Passage

variable {now : Nat} {eligible : Nat → Prop} {s : State} {x y : Scheduler × State}
  {a b : Transcript}

theorem trans (hx : Passage now eligible s a x) (hy : Passage now eligible x.2 b y) :
    Passage now eligible s (a ++ b) y := by
  constructor
  · intro started
    rw [Transcript.turns_append, List.map_append]
    exact (hx.replays _).trans (hy.replays _)
  · intro started turn hmem
    rw [Transcript.turns_append] at hmem
    cases List.mem_append.mp hmem with
    | inl hmem => exact hx.took _ turn hmem
    | inr hmem => exact hy.took _ turn hmem
  · intro started slot hmem
    rw [Transcript.turns_append]
    cases List.mem_append.mp hmem with
    | inl hmem =>
        obtain ⟨payload, hturn⟩ := hx.onAir started slot hmem
        exact ⟨payload, List.mem_append_left _ hturn⟩
    | inr hmem =>
        obtain ⟨payload, hturn⟩ := hy.onAir _ slot hmem
        exact ⟨payload, List.mem_append_right _ hturn⟩
  · exact hy.within

/-- No slot has a turn. -/
theorem idle (hstate : y.2.hush = s.hush) (hturnless : a.Turnless) (hwithin : Within eligible y) :
    Passage now eligible s a y := by
  constructor
  · intro started
    rw [hturnless.turns_eq_nil, hstate]
    exact Replays.refl _
  · intro started turn hmem
    rw [hturnless.turns_eq_nil] at hmem
    cases hmem
  · intro started slot hmem
    exact absurd hmem (hturnless.not_onAir slot)
  · exact hwithin

end Passage

namespace Act

/-- Whatever the action does, it gives turns to eligible slots only. -/
def Passes (view : σ → Scheduler × State) (now : Nat) (eligible : Nat → Prop)
    (action : Act σ α) : Prop :=
  ∀ s, Within eligible (view s) →
    Passage now eligible (view s).2 (action s).output (view (action s).state)

variable {view : σ → Scheduler × State} {now : Nat} {eligible : Nat → Prop}

theorem Passes.bind {action : Act σ α} {next : α → Act σ β}
    (hfirst : Passes view now eligible action) (hnext : ∀ a, Passes view now eligible (next a)) :
    Passes view now eligible (action >>= next) := by
  intro s hs
  have hthen := hfirst s hs
  exact hthen.trans (hnext _ _ hthen.within)

theorem passes_pure (a : α) : Passes view now eligible (pure a : Act σ α) := by
  intro s hs
  exact .idle rfl Transcript.turnless_nil hs

theorem passes_get_bind {next : σ → Act σ β}
    (hnext : ∀ s, Within eligible (view s) → Passes view now eligible (next s)) :
    Passes view now eligible (get >>= next) := by
  intro s hs
  exact hnext s hs s hs

/-- An action that gives no turn, leaves the state and lets no other slot wait. -/
theorem passes_of_idle {action : Act σ α}
    (hstate : ∀ s, (view (action s).state).2.hush = (view s).2.hush)
    (hturnless : ∀ s, Transcript.Turnless (action s).output)
    (hwaits : ∀ s slot, (view (action s).state).1.Waits slot → (view s).1.Waits slot) :
    Passes view now eligible action := by
  intro s hs
  apply Passage.idle (hstate s) (hturnless s)
  exact hs.of_waits (hstate s) fun slot h => hs slot (.inl (hwaits s slot h))

theorem Passes.gather {action : Act σ (Option α)} (hround : Passes view now eligible action) :
    Passes view now eligible (Act.gather action) := by
  intro s hs
  by_cases hends : Ends action s
  · induction hends with
    | @stop s hnone =>
        rw [gather_of_none hnone]
        exact hround s hs
    | @more s a hsome hrest ih =>
        rw [gather_of_some hsome hrest]
        exact (hround s hs).trans (ih (hround s hs).within)
  · rw [gather_of_not_ends hends]
    exact .idle rfl Transcript.turnless_nil hs

end Act

open Act

/-! ## The scheduler -/

namespace Scheduler

/-- A slot that is broadcast has its turn, and nothing else happens to the state. -/
theorem broadcast_cases (slot now : Nat) (x : Scheduler × State) (started : Option Bytes) :
    ∃ turn : Turn, turn.slot = slot ∧
      Transcript.turns started (broadcast slot now x).output = [turn] ∧
      (broadcast slot now x).state.2 = (turn.perform now x.2).state ∧
      Moment.Faithful ⟨x.2, .took turn now⟩ ∧
      (turn.sent = none → ∀ other, .notice (.slotOnAir other) ∉ (broadcast slot now x).output) := by
  have haside := State.asides_prepare slot now x.2
  cases hvalue : (State.prepare slot now x.2).value with
  | none =>
      obtain ⟨houtput, hstate⟩ := broadcast_of_none hvalue
      refine ⟨⟨slot, none⟩, rfl, ?_, hstate, State.faithful_silent slot now x.2, ?_⟩
      · rw [houtput, Transcript.turns_append, haside.turnless.turns_eq_nil]
        rfl
      · intro _ other
        rw [houtput]
        simp [haside.turnless.not_onAir]
  | some advert =>
      obtain ⟨addressing, fault, -, houtput, hstate⟩ := broadcast_of_some hvalue
      obtain ⟨later, hturns⟩ :=
        Transcript.turns_round haside slot addressing advert fault [] started
      rw [List.append_nil] at hturns
      refine ⟨⟨slot, advert.sent fault⟩, rfl, ?_, ?_, State.faithful_sent hvalue fault, ?_⟩
      · rw [houtput]
        exact hturns
      · rw [hstate, State.perform_sent]
      · intro hsent other hmem
        rw [houtput, ← List.append_assoc] at hmem
        cases fault with
        | none => cases hsent
        | some fault =>
            have hopening := haside.turnless.append addressing.turnless_outputs
            cases List.mem_append.mp hmem with
            | inl hmem => exact hopening.not_onAir other hmem
            | inr hmem => simp [PreparedAdvert.outputs, Notice.onStart] at hmem

theorem passes_onRadio {action : Act Radio α}
    (hturnless : ∀ radio, Transcript.Turnless (action radio).output) :
    Passes id now eligible (Act.onFst (onRadio action) : Act (Scheduler × State) α) := by
  apply passes_of_idle (fun _ => rfl) ?_ fun _ _ h => h
  intro x
  exact hturnless x.1.radio

theorem passes_broadcast {slot : Nat} (hslot : eligible slot) :
    Passes id now eligible (broadcast slot now : Act (Scheduler × State) Unit) := by
  intro x hx
  have hagenda := agenda_broadcast slot now x
  constructor
  · intro started
    obtain ⟨turn, -, hturns, hstate, hfaithful, -⟩ := broadcast_cases slot now x started
    change Replays x.2.hush _ (broadcast slot now x).state.2.hush
    rw [hturns, hstate, ← Moment.after_hush]
    exact Replays.single (Moment.faithful_hush hfaithful)
  · intro started turn hmem
    obtain ⟨taken, hslot', hturns, -⟩ := broadcast_cases slot now x started
    rw [hturns, List.mem_singleton] at hmem
    rwa [hmem, hslot']
  · intro started other hmem
    obtain ⟨taken, -, hturns, -, -, hsilent⟩ := broadcast_cases slot now x started
    obtain ⟨turn, hturn, rfl⟩ := Transcript.exists_turn_of_onAir hmem started
    cases hsent : turn.sent with
    | none =>
        rw [hturns, List.mem_singleton] at hturn
        exact absurd hmem (hsilent (hturn ▸ hsent) turn.slot)
    | some payload => exact ⟨payload, hsent ▸ hturn⟩
  · intro other h
    cases h with
    | inl hwaits => exact hx other (.inl (hwaits.of_agenda_eq hagenda))
    | inr hinterval =>
        have hsetup : (broadcast slot now x).state.2.setup = x.2.setup :=
          keeps_broadcast (fun _ => State.setup_countAdvert) State.setup_prepare slot now x
        have hsame := State.interval?_eq_of_setup_eq hsetup other
        exact hx other (.inr (hsame ▸ hinterval))

theorem passes_postIn {task : Task} (htask : ∀ slot, task ≠ .enqueue slot) (start delay : Nat) :
    Passes id now eligible
      (Act.onFst (onTimers (TimerQueue.postIn start delay task)) :
        Act (Scheduler × State) (Option TimerId)) := by
  apply passes_of_idle (fun _ => rfl)
  · exact fun x => (TimerQueue.inner_postIn start delay task).turnless x.1.timers
  · intro x slot h
    cases h with
    | inl hqueue => exact .inl hqueue
    | inr htimer =>
        obtain ⟨t, hmem, hslot⟩ := htimer
        cases TimerQueue.mem_insert hmem with
        | inl hmem => exact .inr ⟨t, hmem, hslot⟩
        | inr hnew => exact absurd (hnew.2.2.2.symm.trans hslot) (htask slot)

/-- The radio manager has nothing to do, or it gives the next slot in the queue its turn. -/
def giveTurn (slot now : Nat) : Act (Scheduler × State) Unit := do
  Act.onFst (onRadio Radio.quiet)
  broadcast slot now
  let dwell := (← get).1.radio.minInterval.toNat
  let handle ← Act.onFst (onTimers (TimerQueue.postIn now dwell .manageRadio))
  modify fun (s, provider) => ({ s with manager := handle }, provider)

theorem manageRadio_of_nil {s : Scheduler} (h : s.queue = []) (p : State) :
    manageRadio now (s, p) = Act.onFst (onRadio Radio.quiet) ({ s with manager := none }, p) := by
  simp only [manageRadio, Act.bind_apply, Act.get_apply, Act.modify_apply, Done.after_nil, h]

theorem manageRadio_of_cons {s : Scheduler} {slot : Nat} {rest : List Nat}
    (h : s.queue = slot :: rest) (p : State) :
    manageRadio now (s, p) = giveTurn slot now ({ s with manager := none, queue := rest }, p) := by
  simp only [manageRadio, giveTurn, Act.bind_apply, Act.get_apply, Act.modify_apply,
    Done.after_nil, h]

theorem passes_giveTurn {slot : Nat} (hslot : eligible slot) :
    Passes id now eligible (giveTurn slot now) := by
  apply (passes_onRadio Radio.inner_quiet.turnless).bind
  intro _
  apply (passes_broadcast hslot).bind
  intro _
  apply passes_get_bind
  intro _ _
  apply (passes_postIn (fun _ => Task.noConfusion) _ _).bind
  intro _
  exact passes_of_idle (fun _ => rfl) (fun _ => Transcript.turnless_nil) fun _ _ h => h

/-- The slot that the radio manager takes from the queue has waited. -/
theorem passes_manageRadio :
    Passes id now eligible (manageRadio now : Act (Scheduler × State) Unit) := by
  intro x hx
  obtain ⟨s, p⟩ := x
  have hx : Within eligible (s, p) := hx
  cases hqueue : s.queue with
  | nil =>
      rw [manageRadio_of_nil hqueue]
      exact passes_onRadio Radio.inner_quiet.turnless ({ s with manager := none }, p) hx
  | cons slot rest =>
      have hslot : eligible slot := hx slot (.inl (.inl (by simp [hqueue])))
      have hrest : Within eligible ({ s with manager := none, queue := rest }, p) := by
        apply Within.withScheduler hx
        intro other h
        cases h with
        | inl hmem =>
            have hwaits : other ∈ s.queue := hqueue ▸ List.mem_cons_of_mem _ hmem
            exact hx other (.inl (.inl hwaits))
        | inr htimer => exact hx other (.inl (.inr htimer))
      rw [manageRadio_of_cons hqueue]
      exact passes_giveTurn hslot _ hrest

theorem passes_offer {slot : Nat} (hslot : eligible slot) :
    Passes id now eligible (Act.onFst (offer slot) : Act (Scheduler × State) Unit) := by
  intro x hx
  have hother (other : Nat) (h : (offer slot x.1).state.Waits other) :
      x.1.Waits other ∨ other = slot := by
    simp only [offer, Act.bind_apply, Act.get_apply, Done.after_nil] at h
    split at h
    · exact .inl h
    · split at h
      · cases h with
        | inl hmem =>
            cases List.mem_append.mp hmem with
            | inl hmem => exact .inl (.inl hmem)
            | inr hmem => exact .inr (List.mem_singleton.mp hmem)
        | inr htimer => exact .inl (.inr htimer)
      · exact .inl h
  apply Passage.idle (y := ((offer slot x.1).state, x.2)) rfl ((inner_offer slot).turnless x.1)
  apply Within.withScheduler hx
  intro other h
  cases hother other h with
  | inl h => exact hx other (.inl h)
  | inr h => exact h ▸ hslot

theorem passes_enqueue {slot : Nat} (hslot : eligible slot) :
    Passes id now eligible (enqueue slot now : Act (Scheduler × State) Unit) := by
  apply (passes_offer hslot).bind
  intro _
  apply passes_get_bind
  intro x _
  split
  · exact passes_manageRadio
  · exact passes_pure _

/-- A slot that is armed waits from then on. -/
theorem waits_arm {slot : SlotIndex} {interval : UInt16} {s : Scheduler} {other : Nat}
    (h : (arm slot interval now s).state.Waits other) : s.Waits other ∨ other = slot := by
  cases h with
  | inl hqueue => exact .inl (.inl hqueue)
  | inr htimer =>
      obtain ⟨t, hmem, htask⟩ := htimer
      cases TimerQueue.mem_insert hmem with
      | inl hmem => exact .inl (.inr ⟨t, hmem, htask⟩)
      | inr hnew =>
          have hsame : Task.enqueue slot = .enqueue other := hnew.2.2.2.symm.trans htask
          cases hsame
          exact .inr rfl

theorem within_arm {x : Scheduler × State} (hx : Within eligible x) {slot : SlotIndex}
    (hslot : eligible slot) (interval : UInt16) :
    Within eligible
      ((arm slot interval now { x.1 with queue := x.1.queue ++ [slot.val] }).state, x.2) := by
  apply Within.withScheduler hx
  intro other h
  cases waits_arm h with
  | inr heq => exact heq ▸ hslot
  | inl h =>
      cases h with
      | inr htimer => exact hx other (.inl (.inr htimer))
      | inl hmem =>
          cases List.mem_append.mp hmem with
          | inl hmem => exact hx other (.inl (.inl hmem))
          | inr hmem => exact List.mem_singleton.mp hmem ▸ hslot

theorem passes_armAll (slots : List SlotIndex) {p : State}
    (hslots : ∀ slot, p.interval? slot ≠ none → eligible slot) :
    Passes id now eligible (Act.onFst (armAll p now slots) : Act (Scheduler × State) Unit) := by
  induction slots with
  | nil => exact passes_pure ()
  | cons slot rest ih =>
      intro x hx
      simp only [armAll]
      cases hinterval : AdvertProvider.interval? p slot.val with
      | none => exact ih x hx
      | some interval =>
          have hslot : eligible slot := hslots slot (by
            rw [show p.interval? slot = some interval from hinterval]
            exact Option.some_ne_none _)
          let queued : Scheduler := { x.1 with queue := x.1.queue ++ [slot.val] }
          let armed := arm slot interval now queued
          have harmed : Within eligible (armed.state, x.2) := within_arm hx hslot interval
          have hturnless : Transcript.Turnless
              (armed.output ++ [.notice (.slotArmed slot interval)]) :=
            ((inner_arm slot interval now).turnless queued).append
              (Transcript.turnless_singleton rfl)
          have hfirst : Passage now eligible x.2
              (armed.output ++ [.notice (.slotArmed slot interval)]) (armed.state, x.2) :=
            .idle rfl hturnless harmed
          have hboth := hfirst.trans (ih (armed.state, x.2) harmed)
          simp only [Act.bind_apply, Act.modify_apply, Act.note_apply, Act.onFst_apply,
            Done.after_after, Done.output_after, Done.state_after]
          exact hboth

theorem waits_disarm {s : Scheduler} {slot : Nat} (h : s.disarm.Waits slot) : s.Waits slot := by
  have hslots (handles : List (Option TimerId)) (queue : TimerQueue) :
      (handles.foldl (fun q h => q.cancel? h) queue).pending.Sublist queue.pending := by
    induction handles generalizing queue with
    | nil => exact .refl _
    | cons handle rest ih =>
        exact (ih (queue.cancel? handle)).trans (TimerQueue.pending_cancel?_sublist handle queue)
  cases h with
  | inl hqueue => cases hqueue
  | inr htimer =>
      obtain ⟨t, hmem, htask⟩ := htimer
      have hmem : t ∈ (s.slotTimers.foldl (fun q h => q.cancel? h) s.timers).pending :=
        (TimerQueue.pending_cancel?_sublist s.manager _).subset hmem
      rw [← Vector.foldl_toList] at hmem
      exact .inr ⟨t, (hslots _ s.timers).subset hmem, htask⟩

theorem passes_stop : Passes id now eligible (Act.onFst stop : Act (Scheduler × State) Unit) := by
  apply passes_of_idle (fun _ => rfl)
  · intro x
    exact Radio.inner_quiet.turnless x.1.radio
  · intro x slot h
    exact waits_disarm h

theorem passes_start :
    Passes id now eligible (start now : Act (Scheduler × State) (Except Fault Unit)) := by
  apply passes_stop.bind
  intro _
  apply passes_get_bind
  rintro ⟨s, p⟩ hwithin
  simp only
  split
  · apply Passes.bind
    · exact passes_of_idle (fun _ => rfl) (fun _ => Transcript.turnless_singleton rfl)
        fun _ _ h => h
    · exact fun _ => passes_pure _
  · apply (passes_onRadio (Radio.inner_tell _).turnless).bind
    intro _
    apply (passes_armAll _ fun slot h => hwithin slot (.inr h)).bind
    intro _
    apply Passes.bind
    · exact passes_of_idle (fun _ => rfl) (fun _ => Transcript.turnless_nil) fun _ _ h => h
    · exact fun _ => passes_manageRadio.bind fun _ => passes_pure _

theorem waits_disarmSlot {slot : SlotIndex} {s : Scheduler} {other : Nat}
    (h : (disarmSlot slot s).Waits other) : s.Waits other := by
  cases h with
  | inl hqueue => exact .inl hqueue
  | inr htimer =>
      obtain ⟨t, hmem, htask⟩ := htimer
      exact .inr ⟨t, (TimerQueue.pending_cancel?_sublist _ _).subset hmem, htask⟩

/-- A slot is armed anew only if it has an interval. -/
theorem waits_rearm {p : State} {slot now : Nat} {s : Scheduler} {other : Nat}
    (h : (rearm p slot now s).state.Waits other) :
    s.Waits other ∨ other = slot ∧ p.interval? slot ≠ none := by
  unfold rearm at h
  split at h
  next hlt =>
    simp only [Act.bind_apply, Act.get_apply, Done.after_nil] at h
    split at h
    · simp only [Act.bind_apply, Act.modify_apply, Done.after_nil] at h
      cases hinterval : p.interval? slot with
      | none =>
          have hnone : AdvertProvider.interval? p slot = none := hinterval
          rw [hnone] at h
          exact .inl (waits_disarmSlot h)
      | some interval =>
          have hsome : AdvertProvider.interval? p slot = some interval := hinterval
          rw [hsome] at h
          cases waits_arm h with
          | inl h => exact .inl (waits_disarmSlot h)
          | inr heq => exact .inr ⟨heq, Option.some_ne_none _⟩
    · exact .inl h
  next => exact .inl h

theorem passes_rearm {p : State} (hslots : ∀ slot, p.interval? slot ≠ none → eligible slot)
    (slot : Nat) :
    Passes id now eligible (Act.onFst (rearm p slot now) : Act (Scheduler × State) Unit) := by
  intro x hx
  apply Passage.idle (y := ((rearm p slot now x.1).state, x.2)) rfl
    ((inner_rearm p slot now).turnless x.1)
  apply Within.withScheduler hx
  intro other h
  cases waits_rearm h with
  | inl h => exact hx other (.inl h)
  | inr hslot => exact hslot.1 ▸ hslots slot hslot.2

end Scheduler

end Beacon

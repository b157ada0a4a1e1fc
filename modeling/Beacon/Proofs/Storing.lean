import Beacon.Proofs.Addresses
import Beacon.Proofs.Freshness
import Beacon.Proofs.Inward

/-!
# What is asked of the store

The store is asked for two things, to keep everything and to keep the clock by
itself, and no request asks for more than one of them.  Nothing else that a request
does has to do with the store: what a central reads and writes, and what goes on
air, leaves it as it is.

A clock that a rotation has set is dirty until the store is asked to keep it,
whatever comes of that; parameters that a central has written are dirty until they
are kept.
-/

namespace Beacon

variable {σ τ α β : Type} {now : Nat}

/-! ## Transcripts without the store -/

namespace Transcript

/-- What was asked of the store, and what went wrong with it. -/
def stored (transcript : Transcript) : List (StoreCall × Option StoreFault) :=
  transcript.filterMap fun
    | .store call fault => some (call, fault)
    | _ => none

@[simp] theorem stored_append (a b : Transcript) : stored (a ++ b) = stored a ++ stored b :=
  List.filterMap_append

theorem Inner.stored_eq_nil {transcript : Transcript} (h : transcript.Inner) :
    transcript.stored = [] := by
  apply List.filterMap_eq_nil_iff.mpr
  intro output hmem
  have hinner := h output hmem
  cases output with
  | store call fault => cases hinner
  | notice notice => rfl
  | event event => rfl
  | radio call fault => rfl

theorem Aside.stored_eq_nil {transcript : Transcript} (h : transcript.Aside) :
    transcript.stored = [] :=
  h.inner.stored_eq_nil

end Transcript

namespace Act

/-- The store has no part in the action. -/
def Storeless (action : Act σ α) : Prop :=
  ∀ s, Transcript.stored (action s).output = []

theorem Storeless.bind {action : Act σ α} {next : α → Act σ β} (hfirst : Storeless action)
    (hnext : ∀ a, Storeless (next a)) : Storeless (action >>= next) := by
  intro s
  rw [bind_apply, Done.output_after, Transcript.stored_append, hfirst s, hnext]
  rfl

theorem stored_bind_of_first {action : Act σ α} (hfirst : Storeless action) (next : α → Act σ β)
    (s : σ) :
    Transcript.stored ((action >>= next) s).output =
      Transcript.stored (next (action s).value (action s).state).output := by
  rw [bind_apply, Done.output_after, Transcript.stored_append, hfirst, List.nil_append]

theorem stored_bind_of_rest {action : Act σ α} {next : α → Act σ β} (hnext : ∀ a, Storeless
    (next a))
    (s : σ) :
    Transcript.stored ((action >>= next) s).output = Transcript.stored (action s).output := by
  rw [bind_apply, Done.output_after, Transcript.stored_append, hnext, List.append_nil]

theorem storeless_get_bind {next : σ → Act σ α} (h : ∀ s, Storeless (next s)) :
    Storeless (get >>= next) := by
  intro s
  exact h s s

theorem storeless_pure (a : α) : Storeless (pure a : Act σ α) := fun _ => rfl

theorem storeless_note (notice : Notice) : Storeless (note notice : Act σ Unit) := fun _ => rfl

theorem storeless_emit (event : Event) : Storeless (emit event : Act σ Unit) := fun _ => rfl

theorem storeless_modify (f : σ → σ) : Storeless (modify f : Act σ PUnit) := fun _ => rfl

theorem Storeless.within {action : Act σ α} (h : Storeless action) (get : τ → σ)
    (set : τ → σ → τ) : Storeless (action.within get set) := by
  intro t
  exact h (get t)

theorem Inner.storeless {action : Act σ α} (h : Inner action) : Storeless action := by
  intro s
  exact (h s).stored_eq_nil

theorem Asides.storeless {action : Act σ α} (h : Asides action) : Storeless action := by
  intro s
  exact (h s).stored_eq_nil

end Act

open Act

namespace Scheduler

theorem storeless_transmit (slot : Nat) (advert : PreparedAdvert) :
    Storeless (transmit slot advert : Act (Scheduler × State) Unit) := by
  intro x
  obtain ⟨addressing, fault, -, houtput, -⟩ := transmit_output slot advert x
  rw [houtput]
  match addressing with
  | none => cases fault <;> rfl
  | some (address, none) => cases fault <;> rfl
  | some (address, some refusal) => cases fault <;> rfl

theorem storeless_broadcast (slot now : Nat) :
    Storeless (broadcast slot now : Act (Scheduler × State) Unit) := by
  apply Storeless.bind ((State.asides_prepare slot now).storeless.within _ _)
  intro advert
  cases advert with
  | none => exact storeless_note _
  | some advert => exact storeless_transmit slot advert

theorem storeless_manageRadio (now : Nat) :
    Storeless (manageRadio now : Act (Scheduler × State) Unit) := by
  intro x
  obtain ⟨s, p⟩ := x
  have hquiet := Radio.inner_quiet.storeless s.radio
  cases hqueue : s.queue with
  | nil =>
      rw [manageRadio_eq_of_nil hqueue]
      exact hquiet
  | cons slot rest =>
      obtain ⟨delay, h⟩ := manageRadio_eq_of_cons hqueue now p
      have hposted :
          Transcript.stored (TimerQueue.postIn now delay .manageRadio s.timers).output = [] :=
        (TimerQueue.inner_insert _ _ _).storeless s.timers
      rw [h, Transcript.stored_append, Transcript.stored_append, hquiet, hposted,
        storeless_broadcast slot now]
      rfl

theorem storeless_comeOnAir (now : Nat) :
    Storeless (comeOnAir now : Act (Scheduler × State) Unit) := by
  intro x
  rw [comeOnAir_apply]
  exact (inner_armAll x.2 now SlotIndex.all).storeless _

end Scheduler

namespace Engine

theorem storeless_setMode (mode : Mode) : Storeless (setMode mode) := by
  apply storeless_get_bind
  intro e
  split
  · exact storeless_pure _
  · exact fun _ => rfl

theorem storeless_enterConfig (scan payload : Bytes) (now : Nat) :
    Storeless (enterConfig scan payload now) := by
  apply (inner_startConfigAdvert scan payload).storeless.bind
  intro answer
  cases answer with
  | error fault => exact storeless_pure _
  | ok _ =>
      apply storeless_get_bind
      intro e
      apply (inner_postIn _ _ _).storeless.bind
      intro handle
      apply (storeless_modify _).bind
      intro _
      apply (storeless_note _).bind
      intro _
      exact (storeless_setMode _).bind fun _ => storeless_pure _

theorem storeless_awaitResume (now : Nat) : Storeless (awaitResume now) := by
  apply storeless_get_bind
  intro e
  apply (inner_postIn _ _ _).storeless.bind
  intro handle
  exact (storeless_modify _).bind fun _ => storeless_setMode _

theorem storeless_drainEvents : Storeless (onState State.drainEvents) := by
  intro e
  apply List.filterMap_eq_nil_iff.mpr
  intro output hmem
  obtain ⟨event, -, rfl⟩ := List.mem_map.mp hmem
  rfl

theorem Move.storeless {e : Engine} {action : Act Engine α} (hmove : Move now e action) :
    Storeless action := by
  cases hmove with
  | note _ => exact storeless_note _
  | emit event => exact storeless_emit event
  | drain => exact storeless_drainEvents
  | turnTo mode => exact storeless_setMode mode
  | leave _ => exact inner_leaveMode.storeless
  | hush _ => exact (inner_onScheduler Scheduler.inner_stop).storeless
  | clear _ => exact inner_clearScanResponse.storeless
  | configure _ _ => exact storeless_enterConfig _ _ now
  | raise _ _ =>
      apply inner_clearScanResponse.storeless.bind
      intro _
      apply (inner_onScheduler Scheduler.inner_stop).storeless.bind
      exact fun _ => (Scheduler.storeless_comeOnAir now).within _ _
  | manage _ _ => exact (Scheduler.storeless_manageRadio now).within _ _
  | ring _ _ =>
      apply Storeless.bind (fun _ => rfl)
      exact fun _ => (inner_onScheduler (Scheduler.inner_offer _)).storeless
  | release _ _ => exact Storeless.bind (fun _ => rfl) fun _ => storeless_modify _
  | wake _ _ =>
      apply Storeless.bind (fun _ => rfl)
      exact fun _ => (storeless_modify _).bind fun _ => inner_leaveMode.storeless
  | rearm slot _ => exact (inner_onScheduler (Scheduler.inner_rearm e.state slot now)).storeless

theorem Path.stored_eq_nil {e e' : Engine} {out : Transcript} (hpath : Path now e out e') :
    out.stored = [] := by
  induction hpath with
  | refl e => rfl
  | step hmove _ ih => rw [Transcript.stored_append, hmove.storeless, ih, List.append_nil]

end Engine

/-! ## Saving -/

namespace Store

/-- What goes wrong with the next call. -/
def fault? (store : Store) (call : StoreCall) : Option StoreFault :=
  store.verdict store.calls call

theorem stored_call {work : Act Medium (Except StoreFault α)} (hwork : Storeless work)
    (request : StoreCall) (store : Store) :
    Transcript.stored (call request work store).output = [(request, store.fault? request)] := by
  simp only [call, Act.bind_apply, Act.get_apply, Act.put_apply, Act.set_apply, Done.after_nil,
    Done.output_after, List.singleton_append]
  cases hfault : store.verdict store.calls request with
  | some fault =>
      rw [fault?, hfault]
      rfl
  | none =>
      have hrest := hwork store.medium
      rw [fault?, hfault]
      exact congrArg _ hrest

end Store

/-- What there is to save, and where it is saved. -/
structure Savings where
  clock : Clock
  clockDirty : Bool
  paramsDirty : Bool
  store : Store

namespace Device

def savings (d : Device) : Savings where
  clock := d.1.state.clock
  clockDirty := d.1.state.clockDirty
  paramsDirty := d.1.paramsDirty
  store := d.2

/-- All that the device would save at that time. -/
def whole (d : Device) (now : Nat) : Params :=
  (d.1.state.recorded now).snapshot

theorem stored_persist (now : Nat) (d : Device) :
    Transcript.stored (persist now d).output =
      [(.save (d.whole now), d.2.fault? (.save (d.whole now)))] := by
  unfold persist
  rw [Act.stored_bind_of_first (storeless_modify _), Act.stored_bind_of_first fun _ => rfl,
    Act.stored_bind_of_rest]
  · exact Store.stored_call (Medium.asides_save (d.whole now)).storeless _ d.2
  · intro answer
    cases answer with
    | error fault => exact (storeless_note _).bind fun _ => storeless_pure _
    | ok _ =>
        apply (storeless_modify _).bind
        exact fun _ => (storeless_note _).bind fun _ => storeless_pure _

theorem savings_persist (now : Nat) (d : Device) :
    (persist now d).value = (d.2.fault? (.save (d.whole now))).isNone ∧
      (persist now d).state.savings =
        ⟨d.1.state.clock.record now, false,
          d.1.paramsDirty && (d.2.fault? (.save (d.whole now))).isSome,
          (Store.save (d.whole now) d.2).state⟩ := by
  have hmagic : (d.whole now).magic = Params.magicWord := rfl
  rcases Store.medium_save hmagic d.2 with ⟨htaken, hok, -⟩ | ⟨fault, hrefused, herror, -⟩
  · rw [Store.fault?, htaken]
    rcases persist_cases now d with ⟨-, hvalue, hstate⟩ | ⟨⟨fault, herror⟩, -⟩
    · rw [hvalue, hstate, Option.isSome_none, Bool.and_false]
      exact ⟨rfl, rfl⟩
    · cases hok.symm.trans herror
  · rw [Store.fault?, hrefused]
    rcases persist_cases now d with ⟨hok, -⟩ | ⟨-, hvalue, hstate⟩
    · cases hok.symm.trans herror
    · rw [hvalue, hstate, Option.isSome_some, Bool.and_true]
      exact ⟨rfl, rfl⟩

theorem saveClockIfDirty_of_clean {d : Device} (h : d.1.state.clockDirty = false) :
    saveClockIfDirty d = ⟨false, d, []⟩ := by
  simp only [saveClockIfDirty, Act.bind_apply, Act.get_apply, Done.after_nil, h]
  rfl

theorem stored_saveClockIfDirty {d : Device} (h : d.1.state.clockDirty = true) :
    Transcript.stored (saveClockIfDirty d).output =
      [(.saveClock d.1.state.clock, d.2.fault? (.saveClock d.1.state.clock))] := by
  unfold saveClockIfDirty
  rw [Act.stored_bind_of_first fun _ => rfl]
  simp only [Act.get_apply, h, if_true]
  rw [Act.stored_bind_of_first fun _ => rfl, Act.stored_bind_of_rest]
  · exact Store.stored_call (Medium.asides_saveClock d.1.state.clock).storeless _ d.2
  · intro answer
    cases answer with
    | error fault => exact (storeless_note _).bind fun _ => storeless_pure _
    | ok _ => exact storeless_pure _

theorem savings_saveClockIfDirty {d : Device} (h : d.1.state.clockDirty = true) :
    (saveClockIfDirty d).value = (d.2.fault? (.saveClock d.1.state.clock)).isNone ∧
      (saveClockIfDirty d).state.savings =
        ⟨d.1.state.clock, false, d.1.paramsDirty, (Store.saveClock d.1.state.clock d.2).state⟩ := by
  constructor
  · simp only [saveClockIfDirty, Act.bind_apply, Act.get_apply, Done.after_nil, h, if_true,
      Done.value_after, onStore, Act.set_apply, Act.onSnd_apply]
    rcases Store.medium_saveClock d.1.state.clock d.2 with
      ⟨htaken, hvalue, -⟩ | ⟨fault, hrefused, hvalue, -⟩
    · rw [Store.fault?, htaken, hvalue]
      rfl
    · rw [Store.fault?, hrefused, hvalue]
      rfl
  · rcases saveClockIfDirty_cases d with ⟨hclean, -⟩ | ⟨-, hstate⟩
    · cases h.symm.trans hclean
    · rw [hstate]
      rfl

theorem savings_onEngine {action : Act Engine α} (hheld : Act.Keeps Engine.held action) (d : Device) :
    (onEngine action d).state.savings = d.savings :=
  congrArg (fun held : State × Bool =>
    (⟨held.1.clock, held.1.clockDirty, held.2, d.2⟩ : Savings)) (hheld d.1)

end Device

/-! ## The clock of a moment -/

theorem State.pendingEvents_rotated {s : State} (htold : s.pendingEvents = []) (i : SlotIndex)
    (tx : Int8) (id : Octets 8) (now : Nat) :
    (s.rotated i tx id now).pendingEvents = [.eidRotated i (s.clock.time now)] := by
  simp only [rotated, noteRotation, enqueueEvent, htold]
  rfl

namespace Moment

theorem rotates_of_untold {m : Moment} (h : m.events = []) : m.rotates = false := by
  rw [rotates, h]
  rfl

theorem rotates_of_told {m : Moment} {i : SlotIndex} {time : UInt32}
    (h : m.events = [.eidRotated i time]) : m.rotates = true := by
  rw [rotates, h]
  rfl

/-- What a deed does to the clock: nothing, or a rotation sets it, or a central takes it back. -/
inductive Ticks (m : Moment) : Prop
  | idle : m.resets = false → m.events = [] → m.after.clock = m.state.clock →
      m.after.clockDirty = m.state.clockDirty → Ticks m
  | rotated (i : SlotIndex) :
      m.resets = false → m.events = [.eidRotated i (m.state.clock.time m.deed.time)] →
      m.after.clock = m.state.clock.record m.deed.time → m.after.clockDirty = true → Ticks m
  | reset : m.resets = true → m.events = [] → m.after.clock = .zero →
      m.after.clockDirty = false → Ticks m

theorem Ticks.of_owes {m : Moment} {t : State} (htold : m.state.pendingEvents = [])
    (hspared : m.resets = false) (howes : State.Owes m.deed.time m.state t)
    (hevents : m.events = t.pendingEvents) (hclock : m.after.clock = t.clock)
    (hdirty : m.after.clockDirty = t.clockDirty) : m.Ticks := by
  rcases howes with howing | ⟨i, tx, id, howing⟩
  · apply Ticks.idle hspared
    · exact hevents.trans ((congrArg Owing.pendingEvents howing).trans htold)
    · exact hclock.trans (congrArg Owing.clock howing)
    · exact hdirty.trans (congrArg Owing.clockDirty howing)
  · apply Ticks.rotated i hspared
    · have hrotated := State.pendingEvents_rotated htold i tx id m.deed.time
      exact hevents.trans ((congrArg Owing.pendingEvents howing).trans hrotated)
    · exact hclock.trans (congrArg Owing.clock howing)
    · exact hdirty.trans (congrArg Owing.clockDirty howing)

theorem ticks (m : Moment) (htold : m.state.pendingEvents = []) : m.Ticks := by
  obtain ⟨s, deed⟩ := m
  cases deed with
  | asked access =>
      cases hresets : resets ⟨s, .asked access⟩ with
      | true =>
          have howing := owing_of_resets hresets
          apply Ticks.reset hresets
          · exact (congrArg Owing.pendingEvents howing).trans htold
          · exact congrArg Owing.clock howing
          · exact congrArg Owing.clockDirty howing
      | false => exact .of_owes htold hresets (owes_of_not_resets hresets) rfl rfl rfl
  | took turn now =>
      have howing := turn.owing_perform now s
      apply Ticks.of_owes htold rfl (State.owes_liveFrame turn.slot now s)
      · exact congrArg Owing.pendingEvents howing
      · exact congrArg Owing.clock howing
      · exact congrArg Owing.clockDirty howing

end Moment

namespace State

theorem told_moments {s : State} (htold : s.pendingEvents = []) {deeds : List Deed} {m : Moment}
    (hm : m ∈ s.moments deeds) : m.state.pendingEvents = [] := by
  induction deeds generalizing s with
  | nil => cases hm
  | cons deed rest ih =>
      cases hm with
      | head => exact htold
      | tail _ hm => exact ih rfl hm

/-- A clock that is dirty was so before, or a rotation has set it. -/
theorem noted_of_clockDirty {s : State} (htold : s.pendingEvents = []) {deeds : List Deed}
    {now : Nat} (htime : ∀ deed ∈ deeds, deed.time = now)
    (h : (s.afterDeeds deeds).clockDirty = true) :
    (s.clockDirty = true ∧ (s.afterDeeds deeds).clock = s.clock ∧
        ∀ m ∈ s.moments deeds, m.rotates = false) ∨
      ((∃ m ∈ s.moments deeds, m.rotates = true) ∧
        (s.afterDeeds deeds).clock.record now = (s.afterDeeds deeds).clock) := by
  induction deeds generalizing s with
  | nil => exact .inl ⟨h, rfl, fun m hm => absurd hm List.not_mem_nil⟩
  | cons deed rest ih =>
      let m : Moment := ⟨s, deed⟩
      rcases ih (s := m.after) rfl (fun other hother => htime other (List.mem_cons_of_mem _ hother)) h
        with ⟨hdirty, hlast, hnone⟩ | ⟨⟨n, hn, hrotates⟩, hlast⟩
      · cases m.ticks htold with
        | idle _ hevents hclock hkept =>
            refine .inl ⟨hkept.symm.trans hdirty, hlast.trans hclock, ?_⟩
            intro n hn
            cases hn with
            | head => exact Moment.rotates_of_untold hevents
            | tail _ hn => exact hnone n hn
        | rotated i _ hevents hclock _ =>
            have hfirst : m.deed.time = now := htime deed List.mem_cons_self
            refine .inr ⟨⟨m, List.mem_cons_self, Moment.rotates_of_told hevents⟩, ?_⟩
            change (m.after.afterDeeds rest).clock.record now = (m.after.afterDeeds rest).clock
            rw [hlast, hclock, hfirst]
            rfl
        | reset _ _ _ hclean => cases hclean.symm.trans hdirty
      · exact .inr ⟨⟨n, List.mem_cons_of_mem _ hn, hrotates⟩, hlast⟩

/-- Unless a central takes the clock back, it is set by the rotations and by nothing else. -/
theorem ticked {s : State} (htold : s.pendingEvents = []) {deeds : List Deed} {now : Nat}
    (htime : ∀ deed ∈ deeds, deed.time = now) (hspared : ∀ m ∈ s.moments deeds, m.resets = false) :
    (∀ m ∈ s.moments deeds, m.state.clock.prior = s.clock.prior) ∧
      ((∀ m ∈ s.moments deeds, m.rotates = false) ∧ (s.afterDeeds deeds).clock = s.clock ∧
          (s.afterDeeds deeds).clockDirty = s.clockDirty ∨
        (∃ m ∈ s.moments deeds, m.rotates = true) ∧
          (s.afterDeeds deeds).clock = s.clock.record now ∧
          (s.afterDeeds deeds).clockDirty = true) := by
  induction deeds generalizing s with
  | nil =>
      exact ⟨fun m hm => absurd hm List.not_mem_nil,
        .inl ⟨fun m hm => absurd hm List.not_mem_nil, rfl, rfl⟩⟩
  | cons deed rest ih =>
      let m : Moment := ⟨s, deed⟩
      have hfirst : deed.time = now := htime deed List.mem_cons_self
      obtain ⟨hpriors, hrest⟩ := ih (s := m.after) rfl
        (fun other hother => htime other (List.mem_cons_of_mem _ hother))
        (fun n hn => hspared n (List.mem_cons_of_mem _ hn))
      have hprior : m.after.clock.prior = s.clock.prior →
          ∀ n ∈ s.moments (deed :: rest), n.state.clock.prior = s.clock.prior := by
        intro hkept n hn
        cases hn with
        | head => rfl
        | tail _ hn => exact (hpriors n hn).trans hkept
      cases m.ticks htold with
      | idle _ hevents hclock hdirty =>
          refine ⟨hprior (congrArg Clock.prior hclock), ?_⟩
          rcases hrest with ⟨hnone, hlast, hmark⟩ | ⟨⟨n, hn, hrotates⟩, hlast, hmark⟩
          · refine .inl ⟨?_, hlast.trans hclock, hmark.trans hdirty⟩
            intro n hn
            cases hn with
            | head => exact Moment.rotates_of_untold hevents
            | tail _ hn => exact hnone n hn
          · refine .inr ⟨⟨n, List.mem_cons_of_mem _ hn, hrotates⟩, hlast.trans ?_, hmark⟩
            rw [hclock]
      | rotated i _ hevents hclock hdirty =>
          have hset : m.after.clock = s.clock.record now := hfirst ▸ hclock
          have hkept : m.after.clock.prior = s.clock.prior := by
            rw [hset]
            rfl
          refine ⟨hprior hkept, .inr ⟨⟨m, List.mem_cons_self, ?_⟩, ?_⟩⟩
          · exact Moment.rotates_of_told hevents
          · rcases hrest with ⟨-, hlast, hmark⟩ | ⟨-, hlast, hmark⟩
            · exact ⟨hlast.trans hset, hmark.trans hdirty⟩
            · refine ⟨hlast.trans ?_, hmark⟩
              rw [hset]
              rfl
      | reset hresets _ _ _ =>
          cases hresets.symm.trans (hspared m List.mem_cons_self)

end State

/-! ## Requests -/

namespace Entry

/-- A write of a central was accepted. -/
def writes (x : Entry) : Bool :=
  match x.request, x.answer with
  | .write .., .done (.ok _) => true
  | _, _ => false

/-- A slot got an identifier. -/
def Rotates (x : Entry) : Prop :=
  ∃ m ∈ x.moments, m.rotates = true

def SavesAll (x : Entry) : Prop :=
  ∃ params, (.save params, none) ∈ x.output.stored

/-- Everything was saved, or the clock by itself. -/
def Saves (x : Entry) : Prop :=
  ∃ call, (call, none) ∈ x.output.stored

/-- The store has refused to save. -/
def Refused (x : Entry) : Prop :=
  ∃ call fault, (call, some fault) ∈ x.output.stored

theorem not_rotates {x : Entry} (h : ∀ m ∈ x.moments, m.rotates = false) : ¬x.Rotates := by
  rintro ⟨m, hm, hrotates⟩
  cases (h m hm).symm.trans hrotates

theorem not_rotates_of_idle {x : Entry} (h : x.deeds = []) : ¬x.Rotates := by
  rintro ⟨m, hm, -⟩
  rw [moments, h] at hm
  cases hm

theorem SavesAll.saves {x : Entry} (h : x.SavesAll) : x.Saves :=
  h.imp' StoreCall.save fun _ => id

theorem not_saves_of_still {x : Entry} (h : x.output.stored = []) : ¬x.Saves := by
  rintro ⟨call, hmem⟩
  rw [h] at hmem
  cases hmem

theorem not_refused_of_still {x : Entry} (h : x.output.stored = []) : ¬x.Refused := by
  rintro ⟨call, fault, hmem⟩
  rw [h] at hmem
  cases hmem

/-- How a request deals with what there is to save: nothing is saved, or everything is to be, or
the clock by itself. -/
inductive Keeping (x : Entry) : Prop
  | still {t : State} :
      x.output.stored = [] → Replays x.before.1.state.hush x.deeds t →
      x.after.savings =
        ⟨t.clock, t.clockDirty, x.before.1.paramsDirty || x.writes, x.before.2⟩ → Keeping x
  | whole {params : Params} {fault : Option StoreFault} :
      x.deeds = [] → x.writes = false →
      params = x.before.whole x.request.time → fault = x.before.2.fault? (.save params) →
      x.output.stored = [(.save params, fault)] →
      x.after.savings =
        ⟨x.before.1.state.clock.record x.request.time, false,
          x.before.1.paramsDirty && fault.isSome, (Store.save params x.before.2).state⟩ → Keeping x
  | clock {clock : Clock} {fault : Option StoreFault} :
      x.deeds = [] → x.writes = false →
      x.before.1.paramsDirty = false → x.before.1.state.clockDirty = true →
      clock = x.before.1.state.clock → fault = x.before.2.fault? (.saveClock clock) →
      x.output.stored = [(.saveClock clock, fault)] →
      x.after.savings = ⟨clock, false, false, (Store.saveClock clock x.before.2).state⟩ → Keeping x

variable {d : Device}

theorem writes_write (attr : Attribute) (offset : Nat) (data : Bytes) (now : Nat) (d : Device) :
    writes ⟨d, .write attr offset data now⟩ =
      (attr.write offset data now d.1.state).value.isOk := by
  have hanswer : answer ⟨d, .write attr offset data now⟩ =
      .done (Engine.writeAttribute attr offset data now d.1).value := rfl
  rw [writes, hanswer]
  cases hwrite : (attr.write offset data now d.1.state).value with
  | error fault => rw [(Engine.writeAttribute_of_error hwrite).1]; rfl
  | ok effect => rw [(Engine.writeAttribute_of_ok hwrite).1]; rfl

/-- Once a central has been answered the engine takes a path, and that does not save anything. -/
theorem Keeping.of_path {x : Entry} (opening : Transcript) (dirty : Bool) {out : Transcript}
    (htold : x.before.1.state.pendingEvents = []) (houtput : x.output = opening ++ out)
    (hopening : opening.Aside)
    (hpath : Engine.Path x.request.time { x.before.1 with state := x.answered, paramsDirty := dirty }
      out x.after.1)
    (hdirty : x.after.1.paramsDirty = (x.before.1.paramsDirty || x.writes))
    (hstore : x.after.2 = x.before.2) : Keeping x := by
  have hrounds : State.Rounds x.request.time x.answered x.output x.after.1.state := by
    rw [houtput]
    exact .still hopening.plain.still rfl hpath.rounds
  apply Keeping.still (t := x.after.1.state.hush)
  · rw [houtput, Transcript.stored_append, hopening.stored_eq_nil, hpath.stored_eq_nil]
    rfl
  · exact (replays_asked htold).trans (hrounds.replays none)
  · rw [Device.savings, hdirty, hstore]
    rfl

/-- The engine, with nobody to answer, saves nothing by itself. -/
theorem Keeping.of_takes {x : Entry} (action : Act Engine α)
    (htold : x.before.1.state.pendingEvents = []) (hanswered : x.answered = x.before.1.state)
    (hwrites : x.writes = false) (houtput : x.output = (action x.before.1).output)
    (hafter : x.after = ((action x.before.1).state, x.before.2))
    (hmarked : Act.Keeps Engine.marked action)
    (htakes : Engine.Takes x.request.time action x.before.1) : Keeping x := by
  have hdirty : x.after.1.paramsDirty = x.before.1.paramsDirty := by
    rw [hafter]
    exact congrArg Prod.snd (hmarked x.before.1)
  apply Keeping.of_path [] x.before.1.paramsDirty htold houtput
    (fun _ hmem => absurd hmem List.not_mem_nil)
  · rw [hanswered, hafter]
    exact htakes
  · rw [hdirty, hwrites, Bool.or_false]
  · rw [hafter]

theorem deeds_eq_nil {x : Entry} (hasked : x.request.asked = []) (hturnless : x.output.Turnless) :
    x.deeds = [] := by
  rw [deeds, hasked, hturnless.turns_eq_nil]
  rfl

/-- Nothing that there is to save changes. -/
theorem Keeping.of_idle {x : Entry} (hasked : x.request.asked = []) (hwrites : x.writes = false)
    (hturnless : x.output.Turnless) (hstored : x.output.stored = [])
    (hafter : x.after.savings = x.before.savings) : Keeping x := by
  apply Keeping.still (t := x.before.1.state.hush) hstored
  · rw [deeds_eq_nil hasked hturnless]
    exact Replays.refl _
  · rw [hafter, hwrites, Bool.or_false]
    rfl

theorem Keeping.of_persist {x : Entry} (hasked : x.request.asked = []) (hwrites : x.writes = false)
    (hturnless : x.output.Turnless)
    (hstored : x.output.stored =
      Transcript.stored (Device.persist x.request.time x.before).output)
    (hafter : x.after.savings = (Device.persist x.request.time x.before).state.savings) :
    Keeping x := by
  apply Keeping.whole (deeds_eq_nil hasked hturnless) hwrites rfl rfl
  · rw [hstored, Device.stored_persist]
  · rw [hafter, (Device.savings_persist _ _).2]

theorem keeping_write (hphase : d.1.InPhase) (htold : d.1.state.pendingEvents = [])
    (attr : Attribute) (offset : Nat) (data : Bytes) (now : Nat) :
    Keeping ⟨d, .write attr offset data now⟩ := by
  have hwrites := writes_write attr offset data now d
  have haside := Attribute.asides_write attr offset data now d.1.state
  have houtput := output_write attr offset data now d
  have hafter : (after ⟨d, .write attr offset data now⟩).1 =
      (Engine.writeAttribute attr offset data now d.1).state := rfl
  cases hwrite : (attr.write offset data now d.1.state).value with
  | error fault =>
      rw [Engine.writeAttribute_output_of_error hwrite] at houtput
      rw [(Engine.writeAttribute_of_error hwrite).2] at hafter
      apply Keeping.of_path _ d.1.paramsDirty htold houtput haside
      · rw [hafter]
        exact Engine.Path.trans (Engine.Move.note rfl).takes (Engine.Move.emit _).takes
      · rw [hafter, hwrites, hwrite]
        exact (Bool.or_false _).symm
      · rfl
  | ok effect =>
      have hdirty : (Engine.writeAttribute attr offset data now d.1).state.paramsDirty = true :=
        congrArg Prod.snd (Engine.marked_writeAttribute_of_ok hwrite)
      have hanswered := (hphase.withState (attr.write offset data now d.1.state).state true).phase
      rw [Engine.writeAttribute_output_of_ok hwrite] at houtput
      rw [(Engine.writeAttribute_of_ok hwrite).2] at hafter
      apply Keeping.of_path _ true htold houtput haside
      · rw [hafter]
        exact Engine.Path.trans (hanswered.takes_follow effect) Engine.Move.drain.takes
      · rw [hwrites, hwrite]
        exact hdirty.trans (Bool.or_true _).symm
      · rfl

theorem keeping_saveIfDirty (now : Nat) : Keeping ⟨d, .saveIfDirty now⟩ := by
  have houtput := output_saveIfDirty now d
  have hafter : after ⟨d, .saveIfDirty now⟩ = (Device.saveIfDirty now d).state := rfl
  cases hdirty : d.1.paramsDirty with
  | true =>
      have hpersist := Device.saveIfDirty_of_dirty hdirty now
      rw [hpersist] at houtput hafter
      apply Keeping.of_persist rfl rfl
      · rw [houtput]
        exact Device.turnless_persist now d
      · rw [houtput]
        rfl
      · rw [hafter]
        rfl
  | false =>
      have hclock := Device.saveIfDirty_of_clean hdirty now
      rw [hclock] at houtput hafter
      have hturnless : (output ⟨d, .saveIfDirty now⟩).Turnless :=
        houtput ▸ (Device.plain_saveClockIfDirty d).turnless
      cases hset : d.1.state.clockDirty with
      | false =>
          rw [Device.saveClockIfDirty_of_clean hset] at houtput hafter
          exact .of_idle rfl rfl hturnless (congrArg _ houtput) (congrArg _ hafter)
      | true =>
          apply Keeping.clock (deeds_eq_nil rfl hturnless) rfl hdirty hset rfl rfl
          · rw [houtput]
            exact Device.stored_saveClockIfDirty hset
          · rw [hafter, (Device.savings_saveClockIfDirty hset).2, hdirty]

theorem keeping_read (htold : d.1.state.pendingEvents = []) (attr : Attribute) (now : Nat) :
    Keeping ⟨d, .read attr now⟩ :=
  .of_path _ d.1.paramsDirty htold (output_read attr now d)
    (Attribute.asides_read attr now d.1.state) Engine.Move.drain.takes (Bool.or_false _).symm rfl

theorem keeping_pause (hmode : d.1.mode = .connected) (now : Nat) :
    Keeping ⟨d, .radioEvent .disconnected now⟩ := by
  have hevent := Device.radioEvent_of_connected hmode now
  have houtput := output_radioEvent .disconnected now d
  have hturnless : (output ⟨d, .radioEvent .disconnected now⟩).Turnless :=
    houtput ▸ Device.turnless_radioEvent .disconnected now d
  rw [hevent] at houtput
  apply Keeping.of_persist rfl rfl hturnless
  · rw [houtput, Device.pause, Act.stored_bind_of_rest]
    · rfl
    · exact fun _ => (Engine.storeless_awaitResume now).within _ _
  · have hafter : after ⟨d, .radioEvent .disconnected now⟩ = (Device.pause now d).state :=
      congrArg Done.state hevent
    rw [hafter]
    exact Device.savings_onEngine (Engine.held_awaitResume now) (Device.persist now d).state

theorem keeping_radioEvent (hphase : d.1.InPhase) (htold : d.1.state.pendingEvents = [])
    (event : RadioEvent) (now : Nat) : Keeping ⟨d, .radioEvent event now⟩ := by
  have houtput := output_radioEvent event now d
  have hafter : after ⟨d, .radioEvent event now⟩ = (Device.radioEvent event now d).state := rfl
  have hturnless : (output ⟨d, .radioEvent event now⟩).Turnless :=
    houtput ▸ Device.turnless_radioEvent event now d
  have hnote (notice : Notice) (h : Device.radioEvent event now d = Act.note notice d) :
      Keeping ⟨d, .radioEvent event now⟩ := by
    rw [h] at houtput hafter
    exact .of_idle rfl rfl hturnless (congrArg _ houtput) (congrArg _ hafter)
  have hunexpected (h : Device.radioEvent event now d =
      ⟨(), d, [.notice (.unexpected event d.1.mode), .event .unexpectedRadioEvent]⟩) :
      Keeping ⟨d, .radioEvent event now⟩ := by
    rw [h] at houtput hafter
    exact .of_idle rfl rfl hturnless (congrArg _ houtput) (congrArg _ hafter)
  simp only [Device.radioEvent, Act.bind_apply, Act.get_apply, Done.after_nil] at hnote hunexpected
  cases event with
  | connected =>
      apply Keeping.of_takes (Engine.leaveMode >>= fun _ => Engine.setMode .connected) htold rfl rfl
        houtput hafter
      · exact Engine.marked_leaveMode.bind fun _ => Engine.marked_setMode .connected
      · exact Engine.Takes.bind (Engine.Move.leave hphase).takes
          (Engine.Move.turnTo .connected).takes
  | disconnected =>
      cases hmode : d.1.mode with
      | connected => exact keeping_pause hmode now
      | idle => exact hunexpected (by rw [hmode]; rfl)
      | config => exact hunexpected (by rw [hmode]; rfl)
      | beacon => exact hunexpected (by rw [hmode]; rfl)
  | advertisingStarted =>
      cases hmode : d.1.mode with
      | connected => exact hunexpected (by rw [hmode]; rfl)
      | idle => exact hunexpected (by rw [hmode]; rfl)
      | config => exact hnote .advertisingStarted (by rw [hmode])
      | beacon => exact hnote .advertisingStarted (by rw [hmode])
  | advertisingStopped => exact hnote .advertisingStopped rfl

theorem keeping_command (hphase : d.1.InPhase) (htold : d.1.state.pendingEvents = [])
    (command : Command) (now : Nat) : Keeping ⟨d, .command command now⟩ := by
  have houtput := output_command command now d
  have hafter : after ⟨d, .command command now⟩ = (Device.command command now d).state := rfl
  cases command with
  | startConfig =>
      exact .of_takes (Engine.startConfig now) htold rfl rfl houtput hafter
        (Engine.marked_startConfig now) hphase.takes_startConfig
  | startBeacon =>
      exact .of_takes (Engine.startBeacon now) htold rfl rfl houtput hafter
        (Engine.marked_startBeacon now) hphase.takes_startBeacon
  | stop =>
      exact .of_takes Engine.stop htold rfl rfl (output_stop now d) hafter Engine.marked_stop
        hphase.takes_stop
  | updateBattery millivolts =>
      exact .of_idle rfl rfl (houtput ▸ Transcript.turnless_nil) (congrArg _ houtput) rfl
  | updateTemperature temperature =>
      exact .of_idle rfl rfl (houtput ▸ Transcript.turnless_nil) (congrArg _ houtput) rfl
  | saveParams =>
      have houtput := output_saveParams now d
      exact .of_persist rfl rfl (houtput ▸ Device.turnless_persist now d) (congrArg _ houtput)
        (congrArg _ hafter)

theorem keeping {x : Entry} (hphase : x.before.1.InPhase)
    (htold : x.before.1.state.pendingEvents = []) : x.Keeping := by
  obtain ⟨d, request⟩ := x
  cases request with
  | read attr now => exact keeping_read htold attr now
  | write attr offset data now => exact keeping_write hphase htold attr offset data now
  | poll now =>
      exact .of_takes (Engine.poll now) htold rfl rfl (output_poll now d) rfl (Engine.marked_poll now)
        hphase.takes_poll
  | radioEvent event now => exact keeping_radioEvent hphase htold event now
  | command command now => exact keeping_command hphase htold command now
  | saveIfDirty now => exact keeping_saveIfDirty now

/-- The store decides as it did before. -/
theorem Keeping.verdict_eq {x : Entry} (h : x.Keeping) :
    x.after.2.verdict = x.before.2.verdict := by
  cases h with
  | still _ _ hafter => exact congrArg (fun savings => savings.store.verdict) hafter
  | @whole params _ _ _ _ _ _ hafter =>
      exact (congrArg (fun savings => savings.store.verdict) hafter).trans
        (Store.call_cases (.save params) (Medium.save params) _).1
  | @clock clock _ _ _ _ _ _ _ _ hafter =>
      exact (congrArg (fun savings => savings.store.verdict) hafter).trans
        (Store.call_cases (.saveClock clock) (Medium.saveClock clock) _).1

/-- Only a write takes the clock back. -/
theorem writes_of_resets {x : Entry} (htold : x.before.1.state.pendingEvents = []) {m : Moment}
    (hm : m ∈ x.moments) (hresets : m.resets = true) : x.writes = true := by
  have hhush : x.before.1.state.hush = x.before.1.state := State.hush_of_nil htold
  have hturn : ∀ turn now, m.deed ≠ .took turn now := by
    intro turn now hdeed
    rw [Moment.resets, hdeed] at hresets
    cases hresets
  rw [moments, deeds, State.moments_append] at hm
  cases List.mem_append.mp hm with
  | inl hm =>
      obtain ⟨d, request⟩ := x
      cases request with
      | write attr offset data now =>
          cases List.mem_singleton.mp hm
          rw [writes_write, ← hhush]
          simp only [Moment.resets] at hresets
          split at hresets
          next heffect => rw [heffect]; rfl
          next => cases hresets
      | read attr now =>
          cases List.mem_singleton.mp hm
          cases hresets
      | poll now => cases hm
      | radioEvent event now => cases hm
      | command command now => cases hm
      | saveIfDirty now => cases hm
  | inr hm =>
      obtain ⟨turn, -, hdeed⟩ := List.mem_map.mp (State.deed_of_mem_moments hm)
      exact absurd hdeed.symm (hturn turn _)

end Entry

theorem Device.Booted.verdict_eq {config : Config} {store : Store} {d : Device}
    (hbooted : Device.Booted config store d) : d.2.verdict = store.verdict := by
  obtain ⟨radio, slots, identity, rng, now, -, -, rfl⟩ := hbooted.exists_state
  rw [store_persist]
  exact (Store.call_cases _ (Medium.save _) _).1.trans (Store.call_cases .load Medium.load store).1

theorem Device.verdict_of_run {config : Config} {store : Store} {start d : Device}
    {history : History} (hbooted : Device.Booted config store start) (hrun : Run start history d) :
    d.2.verdict = store.verdict := by
  induction hrun with
  | start => exact hbooted.verdict_eq
  | @serve history d request hrun ih =>
      have hreach := Reachable.of_run (.boot hbooted) hrun
      have hkeeping := Entry.keeping (x := ⟨d, request⟩) hreach.inPhase hreach.pendingEvents
      exact hkeeping.verdict_eq.trans ih

end Beacon

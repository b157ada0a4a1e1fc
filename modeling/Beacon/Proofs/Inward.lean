import Beacon.Proofs.Sendings

/-!
# What stays between the beacon and its radio

Most of what an engine does is seen only by the log and by the radio stack: timers
are posted and cancelled, slots are armed, the radio is told its settings.  Nobody
is told of an event, the store is not asked for anything, and no slot has its turn.
-/

namespace Beacon

variable {σ τ α β : Type}

/-- A line of the log or a call to the radio, and no report of a turn. -/
def Output.isInner : Output → Bool
  | .notice n => !n.endsTurn
  | .radio _ _ => true
  | _ => false

namespace Transcript

/-- Lines of the log and calls to the radio only, and no report of a turn. -/
def Inner (transcript : Transcript) : Prop :=
  ∀ output ∈ transcript, output.isInner

theorem inner_nil : Inner [] := by
  intro output hmem
  cases hmem

theorem inner_singleton {output : Output} (h : output.isInner) : Inner [output] := by
  intro other hmem
  rwa [List.mem_singleton.mp hmem]

theorem Inner.append {a b : Transcript} (ha : a.Inner) (hb : b.Inner) : Inner (a ++ b) := by
  intro output hmem
  cases List.mem_append.mp hmem with
  | inl hmem => exact ha output hmem
  | inr hmem => exact hb output hmem

theorem Aside.inner {transcript : Transcript} (h : transcript.Aside) : transcript.Inner := by
  intro output hmem
  have haside := h output hmem
  cases output with
  | notice n => simp [Output.isInner, Notice.endsTurn_of_isAside haside]
  | event event => cases haside
  | radio call fault => rfl
  | store call fault => cases haside

variable {transcript : Transcript}

theorem Inner.turnless (h : transcript.Inner) : transcript.Turnless := by
  intro output hmem
  have hinner := h output hmem
  cases output with
  | notice n => simpa [Output.isInner, Output.endsTurn] using hinner
  | event event => rfl
  | radio call fault => rfl
  | store call fault => rfl

theorem Inner.events_eq_nil (h : transcript.Inner) : transcript.events = [] := by
  apply List.filterMap_eq_nil_iff.mpr
  intro output hmem
  have hinner := h output hmem
  cases output with
  | event event => cases hinner
  | notice n => rfl
  | radio call fault => rfl
  | store call fault => rfl

end Transcript

open Transcript

namespace Act

def Inner (action : Act σ α) : Prop :=
  ∀ s, Transcript.Inner (action s).output

theorem Inner.bind {action : Act σ α} {next : α → Act σ β} (hfirst : Inner action)
    (hnext : ∀ a, Inner (next a)) : Inner (action >>= next) := by
  intro s
  exact (hfirst s).append (hnext _ _)

theorem inner_get_bind {next : σ → Act σ α} (h : ∀ s, Inner (next s)) : Inner (get >>= next) := by
  intro s
  exact h s s

theorem inner_pure (a : α) : Inner (pure a : Act σ α) := fun _ => inner_nil

theorem inner_modify (f : σ → σ) : Inner (modify f : Act σ PUnit) := fun _ => inner_nil

theorem inner_note {notice : Notice} (h : notice.endsTurn = false) :
    Inner (note notice : Act σ Unit) := by
  intro s
  apply inner_singleton
  simp [Output.isInner, h]

theorem Inner.turnless {action : Act σ α} (h : Inner action) (s : σ) :
    Transcript.Turnless (action s).output :=
  (h s).turnless

theorem Inner.within {action : Act σ α} (h : Inner action) (get : τ → σ) (set : τ → σ → τ) :
    Inner (action.within get set) := by
  intro t
  exact h (get t)

end Act

open Act

/-! ## The radio and the timers -/

namespace Radio

theorem inner_tell (call : RadioCall) : Inner (tell call) :=
  fun _ => inner_singleton rfl

theorem inner_ask (call : RadioCall) : Inner (ask call) := by
  intro radio
  rw [ask_output]
  exact inner_singleton rfl

theorem inner_quiet : Inner quiet := by
  apply inner_get_bind
  intro radio
  split
  · exact inner_tell .stop
  · exact inner_pure _

end Radio

theorem TimerQueue.inner_insert (deadline : Nat) (period : Option Nat) (task : Task) :
    Inner (insert deadline period task) := by
  intro queue
  rcases insert_cases deadline period task queue with ⟨-, h⟩ | ⟨-, -, h⟩
  · rw [h]
    exact inner_singleton rfl
  · rw [h]
    exact inner_nil

theorem TimerQueue.inner_postIn (start delay : Nat) (task : Task) :
    Inner (postIn start delay task) :=
  inner_insert _ _ _

theorem TimerQueue.inner_popDue (now : Nat) : Inner (popDue now) := by
  intro queue
  rcases popDue_cases now queue with ⟨-, h⟩ | ⟨t, timers, -, -, -, h⟩
  · rw [h]
    exact inner_nil
  · rw [h]
    exact inner_nil

/-! ## The scheduler -/

namespace Scheduler

theorem inner_onRadio {action : Act Radio α} (h : Inner action) : Inner (onRadio action) :=
  h.within _ _

theorem inner_stop : Inner stop := by
  apply (inner_modify _).bind
  intro a
  exact inner_onRadio Radio.inner_quiet

theorem inner_arm (slot : SlotIndex) (interval : UInt16) (now : Nat) :
    Inner (arm slot interval now) := by
  apply Inner.bind ((TimerQueue.inner_insert _ _ _).within _ _)
  exact fun handle => inner_modify _

theorem inner_armAll (p : State) (now : Nat) (slots : List SlotIndex) :
    Inner (armAll p now slots) := by
  induction slots with
  | nil => exact inner_pure _
  | cons slot rest ih =>
      rw [armAll]
      cases AdvertProvider.interval? p slot.val with
      | none => exact ih
      | some interval =>
          apply (inner_modify _).bind
          intro _
          apply (inner_arm slot interval now).bind
          intro _
          exact (inner_note rfl).bind fun _ => ih

theorem inner_rearm (p : State) (slot now : Nat) : Inner (rearm p slot now) := by
  unfold rearm
  split
  · apply inner_get_bind
    intro s
    split
    · apply (inner_modify _).bind
      intro _
      cases AdvertProvider.interval? p slot with
      | none => exact inner_note rfl
      | some interval => exact (inner_arm _ interval now).bind fun _ => inner_note rfl
    · exact inner_pure _
  · exact inner_pure _

theorem inner_offer (slot : Nat) : Inner (offer slot) := by
  apply inner_get_bind
  intro s
  split
  · exact inner_pure _
  · split
    · exact fun _ => inner_nil
    · exact inner_note rfl

end Scheduler

/-! ## The engine -/

namespace Engine

theorem inner_onScheduler {action : Act Scheduler α} (h : Inner action) :
    Inner (onScheduler action) :=
  h.within _ _

theorem inner_onRadio {action : Act Radio α} (h : Inner action) : Inner (onRadio action) :=
  inner_onScheduler (Scheduler.inner_onRadio h)

theorem inner_postIn (start delay : Nat) (task : Task) :
    Inner (onTimers (TimerQueue.postIn start delay task)) := by
  apply inner_onScheduler
  exact (TimerQueue.inner_postIn _ _ _).within _ _

theorem inner_leaveMode : Inner leaveMode := by
  apply (inner_modify _).bind
  intro a
  exact inner_onScheduler Scheduler.inner_stop

theorem inner_clearScanResponse : Inner clearScanResponse := by
  apply (inner_onRadio (Radio.inner_ask _)).bind
  intro answer
  cases answer with
  | ok _ => exact inner_pure _
  | error fault => exact inner_note rfl

theorem inner_askRadio (call : RadioCall) : Inner (askRadio call) := by
  apply (inner_onRadio (Radio.inner_ask call)).bind
  intro answer
  cases answer <;> exact inner_pure _

theorem inner_startConfigAdvert (scan payload : Bytes) :
    Inner (startConfigAdvert scan payload) := by
  apply (inner_askRadio _).bind
  intro answer
  cases answer with
  | error fault => exact inner_pure _
  | ok _ =>
      apply inner_get_bind
      intro e
      apply (inner_onRadio (Radio.inner_tell _)).bind
      intro _
      apply (inner_onRadio (Radio.inner_tell _)).bind
      intro _
      apply (inner_onRadio (Radio.inner_tell _)).bind
      exact fun _ => inner_askRadio _

end Engine

end Beacon

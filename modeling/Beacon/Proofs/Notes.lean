import Beacon.Attribute.Access
import Beacon.Transcript
import Mathlib.Tactic.Common

/-!
# What reading and writing put out

A read or a write of an attribute leaves lines in the log and nothing else: no
event, and no call to the radio or to the store.  The same holds of a slot that
is brought up to date for the radio.  None of these lines is one in which the
radio manager reports how the turn of a slot has ended, and none reports a timer.
-/

namespace Beacon

variable {σ τ α β : Type}

/-- The radio manager reports how the turn of a slot has ended. -/
def Notice.endsTurn : Notice → Bool
  | .slotOnAir _ => true
  | .slotRefused _ _ => true
  | .slotSilent _ => true
  | _ => false

/-- A timer was posted. -/
def Notice.reportsPost : Notice → Bool
  | .slotArmed _ _ => true
  | .slotRearmed _ _ => true
  | .slotOnAir _ => true
  | .slotRefused _ _ => true
  | .slotSilent _ => true
  | .configMode _ => true
  | _ => false

/-- Nothing about the turn of a slot and nothing about timers. -/
def Notice.isAside : Notice → Bool
  | .timersFull _ => false
  | n => !n.reportsPost

theorem Notice.endsTurn_of_isAside {n : Notice} (h : n.isAside) : n.endsTurn = false := by
  cases n <;> first | rfl | cases h

/-- A line of the log, but none about the turn of a slot and none about timers. -/
def Output.isAside : Output → Bool
  | .notice n => n.isAside
  | _ => false

/-- Nothing about the turn of a slot, nothing about timers and no call to the radio. -/
def Output.isPlain : Output → Bool
  | .notice n => n.isAside
  | .event _ => true
  | .radio _ _ => false
  | .store _ _ => true

namespace Transcript

/-- Lines of the log only, and none about the turn of a slot or about timers. -/
def Aside (transcript : Transcript) : Prop :=
  ∀ output ∈ transcript, output.isAside

theorem Aside.events_eq_nil {transcript : Transcript} (h : transcript.Aside) :
    transcript.events = [] := by
  apply List.filterMap_eq_nil_iff.mpr
  intro output hmem
  have haside := h output hmem
  cases output with
  | event event => cases haside
  | notice notice => rfl
  | radio call fault => rfl
  | store call fault => rfl

/-- Nothing about the turn of a slot, nothing about timers and no call to the radio. -/
def Plain (transcript : Transcript) : Prop :=
  ∀ output ∈ transcript, output.isPlain

theorem Aside.plain {transcript : Transcript} (h : transcript.Aside) : transcript.Plain := by
  intro output hmem
  have haside := h output hmem
  cases output with
  | notice notice => exact haside
  | event event => rfl
  | radio call fault => cases haside
  | store call fault => rfl

theorem plain_nil : Plain [] := by
  intro output hmem
  cases hmem

theorem plain_singleton {output : Output} (h : output.isPlain) : Plain [output] := by
  intro other hmem
  rwa [List.mem_singleton.mp hmem]

theorem Plain.append {a b : Transcript} (ha : a.Plain) (hb : b.Plain) : Plain (a ++ b) := by
  intro output hmem
  cases List.mem_append.mp hmem with
  | inl hmem => exact ha output hmem
  | inr hmem => exact hb output hmem

theorem Aside.radioCalls_eq_nil {transcript : Transcript} (h : transcript.Aside) :
    transcript.radioCalls = [] := by
  apply List.filterMap_eq_nil_iff.mpr
  intro output hmem
  have haside := h output hmem
  cases output with
  | radio call fault => cases haside
  | notice notice => rfl
  | event event => rfl
  | store call fault => rfl

end Transcript

namespace Act

/-- The action puts out lines of the log only, and none about the turn of a slot or about timers. -/
def Asides (action : Act σ α) : Prop :=
  ∀ s, Transcript.Aside (action s).output

theorem asides_of_output_nil {action : Act σ α} (h : ∀ s, (action s).output = []) :
    Asides action := by
  intro s output hmem
  rw [h s] at hmem
  cases hmem

theorem asides_pure (a : α) : Asides (pure a : Act σ α) :=
  asides_of_output_nil fun _ => rfl

theorem asides_get : Asides (get : Act σ σ) :=
  asides_of_output_nil fun _ => rfl

theorem asides_set (s : σ) : Asides (set s : Act σ PUnit) :=
  asides_of_output_nil fun _ => rfl

theorem asides_modify (f : σ → σ) : Asides (modify f : Act σ PUnit) :=
  asides_of_output_nil fun _ => rfl

theorem asides_note {notice : Notice} (h : notice.isAside) :
    Asides (note notice : Act σ Unit) := by
  intro s output hmem
  rw [note_apply, List.mem_singleton] at hmem
  rw [hmem, Output.isAside, h]

theorem Asides.bind {action : Act σ α} {next : α → Act σ β} (hfirst : Asides action)
    (hnext : ∀ a, Asides (next a)) : Asides (action >>= next) := by
  intro s output hmem
  rw [bind_apply, Done.output_after, List.mem_append] at hmem
  cases hmem with
  | inl hmem => exact hfirst s output hmem
  | inr hmem => exact hnext _ _ output hmem

theorem Asides.within {get : τ → σ} {set : τ → σ → τ} {action : Act σ α} (h : Asides action) :
    Asides (action.within get set) := by
  intro t
  exact h (get t)

/-- The action calls the radio for nothing, and tells nothing about turns or timers. -/
def Plain (action : Act σ α) : Prop :=
  ∀ s, Transcript.Plain (action s).output

theorem Asides.plain {action : Act σ α} (h : Asides action) : Plain action := by
  intro s
  exact (h s).plain

theorem plain_pure (a : α) : Plain (pure a : Act σ α) :=
  (asides_pure a).plain

theorem plain_put {output : Output} (h : output.isPlain) : Plain (put output : Act σ Unit) := by
  intro s
  exact Transcript.plain_singleton h

theorem Plain.bind {action : Act σ α} {next : α → Act σ β} (hfirst : Plain action)
    (hnext : ∀ a, Plain (next a)) : Plain (action >>= next) := by
  intro s
  rw [bind_apply, Done.output_after]
  exact (hfirst s).append (hnext _ _)

theorem Plain.within {get : τ → σ} {set : τ → σ → τ} {action : Act σ α} (h : Plain action) :
    Plain (action.within get set) := by
  intro t
  exact h (get t)

end Act

open Act

/-! ## The lock -/

namespace Lock

theorem asides_challenge : Asides challenge := by
  apply asides_get.bind
  intro held
  split
  · exact Asides.bind (asides_of_output_nil fun _ => rfl) fun _ => asides_pure _
  · exact asides_pure _

theorem asides_respond (response : Bytes) : Asides (respond response) := by
  apply asides_get.bind
  rintro ⟨lock, rng⟩
  simp only
  split
  · exact asides_pure _
  · split
    · exact asides_pure _
    · apply (asides_set _).bind
      intro _
      cases lock.token with
      | none => exact (asides_note rfl).bind fun _ => asides_pure _
      | some token =>
          simp only
          split
          · exact (asides_note rfl).bind fun _ => asides_pure _
          · apply (asides_set _).bind
            intro _
            apply Asides.bind (asides_of_output_nil fun _ => rfl)
            intro _
            exact (asides_note rfl).bind fun _ => asides_pure _

theorem asides_close (wrapped : Bytes) : Asides (close wrapped) := by
  unfold close
  split
  · apply (asides_modify _).bind
    intro _
    exact (asides_note rfl).bind fun _ => asides_modify _
  · exact asides_modify _

theorem asides_write (value : Bytes) : Asides (write value) := by
  cases value with
  | nil => exact asides_pure _
  | cons code wrapped =>
      unfold write
      simp only
      split
      · exact asides_pure _
      · cases LockState.ofCode code with
        | error fault => exact asides_pure _
        | ok next =>
            simp only
            split
            · apply (asides_close wrapped).bind
              intro _
              exact (asides_modify _).bind fun _ => asides_pure _
            · exact (asides_modify _).bind fun _ => asides_pure _

end Lock

/-! ## Slots that are brought up to date -/

namespace State

theorem asides_rotateIfDue (slot now : Nat) : Asides (rotateIfDue slot now) := by
  unfold rotateIfDue
  split
  · apply asides_get.bind
    intro s
    simp only
    split
    · split
      · exact asides_pure _
      · split
        · exact (asides_note rfl).bind fun _ => asides_pure _
        · exact (asides_set _).bind fun _ => asides_pure _
    · exact asides_pure _
  · exact asides_pure _

theorem asides_sealTelemetry (now : Nat) : Asides (sealTelemetry now) := by
  apply asides_get.bind
  intro s
  cases s.slots.nextEid? s.sealingCursor with
  | none => exact asides_pure _
  | some i => exact (asides_set _).bind fun _ => asides_pure _

theorem asides_telemetryFrame (now : Nat) : Asides (telemetryFrame now) := by
  apply (asides_sealTelemetry now).bind
  intro telemetry
  cases telemetry with
  | none => exact asides_get.bind fun _ => asides_pure _
  | some telemetry => exact asides_pure _

theorem asides_liveFrame (slot now : Nat) : Asides (liveFrame slot now) := by
  apply (asides_rotateIfDue slot now).bind
  intro _
  apply asides_get.bind
  intro s
  cases (s.slots.slot? slot).bind Slot.frame with
  | none => exact asides_pure _
  | some frame =>
      cases frame with
      | tlm telemetry => exact (asides_telemetryFrame now).bind fun _ => asides_pure _
      | uid tx id => exact asides_pure _
      | url tx address => exact asides_pure _
      | etlm telemetry => exact asides_pure _
      | eid tx id => exact asides_pure _

theorem asides_prepare (slot now : Nat) : Asides (State.prepare slot now) := by
  apply (asides_liveFrame slot now).bind
  intro frame
  cases frame with
  | none => exact asides_pure _
  | some frame =>
      simp only
      cases Advert.ofFrame frame with
      | error fault => exact (asides_note rfl).bind fun _ => asides_pure _
      | ok payload =>
          apply asides_get.bind
          intro s
          cases s.slots.slot? slot with
          | none => exact asides_pure _
          | some held => exact (asides_set _).bind fun _ => asides_pure _

theorem asides_factoryReset : Asides factoryReset := by
  apply asides_get.bind
  intro s
  cases Slots.ofConfig s.config with
  | error fault => exact asides_pure _
  | ok slots =>
      apply (asides_set _).bind
      intro _
      exact (asides_note rfl).bind fun _ => asides_pure _

end State

/-! ## Attributes -/

namespace Attribute

theorem asides_readEid (now : Nat) : Asides (readEid now) := by
  apply asides_get.bind
  intro s
  apply (State.asides_rotateIfDue s.slots.active now).bind
  intro _
  apply asides_get.bind
  intro t
  simp only
  split <;> exact asides_pure _

theorem asides_readSlotData (now : Nat) : Asides (readSlotData now) := by
  apply asides_get.bind
  intro s
  cases s.slots.activeSlot.frame with
  | none => exact asides_pure _
  | some frame =>
      simp only
      cases frame.kind with
      | eid => exact asides_readEid now
      | tlm => exact (State.asides_telemetryFrame now).bind fun _ => asides_pure _
      | uid => exact asides_pure _
      | url => exact asides_pure _

theorem asides_readValue (attr : Attribute) (now : Nat) : Asides (attr.readValue now) := by
  apply asides_get.bind
  intro s
  cases attr with
  | unlock =>
      apply Lock.asides_challenge.within.bind
      intro answer
      cases answer <;> exact asides_pure _
  | advSlotData => exact asides_readSlotData now
  | eidIdentityKey =>
      simp only
      split <;> exact asides_pure _
  | _ => exact asides_pure _

theorem asides_read (attr : Attribute) (now : Nat) : Asides (attr.read now) := by
  apply asides_get.bind
  intro s
  split
  · exact (asides_note rfl).bind fun _ => asides_pure _
  · exact asides_readValue attr now

theorem asides_updateActive (f : Slot → Slot) : Asides (updateActive f) :=
  asides_modify _

theorem asides_writeActiveSlot (data : Bytes) : Asides (writeActiveSlot data) := by
  unfold writeActiveSlot
  split
  next index =>
    apply asides_get.bind
    intro s
    cases s.slots.setActive index.toNat with
    | error fault => exact asides_pure _
    | ok slots => exact (asides_modify _).bind fun _ => asides_pure _
  next => exact asides_pure _

theorem asides_writeInterval (data : Bytes) : Asides (writeInterval data) := by
  unfold writeInterval
  split
  · exact asides_get.bind fun _ => (asides_updateActive _).bind fun _ => asides_pure _
  · exact asides_pure _

theorem asides_writeRadioTx (data : Bytes) : Asides (writeRadioTx data) := by
  unfold writeRadioTx
  split
  · exact asides_get.bind fun _ => (asides_updateActive _).bind fun _ => asides_pure _
  · exact asides_pure _

theorem asides_writeAdvTx (data : Bytes) : Asides (writeAdvTx data) := by
  unfold writeAdvTx
  split
  · exact (asides_updateActive _).bind fun _ => asides_pure _
  · exact asides_pure _

theorem asides_writeLock (data : Bytes) : Asides (writeLock data) := by
  apply (Lock.asides_write data).within.within.bind
  intro answer
  cases answer <;> exact asides_pure _

theorem asides_writeUnlock (data : Bytes) : Asides (writeUnlock data) := by
  apply (Lock.asides_respond data).within.bind
  intro answer
  cases answer with
  | error fault => exact asides_pure _
  | ok _ => exact asides_get.bind fun _ => asides_pure _

theorem asides_clearActive : Asides (do updateActive Slot.clear; return .ok () :
    Act State (Except Fault Unit)) := by
  apply (asides_updateActive _).bind
  intro a
  exact asides_pure _

theorem asides_writeUid (payload : Bytes) : Asides (writeUid payload) := by
  unfold writeUid
  split
  · exact asides_clearActive
  · split
    · exact (asides_updateActive _).bind fun _ => asides_pure _
    · exact asides_pure _

theorem asides_writeUrl (payload : Bytes) : Asides (writeUrl payload) := by
  unfold writeUrl
  split
  · exact asides_clearActive
  · split
    · exact asides_pure _
    · split
      · exact asides_pure _
      · exact asides_pure _
      · exact (asides_updateActive _).bind fun _ => asides_pure _

theorem asides_writeTlm (payload : Bytes) : Asides (writeTlm payload) := by
  unfold writeTlm
  split
  · exact (asides_updateActive _).bind fun _ => asides_pure _
  · exact asides_pure _

theorem asides_writeEid (payload : Bytes) (now : Nat) : Asides (writeEid payload now) := by
  unfold writeEid
  split
  · exact asides_clearActive
  · apply asides_get.bind
    intro s
    split
    · exact asides_pure _
    · split
      · exact asides_pure _
      · apply (asides_updateActive _).bind
        intro _
        apply (asides_modify _).bind
        intro _
        apply asides_get.bind
        intro t
        exact (State.asides_rotateIfDue t.slots.active now).bind fun _ => asides_pure _

theorem asides_writeFrame (code : UInt8) (payload : Bytes) (now : Nat) :
    Asides (writeFrame code payload now) := by
  unfold writeFrame
  split
  · exact asides_writeUid payload
  · exact asides_writeUrl payload
  · exact asides_writeTlm payload
  · exact asides_writeEid payload now
  · exact asides_clearActive

theorem asides_writeSlotData (data : Bytes) (now : Nat) : Asides (writeSlotData data now) := by
  unfold writeSlotData
  split
  · exact asides_pure _
  · apply asides_get.bind
    intro s
    cases data with
    | nil =>
        apply (asides_updateActive _).bind
        intro _
        exact (asides_note rfl).bind fun _ => asides_pure _
    | cons code payload =>
        apply (asides_writeFrame code payload now).bind
        intro answer
        cases answer with
        | error fault => exact asides_pure _
        | ok _ =>
            apply asides_get.bind
            intro t
            exact (asides_note rfl).bind fun _ => asides_pure _

theorem asides_writeReset (data : Bytes) : Asides (writeReset data) := by
  unfold writeReset
  split
  · split
    · exact asides_pure _
    · apply State.asides_factoryReset.bind
      intro answer
      cases answer <;> exact asides_pure _
  · exact asides_pure _

theorem asides_writeConnectable (data : Bytes) : Asides (writeConnectable data) := by
  unfold writeConnectable
  split
  · exact (asides_modify _).bind fun _ => asides_pure _
  · exact asides_pure _

theorem asides_writeValue (attr : Attribute) (data : Bytes) (now : Nat) :
    Asides (attr.writeValue data now) := by
  cases attr with
  | capabilities => exact asides_pure _
  | activeSlot => exact asides_writeActiveSlot data
  | advInterval => exact asides_writeInterval data
  | radioTxPower => exact asides_writeRadioTx data
  | advTxPower => exact asides_writeAdvTx data
  | lockState => exact asides_writeLock data
  | unlock => exact asides_writeUnlock data
  | publicEcdhKey => exact asides_pure _
  | eidIdentityKey => exact asides_pure _
  | advSlotData => exact asides_writeSlotData data now
  | factoryReset => exact asides_writeReset data
  | remainConnectable => exact asides_writeConnectable data

theorem asides_write (attr : Attribute) (offset : Nat) (data : Bytes) (now : Nat) :
    Asides (attr.write offset data now) := by
  apply asides_get.bind
  intro s
  split
  · exact (asides_note rfl).bind fun _ => asides_pure _
  · split
    · exact asides_pure _
    · exact asides_writeValue attr data now

end Attribute

end Beacon

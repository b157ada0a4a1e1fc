import Beacon.Proofs.Adoption
import Beacon.Proofs.EventLog
import Mathlib.Data.Fintype.Card

/-!
# No rotation goes untold

A slot that gets a new identifier leaves an event to be told, and the events wait where
there is room for a few: beyond that the oldest is dropped.  None ever is.  A slot that
has got the identifier of a time is not due again at that time, so that what waits and
what is due never come to more than there is room for, however many timers a poll fires
and however often beaconing starts anew meanwhile.

In the last second that the clock can tell an identifier is due again as soon as it has
been computed, and so that second is left out.
-/

namespace Beacon

open Act Transcript

variable {now slot : Nat} {i : SlotIndex} {s t : State}

/-- The slot that an event tells to have got an identifier, and the time of that. -/
def Event.rotation? : Event → Option (Nat × UInt32)
  | .eidRotated slot time => some (slot, time)
  | _ => none

/-- Tells of rotations. -/
def Event.ofRotations (rotations : List (Nat × UInt32)) : List Event :=
  rotations.map fun (slot, time) => .eidRotated slot time

theorem Event.filterMap_ofRotations (rotations : List (Nat × UInt32)) :
    (Event.ofRotations rotations).filterMap Event.rotation? = rotations := by
  rw [ofRotations, List.filterMap_map]
  exact List.filterMap_some

/-! ## What is due -/

/-- The slot gets an identifier of the time if it is brought up to date. -/
def Slot.isDue (time : UInt32) (slot : Slot) : Bool :=
  match slot.frame with
  | some (.eid _ _) => slot.nextRotation ≤ time && slot.exponent ≤ Ephemeral.maxExponent
  | _ => false

namespace State

/-- The rotation that brings the slot up to date. -/
def rotation? (slot now : Nat) (s : State) : Option (Nat × UInt32) :=
  if (rotateIfDue slot now s).value then some (slot, s.clock.time now) else none

theorem value_rotateIfDue (slot now : Nat) (s : State) :
    (rotateIfDue slot now s).value = (s.slots.slot? slot).any (Slot.isDue (s.clock.time now)) := by
  unfold rotateIfDue
  split
  next hslot =>
    have hheld : s.slots.slot? slot = some (s.slots.table.value ⟨slot, hslot⟩) :=
      PerSlot.getElem?_eq_value _ ⟨slot, hslot⟩
    simp only [hheld, Option.any_some, Slot.isDue, Act.bind_apply, Act.get_apply, Done.after_nil]
    generalize s.slots.table.value ⟨slot, hslot⟩ = held
    cases held.frame with
    | none => rfl
    | some frame =>
        cases frame with
        | eid tx old =>
            simp only
            split
            next hearly => simp [UInt32.not_le.mpr hearly]
            next hdue =>
              cases hid : Ephemeral.identifier held.key held.exponent (s.clock.time now) with
              | error fault =>
                  have hlarge : ¬held.exponent ≤ Ephemeral.maxExponent := by
                    intro hle
                    obtain ⟨id, hsome⟩ := Ephemeral.identifier_of_le hle held.key (s.clock.time now)
                    cases hid.symm.trans hsome
                  simp [hlarge]
              | ok id =>
                  have hle := Ephemeral.exponent_le_of_identifier hid
                  simp [UInt32.not_lt.mp hdue, hle]
        | uid tx id => rfl
        | url tx address => rfl
        | tlm telemetry => rfl
        | etlm telemetry => rfl
  next hslot =>
    have hheld : s.slots.slot? slot = none := by simp [Slots.slot?]; omega
    rw [hheld]
    rfl

/-- The slots that are due. -/
def dues (now : Nat) (s : State) : Finset SlotIndex :=
  Finset.univ.filter fun i => (s.slots.table.value i).isDue (s.clock.time now)

theorem value_rotateIfDue_eq_true_iff :
    (rotateIfDue i now s).value = true ↔ i ∈ s.dues now := by
  have hheld : s.slots.slot? i = some (s.slots.table.value i) := PerSlot.getElem?_eq_value ..
  rw [value_rotateIfDue, hheld, Option.any_some, dues, Finset.mem_filter]
  exact (and_iff_right (Finset.mem_univ i)).symm

/-- A slot that has got the identifier of a time is not due again at that time. -/
theorem dues_rotated (hearly : (s.clock.time now).toNat < UInt32.size - 1) (i : SlotIndex)
    (tx : Int8) (id : Octets 8) : (s.rotated i tx id now).dues now = (s.dues now).erase i := by
  have htime : (s.rotated i tx id now).clock.time now = s.clock.time now :=
    Clock.time_of_prior_eq rfl now
  ext j
  simp only [dues, Finset.mem_filter, Finset.mem_univ, true_and, Finset.mem_erase, htime,
    value_rotated]
  by_cases hij : i = j
  · have hlater : s.clock.time now < saturate32 ((s.clock.time now).toNat +
        Ephemeral.period (s.slots.table.value i).exponent) := by
      have hpositive := Ephemeral.period_pos (s.slots.table.value i).exponent
      rw [UInt32.lt_iff_toNat_lt, toNat_saturate32]
      omega
    subst hij
    simp [Slot.isDue, UInt32.not_le.mpr hlater]
  · rw [if_neg hij]
    simp [Ne.symm hij]

theorem card_dues_le (now : Nat) (s : State) : (s.dues now).card ≤ 3 :=
  Finset.card_le_univ _

/-! ## All that decides what is due -/

/-- The slots, and the seconds before the boot. -/
def calendar (s : State) : Slots × UInt32 :=
  (s.slots, s.clock.prior)

theorem time_of_calendar_eq (h : t.calendar = s.calendar) (now : Nat) :
    t.clock.time now = s.clock.time now := by
  have hprior : t.clock.prior = s.clock.prior := congrArg Prod.snd h
  exact Clock.time_of_prior_eq hprior now

theorem dues_of_calendar_eq (h : t.calendar = s.calendar) (now : Nat) :
    t.dues now = s.dues now := by
  have hslots : t.slots = s.slots := congrArg Prod.fst h
  rw [dues, dues, hslots, time_of_calendar_eq h]

theorem rotation?_of_calendar_eq (h : t.calendar = s.calendar) (slot now : Nat) :
    t.rotation? slot now = s.rotation? slot now := by
  have hslots : t.slots = s.slots := congrArg Prod.fst h
  rw [rotation?, rotation?, value_rotateIfDue, value_rotateIfDue, hslots, time_of_calendar_eq h]

theorem calendar_rotateIfDue_of_eq (h : t.calendar = s.calendar) (slot now : Nat) :
    (rotateIfDue slot now t).state.calendar = (rotateIfDue slot now s).state.calendar := by
  have hslots : t.slots = s.slots := congrArg Prod.fst h
  have htime := time_of_calendar_eq h now
  unfold rotateIfDue
  split
  next hslot =>
    simp only [Act.bind_apply, Act.get_apply, Done.after_nil, hslots, htime]
    cases (s.slots.table.value ⟨slot, hslot⟩).frame with
    | none => exact h
    | some frame =>
        cases frame with
        | eid tx old =>
            simp only
            split
            · exact h
            · cases Ephemeral.identifier (s.slots.table.value ⟨slot, hslot⟩).key
                  (s.slots.table.value ⟨slot, hslot⟩).exponent (s.clock.time now) with
              | error fault => exact h
              | ok id => exact congrArg (Prod.mk _) (congrArg Prod.snd h)
        | uid tx id => exact h
        | url tx address => exact h
        | tlm telemetry => exact h
        | etlm telemetry => exact h
  next => exact h

/-! ## Events that wait -/

/-- With room for it, the event of a rotation waits behind the others. -/
theorem pendingEvents_rotateIfDue (h : s.pendingEvents.length < eventCapacity) (slot now : Nat) :
    (rotateIfDue slot now s).state.pendingEvents =
      s.pendingEvents ++ Event.ofRotations (s.rotation? slot now).toList := by
  rw [rotation?]
  rcases rotateIfDue_cases slot now s with ⟨notes, hnone⟩ | ⟨i, tx, old, id, hi, -, -, -, hrotated⟩
  · rw [hnone]
    exact (List.append_nil _).symm
  · rw [hrotated]
    simp only [rotated, noteRotation, enqueueEvent, if_neg (Nat.not_le.mpr h)]
    rw [← hi]
    rfl

/-- What waits and what is due find room. -/
structure Roomy (now : Nat) (s : State) : Prop where
  early : (s.clock.time now).toNat < UInt32.size - 1
  room : s.pendingEvents.length + (s.dues now).card ≤ eventCapacity

namespace Roomy

theorem congr (h : s.Roomy now) (hcalendar : t.calendar = s.calendar)
    (hevents : t.pendingEvents.length ≤ s.pendingEvents.length) : t.Roomy now := by
  constructor
  · rw [time_of_calendar_eq hcalendar]
    exact h.early
  · rw [dues_of_calendar_eq hcalendar]
    have hroom := h.room
    omega

/-- A rotation takes the room of the slot that was due. -/
theorem rotateIfDue (h : s.Roomy now) (slot : Nat) :
    (State.rotateIfDue slot now s).state.Roomy now ∧
      (State.rotateIfDue slot now s).state.pendingEvents =
        s.pendingEvents ++ Event.ofRotations (s.rotation? slot now).toList := by
  have hroom := h.room
  rcases rotateIfDue_cases slot now s with ⟨notes, hnone⟩ | ⟨i, tx, old, id, rfl, -, -, -, hrotated⟩
  · rw [rotation?, hnone]
    exact ⟨h, (List.append_nil _).symm⟩
  · have hdue : i ∈ s.dues now := by
      rw [← value_rotateIfDue_eq_true_iff, hrotated]
    have hcard := Finset.card_erase_add_one hdue
    have hevents := pendingEvents_rotateIfDue (s := s) (by omega) i now
    refine ⟨⟨?_, ?_⟩, hevents⟩
    · rw [hrotated, Clock.time_of_prior_eq rfl now]
      exact h.early
    · rw [hevents, hrotated, dues_rotated h.early, rotation?, hrotated]
      simp only [if_true, Option.toList_some, List.length_append, Event.ofRotations,
        List.length_map, List.length_singleton]
      omega

end Roomy

/-- Only identifiers are ever due. -/
theorem rotateIfDue_of_not_eid (h : ∀ tx id, s.slots.activeSlot.frame ≠ some (.eid tx id))
    (now : Nat) : (rotateIfDue s.slots.active now s).state = s := by
  rcases rotateIfDue_cases s.slots.active now s with
    ⟨notes, hnone⟩ | ⟨i, tx, old, id, hi, hframe, -⟩
  · rw [hnone]
  · obtain rfl : i = s.slots.active := Fin.ext hi
    exact absurd hframe (h tx old)

end State

open State

/-! ## Where a deed looks for what is due -/

namespace Moment

/-- The slot that the deed brings up to date, and the state in which it does.  A key is put in
first. -/
def check? (m : Moment) : Option (Nat × State) :=
  match m.deed with
  | .took turn _ => some (turn.slot, m.state)
  | .asked (.read .advSlotData _) =>
    if m.state.lock.isLocked then none else some (m.state.slots.active, m.state)
  | .asked (.write .advSlotData offset (code :: payload) now) =>
    if code = FrameKind.eid.code ∧
        (Attribute.write .advSlotData offset (code :: payload) now m.state).value.isOk then
      (Attribute.identityKeyOf m.state payload).toOption.map fun key =>
        (m.state.slots.active, m.state.keyed key (payload.getLastD 0))
    else none
  | _ => none

/-- The slot that gets an identifier within the deed, and the time of that. -/
def rotation? (m : Moment) : Option (Nat × UInt32) :=
  m.check?.bind fun (slot, s) => s.rotation? slot m.deed.time

end Moment

namespace Attribute

variable {attr : Attribute} {offset : Nat} {data : Bytes}

theorem pendingEvents_read_of_ne (hattr : attr ≠ .advSlotData) (now : Nat) (s : State) :
    (attr.read now s).state.pendingEvents = s.pendingEvents := by
  simp only [read, Act.bind_apply, Act.get_apply, Done.after_nil]
  split
  · rfl
  · simp only [readValue, Act.bind_apply, Act.get_apply, Done.after_nil]
    cases attr with
    | advSlotData => exact absurd rfl hattr
    | unlock =>
        simp only [Act.bind_apply, onLock, Act.within_apply, Done.state_after]
        cases (Lock.challenge (s.lock, s.rng)).value <;> rfl
    | eidIdentityKey =>
        simp only
        split <;> rfl
    | _ => rfl

theorem pendingEvents_readSlotData (now : Nat) (s : State) :
    (readSlotData now s).state.pendingEvents =
      (rotateIfDue s.slots.active now s).state.pendingEvents := by
  have hkept (h : ∀ tx id, s.slots.activeSlot.frame ≠ some (.eid tx id)) :
      (rotateIfDue s.slots.active now s).state.pendingEvents = s.pendingEvents := by
    rw [rotateIfDue_of_not_eid h]
  have htelemetry : (telemetryFrame now s).state.pendingEvents = s.pendingEvents := by
    obtain ⟨rng, cursor, hstate⟩ := telemetryFrame_state now s
    rw [hstate]
  simp only [readSlotData, Act.bind_apply, Act.get_apply, Done.after_nil]
  cases hframe : s.slots.activeSlot.frame with
  | none => exact (hkept (by simp [hframe])).symm
  | some frame =>
      cases frame with
      | eid tx id =>
          simp only [Frame.kind, readEid, Act.bind_apply, Act.get_apply, Done.after_nil,
            Done.state_after]
          cases (rotateIfDue s.slots.active now s).state.slots.activeSlot.frame with
          | none => rfl
          | some frame => cases frame <;> rfl
      | uid tx id => exact (hkept (by simp [hframe])).symm
      | url tx address => exact (hkept (by simp [hframe])).symm
      | tlm telemetry => exact htelemetry.trans (hkept (by simp [hframe])).symm
      | etlm telemetry => exact htelemetry.trans (hkept (by simp [hframe])).symm

theorem pendingEvents_read_slotData (now : Nat) (s : State) :
    (read .advSlotData now s).state.pendingEvents =
      if s.lock.isLocked then s.pendingEvents
      else (rotateIfDue s.slots.active now s).state.pendingEvents := by
  rw [← pendingEvents_readSlotData]
  simp only [read, Act.bind_apply, Act.get_apply, Done.after_nil]
  cases s.lock.isLocked <;> rfl

/-- Without a key that a central writes no event comes to wait. -/
theorem pendingEvents_write_of_keyless
    (h : ∀ effect payload, (attr.write offset data now s).value = .ok effect →
      attr = .advSlotData → data = FrameKind.eid.code :: payload → payload = []) :
    (attr.write offset data now s).state.pendingEvents = s.pendingEvents := by
  cases hwrite : (attr.write offset data now s).value with
  | error fault =>
      have houtcome := outcome_write attr offset data now s
      rw [hwrite] at houtcome
      rcases houtcome.state_of_error with hstate | ⟨-, -, hstate⟩
      · rw [hstate]
      · rw [hstate]
  | ok effect =>
      by_cases heffect : effect = .factoryReset
      · rw [heffect] at hwrite
        exact congrArg Owing.pendingEvents (owing_reset hwrite)
      · have hkeyless : ¬BringsKey s s.slots.active attr data := by
          intro hbrings
          cases hbrings with
          | identity _ hpayload => exact hpayload (h effect _ hwrite rfl rfl)
          | reset hflag =>
              exact heffect ((effect_eq_factoryReset_iff hwrite).mpr ⟨rfl, by simpa using hflag⟩)
        have hvalue := (write_of_ok hwrite).2
        rw [hvalue] at hwrite ⊢
        exact congrArg Owing.pendingEvents (owing_writeValue hwrite heffect hkeyless)

/-- A key that a central writes brings the slot up to date. -/
theorem write_of_identityKeyOf {payload : Bytes} {key : Key} {effect : WriteEffect}
    (h : (write .advSlotData offset (FrameKind.eid.code :: payload) now s).value = .ok effect)
    (hkey : identityKeyOf s payload = .ok key) :
    (write .advSlotData offset (FrameKind.eid.code :: payload) now s).state =
      (rotateIfDue s.slots.active now (s.keyed key (payload.getLastD 0))).state := by
  have hpayload : payload ≠ [] := by
    rintro rfl
    cases hkey
  have hvalue := (write_of_ok h).2
  rw [hvalue] at h ⊢
  obtain ⟨hframe, hstate⟩ := writeSlotData_of_ok h
  obtain ⟨other, hother, -, hrotated⟩ := writeEid_cases hpayload hframe
  cases hkey.symm.trans hother
  exact hstate.trans hrotated

theorem eq_nil_of_identityKeyOf {payload : Bytes} {fault : Fault} {effect : WriteEffect}
    (h : (write .advSlotData offset (FrameKind.eid.code :: payload) now s).value = .ok effect)
    (hkey : identityKeyOf s payload = .error fault) : payload = [] := by
  by_contra hpayload
  rw [(write_of_ok h).2] at h
  obtain ⟨key, hsome, -⟩ := writeEid_cases hpayload (writeSlotData_of_ok h).1
  cases hkey.symm.trans hsome

end Attribute

/-! ## What a turn does -/

theorem Turn.calendar_perform (turn : Turn) (now : Nat) (s : State) :
    (turn.perform now s).state.calendar = (rotateIfDue turn.slot now s).state.calendar := by
  have hrenewing := turn.renewing_perform now s
  exact congrArg (fun x => (x.1, x.2.1.prior)) hrenewing

theorem Turn.pendingEvents_perform (turn : Turn) (now : Nat) (s : State) :
    (turn.perform now s).state.pendingEvents =
      (rotateIfDue turn.slot now s).state.pendingEvents := by
  have hrenewing := turn.renewing_perform now s
  exact congrArg (fun x => x.2.2) hrenewing

namespace Moment

/-- The deed does to the events what bringing the slot up to date does to them. -/
def Checked (m : Moment) : Prop :=
  match m.check? with
  | none => m.events = m.state.pendingEvents
  | some (slot, s) =>
    s.pendingEvents = m.state.pendingEvents ∧
      m.events = (State.rotateIfDue slot m.deed.time s).state.pendingEvents

theorem checked_write (attr : Attribute) (offset : Nat) (data : Bytes) (now : Nat) (s : State) :
    Checked ⟨s, .asked (.write attr offset data now)⟩ := by
  cases hcheck : check? ⟨s, .asked (.write attr offset data now)⟩ with
  | none =>
      rw [Checked, hcheck]
      apply Attribute.pendingEvents_write_of_keyless
      rintro effect payload hwrite rfl rfl
      cases hkey : Attribute.identityKeyOf s payload with
      | error fault => exact Attribute.eq_nil_of_identityKeyOf hwrite hkey
      | ok key =>
          simp [check?, hwrite, hkey, Except.isOk, Except.toBool, Except.toOption] at hcheck
  | some found =>
      rw [Checked, hcheck]
      simp only [check?] at hcheck
      split at hcheck
      next hdeed => cases hdeed
      next hdeed => cases hdeed
      next code payload time hdeed =>
        cases hdeed
        split at hcheck
        next hwritten =>
          obtain ⟨rfl, hok⟩ := hwritten
          obtain ⟨key, hsome, rfl⟩ := Option.map_eq_some_iff.mp hcheck
          cases hwrite : (Attribute.write .advSlotData offset (FrameKind.eid.code :: payload) now
              s).value with
          | error fault =>
              rw [hwrite] at hok
              cases hok
          | ok effect =>
              cases hkey : Attribute.identityKeyOf s payload with
              | error fault =>
                  rw [hkey] at hsome
                  cases hsome
              | ok held =>
                  rw [hkey] at hsome
                  cases hsome
                  refine ⟨rfl, ?_⟩
                  exact congrArg State.pendingEvents (Attribute.write_of_identityKeyOf hwrite hkey)
        next => cases hcheck
      next => cases hcheck

theorem checked (m : Moment) : m.Checked := by
  obtain ⟨s, deed⟩ := m
  cases deed with
  | asked access =>
      cases access with
      | read attr now =>
          by_cases hattr : attr = .advSlotData
          · subst hattr
            have hevents := Attribute.pendingEvents_read_slotData now s
            cases hlocked : s.lock.isLocked with
            | true =>
                rw [hlocked] at hevents
                simp only [Checked, check?, hlocked]
                exact hevents
            | false =>
                rw [hlocked] at hevents
                simp only [Checked, check?, hlocked]
                exact ⟨rfl, hevents⟩
          · have hcheck : check? ⟨s, .asked (.read attr now)⟩ = none := by
              cases attr <;> first | rfl | exact absurd rfl hattr
            rw [Checked, hcheck]
            exact Attribute.pendingEvents_read_of_ne hattr now s
      | write attr offset data now => exact checked_write attr offset data now s
  | took turn now => exact ⟨rfl, turn.pendingEvents_perform now s⟩

/-- A deed leaves an event for each rotation and nothing else. -/
theorem events_eq {m : Moment} (htold : m.state.pendingEvents = []) :
    m.events = Event.ofRotations m.rotation?.toList := by
  have hchecked := m.checked
  rw [rotation?]
  rw [Checked] at hchecked
  split at hchecked
  next hnone =>
    rw [hnone, hchecked, htold]
    rfl
  next slot s hsome =>
    obtain ⟨hwaits, hevents⟩ := hchecked
    have hroom : s.pendingEvents.length < State.eventCapacity := by
      rw [hwaits, htold]
      decide
    rw [hsome, hevents, State.pendingEvents_rotateIfDue hroom, hwaits, htold]
    rfl

end Moment

/-- From a state in which there is room, no rotation is lost: it has been told, or it waits. -/
theorem Telling.rotations {x y : Mode × State} {out : Transcript} {said : List Event}
    (h : Telling now x out said y) (hroom : x.2.Roomy now)
    (started : Option Bytes) (ht : t.calendar = x.2.calendar) :
    y.2.Roomy now ∧
      (t.afterDeeds ((out.turns started).map fun turn => .took turn now)).calendar = y.2.calendar ∧
      out.events.filterMap Event.rotation? ++ y.2.pendingEvents.filterMap Event.rotation? =
        x.2.pendingEvents.filterMap Event.rotation? ++
          (t.moments ((out.turns started).map fun turn => .took turn now)).filterMap
            Moment.rotation? := by
  induction h generalizing t started with
  | @unheard mode s s' out hevents hturnless hunmoved =>
      have hcalendar : s'.calendar = s.calendar := by
        rw [calendar, hunmoved.slots, hunmoved.prior]
        rfl
      rw [hturnless.turns_eq_nil, hevents, hunmoved.pendingEvents]
      refine ⟨hroom.congr hcalendar (Nat.le_of_eq ?_), ht.trans hcalendar.symm, ?_⟩
      · rw [hunmoved.pendingEvents]
      · exact (List.append_nil _).symm
  | @took mode s s' out hevents hturn =>
      obtain ⟨turn, hturns, rfl⟩ := hturn started
      obtain ⟨hroomy, hwaits⟩ := hroom.rotateIfDue turn.slot
      rw [hturns, hevents]
      refine ⟨?_, ?_, ?_⟩
      · apply hroomy.congr (turn.calendar_perform now s)
        rw [turn.pendingEvents_perform]
      · have hafter : (t.afterDeeds [.took turn now]).calendar =
            (turn.perform now t).state.calendar := rfl
        rw [List.map_singleton, hafter, turn.calendar_perform, turn.calendar_perform]
        exact calendar_rotateIfDue_of_eq ht turn.slot now
      · have hmoment : (t.moments [.took turn now]).filterMap Moment.rotation? =
            (t.rotation? turn.slot now).toList := by
          have hrotation : Moment.rotation? ⟨t, .took turn now⟩ = t.rotation? turn.slot now := rfl
          rw [moments, moments, List.filterMap_cons, hrotation]
          cases t.rotation? turn.slot now <;> rfl
        rw [List.map_singleton, hmoment, turn.pendingEvents_perform, hwaits, List.filterMap_append,
          Event.filterMap_ofRotations, rotation?_of_calendar_eq ht]
        rfl
  | @entered old new s hne =>
      exact ⟨hroom, ht, (List.append_nil _).symm⟩
  | drained mode s =>
      have hturnless : Turnless (s.pendingEvents.map .event) := by
        intro output hmem
        obtain ⟨event, -, rfl⟩ := List.mem_map.mp hmem
        rfl
      rw [hturnless.turns_eq_nil, events_map_event]
      exact ⟨hroom.congr rfl (Nat.zero_le _), ht, rfl⟩
  | @remarked x event hremark =>
      refine ⟨hroom, ht, ?_⟩
      cases event with
      | modeChanged old new => cases hremark
      | eidRotated slot time => cases hremark
      | _ => exact (List.append_nil _).symm
  | @trans x y z a b said also _ _ ihx ihy =>
      obtain ⟨hmid, hcalendar, hfirst⟩ := ihx hroom started ht
      obtain ⟨hlast, hafter, hsecond⟩ := ihy hmid (lastStarted started a) hcalendar
      rw [turns_append, List.map_append, afterDeeds_append, moments_append, events_append,
        List.filterMap_append, List.filterMap_append, List.append_assoc, hsecond,
        ← List.append_assoc, hfirst, List.append_assoc]
      exact ⟨hlast, hafter, rfl⟩

/-! ## Requests -/

/-- An identifier that is not told of has not been computed. -/
theorem Moment.retains_of_rotation?_ne {m : Moment} (htold : m.state.pendingEvents = [])
    (hkeyless : ¬m.Installs i) (h : ∀ time, m.rotation? ≠ some (i.val, time)) :
    m.state.Retains i m.after := by
  cases m.proceeds hkeyless with
  | retained hretains => exact ⟨hretains.slot, hretains.prior⟩
  | rotated tx id hvalue hid hevent =>
      have hmem : .eidRotated i (m.state.clock.time m.deed.time) ∈ m.events := hevent
      rw [events_eq htold] at hmem
      obtain ⟨⟨slot, time⟩, hrotation, hsame⟩ := List.mem_map.mp hmem
      cases hsame
      exact absurd (Option.mem_toList.mp hrotation) (h _)

namespace Entry

variable {x : Entry}

/-- A central does not put the clock on. -/
theorem time_answered_le (htold : x.before.1.state.pendingEvents = []) (now : Nat) :
    (x.answered.clock.time now).toNat ≤ (x.before.1.state.clock.time now).toNat := by
  obtain ⟨d, request⟩ := x
  have hasked (access : Access) : ((access.perform d.1.state).state.clock.time now).toNat ≤
      (d.1.state.clock.time now).toNat := by
    let m : Moment := ⟨d.1.state, .asked access⟩
    change (m.after.clock.time now).toNat ≤ (m.state.clock.time now).toNat
    cases m.ticks htold with
    | idle _ _ hclock _ => rw [hclock]
    | rotated i _ _ hclock _ =>
        have hprior : m.after.clock.prior = m.state.clock.prior := by
          rw [hclock]
          rfl
        rw [Clock.time_of_prior_eq hprior]
    | reset _ _ hclock _ =>
        rw [hclock]
        simp only [Clock.time, Clock.zero, toNat_saturate32, UInt32.toNat_zero]
        omega
  cases request with
  | read attr now => exact hasked (.read attr now)
  | write attr offset data now => exact hasked (.write attr offset data now)
  | poll now => exact Nat.le_refl _
  | radioEvent event now => exact Nat.le_refl _
  | command command now => exact Nat.le_refl _
  | saveIfDirty now => exact Nat.le_refl _

/-- What waits once a central has been answered is what it has caused. -/
theorem pendingEvents_answered (htold : x.before.1.state.pendingEvents = []) :
    x.answered.pendingEvents =
      Event.ofRotations
        ((x.before.1.state.hush.moments x.request.asked).filterMap Moment.rotation?) := by
  obtain ⟨d, request⟩ := x
  have hhush : d.1.state.hush = d.1.state := State.hush_of_nil htold
  have hasked (access : Access) : (access.perform d.1.state).state.pendingEvents =
      Event.ofRotations ((d.1.state.hush.moments [.asked access]).filterMap Moment.rotation?) := by
    let m : Moment := ⟨d.1.state, .asked access⟩
    have hevents : m.events = Event.ofRotations m.rotation?.toList :=
      Moment.events_eq htold
    rw [hhush, State.moments, State.moments, List.filterMap_cons]
    change m.events = _
    rw [hevents]
    cases m.rotation? <;> rfl
  cases request with
  | read attr now => exact hasked (.read attr now)
  | write attr offset data now => exact hasked (.write attr offset data now)
  | poll now => exact htold
  | radioEvent event now => exact htold
  | command command now => exact htold
  | saveIfDirty now => exact htold

/-- All rotations of a request are told in it, in their order and each of them once. -/
structure Announces (x : Entry) : Prop where
  told : x.output.events.filterMap Event.rotation? = x.moments.filterMap Moment.rotation?
  settled : x.after.1.state.pendingEvents = []
  /-- The moments lead from the state before to that after. -/
  real : ∃ t, Replays x.before.1.state.hush x.deeds t ∧ t.slots = x.after.1.state.slots ∧
    t.clock.prior = x.after.1.state.clock.prior
  /-- Without a rotation an identifier changes only together with its key. -/
  kept : ∀ m ∈ x.moments, ∀ i, ¬m.Installs i → (∀ time, m.rotation? ≠ some (i.val, time)) →
    m.state.Retains i m.after

theorem roomy_answered (htold : x.before.1.state.pendingEvents = [])
    (hearly : (x.before.1.state.clock.time x.request.time).toNat < UInt32.size - 1) :
    x.answered.Roomy x.request.time := by
  have hasked : x.request.asked.length ≤ 1 := by
    cases x.request <;> simp [Request.asked]
  have hmoments : (x.before.1.state.hush.moments x.request.asked).length =
      x.request.asked.length := by
    rw [← List.length_map (f := Moment.deed), State.map_deed_moments]
  have hwaits : x.answered.pendingEvents.length ≤ 1 := by
    rw [pendingEvents_answered htold, Event.ofRotations, List.length_map]
    exact (List.length_filterMap_le ..).trans (hmoments ▸ hasked)
  have hdues := State.card_dues_le x.request.time x.answered
  constructor
  · exact Nat.lt_of_le_of_lt (time_answered_le htold _) hearly
  · rw [State.eventCapacity]
    omega

theorem announces (htold : x.before.1.state.pendingEvents = [])
    (hearly : (x.before.1.state.clock.time x.request.time).toNat < UInt32.size - 1) :
    x.Announces := by
  have hsettled : x.after.1.state.pendingEvents = [] := Device.pendingEvents_serve htold x.request
  refine ⟨?_, hsettled, replays htold, ?_⟩
  · obtain ⟨-, -, hrotations⟩ := x.telling.rotations (roomy_answered htold hearly) none
      (t := x.answered.hush) rfl
    have hafter : x.after.1.outlook.2.pendingEvents = [] := hsettled
    have hanswered : x.answered.pendingEvents.filterMap Event.rotation? =
        (x.before.1.state.hush.moments x.request.asked).filterMap Moment.rotation? := by
      rw [pendingEvents_answered htold, Event.filterMap_ofRotations]
    rw [hafter, List.filterMap_nil, List.append_nil, hanswered] at hrotations
    rw [hrotations, moments, deeds, State.moments_append, List.filterMap_append,
      (replays_asked htold).state]
  · intro m hm i hkeyless hnone
    have htoldAt : m.state.pendingEvents = [] := State.told_moments rfl hm
    exact Moment.retains_of_rotation?_ne htoldAt hkeyless hnone

end Entry

/-! ## Runs -/

namespace Device

variable {config : Config} {store : Store} {start d : Device} {history : History}

/-- At each point of a run, whatever the device is asked to serve next, all rotations of the request
are told in it; and however many timers a poll has fired, all rotations so far have been told or
wait. -/
theorem announces_rotations (hbooted : Booted config store start) (hrun : Run start history d) :
    (∀ request : Request,
        (d.1.state.clock.time request.time).toNat < UInt32.size - 1 →
          Entry.Announces ⟨d, request⟩) ∧
      ∀ now n, (d.1.state.clock.time now).toNat < UInt32.size - 1 →
        (events (Engine.fireSome now n d.1).output).filterMap Event.rotation? ++
            (Engine.fireSome now n d.1).state.state.pendingEvents.filterMap Event.rotation? =
          (d.1.state.hush.moments
            ((turns none (Engine.fireSome now n d.1).output).map
              fun turn => .took turn now)).filterMap Moment.rotation? := by
  have htold := ((Reachable.boot hbooted).of_run hrun).pendingEvents
  constructor
  · intro request hearly
    exact Entry.announces htold hearly
  · intro now n hearly
    have hroom : d.1.state.Roomy now := by
      have hdues := d.1.state.card_dues_le now
      refine ⟨hearly, ?_⟩
      rw [htold, List.length_nil, State.eventCapacity]
      omega
    obtain ⟨-, -, hrotations⟩ := (Engine.tells_fireSome now n d.1).rotations hroom none
      (t := d.1.state.hush) rfl
    have hnone : d.1.outlook.2.pendingEvents = [] := htold
    rw [hnone] at hrotations
    exact hrotations

/-- Beaconing starts with a rotation. -/
theorem first_rotation_told :
    ∃ start, Booted changing ⟨.memory none, fun _ _ => none, 0⟩ start ∧
      (start.1.state.clock.time 0).toNat < UInt32.size - 1 ∧
      Entry.Announces ⟨start, .command .startBeacon 0⟩ ∧
      (Entry.moments ⟨start, .command .startBeacon 0⟩).filterMap Moment.rotation? = [(2, 0)] := by
  obtain ⟨start, hbooted, hstart⟩ :
      ∃ start, Booted changing ⟨.memory none, fun _ _ => none, 0⟩ start ∧
        (start.1.state.clock.time 0,
          events (serve (.command .startBeacon 0) start).output) =
        (0, [.modeChanged .idle .beacon, .eidRotated 2 0]) :=
    exists_booted_of_eq (.idle 100 10240 fun _ _ => none) (some (Octets.zero 32)) 0
      (fun start => (start.1.state.clock.time 0,
        events (serve (.command .startBeacon 0) start).output)) (by decide +kernel)
  obtain ⟨htime, hevents⟩ := Prod.mk.injEq .. ▸ hstart
  have hearly : (start.1.state.clock.time 0).toNat < UInt32.size - 1 := by
    rw [htime]
    decide
  have hannounces := (announces_rotations hbooted .start).1 (.command .startBeacon 0) hearly
  refine ⟨start, hbooted, hearly, hannounces, ?_⟩
  rw [← hannounces.told, Entry.output, hevents]
  rfl

end Device

end Beacon

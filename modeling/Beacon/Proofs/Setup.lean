import Beacon.Proofs.Actions
import Beacon.Proofs.Runs

/-!
# What only a central changes

Identifiers rotate, counters count and the clock goes on by themselves.  All the
rest of a state, its setup, changes only when a central writes it or takes a
challenge.  The part of the setup that is kept across a loss of power makes the
settings; an identifier is not part of them.

Rotation and sealing are the two things that happen to a state by itself, and
each is described once here.
-/

namespace Beacon

/-- The frame with nothing in place of an identifier that changes with time. -/
def Frame.withoutId : Frame → Frame
  | .eid tx _ => .eid tx (Octets.zero 8)
  | frame => frame

/-- The slot as it is kept across a loss of power: every identifier is due. -/
def Slot.settings (slot : Slot) : Slot :=
  { slot with frame := slot.frame.map Frame.withoutId, nextRotation := 0 }

structure Settings where
  active : SlotIndex
  slots : PerSlot Slot
  /-- Without an outstanding challenge. -/
  lock : Lock
  radioLevels : PowerLevels
  advLevels : PowerLevels
  remainConnectable : Bool

structure Setup where
  config : Config
  settings : Settings
  lock : Lock
  identity : Identity
  minInterval : UInt16
  maxInterval : UInt16

namespace Slot

@[simp] theorem isBroadcast_settings (slot : Slot) :
    slot.settings.isBroadcast = slot.isBroadcast := by
  unfold isBroadcast settings
  rw [Option.isSome_map]

end Slot

namespace Slots

/-- A change of a slot that its settings do not show. -/
theorem map_settings_modify {slots : Slots} {i : SlotIndex} {f : Slot → Slot}
    (hf : (f (slots.table.value i)).settings = (slots.table.value i).settings) :
    (slots.modify i f).table.map Slot.settings = slots.table.map Slot.settings := by
  apply PerSlot.ext_value
  intro j
  by_cases hij : i = j
  · subst j
    simp [modify, hf]
  · simp [modify, PerSlot.value_put_of_ne hij]

end Slots

namespace State

def settings (s : State) : Settings where
  active := s.slots.active
  slots := s.slots.table.map Slot.settings
  lock := .fresh s.lock.state s.lock.key
  radioLevels := s.radioLevels
  advLevels := s.advLevels
  remainConnectable := s.remainConnectable

def setup (s : State) : Setup where
  config := s.config
  settings := s.settings
  lock := s.lock
  identity := s.identity
  minInterval := s.minInterval
  maxInterval := s.maxInterval

/-- The slot in which a rotation leaves what it has computed. -/
def rotated (s : State) (i : SlotIndex) (tx : Int8) (id : Octets 8) (now : Nat) : State :=
  noteRotation i (s.clock.time now) now
    { s with
      slots := s.slots.modify i fun held =>
        { held with
          frame := some (.eid tx id)
          nextRotation := saturate32 ((s.clock.time now).toNat +
            Ephemeral.period (s.slots.table.value i).exponent) } }

/-- Either nothing is due, or the slot gets the identifier of the time. -/
theorem rotateIfDue_cases (slot now : Nat) (s : State) :
    (∃ notes, rotateIfDue slot now s = ⟨false, s, notes⟩) ∨
      ∃ (i : SlotIndex) (tx : Int8) (old id : Octets 8),
        i.val = slot ∧ (s.slots.table.value i).frame = some (.eid tx old) ∧
        (s.slots.table.value i).nextRotation ≤ s.clock.time now ∧
        Ephemeral.identifier (s.slots.table.value i).key (s.slots.table.value i).exponent
          (s.clock.time now) = .ok id ∧
        rotateIfDue slot now s = ⟨true, s.rotated i tx id now, []⟩ := by
  unfold rotateIfDue
  split
  next hslot =>
    simp only [Act.bind_apply, Act.get_apply, Done.after_nil]
    cases hframe : (s.slots.table.value ⟨slot, hslot⟩).frame with
    | none => exact .inl ⟨_, rfl⟩
    | some frame =>
        cases frame with
        | eid tx old =>
            simp only
            split
            next => exact .inl ⟨_, rfl⟩
            next hdue =>
              cases hid : Ephemeral.identifier (s.slots.table.value ⟨slot, hslot⟩).key
                  (s.slots.table.value ⟨slot, hslot⟩).exponent (s.clock.time now) with
              | error fault => exact .inl ⟨_, rfl⟩
              | ok id =>
                  exact .inr ⟨⟨slot, hslot⟩, tx, old, id, rfl, hframe, UInt32.not_lt.mp hdue, hid,
                    rfl⟩
        | uid tx id => exact .inl ⟨_, rfl⟩
        | url tx address => exact .inl ⟨_, rfl⟩
        | tlm t => exact .inl ⟨_, rfl⟩
        | etlm t => exact .inl ⟨_, rfl⟩
  next => exact .inl ⟨_, rfl⟩

/-- Either no slot has a changing identity, or telemetry is sealed under the key of the first one
from the cursor on. -/
theorem sealTelemetry_cases (now : Nat) (s : State) :
    (s.slots.nextEid? s.sealingCursor = none ∧ sealTelemetry now s = ⟨none, s, []⟩) ∨
      ∃ i, s.slots.nextEid? s.sealingCursor = some i ∧
        sealTelemetry now s =
          ⟨some ((s.currentTelemetry now).encrypt (s.slots.table.value i).key
              (Ephemeral.window (s.slots.table.value i).exponent (s.clock.time now))
              (s.rng.octets 2).1),
            { s with rng := (s.rng.octets 2).2, sealingCursor := i.next }, []⟩ := by
  unfold sealTelemetry
  simp only [Act.bind_apply, Act.get_apply, Done.after_nil]
  cases hnext : s.slots.nextEid? s.sealingCursor with
  | none => exact .inl ⟨rfl, rfl⟩
  | some i => exact .inr ⟨i, rfl, rfl⟩

/-! ## What happens by itself keeps the setup -/

theorem setup_rotated {s : State} {i : SlotIndex} {tx : Int8} {old : Octets 8}
    (hframe : (s.slots.table.value i).frame = some (.eid tx old)) (id : Octets 8) (now : Nat) :
    (s.rotated i tx id now).setup = s.setup := by
  let f : Slot → Slot := fun held =>
    { held with
      frame := some (.eid tx id)
      nextRotation := saturate32 ((s.clock.time now).toNat +
        Ephemeral.period (s.slots.table.value i).exponent) }
  have hslots : (s.slots.modify i f).table.map Slot.settings = s.slots.table.map Slot.settings :=
    Slots.map_settings_modify (by simp [f, Slot.settings, hframe, Frame.withoutId])
  simp only [f] at hslots
  simp only [setup, settings, rotated, noteRotation, enqueueEvent, hslots]
  rfl

theorem setup_rotateIfDue (slot now : Nat) : Act.Keeps setup (rotateIfDue slot now) := by
  intro s
  rcases rotateIfDue_cases slot now s with ⟨notes, h⟩ | ⟨i, tx, old, id, -, hframe, -, -, h⟩
  · rw [h]
  · rw [h]
    exact setup_rotated hframe id now

theorem setup_sealTelemetry (now : Nat) : Act.Keeps setup (sealTelemetry now) := by
  intro s
  rcases sealTelemetry_cases now s with ⟨-, h⟩ | ⟨i, -, h⟩
  · rw [h]
  · rw [h]
    rfl

theorem setup_telemetryFrame (now : Nat) : Act.Keeps setup (telemetryFrame now) := by
  refine (setup_sealTelemetry now).bind fun sealed => ?_
  cases sealed <;> exact fun s => rfl

theorem setup_liveFrame (slot now : Nat) : Act.Keeps setup (liveFrame slot now) := by
  refine (setup_rotateIfDue slot now).bind fun _ s => ?_
  simp only [Act.bind_apply, Act.get_apply, Done.after_nil]
  cases (s.slots.slot? slot).bind Slot.frame with
  | none => rfl
  | some frame =>
      cases frame with
      | tlm t => exact (setup_telemetryFrame now).bind (fun _ _ => rfl) s
      | uid tx id => rfl
      | url tx address => rfl
      | etlm t => rfl
      | eid tx id => rfl

theorem setup_prepare (slot now : Nat) : Act.Keeps setup (State.prepare slot now) := by
  refine (setup_liveFrame slot now).bind fun frame s => ?_
  cases frame with
  | none => rfl
  | some frame =>
      simp only
      cases Advert.ofFrame frame with
      | error fault => rfl
      | ok payload =>
          simp only [Act.bind_apply, Act.get_apply, Done.after_nil]
          cases s.slots.slot? slot <;> rfl

theorem setup_countAdvert (s : State) : s.countAdvert.setup = s.setup := rfl

theorem setup_drainEvents : Act.Keeps setup drainEvents := fun _ => rfl

/-- That an identifier is due is not part of the settings. -/
theorem setup_resetRotations (s : State) :
    { s with slots := s.slots.resetRotations }.setup = s.setup := by
  have hslots :
      s.slots.resetRotations.table.map Slot.settings = s.slots.table.map Slot.settings := by
    rw [Slots.resetRotations, Slots.mapSlots, Vector.map_map]
    rfl
  simp only [setup, settings, hslots]
  rfl

/-- Which slots are to be broadcast, and how often, can be read off the settings. -/
theorem interval?_eq_settings (s : State) (slot : Nat) :
    s.interval? slot =
      ((s.settings.slots[slot]?).filter Slot.isBroadcast).map Slot.interval := by
  simp only [interval?, Slots.slot?, settings, Vector.getElem?_map]
  cases s.slots.table[slot]? with
  | none => rfl
  | some held =>
      simp only [Option.map_some, Option.filter_some, Slot.isBroadcast_settings]
      split <;> rfl

theorem interval?_eq_of_setup_eq {s t : State} (h : s.setup = t.setup) (slot : Nat) :
    s.interval? slot = t.interval? slot := by
  have hsettings : s.settings = t.settings := congrArg Setup.settings h
  rw [interval?_eq_settings, interval?_eq_settings, hsettings]

end State

end Beacon

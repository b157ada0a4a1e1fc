import Beacon.Proofs.Dues
import Beacon.Proofs.Rounds
import Beacon.Proofs.Sealing

/-!
# What telemetry tells

A receiver takes the service data out of a payload and reads the frame in them.
From a telemetry slot it learns what the host has measured last, how many
payloads the radio has taken since the start, and for how long the beacon has
been running.  Once a slot has a changing identity it needs the key of that slot,
and the window of the time at which the frame was made.
-/

namespace Beacon

variable {now : Nat}

/-! ## Receivers -/

namespace Advert

/-- There is room for every frame. -/
theorem ofFrame_eq (frame : Frame) :
    ofFrame frame = .ok (flags ++ services ++ serviceData frame.toBytes) := by
  have hfits := frame.length_toBytes_le
  have hroom : (flags ++ services ++ serviceData frame.toBytes).length ≤ capacity := by
    simp only [flags, services, serviceData, structureBytes, Frame.service, Frame.capacity,
      capacity, List.length_append, List.length_cons, List.length_nil] at hfits ⊢
    omega
  simp only [ofFrame, frame.encode_eq, bind, Except.bind]
  rw [Bytes.within, if_pos hroom]

end Advert

/-! ## The slot that seals -/

namespace Slots

variable {slots : Slots} {start : Nat} {i : SlotIndex}

/-- The slot is the first with a changing identity from another one on, going round. -/
def Follows (slots : Slots) (start : Nat) (i : SlotIndex) : Prop :=
  ∃ offset, offset < 3 ∧ i = .around (start + offset) ∧ slots.isEid i ∧
    ∀ nearer, nearer < offset → ¬slots.isEid (SlotIndex.around (start + nearer))

theorem follows_of_nextEid? (h : slots.nextEid? start = some i) : slots.Follows start i := by
  have hcandidate (k : Nat) (hk : k < (SlotIndex.all.map fun offset =>
      SlotIndex.around (start + offset.val)).length) :
      (SlotIndex.all.map fun offset => SlotIndex.around (start + offset.val))[k] =
        .around (start + k) := by
    have hsmall : k < 3 := hk
    match k, hsmall with
    | 0, _ | 1, _ | 2, _ => rfl
  obtain ⟨heid, k, hk, hfound, hnearer⟩ := List.find?_eq_some_iff_getElem.mp h
  refine ⟨k, hk, ?_, heid, ?_⟩
  · rw [← hfound]
    exact hcandidate k hk
  · intro nearer hless
    have hnot := hnearer nearer hless
    rw [hcandidate] at hnot
    simpa using hnot

theorem nextEid?_eq_none (h : slots.nextEid? start = none) (i : SlotIndex) : ¬slots.isEid i := by
  apply List.find?_eq_none.mp h i
  apply List.mem_map.mpr
  -- Going round from anywhere one comes past every slot.
  refine ⟨.around (i + 2 * start), SlotIndex.mem_all _, Fin.ext ?_⟩
  change (start + (i.val + 2 * start) % 3) % 3 = i.val
  omega

end Slots

namespace State

/-- The frame tells what there is to tell: in the clear if no slot has a changing identity, and to
those who have the key of the next such slot otherwise.  The search for a key goes on behind it. -/
inductive Discloses (s : State) (now : Nat) (told : Telemetry) : Frame → SlotIndex → Prop
  | clear : (∀ i : SlotIndex, ¬s.slots.isEid i) → Discloses s now told (.tlm told) s.sealingCursor
  | concealed {i : SlotIndex} {t : SealedTelemetry} :
      s.slots.Follows s.sealingCursor i →
      t.decrypt (s.slots.table.value i).key
        (Ephemeral.window (s.slots.table.value i).exponent (s.clock.time now)) = .ok told →
      Discloses s now told (.etlm t) i.next

theorem discloses_telemetryFrame (now : Nat) (s : State) :
    s.Discloses now (s.currentTelemetry now) (telemetryFrame now s).value
      (telemetryFrame now s).state.sealingCursor := by
  simp only [telemetryFrame, Act.bind_apply, Done.value_after, Done.state_after]
  rcases sealTelemetry_cases now s with ⟨hnone, h⟩ | ⟨i, hnext, h⟩
  · rw [h]
    exact .clear (Slots.nextEid?_eq_none hnone)
  · rw [h]
    exact .concealed (Slots.follows_of_nextEid? hnext) (SealedTelemetry.decrypt_encrypt _ _ _ _)

theorem Discloses.sound {s : State} {told : Telemetry} {frame : Frame} {cursor : SlotIndex}
    (h : s.Discloses now told frame cursor) : frame.Sound := by
  cases h with
  | clear => trivial
  | concealed => trivial

/-- A central reads the frame as it is. -/
theorem Discloses.slotData_eq {s : State} {told : Telemetry} {frame : Frame} {cursor : SlotIndex}
    (h : s.Discloses now told frame cursor) : frame.slotData = .ok frame.toBytes := by
  rw [← frame.encode_eq]
  cases h with
  | clear => rfl
  | concealed => rfl

variable {s : State} {i : SlotIndex} {held : Telemetry}

end State

def Telemetry.counted (n : Nat) (t : Telemetry) : Telemetry :=
  { t with pduCount := t.pduCount + UInt32.ofNat n }

theorem Telemetry.counted_zero (t : Telemetry) : t.counted 0 = t := by
  have hcount : t.pduCount + UInt32.ofNat 0 = t.pduCount := UInt32.add_zero _
  rw [counted, hcount]

theorem Telemetry.counted_counted (t : Telemetry) (m n : Nat) :
    (t.counted m).counted n = t.counted (m + n) := by
  simp only [counted, UInt32.ofNat_add, UInt32.add_assoc]

def Deed.sends : Deed → Bool
  | .asked _ => false
  | .took turn _ => turn.sent.isSome

/-- How many payloads the radio took. -/
def sendings (deeds : List Deed) : Nat :=
  deeds.countP Deed.sends

theorem sendings_append (a b : List Deed) : sendings (a ++ b) = sendings a + sendings b :=
  List.countP_append

namespace Request

def battery? : Request → Option UInt16
  | .command (.updateBattery millivolts) _ => some millivolts
  | _ => none

def temperature? : Request → Option Int16
  | .command (.updateTemperature temperature) _ => some temperature
  | _ => none

theorem measured_eq (request : Request) (t : Telemetry) :
    request.measured t =
      { t with
        batteryMv := request.battery?.getD t.batteryMv
        temperature := request.temperature?.getD t.temperature } := by
  cases request with
  | command command now => cases command <;> rfl
  | _ => rfl

end Request

namespace History

def deeds (history : History) : List Deed :=
  history.flatMap Entry.deeds

/-- The battery voltage that the host has given last. -/
def battery (history : History) : UInt16 :=
  (history.filterMap fun x => x.request.battery?).getLastD Telemetry.initial.batteryMv

/-- The temperature that the host has given last. -/
def temperature (history : History) : Int16 :=
  (history.filterMap fun x => x.request.temperature?).getLastD Telemetry.initial.temperature

/-- What there is to tell at a time, some deeds into a request. -/
def report (history : History) (earlier : List Deed) (now : Nat) : Telemetry where
  batteryMv := history.battery
  temperature := history.temperature
  pduCount := UInt32.ofNat (sendings (history.deeds ++ earlier))
  uptimeDs := Clock.uptimeDs now

theorem battery_concat (history : History) (x : Entry) :
    battery (history ++ [x]) = x.request.battery?.getD history.battery := by
  rw [battery, List.filterMap_append]
  cases hbattery : x.request.battery? <;> simp [hbattery, battery]

theorem temperature_concat (history : History) (x : Entry) :
    temperature (history ++ [x]) = x.request.temperature?.getD history.temperature := by
  rw [temperature, List.filterMap_append]
  cases htemperature : x.request.temperature? <;> simp [htemperature, temperature]

theorem deeds_concat (history : History) (x : Entry) :
    deeds (history ++ [x]) = history.deeds ++ x.deeds := by
  simp [deeds]

end History

/-! ## Telemetry along a run -/

theorem Moment.telemetry_after (m : Moment) :
    m.after.telemetry = m.state.telemetry.counted (sendings [m.deed]) := by
  obtain ⟨s, deed⟩ := m
  have hkept {t : State} (h : t.telemetry = s.telemetry) : t.telemetry = s.telemetry.counted 0 := by
    rw [h, Telemetry.counted_zero]
  cases deed with
  | asked access =>
      apply hkept
      cases access with
      | read attr now => exact (Attribute.owes_read attr now s).telemetry_eq
      | write attr offset data now =>
          by_cases hreset : (attr.write offset data now s).value = .ok .factoryReset
          · exact congrArg Owing.telemetry (Attribute.owing_reset hreset)
          · exact (Attribute.owes_write hreset).telemetry_eq
  | took turn now =>
      have htelemetry := congrArg Owing.telemetry (turn.owing_perform now s)
      obtain ⟨slot, sent⟩ := turn
      cases sent with
      | none => exact hkept htelemetry
      | some payload => exact htelemetry

theorem State.telemetry_afterDeeds (s : State) (deeds : List Deed) :
    (s.afterDeeds deeds).telemetry = s.telemetry.counted (sendings deeds) := by
  induction deeds generalizing s with
  | nil => exact s.telemetry.counted_zero.symm
  | cons deed rest ih =>
      have hfirst := Moment.telemetry_after ⟨s, deed⟩
      have hsplit := sendings_append [deed] rest
      rw [List.singleton_append] at hsplit
      rw [hsplit, ← Telemetry.counted_counted, ← hfirst]
      exact ih _

theorem Entry.telemetry_after {x : Entry} (hphase : x.before.1.InPhase)
    (htold : x.before.1.state.pendingEvents = []) :
    x.after.1.state.telemetry =
      x.request.measured (x.before.1.state.telemetry.counted (sendings x.deeds)) := by
  obtain ⟨t, clock, clockDirty, hrounds, hafter⟩ := x.rounds hphase
  have hreplays := (replays_asked htold).trans (hrounds.replays none)
  have htelemetry : t.telemetry = x.before.1.state.telemetry.counted (sendings x.deeds) :=
    (congrArg State.telemetry hreplays.state).symm.trans
      (x.before.1.state.hush.telemetry_afterDeeds x.deeds)
  rw [hafter, htelemetry]

namespace Device

variable {config : Config} {store : Store} {start d : Device} {history : History}

theorem telemetry_of_run (hbooted : Booted config store start) (hrun : Run start history d) :
    d.1.state.telemetry.batteryMv = history.battery ∧
      d.1.state.telemetry.temperature = history.temperature ∧
      d.1.state.telemetry.pduCount = UInt32.ofNat (sendings history.deeds) := by
  induction hrun with
  | start =>
      rw [hbooted.newborn.1]
      exact ⟨rfl, rfl, rfl⟩
  | @serve history d request hrun ih =>
      obtain ⟨hbattery, htemperature, hcount⟩ := ih
      have hreach := Reachable.of_run (.boot hbooted) hrun
      have hafter := Entry.telemetry_after (x := ⟨d, request⟩) hreach.inPhase hreach.pendingEvents
      rw [Request.measured_eq] at hafter
      rw [History.battery_concat, History.temperature_concat, History.deeds_concat, ← hbattery,
        ← htemperature, sendings_append, UInt32.ofNat_add, ← hcount]
      exact ⟨congrArg Telemetry.batteryMv hafter, congrArg Telemetry.temperature hafter,
        congrArg Telemetry.pduCount hafter⟩

/-- A state that the beacon is in when it has been asked for nothing, or some deeds into what it is
asked for. -/
inductive Amid (d : Device) : List Deed → State → Prop
  | rest : Amid d [] d.1.state
  | midst (request : Request) {earlier later : List Deed} :
      Entry.deeds ⟨d, request⟩ = earlier ++ later →
      Amid d earlier (d.1.state.hush.afterDeeds earlier)

theorem Amid.currentTelemetry {earlier : List Deed} {s : State} (hamid : d.Amid earlier s)
    (hbooted : Booted config store start) (hrun : Run start history d) (now : Nat) :
    s.currentTelemetry now = history.report earlier now := by
  obtain ⟨hbattery, htemperature, hcount⟩ := telemetry_of_run hbooted hrun
  have htelemetry : s.telemetry = d.1.state.telemetry.counted (sendings earlier) := by
    cases hamid with
    | rest => exact d.1.state.telemetry.counted_zero.symm
    | midst request _ => exact d.1.state.hush.telemetry_afterDeeds earlier
  rw [State.currentTelemetry, History.report, htelemetry, ← hbattery, ← htemperature,
    sendings_append, UInt32.ofNat_add, ← hcount]
  rfl

/-- The host gives a voltage. -/
def given (start : Device) : Device :=
  (serve (.command (.updateBattery 3000) 0) start).state

/-- The host gives a voltage, and then has the slots take their turns. -/
def begun (start : Device) : Device :=
  (serve (.command .startBeacon 0) (given start)).state

end Device

end Beacon

import Beacon.Device
import Mathlib.Tactic.Common

/-!
# Runs of a device

The outside world asks a device one thing after the other: a central reads and
writes attributes, the host polls and saves, the radio stack reports.  A run
remembers everything that was asked and the device it was asked of, so that
what a device answered can be read off the history.

A device is reachable over a store when it was started from the store, perhaps
many times, and then asked anything.
-/

namespace Beacon

/-- One thing asked of a device. -/
inductive Request where
  | read (attr : Attribute) (now : Nat)
  | write (attr : Attribute) (offset : Nat) (data : Bytes) (now : Nat)
  | poll (now : Nat)
  | radioEvent (event : RadioEvent) (now : Nat)
  | command (command : Command) (now : Nat)
  | saveIfDirty (now : Nat)

inductive Answer where
  | value (result : Except Fault Bytes)
  | done (result : Except Fault Unit)
  | saved (written : Bool)
  | silent

namespace Device

def serve (request : Request) : Act Device Answer := do
  match request with
  | .read attr now => return .value (← onEngine (Engine.readAttribute attr now))
  | .write attr offset data now =>
    return .done (← onEngine (Engine.writeAttribute attr offset data now))
  | .poll now =>
    onEngine (Engine.poll now)
    return .silent
  | .radioEvent event now =>
    radioEvent event now
    return .silent
  | .command command now => return .done (← Device.command command now)
  | .saveIfDirty now => return .saved (← saveIfDirty now)

/-- The device was started from the store. -/
def Booted (config : Config) (store : Store) (d : Device) : Prop :=
  ∃ radio entropy now engine,
    (boot radio config entropy now store).value = .ok engine ∧
      d = (engine, (boot radio config entropy now store).state)

/-- The device was started over the store, some number of times, and then asked anything. -/
inductive Reachable (config : Config) (store : Store) : Device → Prop
  | boot {d : Device} : Booted config store d → Reachable config store d
  | serve {d : Device} (request : Request) :
      Reachable config store d → Reachable config store (Device.serve request d).state
  | reboot {d d' : Device} :
      Reachable config store d → Booted config d.2 d' → Reachable config store d'

end Device

structure Entry where
  before : Device
  request : Request

namespace Entry

def answer (x : Entry) : Answer :=
  (Device.serve x.request x.before).value

def after (x : Entry) : Device :=
  (Device.serve x.request x.before).state

end Entry

abbrev History := List Entry

/-- Something has been opened and has not been closed again. -/
def History.Since (opens closes : Entry → Prop) (history : History) : Prop :=
  ∃ earlier x later, history = earlier ++ x :: later ∧ opens x ∧ ∀ y ∈ later, ¬closes y

theorem History.not_since_nil (opens closes : Entry → Prop) : ¬History.Since opens closes [] := by
  rintro ⟨earlier, x, later, h, -⟩
  simp at h

theorem History.since_append {opens closes : Entry → Prop} {history : History} {x : Entry} :
    History.Since opens closes (history ++ [x]) ↔
      opens x ∨ (History.Since opens closes history ∧ ¬closes x) := by
  constructor
  · rintro ⟨earlier, y, later, h, hopens, hlater⟩
    rcases List.eq_nil_or_concat later with rfl | ⟨later, z, rfl⟩
    · obtain ⟨-, hx⟩ := List.append_inj' h rfl
      cases hx
      exact .inl hopens
    · rw [List.concat_eq_append, ← List.cons_append, ← List.append_assoc] at h
      obtain ⟨rfl, hz⟩ := List.append_inj' h rfl
      cases hz
      simp only [List.concat_eq_append, List.mem_append, List.mem_singleton] at hlater
      exact .inr ⟨⟨earlier, y, later, rfl, hopens, fun z hz => hlater z (.inl hz)⟩,
        hlater x (.inr rfl)⟩
  · rintro (hopens | ⟨⟨earlier, y, later, rfl, hopens, hlater⟩, hcloses⟩)
    · exact ⟨history, x, [], rfl, hopens, by simp⟩
    · refine ⟨earlier, y, later ++ [x], by simp, hopens, ?_⟩
      intro z hz
      rcases List.mem_append.mp hz with hz | hz
      · exact hlater z hz
      · rw [List.mem_singleton.mp hz]
        exact hcloses

/-- What the device has been asked since it was started, oldest first. -/
inductive Run (start : Device) : History → Device → Prop
  | start : Run start [] start
  | serve {history : History} {d : Device} (request : Request) :
      Run start history d → Run start (history ++ [⟨d, request⟩]) (Device.serve request d).state

namespace Device

theorem Reachable.of_run {config : Config} {store : Store} {start d : Device} {history : History}
    (hstart : Reachable config store start) (hrun : Run start history d) :
    Reachable config store d := by
  induction hrun with
  | start => exact hstart
  | serve request _ ih => exact ih.serve request

/-- A property of devices that a start establishes and every request preserves. -/
theorem Reachable.invariant {config : Config} {P : Device → Prop}
    (hboot : ∀ {store d}, Booted config store d → P d)
    (hserve : ∀ {d} (request : Request), P d → P (Device.serve request d).state)
    {store : Store} {d : Device} (hreach : Reachable config store d) : P d := by
  induction hreach with
  | boot hstart => exact hboot hstart
  | serve request _ ih => exact hserve request ih
  | reboot _ hstart _ => exact hboot hstart

end Device

end Beacon

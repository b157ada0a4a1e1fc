import Beacon.Proofs.Broadcasts
import Beacon.Proofs.Renewals

/-!
# What is still to be told

A new identifier leaves an address that the next advert takes along, an event, and
a clock to be saved.  Nothing else that a central does or that happens to a slot
adds to them, and only a factory reset takes the address back and sets the clock to
zero.  Telemetry is counted by the adverts that the radio takes, and by nothing
else.
-/

namespace Beacon

variable {now : Nat}

def Event.isRotation : Event → Bool
  | .eidRotated _ _ => true
  | _ => false

/-- What is still to be told, to the radio, to the host or to the store. -/
structure Owing where
  pendingAddress : Option (Octets 6)
  pendingEvents : List Event
  telemetry : Telemetry
  clock : Clock
  clockDirty : Bool

namespace State

def owing (s : State) : Owing where
  pendingAddress := s.pendingAddress
  pendingEvents := s.pendingEvents
  telemetry := s.telemetry
  clock := s.clock
  clockDirty := s.clockDirty

/-- The state owes nothing new, or what follows from a rotation at that time. -/
def Owes (now : Nat) (s t : State) : Prop :=
  t.owing = s.owing ∨ ∃ i tx id, t.owing = (s.rotated i tx id now).owing

theorem Owes.congr {s t u : State} (h : Owes now s t) (heq : u.owing = t.owing) : Owes now s u := by
  rcases h with h | ⟨i, tx, id, h⟩
  · exact .inl (heq.trans h)
  · exact .inr ⟨i, tx, id, heq.trans h⟩

theorem owes_rotateIfDue (slot now : Nat) (s : State) :
    Owes now s (rotateIfDue slot now s).state := by
  rcases rotateIfDue_cases slot now s with ⟨notes, h⟩ | ⟨i, tx, old, id, -, -, -, -, h⟩
  · rw [h]
    exact .inl rfl
  · rw [h]
    exact .inr ⟨i, tx, id, rfl⟩

theorem owes_liveFrame (slot now : Nat) (s : State) : Owes now s (liveFrame slot now s).state := by
  obtain ⟨rng, cursor, h⟩ := liveFrame_state slot now s
  rw [h]
  exact (owes_rotateIfDue slot now s).congr rfl

end State

open State

namespace Attribute

theorem owes_read (attr : Attribute) (now : Nat) (s : State) :
    Owes now s (attr.read now s).state := by
  obtain ⟨t, lock, rng, cursor, ht, hstate⟩ := read_state attr now s
  have howes : Owes now s t := by
    cases ht with
    | inl h => exact .inl (congrArg owing h)
    | inr h => exact h ▸ owes_rotateIfDue _ now s
  rw [hstate]
  exact howes.congr rfl

theorem owing_clearActive (s : State) :
    ((do updateActive Slot.clear; return .ok () : Act State (Except Fault Unit)) s).state.owing =
      s.owing := rfl

theorem owing_writeUid (payload : Bytes) : Act.Keeps owing (writeUid payload) := by
  intro s
  unfold writeUid
  split
  · rfl
  · split <;> rfl

theorem owing_writeUrl (payload : Bytes) : Act.Keeps owing (writeUrl payload) := by
  intro s
  unfold writeUrl
  split
  · rfl
  · split
    · rfl
    · cases Url.expand payload with
      | error fault => rfl
      | ok text => cases EncodedUrl.ofBytes payload <;> rfl

theorem owing_writeTlm (payload : Bytes) : Act.Keeps owing (writeTlm payload) := by
  intro s
  unfold writeTlm
  split <;> rfl

theorem owes_writeEid {payload : Bytes} (hpayload : payload ≠ []) {s : State}
    (h : (writeEid payload now s).value = .ok ()) : Owes now s (writeEid payload now s).state := by
  obtain ⟨key, -, -, hstate⟩ := writeEid_cases hpayload h
  rw [hstate]
  -- The key goes in before the rotation, and has no part in what is owed.
  rcases owes_rotateIfDue s.slots.active now _ with howing | ⟨i, tx, id, howing⟩
  · exact .inl howing
  · exact .inr ⟨i, tx, id, howing⟩

theorem owing_writeFrame {code : UInt8} {payload : Bytes} {s : State}
    (hkeyless : ¬(code = FrameKind.eid.code ∧ payload ≠ [])) :
    (writeFrame code payload now s).state.owing = s.owing := by
  unfold writeFrame
  cases hkind : FrameKind.ofCode code with
  | error fault => exact owing_clearActive s
  | ok kind =>
      cases kind with
      | uid => exact owing_writeUid payload s
      | url => exact owing_writeUrl payload s
      | tlm => exact owing_writeTlm payload s
      | eid =>
          have hcode : code = FrameKind.eid.code := Frame.code_of_ofCode hkind
          have hpayload : payload = [] := by
            by_contra hne
            exact hkeyless ⟨hcode, hne⟩
          rw [hpayload]
          rfl

theorem owing_writeSlotData {data : Bytes} {s : State} {effect : WriteEffect}
    (h : (writeSlotData data now s).value = .ok effect)
    (hkeyless : ¬BringsKey s s.slots.active .advSlotData data) :
    (writeSlotData data now s).state.owing = s.owing := by
  cases data with
  | nil => rfl
  | cons code payload =>
      rw [(writeSlotData_of_ok h).2]
      apply owing_writeFrame
      rintro ⟨rfl, hpayload⟩
      exact hkeyless (.identity rfl hpayload)

theorem owing_writeInterval (data : Bytes) : Act.Keeps owing (writeInterval data) := by
  intro s
  unfold writeInterval
  split <;> rfl

theorem owing_writeRadioTx (data : Bytes) : Act.Keeps owing (writeRadioTx data) := by
  intro s
  unfold writeRadioTx
  split <;> rfl

theorem owing_writeAdvTx (data : Bytes) : Act.Keeps owing (writeAdvTx data) := by
  intro s
  unfold writeAdvTx
  split <;> rfl

theorem owing_writeActiveSlot (data : Bytes) : Act.Keeps owing (writeActiveSlot data) := by
  intro s
  rcases writeActiveSlot_cases data s with ⟨fault, heq⟩ | ⟨active, heq⟩
  · rw [heq]
  · rw [heq]
    rfl

theorem owing_writeConnectable (data : Bytes) : Act.Keeps owing (writeConnectable data) := by
  intro s
  rcases writeConnectable_cases data s with ⟨fault, heq⟩ | ⟨on, heq⟩
  · rw [heq]
  · rw [heq]
    rfl

theorem owing_writeLock (data : Bytes) : Act.Keeps owing (writeLock data) := by
  intro s
  rcases writeLock_cases data s with ⟨fault, -, heq⟩ | ⟨lock, -, -, heq⟩
  · rw [heq]
  · rw [heq]
    rfl

theorem owing_writeReset {data : Bytes} {s : State}
    (h : (writeReset data s).value ≠ .ok .factoryReset) :
    (writeReset data s).state.owing = s.owing := by
  rcases writeReset_cases data s with
    ⟨fault, -, hstate⟩ | ⟨-, -, hstate⟩ | ⟨flag, slots, identity, rng, -, -, -, hvalue, -⟩
  · rw [hstate]
  · rw [hstate]
  · exact absurd hvalue h

/-- A write that brings no key and resets nothing leaves nothing to be told. -/
theorem owing_writeValue {attr : Attribute} {data : Bytes} {s : State} {effect : WriteEffect}
    (h : (writeValue attr data now s).value = .ok effect) (heffect : effect ≠ .factoryReset)
    (hkeyless : ¬BringsKey s s.slots.active attr data) :
    (writeValue attr data now s).state.owing = s.owing := by
  cases attr with
  | capabilities => rfl
  | publicEcdhKey => rfl
  | eidIdentityKey => rfl
  | advSlotData => exact owing_writeSlotData h hkeyless
  | advInterval => exact owing_writeInterval data s
  | radioTxPower => exact owing_writeRadioTx data s
  | advTxPower => exact owing_writeAdvTx data s
  | activeSlot => exact owing_writeActiveSlot data s
  | remainConnectable => exact owing_writeConnectable data s
  | lockState => exact owing_writeLock data s
  | unlock =>
      rw [writeValue, writeUnlock_state]
      rfl
  | factoryReset =>
      have hvalue : (writeReset data s).value = .ok effect := h
      have hspared : (writeReset data s).value ≠ .ok .factoryReset := by
        intro hreset
        exact heffect (Except.ok.inj (hvalue.symm.trans hreset))
      exact owing_writeReset hspared

theorem owes_writeValue {attr : Attribute} {data : Bytes} {s : State} {effect : WriteEffect}
    (h : (writeValue attr data now s).value = .ok effect) (heffect : effect ≠ .factoryReset) :
    Owes now s (writeValue attr data now s).state := by
  by_cases hbrings : BringsKey s s.slots.active attr data
  · cases hbrings with
    | identity _ hpayload =>
        obtain ⟨hframe, hstate⟩ := writeSlotData_of_ok h
        rw [writeValue, hstate]
        exact owes_writeEid hpayload hframe
    | @reset flag hflag =>
        rcases writeReset_cases [flag] s with
          ⟨fault, hvalue, -⟩ | ⟨hdata, -⟩ | ⟨-, slots, identity, rng, -, -, -, hvalue, -⟩
        · cases hvalue.symm.trans h
        · exact absurd (List.singleton_inj.mp hdata) hflag
        · exact absurd (Except.ok.inj (h.symm.trans hvalue)) heffect
  · exact .inl (owing_writeValue h heffect hbrings)

theorem owing_reset {attr : Attribute} {offset : Nat} {data : Bytes} {s : State}
    (h : (attr.write offset data now s).value = .ok .factoryReset) :
    (attr.write offset data now s).state.owing =
      ⟨none, s.pendingEvents, s.telemetry, .zero, false⟩ := by
  obtain ⟨rfl, -⟩ := (effect_eq_factoryReset_iff h).mp rfl
  have hwrite := (write_of_ok h).2
  rw [hwrite, writeValue] at h ⊢
  rcases writeReset_cases data s with
    ⟨fault, hvalue, -⟩ | ⟨-, hvalue, -⟩ | ⟨flag, slots, identity, rng, -, -, -, -, hstate⟩
  · cases h.symm.trans hvalue
  · cases h.symm.trans hvalue
  · rw [hstate]
    rfl

/-- Only a factory reset takes away the address that waits. -/
theorem owes_write {attr : Attribute} {offset : Nat} {data : Bytes} {s : State}
    (h : (attr.write offset data now s).value ≠ .ok .factoryReset) :
    Owes now s (attr.write offset data now s).state := by
  cases hwrite : (attr.write offset data now s).value with
  | error fault =>
      have houtcome := outcome_write attr offset data now s
      rw [hwrite] at houtcome
      rcases houtcome.state_of_error with hstate | ⟨-, -, hstate⟩
      · rw [hstate]
        exact .inl rfl
      · rw [hstate]
        exact .inl rfl
  | ok effect =>
      have heffect : effect ≠ .factoryReset := fun heq => h (heq ▸ hwrite)
      have hvalue := (write_of_ok hwrite).2
      rw [hvalue] at hwrite ⊢
      exact owes_writeValue hwrite heffect

end Attribute

theorem State.Owes.telemetry_eq {s t : State} (h : Owes now s t) : t.telemetry = s.telemetry := by
  rcases h with h | ⟨i, tx, id, h⟩ <;> exact congrArg Owing.telemetry h

/-! ## Turns -/

namespace State

/-- Only the address is handed over. -/
theorem owing_prepare (slot now : Nat) (s : State) :
    (State.prepare slot now s).state.owing =
      { (liveFrame slot now s).state.owing with
        pendingAddress := (State.prepare slot now s).state.pendingAddress } := by
  cases hvalue : (State.prepare slot now s).value with
  | none =>
      rw [prepare_state_of_none hvalue]
      rfl
  | some advert =>
      obtain ⟨frame, held, -, -, -, -, -, -, hstate⟩ := prepare_eq_of_some hvalue
      rw [hstate]
      rfl

end State

namespace Turn

/-- The slot is brought up to date, the address is handed over if there is a payload, and a payload
that the radio has taken is counted. -/
theorem owing_perform (turn : Turn) (now : Nat) (s : State) :
    (turn.perform now s).state.owing =
      { (State.liveFrame turn.slot now s).state.owing with
        pendingAddress := (State.prepare turn.slot now s).state.pendingAddress
        telemetry := if turn.sent.isSome then s.countAdvert.telemetry else s.telemetry } := by
  have howing := State.owing_prepare turn.slot now s
  have htelemetry : (State.prepare turn.slot now s).state.telemetry = s.telemetry :=
    (congrArg Owing.telemetry howing).trans (owes_liveFrame turn.slot now s).telemetry_eq
  rw [countAdvert, ← htelemetry]
  simp only [perform, Act.bind_apply, Done.state_after]
  generalize (State.prepare turn.slot now s).state = prepared at howing ⊢
  split
  · exact congrArg (fun owing => { owing with telemetry := prepared.countAdvert.telemetry }) howing
  · exact congrArg (fun owing => { owing with telemetry := prepared.telemetry }) howing

end Turn

end Beacon

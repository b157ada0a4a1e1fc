import Beacon.Proofs.Moments

/-!
# What becomes of an identifier

A deed leaves the identifier of a slot alone, or puts that of the time in its
place, or makes a new one due at once.  A key never comes without one of the
latter two, so that no identifier outlives the key it was computed from.
-/

namespace Beacon

open Act

variable {α : Type}

/-! ## Identifiers that are computed -/

namespace Ephemeral

theorem identifier_of_le {exponent : UInt8} (h : exponent ≤ maxExponent) (key : Key)
    (seconds : UInt32) : ∃ id, identifier key exponent seconds = .ok id := by
  rw [identifier, if_neg (UInt8.not_lt.mpr h)]
  exact ⟨_, rfl⟩

theorem exponent_le_of_identifier {key : Key} {exponent : UInt8} {seconds : UInt32} {id : Octets 8}
    (h : identifier key exponent seconds = .ok id) : exponent ≤ maxExponent := by
  rw [identifier] at h
  split at h
  · cases h
  next hle => exact UInt8.not_lt.mp hle

end Ephemeral

/-- The identifier that the slot sends. -/
def Slot.id? (slot : Slot) : Option (Octets 8) :=
  match slot.frame with
  | some (.eid _ id) => some id
  | _ => none

/-- A slot goes on under the same key, and with no other identifier. -/
structure Slot.Retains (old new : Slot) : Prop where
  key : new.key = old.key
  exponent : new.exponent = old.exponent
  nextRotation : new.nextRotation = old.nextRotation
  id : ∀ id, new.id? = some id → old.id? = some id

namespace Slot

theorem retains_refl (slot : Slot) : slot.Retains slot :=
  ⟨rfl, rfl, rfl, fun _ h => h⟩

theorem retains_of_frame {slot : Slot} {frame : Option Frame}
    (h : ∀ tx id, frame ≠ some (.eid tx id)) : slot.Retains { slot with frame } := by
  constructor
  · rfl
  · rfl
  · rfl
  · intro id hid
    cases frame with
    | none => cases hid
    | some frame =>
        cases frame with
        | eid tx held => exact absurd rfl (h tx held)
        | uid tx address => cases hid
        | url tx address => cases hid
        | tlm telemetry => cases hid
        | etlm telemetry => cases hid

theorem retains_clear (slot : Slot) : slot.Retains slot.clear :=
  retains_of_frame (by simp)

theorem retains_setAdvTx (tx : Int8) (slot : Slot) : slot.Retains (slot.setAdvTx tx) := by
  constructor
  · rfl
  · rfl
  · rfl
  · intro id hid
    rw [id?] at hid ⊢
    cases hframe : slot.frame with
    | none => simp [setAdvTx, hframe] at hid
    | some frame => cases frame <;> simp_all [setAdvTx, Frame.setTx]

end Slot

theorem Slots.nextRotation_factorySlot {config : Config} {i : SlotIndex} {slot : Slot}
    (h : factorySlot config i = .ok slot) :
    slot.nextRotation = 0 ∧ slot.exponent = config.slotExponents.value i := by
  simp only [factorySlot, bind, Except.bind] at h
  split at h
  · cases h
  · cases h
    exact ⟨rfl, rfl⟩

/-- What a step at a time does to the identifier of a slot.  One that brings a key does not leave
the identifier alone. -/
inductive Renewal (bringsKey : Prop) (i : SlotIndex) (now : Nat) (s t : State) : Prop
  | retained : ¬bringsKey → (s.slots.table.value i).Retains (t.slots.table.value i) →
      t.clock.prior = s.clock.prior → Renewal bringsKey i now s t
  | rotated (tx : Int8) (id : Octets 8) :
      (t.slots.table.value i).frame = some (.eid tx id) →
      Ephemeral.identifier (t.slots.table.value i).key (t.slots.table.value i).exponent
        (s.clock.time now) = .ok id →
      (t.slots.table.value i).nextRotation = saturate32 ((s.clock.time now).toNat +
        Ephemeral.period (t.slots.table.value i).exponent) →
      t.clock.prior = s.clock.prior → .eidRotated i (s.clock.time now) ∈ t.pendingEvents →
      Renewal bringsKey i now s t
  | due : (t.slots.table.value i).nextRotation = 0 →
      (t.slots.table.value i).exponent ≤ Ephemeral.maxExponent → Renewal bringsKey i now s t

namespace State

/-- The part of a state that tells how identifiers are renewed. -/
def renewing (s : State) : Slots × Clock × List Event :=
  (s.slots, s.clock, s.pendingEvents)

end State

namespace Renewal

variable {bringsKey : Prop} {i : SlotIndex} {now : Nat} {s t u : State}

theorem refl (i : SlotIndex) (now : Nat) (s : State) : Renewal False i now s s :=
  .retained not_false (Slot.retains_refl _) rfl

theorem imp {other : Prop} (h : Renewal bringsKey i now s t) (hother : other → bringsKey) :
    Renewal other i now s t := by
  cases h with
  | retained hnot hretains hprior => exact .retained (fun h => hnot (hother h)) hretains hprior
  | rotated tx id hframe hid hnext hprior hevent =>
      exact .rotated tx id hframe hid hnext hprior hevent
  | due hnext hexponent => exact .due hnext hexponent

/-- What brings a key does not depend on the slot that was there before. -/
theorem rebase (h : Renewal True i now s t) (hclock : u.clock = s.clock) :
    Renewal bringsKey i now u t := by
  cases h with
  | retained hnot => exact absurd trivial hnot
  | rotated tx id hframe hid hnext hprior hevent =>
      rw [← hclock] at hid hnext hprior hevent
      exact .rotated tx id hframe hid hnext hprior hevent
  | due hnext hexponent => exact .due hnext hexponent

theorem congr (h : Renewal bringsKey i now s t) (heq : u.renewing = t.renewing) :
    Renewal bringsKey i now s u := by
  have hslots : u.slots = t.slots := congrArg Prod.fst heq
  have hclock : u.clock = t.clock := congrArg (fun x => x.2.1) heq
  have hevents : u.pendingEvents = t.pendingEvents := congrArg (fun x => x.2.2) heq
  cases h with
  | retained hnot hretains hprior =>
      rw [← hslots] at hretains
      rw [← hclock] at hprior
      exact .retained hnot hretains hprior
  | rotated tx id hframe hid hnext hprior hevent =>
      rw [← hslots] at hframe hid hnext
      rw [← hclock] at hprior
      rw [← hevents] at hevent
      exact .rotated tx id hframe hid hnext hprior hevent
  | due hnext hexponent =>
      rw [← hslots] at hnext hexponent
      exact .due hnext hexponent

end Renewal

/-- The identifier of the slot is left alone. -/
structure State.Retains (i : SlotIndex) (s t : State) : Prop where
  slot : (s.slots.table.value i).Retains (t.slots.table.value i)
  prior : t.clock.prior = s.clock.prior

namespace State.Retains

variable {i : SlotIndex} {s t : State}

theorem refl (i : SlotIndex) (s : State) : s.Retains i s :=
  ⟨Slot.retains_refl _, rfl⟩

theorem of_table (htable : t.slots.table = s.slots.table) (hclock : t.clock = s.clock) :
    s.Retains i t := by
  constructor
  · rw [htable]
    exact Slot.retains_refl _
  · rw [hclock]

end State.Retains

/-! ## What happens by itself -/

namespace State

theorem mem_enqueueEvent (event : Event) (s : State) :
    event ∈ (s.enqueueEvent event).pendingEvents :=
  List.mem_append_right _ (List.mem_singleton_self event)

theorem value_rotated (s : State) (i j : SlotIndex) (tx : Int8) (id : Octets 8) (now : Nat) :
    (s.rotated i tx id now).slots.table.value j =
      if i = j then
        { s.slots.table.value i with
          frame := some (.eid tx id)
          nextRotation := saturate32 ((s.clock.time now).toNat +
            Ephemeral.period (s.slots.table.value i).exponent) }
      else s.slots.table.value j :=
  Slots.value_modify i j _ s.slots

theorem activeSlot_rotated (s : State) (tx : Int8) (id : Octets 8) (now : Nat) :
    (s.rotated s.slots.active tx id now).slots.activeSlot =
      { s.slots.activeSlot with
        frame := some (.eid tx id)
        nextRotation := saturate32 ((s.clock.time now).toNat +
          Ephemeral.period s.slots.activeSlot.exponent) } := by
  have hvalue := s.value_rotated s.slots.active s.slots.active tx id now
  rw [if_pos rfl] at hvalue
  exact hvalue

theorem renewal_rotated_self {bringsKey : Prop} {s : State} {i : SlotIndex} {tx : Int8}
    {id : Octets 8} {now : Nat}
    (hid : Ephemeral.identifier (s.slots.table.value i).key (s.slots.table.value i).exponent
      (s.clock.time now) = .ok id) : Renewal bringsKey i now s (s.rotated i tx id now) := by
  have hvalue := s.value_rotated i i tx id now
  rw [if_pos rfl] at hvalue
  refine .rotated tx id ?_ ?_ ?_ rfl (mem_enqueueEvent _ _)
  · rw [hvalue]
  · rw [hvalue]
    exact hid
  · rw [hvalue]

theorem renewal_rotated {s : State} {i : SlotIndex} {tx : Int8} {id : Octets 8} {now : Nat}
    (hid : Ephemeral.identifier (s.slots.table.value i).key (s.slots.table.value i).exponent
      (s.clock.time now) = .ok id) (j : SlotIndex) :
    Renewal False j now s (s.rotated i tx id now) := by
  by_cases hij : i = j
  · subst hij
    exact renewal_rotated_self hid
  · refine .retained not_false ?_ rfl
    rw [s.value_rotated, if_neg hij]
    exact Slot.retains_refl _

theorem renewal_rotateIfDue (slot now : Nat) (s : State) (j : SlotIndex) :
    Renewal False j now s (rotateIfDue slot now s).state := by
  rcases rotateIfDue_cases slot now s with ⟨notes, h⟩ | ⟨i, tx, old, id, -, -, -, hid, h⟩
  · rw [h]
    exact .refl j now s
  · rw [h]
    exact renewal_rotated hid j

/-- An identifier that is due is computed. -/
theorem rotateIfDue_of_eid {s : State} {i : SlotIndex} {tx : Int8} {old : Octets 8}
    (hframe : (s.slots.table.value i).frame = some (.eid tx old))
    (hexponent : (s.slots.table.value i).exponent ≤ Ephemeral.maxExponent) (now : Nat) :
    (s.clock.time now < (s.slots.table.value i).nextRotation ∧
        (rotateIfDue i now s).state = s) ∨
      ∃ id, Ephemeral.identifier (s.slots.table.value i).key (s.slots.table.value i).exponent
          (s.clock.time now) = .ok id ∧
        (rotateIfDue i now s).state = s.rotated i tx id now := by
  obtain ⟨id, hid⟩ := Ephemeral.identifier_of_le hexponent (s.slots.table.value i).key
    (s.clock.time now)
  unfold rotateIfDue
  rw [dif_pos i.isLt]
  simp only [Act.bind_apply, Act.get_apply, Done.after_nil, hframe, Fin.eta]
  split
  next hearly => exact .inl ⟨hearly, rfl⟩
  next =>
    rw [hid]
    exact .inr ⟨id, rfl, rfl⟩

/-- A key comes with a deadline of zero, so that the zeros in place of the identifier are never
kept. -/
theorem rotateIfDue_keyed (key : Key) {exponent : UInt8}
    (hexponent : exponent ≤ Ephemeral.maxExponent) (now : Nat) (s : State) :
    ∃ id, Ephemeral.identifier key exponent (s.clock.time now) = .ok id ∧
      (rotateIfDue s.slots.active now (s.keyed key exponent)).state =
        (s.keyed key exponent).rotated s.slots.active s.slots.activeSlot.advTx id now := by
  have hactive : (s.keyed key exponent).slots.table.value s.slots.active =
      s.slots.activeSlot.keyed key exponent := s.activeSlot_keyed key exponent
  have hframe : ((s.keyed key exponent).slots.table.value s.slots.active).frame =
      some (.eid s.slots.activeSlot.advTx (Octets.zero 8)) := by
    rw [hactive]
    rfl
  have hbounded : ((s.keyed key exponent).slots.table.value s.slots.active).exponent ≤
      Ephemeral.maxExponent := by
    rw [hactive]
    exact hexponent
  rcases rotateIfDue_of_eid hframe hbounded now with ⟨hearly, -⟩ | ⟨id, hid, hrotated⟩
  · rw [hactive] at hearly
    exact absurd hearly UInt32.not_lt_zero
  · rw [hactive] at hid
    exact ⟨id, hid, hrotated⟩

/-- Telemetry takes random bits and moves the cursor. -/
theorem telemetryFrame_state (now : Nat) (s : State) :
    ∃ rng cursor, (telemetryFrame now s).state = { s with rng, sealingCursor := cursor } := by
  simp only [telemetryFrame, Act.bind_apply, Done.state_after]
  rcases sealTelemetry_cases now s with ⟨-, h⟩ | ⟨i, -, h⟩
  · rw [h]
    exact ⟨s.rng, s.sealingCursor, rfl⟩
  · rw [h]
    exact ⟨_, _, rfl⟩

/-- Once a slot is brought up to date, telemetry is all that can follow. -/
theorem liveFrame_state (slot now : Nat) (s : State) :
    ∃ rng cursor, (liveFrame slot now s).state =
      { (rotateIfDue slot now s).state with rng, sealingCursor := cursor } := by
  simp only [liveFrame, Act.bind_apply, Act.get_apply, Done.after_nil, Done.state_after]
  generalize (rotateIfDue slot now s).state = rotated
  have hsame : ∃ rng cursor, rotated = { rotated with rng, sealingCursor := cursor } :=
    ⟨rotated.rng, rotated.sealingCursor, rfl⟩
  cases (rotated.slots.slot? slot).bind Slot.frame with
  | none => exact hsame
  | some frame =>
      cases frame with
      | tlm telemetry => exact telemetryFrame_state now rotated
      | uid tx id => exact hsame
      | url tx address => exact hsame
      | etlm telemetry => exact hsame
      | eid tx id => exact hsame

theorem renewing_liveFrame (slot now : Nat) (s : State) :
    (liveFrame slot now s).state.renewing = (rotateIfDue slot now s).state.renewing := by
  obtain ⟨rng, cursor, h⟩ := liveFrame_state slot now s
  rw [h]
  rfl

theorem renewing_prepare (slot now : Nat) (s : State) :
    (State.prepare slot now s).state.renewing = (rotateIfDue slot now s).state.renewing := by
  rw [← renewing_liveFrame]
  simp only [State.prepare, Act.bind_apply, Done.state_after]
  generalize (liveFrame slot now s).state = live
  cases (liveFrame slot now s).value with
  | none => rfl
  | some frame =>
      simp only
      cases Advert.ofFrame frame with
      | error fault => rfl
      | ok payload =>
          simp only [Act.bind_apply, Act.get_apply, Done.after_nil]
          cases live.slots.slot? slot <;> rfl

end State

theorem Turn.renewing_perform (turn : Turn) (now : Nat) (s : State) :
    (turn.perform now s).state.renewing = (State.rotateIfDue turn.slot now s).state.renewing := by
  have hcounted : (turn.perform now s).state.renewing =
      (State.prepare turn.slot now s).state.renewing := by
    simp only [perform, Act.bind_apply, Done.state_after]
    split
    · rfl
    · rfl
  rw [hcounted, State.renewing_prepare]

theorem Turn.renewal_perform (turn : Turn) (now : Nat) (s : State) (i : SlotIndex) :
    Renewal False i now s (turn.perform now s).state := by
  have hrotated := State.renewal_rotateIfDue turn.slot now s i
  exact hrotated.congr (turn.renewing_perform now s)

/-! ## Reads -/

namespace Attribute

/-- What a read leaves: the slot may have been brought up to date, a challenge may have been given
and telemetry sealed. -/
theorem read_state (attr : Attribute) (now : Nat) (s : State) :
    ∃ t lock rng cursor, (t = s ∨ t = (State.rotateIfDue s.slots.active now s).state) ∧
      (attr.read now s).state = { t with lock, rng, sealingCursor := cursor } := by
  have hsame : ∃ t lock rng cursor, (t = s ∨ t = (State.rotateIfDue s.slots.active now s).state) ∧
      s = { t with lock, rng, sealingCursor := cursor } :=
    ⟨s, s.lock, s.rng, s.sealingCursor, .inl rfl, rfl⟩
  simp only [read, Act.bind_apply, Act.get_apply, Done.after_nil]
  split
  · exact hsame
  · simp only [readValue, Act.bind_apply, Act.get_apply, Done.after_nil]
    cases attr with
    | advSlotData =>
        simp only [readSlotData, Act.bind_apply, Act.get_apply, Done.after_nil]
        cases s.slots.activeSlot.frame with
        | none => exact hsame
        | some frame =>
            cases hkind : frame.kind with
            | eid =>
                simp only [hkind, readEid, Act.bind_apply, Act.get_apply, Done.after_nil,
                  Done.state_after]
                generalize (State.rotateIfDue s.slots.active now s).state = rotated
                have hrotated : ∃ t lock rng cursor, (t = s ∨ t = rotated) ∧
                    rotated = { t with lock, rng, sealingCursor := cursor } :=
                  ⟨rotated, rotated.lock, rotated.rng, rotated.sealingCursor, .inr rfl, rfl⟩
                cases rotated.slots.activeSlot.frame with
                | none => exact hrotated
                | some frame => cases frame <;> exact hrotated
            | tlm =>
                simp only [hkind]
                obtain ⟨rng, cursor, hstate⟩ := State.telemetryFrame_state now s
                exact ⟨s, s.lock, rng, cursor, .inl rfl, hstate⟩
            | uid =>
                simp only [hkind]
                exact hsame
            | url =>
                simp only [hkind]
                exact hsame
    | unlock =>
        simp only [Act.bind_apply, onLock, Act.within_apply, Done.state_after]
        cases (Lock.challenge (s.lock, s.rng)).value <;>
          exact ⟨s, _, _, s.sealingCursor, .inl rfl, rfl⟩
    | eidIdentityKey =>
        simp only
        split <;> exact hsame
    | _ => exact hsame

theorem renewal_read (attr : Attribute) (now : Nat) (s : State) (i : SlotIndex) :
    Renewal False i now s (attr.read now s).state := by
  obtain ⟨t, lock, rng, cursor, ht, hstate⟩ := read_state attr now s
  have hrenewal : Renewal False i now s t := by
    cases ht with
    | inl h => exact h ▸ .refl i now s
    | inr h => exact h ▸ State.renewal_rotateIfDue _ now s i
  rw [hstate]
  exact hrenewal.congr rfl

/-! ## Writes -/

/-- A write that, once it is accepted, gives the slot a key. -/
inductive BringsKey (s : State) (i : SlotIndex) : Attribute → Bytes → Prop
  | identity {payload : Bytes} : s.slots.active = i → payload ≠ [] →
      BringsKey s i .advSlotData (FrameKind.eid.code :: payload)
  | reset {flag : UInt8} : flag ≠ 0 → BringsKey s i .factoryReset [flag]

theorem retains_modifyActive {f : Slot → Slot} {s t : State}
    (hf : ∀ slot : Slot, slot.Retains (f slot))
    (ht : t = { s with slots := s.slots.modifyActive f }) (i : SlotIndex) : s.Retains i t := by
  have hvalue : (s.slots.modifyActive f).table.value i =
      if s.slots.active = i then f (s.slots.table.value s.slots.active)
      else s.slots.table.value i := Slots.value_modify _ i f s.slots
  rw [ht]
  refine ⟨?_, rfl⟩
  rw [hvalue]
  split
  next hactive =>
    rw [hactive]
    exact hf _
  next => exact Slot.retains_refl _

theorem retains_writeInterval (data : Bytes) (s : State) (i : SlotIndex) :
    s.Retains i (writeInterval data s).state := by
  unfold writeInterval
  split
  · refine retains_modifyActive ?_ rfl i
    exact fun _ => ⟨rfl, rfl, rfl, fun _ h => h⟩
  · exact .refl i s

theorem retains_writeRadioTx (data : Bytes) (s : State) (i : SlotIndex) :
    s.Retains i (writeRadioTx data s).state := by
  unfold writeRadioTx
  split
  · refine retains_modifyActive ?_ rfl i
    exact fun slot => ⟨rfl, rfl, rfl, (Slot.retains_setAdvTx _ { slot with radioTx := _ }).id⟩
  · exact .refl i s

theorem retains_writeAdvTx (data : Bytes) (s : State) (i : SlotIndex) :
    s.Retains i (writeAdvTx data s).state := by
  unfold writeAdvTx
  split
  · refine retains_modifyActive ?_ rfl i
    exact Slot.retains_setAdvTx _
  · exact .refl i s

theorem retains_writeUid (payload : Bytes) (s : State) (i : SlotIndex) :
    s.Retains i (writeUid payload s).state := by
  unfold writeUid
  split
  · exact retains_modifyActive Slot.retains_clear rfl i
  · split
    · refine retains_modifyActive ?_ rfl i
      exact fun _ => Slot.retains_of_frame (by simp)
    · exact .refl i s

theorem retains_writeUrl (payload : Bytes) (s : State) (i : SlotIndex) :
    s.Retains i (writeUrl payload s).state := by
  unfold writeUrl
  split
  · exact retains_modifyActive Slot.retains_clear rfl i
  · split
    · exact .refl i s
    · cases Url.expand payload with
      | error fault => exact .refl i s
      | ok text =>
          cases EncodedUrl.ofBytes payload with
          | error fault => exact .refl i s
          | ok address =>
              refine retains_modifyActive ?_ rfl i
              exact fun _ => Slot.retains_of_frame (by simp)

theorem retains_writeTlm (payload : Bytes) (s : State) (i : SlotIndex) :
    s.Retains i (writeTlm payload s).state := by
  unfold writeTlm
  split
  · refine retains_modifyActive ?_ rfl i
    exact fun _ => Slot.retains_of_frame (by simp)
  · exact .refl i s

theorem writeEid_cases {payload : Bytes} (hpayload : payload ≠ []) {now : Nat} {s : State}
    (h : (writeEid payload now s).value = .ok ()) :
    ∃ key, identityKeyOf s payload = .ok key ∧ payload.getLastD 0 ≤ Ephemeral.maxExponent ∧
      (writeEid payload now s).state =
        (State.rotateIfDue s.slots.active now (s.keyed key (payload.getLastD 0))).state := by
  have hlength : payload.length ≠ 0 := fun hzero => hpayload (List.length_eq_zero_iff.mp hzero)
  simp only [writeEid, if_neg hlength, Act.bind_apply, Act.get_apply, Done.after_nil] at h ⊢
  cases hkey : identityKeyOf s payload with
  | error fault =>
      rw [hkey] at h
      cases h
  | ok key =>
      simp only [hkey] at h ⊢
      split at h
      · cases h
      next hle =>
        rw [if_neg hle]
        exact ⟨key, rfl, UInt8.not_lt.mp hle, rfl⟩

theorem writeSlotData_of_ok {code : UInt8} {payload : Bytes} {now : Nat} {s : State}
    {effect : WriteEffect} (h : (writeSlotData (code :: payload) now s).value = .ok effect) :
    (writeFrame code payload now s).value = .ok () ∧
      (writeSlotData (code :: payload) now s).state = (writeFrame code payload now s).state := by
  unfold writeSlotData at h ⊢
  split at h
  · cases h
  next hfits =>
    rw [if_neg hfits]
    simp only [Act.bind_apply, Act.get_apply, Done.after_nil, Done.value_after] at h ⊢
    cases hframe : (writeFrame code payload now s).value with
    | error fault =>
        rw [hframe] at h
        cases h
    | ok _ => exact ⟨rfl, rfl⟩

/-- A slot that gets a key gets the identifier of the time with it, and no other slot changes. -/
theorem writeEid_rotated {payload : Bytes} (hpayload : payload ≠ []) {now : Nat} {s : State}
    (h : (writeEid payload now s).value = .ok ()) :
    ∃ (t : State) (tx : Int8) (id : Octets 8), t.clock = s.clock ∧
      (∀ i, s.slots.active ≠ i → t.slots.table.value i = s.slots.table.value i) ∧
      Ephemeral.identifier (t.slots.table.value s.slots.active).key
        (t.slots.table.value s.slots.active).exponent (t.clock.time now) = .ok id ∧
      (writeEid payload now s).state = t.rotated s.slots.active tx id now := by
  obtain ⟨key, -, hexponent, hstate⟩ := writeEid_cases hpayload h
  obtain ⟨id, hid, hrotated⟩ := State.rotateIfDue_keyed key hexponent now s
  have hactive := s.activeSlot_keyed key (payload.getLastD 0)
  refine ⟨s.keyed key (payload.getLastD 0), s.slots.activeSlot.advTx, id, rfl,
    fun i hi => State.value_keyed_of_ne hi key _, ?_, hstate.trans hrotated⟩
  change Ephemeral.identifier (s.keyed key _).slots.activeSlot.key
    (s.keyed key _).slots.activeSlot.exponent _ = .ok id
  rw [hactive]
  exact hid

theorem retains_writeEid {payload : Bytes} {now : Nat} {s : State} {i : SlotIndex}
    (h : (writeEid payload now s).value = .ok ())
    (hkeyless : ¬(s.slots.active = i ∧ payload ≠ [])) :
    s.Retains i (writeEid payload now s).state := by
  by_cases hpayload : payload = []
  · subst hpayload
    exact retains_modifyActive Slot.retains_clear rfl i
  · have hi : s.slots.active ≠ i := fun hactive => hkeyless ⟨hactive, hpayload⟩
    obtain ⟨t, tx, id, hclock, hothers, -, hstate⟩ := writeEid_rotated hpayload h
    rw [hstate]
    constructor
    · rw [State.value_rotated, if_neg hi, hothers i hi]
      exact Slot.retains_refl _
    · exact (congrArg Clock.prior hclock : t.clock.prior = s.clock.prior)

theorem retains_writeFrame {code : UInt8} {payload : Bytes} {now : Nat} {s : State} {i : SlotIndex}
    (h : (writeFrame code payload now s).value = .ok ())
    (hkeyless : ¬BringsKey s i .advSlotData (code :: payload)) :
    s.Retains i (writeFrame code payload now s).state := by
  unfold writeFrame at h ⊢
  cases hkind : FrameKind.ofCode code with
  | error fault => exact retains_modifyActive Slot.retains_clear rfl i
  | ok kind =>
      rw [hkind] at h
      cases kind with
      | uid => exact retains_writeUid payload s i
      | url => exact retains_writeUrl payload s i
      | tlm => exact retains_writeTlm payload s i
      | eid =>
          refine retains_writeEid h ?_
          rintro ⟨hactive, hpayload⟩
          have hcode : code = FrameKind.eid.code := Frame.code_of_ofCode hkind
          exact hkeyless (hcode ▸ .identity hactive hpayload)

theorem retains_writeSlotData {data : Bytes} {now : Nat} {s : State} {i : SlotIndex}
    {effect : WriteEffect} (h : (writeSlotData data now s).value = .ok effect)
    (hkeyless : ¬BringsKey s i .advSlotData data) :
    s.Retains i (writeSlotData data now s).state := by
  cases data with
  | nil => exact retains_modifyActive Slot.retains_clear rfl i
  | cons code payload =>
      obtain ⟨hframe, hstate⟩ := writeSlotData_of_ok h
      rw [hstate]
      exact retains_writeFrame hframe hkeyless

theorem retains_writeReset {data : Bytes} {s : State} {i : SlotIndex} {effect : WriteEffect}
    (h : (writeReset data s).value = .ok effect) (hkeyless : ¬BringsKey s i .factoryReset data) :
    s.Retains i (writeReset data s).state := by
  rcases writeReset_cases data s with
    ⟨fault, hvalue, -⟩ | ⟨-, -, hstate⟩ | ⟨flag, slots, identity, rng, rfl, hflag, -⟩
  · rw [h] at hvalue
    cases hvalue
  · rw [hstate]
    exact .refl i s
  · exact absurd (.reset hflag) hkeyless

/-- A write that brings no key leaves the identifier of the slot alone. -/
theorem retains_writeValue {attr : Attribute} {data : Bytes} {now : Nat} {s : State}
    {i : SlotIndex} {effect : WriteEffect} (h : (writeValue attr data now s).value = .ok effect)
    (hkeyless : ¬BringsKey s i attr data) : s.Retains i (writeValue attr data now s).state := by
  cases attr with
  | advInterval => exact retains_writeInterval data s i
  | radioTxPower => exact retains_writeRadioTx data s i
  | advTxPower => exact retains_writeAdvTx data s i
  | advSlotData => exact retains_writeSlotData h hkeyless
  | factoryReset => exact retains_writeReset h hkeyless
  | activeSlot =>
      rcases writeActiveSlot_cases data s with ⟨fault, heq⟩ | ⟨active, heq⟩
      · rw [writeValue, heq]
        exact .refl i s
      · rw [writeValue, heq]
        exact .of_table rfl rfl
  | remainConnectable =>
      rcases writeConnectable_cases data s with ⟨fault, heq⟩ | ⟨on, heq⟩
      · rw [writeValue, heq]
        exact .refl i s
      · rw [writeValue, heq]
        exact .of_table rfl rfl
  | lockState =>
      rw [writeValue]
      rcases writeLock_cases data s with ⟨fault, -, hstate⟩ | ⟨lock, -, -, hstate⟩
      · rw [hstate]
        exact .refl i s
      · rw [hstate]
        exact .of_table rfl rfl
  | unlock =>
      rw [writeValue, writeUnlock_state]
      exact .of_table rfl rfl
  | capabilities => exact .refl i s
  | publicEcdhKey => exact .refl i s
  | eidIdentityKey => exact .refl i s

/-- What brings a key makes an identifier of it, or makes one due. -/
theorem renewal_of_bringsKey {attr : Attribute} {data : Bytes} {now : Nat} {s : State}
    {i : SlotIndex} {effect : WriteEffect} (hsound : s.config.Sound)
    (h : (writeValue attr data now s).value = .ok effect) (hbrings : BringsKey s i attr data) :
    Renewal True i now s (writeValue attr data now s).state := by
  cases hbrings with
  | @identity payload hactive hpayload =>
      obtain ⟨hframe, hstate⟩ := writeSlotData_of_ok h
      obtain ⟨t, tx, id, hclock, -, hid, hrotated⟩ := writeEid_rotated hpayload hframe
      subst hactive
      have hframe : (writeValue .advSlotData (FrameKind.eid.code :: payload) now s).state =
          t.rotated s.slots.active tx id now := hstate.trans hrotated
      rw [hframe]
      exact (State.renewal_rotated_self hid).rebase hclock.symm
  | @reset flag hflag =>
      rcases writeReset_cases [flag] s with
        ⟨fault, hvalue, -⟩ | ⟨hdata, -⟩ | ⟨-, slots, identity, rng, -, -, hslots, -, hstate⟩
      · exact absurd (hvalue.symm.trans h) (by simp)
      · exact absurd (List.singleton_inj.mp hdata) hflag
      · obtain ⟨hnext, hexponent⟩ := Slots.nextRotation_factorySlot (Slots.ofConfig_eq_ok hslots i)
        rw [writeValue, hstate]
        refine .due hnext ?_
        rw [hexponent]
        exact hsound.exponents i

theorem retains_write {attr : Attribute} {offset : Nat} {data : Bytes} {now : Nat} {s : State}
    {i : SlotIndex}
    (hkeyless : ¬((∃ effect, (attr.write offset data now s).value = .ok effect) ∧
      BringsKey s i attr data)) : s.Retains i (attr.write offset data now s).state := by
  cases hwrite : (attr.write offset data now s).value with
  | error fault =>
      have houtcome := outcome_write attr offset data now s
      rw [hwrite] at houtcome
      rcases houtcome.state_of_error with hstate | ⟨-, -, hstate⟩
      · rw [hstate]
        exact .refl i s
      · rw [hstate]
        exact .of_table rfl rfl
  | ok effect =>
      have hbrings : ¬BringsKey s i attr data := fun hbrings => hkeyless ⟨⟨effect, hwrite⟩, hbrings⟩
      have hvalue := (write_of_ok hwrite).2
      rw [hvalue] at hwrite ⊢
      exact retains_writeValue hwrite hbrings

/-- A write that is rejected leaves identifiers alone. -/
theorem renewal_write {s : State} (hsound : s.config.Sound) (attr : Attribute) (offset : Nat)
    (data : Bytes) (now : Nat) (i : SlotIndex) :
    Renewal
      ((∃ effect, (attr.write offset data now s).value = .ok effect) ∧ BringsKey s i attr data)
      i now s (attr.write offset data now s).state := by
  by_cases hbrings :
      (∃ effect, (attr.write offset data now s).value = .ok effect) ∧ BringsKey s i attr data
  · obtain ⟨⟨effect, hwrite⟩, hkey⟩ := hbrings
    have hvalue := (write_of_ok hwrite).2
    rw [hvalue] at hwrite ⊢
    exact (renewal_of_bringsKey hsound hwrite hkey).imp fun _ => trivial
  · have hretains := retains_write hbrings
    exact .retained hbrings hretains.slot hretains.prior

end Attribute

/-! ## Deeds -/

def Deed.time : Deed → Nat
  | .asked (.read _ now) => now
  | .asked (.write _ _ _ now) => now
  | .took _ now => now

namespace Moment

/-- The deed gives the slot a key: a central writes one, or resets the beacon. -/
def Installs (i : SlotIndex) (m : Moment) : Prop :=
  ∃ attr offset data now, m.deed = .asked (.write attr offset data now) ∧
    (∃ effect, (attr.write offset data now m.state).value = .ok effect) ∧
    Attribute.BringsKey m.state i attr data

theorem renewal {m : Moment} (hsound : m.state.config.Sound) (i : SlotIndex) :
    Renewal (m.Installs i) i m.deed.time m.state (m.deed.perform m.state).state := by
  obtain ⟨s, deed⟩ := m
  have hwritten {attr : Attribute} {offset : Nat} {data : Bytes} {now : Nat}
      (hdeed : deed = .asked (.write attr offset data now)) (h : Installs i ⟨s, deed⟩) :
      (∃ effect, (attr.write offset data now s).value = .ok effect) ∧
        Attribute.BringsKey s i attr data := by
    obtain ⟨attr', offset', data', now', hsame, h⟩ := h
    rw [hdeed] at hsame
    cases hsame
    exact h
  have hnever (hdeed : ∀ attr offset data now, deed ≠ .asked (.write attr offset data now)) :
      ¬Installs i ⟨s, deed⟩ := by
    rintro ⟨attr, offset, data, now, hsame, -⟩
    exact hdeed attr offset data now hsame
  cases deed with
  | asked access =>
      cases access with
      | read attr now => exact (Attribute.renewal_read attr now s i).imp (hnever nofun)
      | write attr offset data now =>
          exact (Attribute.renewal_write hsound attr offset data now i).imp (hwritten rfl)
  | took turn now => exact (turn.renewal_perform now s i).imp (hnever nofun)

end Moment

end Beacon

import Beacon.Proofs.Freshness
import Beacon.Proofs.Reports

/-!
# Identifiers from storage

Whatever can be read is taken over from flash, also an exponent for which there
is no identifier.  A configuration does not have such an exponent and a central
cannot write one.

When a boot starts every identifier is due.  A slot with an exponent in bounds
gets a new one before it is on air.  One with a larger exponent never does, and
sends the identifier that was stored until a central writes a key.
-/

namespace Beacon

open Act

variable {i : SlotIndex} {now : Nat} {s t u : State}

/-! ## What becomes of an identifier without a new key -/

/-- The identifier of the slot is left alone, or the slot gets that of the time. -/
inductive State.Proceeds (i : SlotIndex) (now : Nat) (s t : State) : Prop
  | retained : s.Retains i t → Proceeds i now s t
  | rotated (tx : Int8) (id : Octets 8) :
      t.slots.table.value i = (s.rotated i tx id now).slots.table.value i →
      Ephemeral.identifier (s.slots.table.value i).key (s.slots.table.value i).exponent
        (s.clock.time now) = .ok id →
      .eidRotated i (s.clock.time now) ∈ t.pendingEvents → Proceeds i now s t

theorem State.Proceeds.congr (h : s.Proceeds i now t) (heq : u.renewing = t.renewing) :
    s.Proceeds i now u := by
  have hslots : u.slots = t.slots := congrArg Prod.fst heq
  have hclock : u.clock = t.clock := congrArg (fun x => x.2.1) heq
  have hevents : u.pendingEvents = t.pendingEvents := congrArg (fun x => x.2.2) heq
  cases h with
  | retained hretains =>
      refine .retained ⟨?_, ?_⟩
      · rw [hslots]
        exact hretains.slot
      · rw [hclock]
        exact hretains.prior
  | rotated tx id hvalue hid hevent =>
      rw [← hslots] at hvalue
      rw [← hevents] at hevent
      exact .rotated tx id hvalue hid hevent

theorem State.proceeds_rotateIfDue (slot now : Nat) (s : State) (i : SlotIndex) :
    s.Proceeds i now (rotateIfDue slot now s).state := by
  rcases rotateIfDue_cases slot now s with ⟨notes, h⟩ | ⟨j, tx, old, id, -, -, -, hid, h⟩
  · rw [h]
    exact .retained (.refl i s)
  · rw [h]
    by_cases hji : j = i
    · subst hji
      exact .rotated tx id rfl hid (mem_enqueueEvent _ _)
    · refine .retained ⟨?_, rfl⟩
      rw [s.value_rotated, if_neg hji]
      exact Slot.retains_refl _

theorem Attribute.proceeds_read (attr : Attribute) (now : Nat) (s : State) (i : SlotIndex) :
    s.Proceeds i now (attr.read now s).state := by
  obtain ⟨t, lock, rng, cursor, ht, hstate⟩ := read_state attr now s
  have hproceeds : s.Proceeds i now t := by
    cases ht with
    | inl h =>
        rw [h]
        exact .retained (.refl i s)
    | inr h =>
        rw [h]
        exact State.proceeds_rotateIfDue _ now s i
  rw [hstate]
  exact hproceeds.congr rfl

theorem Moment.proceeds {m : Moment} (h : ¬m.Installs i) :
    m.state.Proceeds i m.deed.time (m.deed.perform m.state).state := by
  obtain ⟨s, deed⟩ := m
  cases deed with
  | asked access =>
      cases access with
      | read attr now => exact Attribute.proceeds_read attr now s i
      | write attr offset data now =>
          refine .retained (Attribute.retains_write ?_)
          intro hbrings
          exact h ⟨attr, offset, data, now, rfl, hbrings⟩
  | took turn now =>
      exact (State.proceeds_rotateIfDue turn.slot now s i).congr (turn.renewing_perform now s)

/-! ## From the start on -/

/-- The slot goes on under the key that it started with.  Its identifier is the one that it started
with, and due, or it has been computed since. -/
structure Slot.Continues (first : Slot) (i : SlotIndex) (life : List Moment) (held : Slot) :
    Prop where
  key : held.key = first.key
  exponent : held.exponent = first.exponent
  identifier : ∀ id, held.id? = some id →
    (held.nextRotation = 0 ∧ first.id? = some id) ∨
      ∃ time, Rotated i time life ∧ Ephemeral.identifier first.key first.exponent time = .ok id

namespace Slot.Continues

variable {first : Slot} {life : List Moment} {m : Moment}

theorem after (h : first.Continues i life (m.state.slots.table.value i)) (hm : ¬m.Installs i) :
    first.Continues i (life ++ [m]) (m.after.slots.table.value i) := by
  change first.Continues i (life ++ [m]) ((m.deed.perform m.state).state.slots.table.value i)
  cases m.proceeds hm with
  | retained hretains =>
      refine ⟨hretains.slot.key.trans h.key, hretains.slot.exponent.trans h.exponent, ?_⟩
      intro id hid
      rw [hretains.slot.nextRotation]
      cases h.identifier id (hretains.slot.id id hid) with
      | inl hfirst => exact .inl hfirst
      | inr hcomputed =>
          obtain ⟨time, hrotated, hcomputed⟩ := hcomputed
          exact .inr ⟨time, hrotated.concat hm, hcomputed⟩
  | rotated tx id hvalue hid hevent =>
      rw [State.value_rotated, if_pos rfl] at hvalue
      rw [hvalue]
      refine ⟨h.key, h.exponent, ?_⟩
      intro other hother
      obtain rfl : id = other := Option.some.inj hother
      rw [h.key, h.exponent] at hid
      exact .inr ⟨_, rotated_concat hevent life, hid⟩

end Slot.Continues

/-! ## On air -/

theorem State.prepare_of_eid {tx : Int8} {id : Octets 8}
    (hframe : ((rotateIfDue i now s).state.slots.table.value i).frame = some (.eid tx id)) :
    ∃ advert, (State.prepare i now s).value = some advert ∧
      Advert.ofFrame (.eid tx id) = .ok advert.payload := by
  have hslot : (rotateIfDue i now s).state.slots.slot? i =
      some ((rotateIfDue i now s).state.slots.table.value i) := PerSlot.getElem?_eq_value ..
  have hpayload := Advert.ofFrame_eq (.eid tx id)
  simp only [State.prepare, liveFrame, Act.bind_apply, Act.get_apply, Act.set_apply, Act.pure_apply,
    Done.after_nil, Done.value_after, Done.state_after, hslot, Option.bind_some, hframe, hpayload]
  exact ⟨_, rfl, rfl⟩

/-- No identifier can be computed, so the old one is kept. -/
theorem State.rotateIfDue_of_large
    (hexponent : Ephemeral.maxExponent < (s.slots.table.value i).exponent) (now : Nat) :
    (rotateIfDue i now s).state = s := by
  rcases rotateIfDue_cases i now s with ⟨notes, h⟩ | ⟨j, tx, old, id, hji, -, -, hid, -⟩
  · rw [h]
  · obtain rfl : j = i := Fin.ext hji
    exact absurd (Ephemeral.exponent_le_of_identifier hid) (UInt8.not_le.mpr hexponent)

/-- What a slot sends that has got no key since the start. -/
theorem Slot.Continues.airs {first : Slot} {life : List Moment} {m : Moment}
    (h : first.Continues i life (m.state.slots.table.value i)) {sent : Option Bytes}
    (hdeed : m.deed = .took ⟨i, sent⟩ now) {tx : Int8} {old : Octets 8}
    (hframe : (m.state.slots.table.value i).frame = some (.eid tx old)) :
    ∃ advert, (State.prepare i now m.state).value = some advert ∧
      (first.exponent ≤ Ephemeral.maxExponent → ∃ time id, Rotated i time (life ++ [m]) ∧
        Ephemeral.identifier first.key first.exponent time = .ok id ∧
        Advert.ofFrame (.eid tx id) = .ok advert.payload) ∧
      (Ephemeral.maxExponent < first.exponent →
        first.id? = some old ∧ Advert.ofFrame (.eid tx old) = .ok advert.payload) := by
  have hold : (m.state.slots.table.value i).id? = some old := by
    rw [Slot.id?, hframe]
  by_cases hexponent : first.exponent ≤ Ephemeral.maxExponent
  · rcases State.rotateIfDue_of_eid hframe (h.exponent ▸ hexponent) now with
      ⟨hearly, hkept⟩ | ⟨id, hid, hrotated⟩
    · -- What the slot started with has been due ever since.
      obtain ⟨advert, hadvert, hpayload⟩ := State.prepare_of_eid (hkept ▸ hframe)
      refine ⟨advert, hadvert, fun _ => ?_, fun hlarge => absurd hexponent (UInt8.not_le.mpr hlarge)⟩
      cases h.identifier old hold with
      | inl hfirst =>
          rw [hfirst.1] at hearly
          exact absurd hearly UInt32.not_lt_zero
      | inr hcomputed =>
          obtain ⟨time, hrotates, hcomputed⟩ := hcomputed
          have hinstalls := Moment.not_installs_of_took (i := i) hdeed
          exact ⟨time, old, hrotates.concat hinstalls, hcomputed, hpayload⟩
    · have hvalue : ((State.rotateIfDue i now m.state).state.slots.table.value i).frame =
          some (.eid tx id) := by
        rw [hrotated, State.value_rotated, if_pos rfl]
      obtain ⟨advert, hadvert, hpayload⟩ := State.prepare_of_eid hvalue
      refine ⟨advert, hadvert, fun _ => ?_, fun hlarge => absurd hexponent (UInt8.not_le.mpr hlarge)⟩
      rw [h.key, h.exponent] at hid
      have hrotates := Moment.rotates_of_rotated hdeed rfl hrotated
      exact ⟨_, id, rotated_concat hrotates life, hid, hpayload⟩
  · have hlarge : Ephemeral.maxExponent < first.exponent := UInt8.not_le.mp hexponent
    have hkept := State.rotateIfDue_of_large (h.exponent ▸ hlarge) now
    obtain ⟨advert, hadvert, hpayload⟩ := State.prepare_of_eid (hkept ▸ hframe)
    refine ⟨advert, hadvert, fun hsmall => absurd hsmall hexponent, fun _ => ⟨?_, hpayload⟩⟩
    cases h.identifier old hold with
    | inl hfirst => exact hfirst.2
    | inr hcomputed =>
        obtain ⟨time, -, hcomputed⟩ := hcomputed
        exact absurd (Ephemeral.exponent_le_of_identifier hcomputed) hexponent

/-! ## What is taken over -/

/-- Parameters are loaded as they are, under some clock. -/
theorem Flash.load_of_ofBytes {bytes : Bytes} {params : Params}
    (h : Params.ofBytes bytes = .ok (some params)) (held : Option Bytes) :
    ∃ clock, (Flash.load ⟨some bytes, held⟩).value = .ok (some { params with clock }) := by
  simp only [Flash.load, Act.bind_apply, Act.get_apply, Done.after_nil, h]
  cases held with
  | none => exact ⟨params.clock, rfl⟩
  | some word =>
      cases hword : Clock.wire.read word with
      | none =>
          simp only [Option.map_some, hword]
          exact ⟨params.clock, rfl⟩
      | some found =>
          simp only [Option.map_some, hword]
          exact ⟨found.1, rfl⟩

/-- A slot has only an identifier that is stored. -/
theorem Slot.decode_of_id? {params : Params} {slot : Slot} {id : Octets 8}
    (h : (slot.restored params i).id? = some id) :
    ∃ tx, (params.frames.value i).decode = .ok (some (.eid tx id)) := by
  cases hdecode : (params.frames.value i).decode with
  | error fault => simp [Slot.id?, restored, hdecode] at h
  | ok stored =>
      cases stored with
      | none => simp [Slot.id?, restored, hdecode] at h
      | some frame =>
          cases frame with
          | eid tx held =>
              simp only [Slot.id?, restored, hdecode, Option.some.injEq] at h
              exact ⟨tx, h ▸ rfl⟩
          | uid tx address => simp [Slot.id?, restored, hdecode] at h
          | url tx address => simp [Slot.id?, restored, hdecode] at h
          | tlm telemetry => simp [Slot.id?, restored, hdecode] at h
          | etlm telemetry => simp [Slot.id?, restored, hdecode] at h

namespace Device

variable {config : Config} {store : Store} {start d : Device} {history : History} {bytes : Bytes}
  {held : Option Bytes} {params : Params}

/-- A slot starts with all that is stored of it. -/
theorem Booted.value_stored (hmedium : store.medium = .flash ⟨some bytes, held⟩)
    (hloads : store.verdict store.calls .load = none)
    (hparams : Params.ofBytes bytes = .ok (some params)) (hbooted : Booted config store start)
    (i : SlotIndex) :
    ∃ slot : Slot, start.1.state.slots.table.value i = slot.restored params i := by
  obtain ⟨radio, slots, identity, rng, now, -, -, rfl⟩ := hbooted.exists_state
  obtain ⟨clock, hflash⟩ := Flash.load_of_ofBytes hparams held
  have hload : (Store.load store).value = .ok (some { params with clock }) := by
    rw [(Store.load_of_none hloads).1, hmedium]
    exact hflash
  rw [(persist_keeps now _).2.1, hload]
  change ∃ slot : Slot, (slots.restored { params with clock }).resetRotations.table.value i = _
  rw [Slots.resetRotations, Slots.mapSlots, PerSlot.value_map, Slots.value_restored]
  exact ⟨{ slots.table.value i with nextRotation := 0 }, rfl⟩

/-- A slot goes on as it has started for as long as it gets no key. -/
theorem continues_of_run (hbooted : Booted config store start) (hrun : Run start history d)
    {life later : List Moment} {m : Moment} (hmoments : history.moments = life ++ m :: later)
    (hkeyless : ∀ n ∈ life, ¬n.Installs i) :
    (start.1.state.slots.table.value i).Continues i life (m.state.slots.table.value i) := by
  let P (life : List Moment) (s : State) : Prop :=
    (∀ n ∈ life, ¬n.Installs i) →
      (start.1.state.slots.table.value i).Continues i life (s.slots.table.value i)
  have hdeed (life : List Moment) (m : Moment) (h : P life m.state) : P (life ++ [m]) m.after := by
    intro hall
    obtain ⟨hlife, hm⟩ := List.forall_mem_append.mp hall
    exact (h hlife).after (hm m (List.mem_singleton_self m))
  have hcongr (life : List Moment) (s t : State) (_ : s.config = t.config)
      (hslots : s.slots = t.slots) (_ : s.clock.prior = t.clock.prior) (h : P life s) :
      P life t := by
    intro hall
    rw [← hslots]
    exact h hall
  have hstart : P [] start.1.state :=
    fun _ => ⟨rfl, rfl, fun _ hid => .inl ⟨hbooted.fresh.2.2 i, hid⟩⟩
  exact (moments_invariant hdeed hcongr hbooted hstart hrun).1 life m later hmoments hkeyless

/-- The exponents of a device that was started from flash are those that it found there.  What a
slot sends that has got no key since was computed since the start exactly if its exponent is in
bounds; if it is not, the slot sends what it found. -/
theorem stored_identifier_renewed_iff (hmedium : store.medium = .flash ⟨some bytes, held⟩)
    (hloads : store.verdict store.calls .load = none)
    (hparams : Params.ofBytes bytes = .ok (some params)) (hbooted : Booted config store start)
    (hrun : Run start history d) :
    (∀ i, (start.1.state.slots.table.value i).exponent = params.exponents.value i) ∧
      ∀ {life m later}, history.moments = life ++ m :: later →
        ∀ {i : SlotIndex} {sent now tx old}, (∀ n ∈ life, ¬n.Installs i) →
          m.deed = .took ⟨i, sent⟩ now →
          (m.state.slots.table.value i).frame = some (.eid tx old) →
          ∃ advert, (State.prepare i now m.state).value = some advert ∧
            ((∃ time id, Rotated i time (life ++ [m]) ∧
                Ephemeral.identifier (params.keys.value i) (params.exponents.value i) time =
                  .ok id ∧
                Advert.ofFrame (.eid tx id) = .ok advert.payload) ↔
              params.exponents.value i ≤ Ephemeral.maxExponent) ∧
            (Ephemeral.maxExponent < params.exponents.value i →
              ∃ stored, (params.frames.value i).decode = .ok (some (.eid stored old)) ∧
                Advert.ofFrame (.eid tx old) = .ok advert.payload) := by
  constructor
  · intro i
    obtain ⟨slot, hslot⟩ := hbooted.value_stored hmedium hloads hparams i
    rw [hslot]
    rfl
  · intro life m later hmoments i sent now tx old hkeyless hdeed hframe
    obtain ⟨slot, hslot⟩ := hbooted.value_stored hmedium hloads hparams i
    have hcontinues := continues_of_run hbooted hrun hmoments hkeyless
    rw [hslot] at hcontinues
    obtain ⟨advert, hadvert, hrenewed, hstored⟩ := hcontinues.airs hdeed hframe
    refine ⟨advert, hadvert, ⟨?_, hrenewed⟩, ?_⟩
    · rintro ⟨time, id, -, hid, -⟩
      exact Ephemeral.exponent_le_of_identifier hid
    · intro hlarge
      obtain ⟨hid, hpayload⟩ := hstored hlarge
      obtain ⟨stored, hdecode⟩ := Slot.decode_of_id? hid
      exact ⟨stored, hdecode, hpayload⟩

/-- What is found in flash, with an exponent for the slot whose identity changes. -/
def found (exponent : UInt8) : Params where
  magic := Params.magicWord
  clock := ⟨1000, 20⟩
  activeSlot := 0
  intervals := (PerSlot.all 0).put .third 1000
  radioTx := PerSlot.all (-8)
  advTx := PerSlot.all (-18)
  radioLevels := Config.standard.radioLevels
  advLevels := Config.standard.advLevels
  lockState := .unlocked
  unlockKey := Octets.zero 16
  frames := #v[.cleared, .cleared, ⟨[12, 170, 254, 48, 238, 1, 2, 3, 4, 5, 6, 7, 8], by decide⟩]
  exponents := (PerSlot.all 10).put .third exponent
  keys := PerSlot.all (Octets.zero 16)
  remainConnectable := false

def foundStore (exponent : UInt8) : Store :=
  ⟨.flash ⟨some (found exponent).toBytes, none⟩, fun _ _ => none, 0⟩

/-- The stored identifier is not the first that goes on air. -/
theorem found_identifier_renewed :
    ∃ start m advert time id, Booted .standard (foundStore 10) start ∧
      History.moments [⟨start, .command .startBeacon 0⟩] = [m] ∧
      (State.prepare 2 0 m.state).value = some advert ∧ Rotated .third time [m] ∧
      Ephemeral.identifier (Octets.zero 16) 10 time = .ok id ∧
      ∃ tx, Advert.ofFrame (.eid tx id) = .ok advert.payload := by
  obtain ⟨start, hbooted, houtset⟩ :
      ∃ start, Booted .standard (foundStore 10) start ∧ outset start = (some .eid, [(2, true)]) :=
    exists_booted_of_eq (.idle 100 10240 fun _ _ => none) (some (Octets.zero 32)) 0 outset
      (by decide +kernel)
  obtain ⟨payload, tx, old, hmoments, hframe⟩ := exists_moment_of_outset houtset
  have hrun := (Run.start : Run start [] start).serve (.command .startBeacon 0)
  have hsplit : History.moments [⟨start, .command .startBeacon 0⟩] =
      [] ++ ⟨start.1.state.hush, .took ⟨2, some payload⟩ 0⟩ :: [] := hmoments
  obtain ⟨-, hturns⟩ := stored_identifier_renewed_iff rfl rfl
    (Params.ofBytes_of_magic (p := found 10) rfl) hbooted hrun
  obtain ⟨advert, hadvert, hrenewed, -⟩ := hturns hsplit (i := .third) (by simp) rfl hframe
  obtain ⟨time, id, hrotated, hid, hpayload⟩ := hrenewed.mpr (by decide)
  exact ⟨start, _, advert, time, id, hbooted, hmoments, hadvert, hrotated, hid, tx, hpayload⟩

/-- Not every slot gets an identifier before it is on air. -/
theorem not_always_renewed :
    ¬∀ (config : Config) (store : Store) (bytes : Bytes) (held : Option Bytes) (params : Params)
        (start d : Device) (history : History) (life later : List Moment) (m : Moment)
        (i : SlotIndex) (sent : Option Bytes) (now : Nat) (tx : Int8) (old : Octets 8),
      store.medium = .flash ⟨some bytes, held⟩ → store.verdict store.calls .load = none →
      Params.ofBytes bytes = .ok (some params) → Booted config store start → Run start history d →
      history.moments = life ++ m :: later → (∀ n ∈ life, ¬n.Installs i) →
      m.deed = .took ⟨i, sent⟩ now → (m.state.slots.table.value i).frame = some (.eid tx old) →
      ∃ advert, (State.prepare i now m.state).value = some advert ∧
        ∃ time id, Rotated i time (life ++ [m]) ∧
          Ephemeral.identifier (params.keys.value i) (params.exponents.value i) time = .ok id ∧
          Advert.ofFrame (.eid tx id) = .ok advert.payload := by
  intro halways
  obtain ⟨start, hbooted, houtset⟩ :
      ∃ start, Booted .standard (foundStore 16) start ∧ outset start = (some .eid, [(2, true)]) :=
    exists_booted_of_eq (.idle 100 10240 fun _ _ => none) (some (Octets.zero 32)) 0 outset
      (by decide +kernel)
  obtain ⟨payload, tx, old, hmoments, hframe⟩ := exists_moment_of_outset houtset
  have hrun := (Run.start : Run start [] start).serve (.command .startBeacon 0)
  obtain ⟨advert, -, time, id, -, hid, -⟩ := halways .standard (foundStore 16) _ none (found 16)
    start _ _ [] [] ⟨start.1.state.hush, .took ⟨2, some payload⟩ 0⟩ .third (some payload) 0 tx old
    rfl rfl (Params.ofBytes_of_magic rfl) hbooted hrun hmoments (by simp) rfl hframe
  exact absurd (Ephemeral.exponent_le_of_identifier hid) (by decide)

end Device

end Beacon

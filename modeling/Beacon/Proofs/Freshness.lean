import Beacon.Proofs.Inheritance

/-!
# Identifiers on air

What goes on air for a slot with a changing identity was computed from the key
that the slot has, in the present boot and since the key came, and not longer ago
than the exponent of the slot allows.

The invariant follows the moments of a boot: at each of them an identifier is
either due or was computed at a moment before, and the time at which it is due
next says when that was.  It holds when a boot starts since every identifier is
due then.
-/

namespace Beacon

/-! ## Beacon time -/

theorem toNat_saturate32 (n : Nat) : (saturate32 n).toNat = min n (UInt32.size - 1) := by
  rw [saturate32, UInt32.toNat_ofNat_of_lt']
  exact Nat.lt_of_le_of_lt (Nat.min_le_right ..) (by decide)

theorem Clock.time_mono (clock : Clock) {now later : Nat} (h : now ≤ later) :
    clock.time now ≤ clock.time later := by
  have hseconds : now / 1000 ≤ later / 1000 := Nat.div_le_div_right h
  rw [UInt32.le_iff_toNat_le]
  simp only [time, toNat_saturate32]
  omega

theorem Clock.time_of_prior_eq {c d : Clock} (h : d.prior = c.prior) (now : Nat) :
    d.time now = c.time now := by
  rw [time, h]
  rfl

theorem Ephemeral.period_pos (exponent : UInt8) : 0 < period exponent := by
  rw [period, Nat.one_shiftLeft]
  exact Nat.two_pow_pos _

/-- An identifier that is not due yet is younger than its period. -/
theorem Ephemeral.sub_lt_of_not_due {time seconds : UInt32} {exponent : UInt8}
    (h : seconds < saturate32 (time.toNat + period exponent)) :
    seconds.toNat - time.toNat < 1 <<< exponent.toNat := by
  have hnat := UInt32.lt_iff_toNat_lt.mp h
  rw [toNat_saturate32] at hnat
  have hpositive := period_pos exponent
  have hlt : seconds.toNat - time.toNat < period exponent := by
    omega
  exact hlt

/-! ## Rotations -/

theorem Slot.frame_of_kind_eid {slot : Slot} (h : slot.kind? = some .eid) :
    ∃ tx id, slot.frame = some (.eid tx id) := by
  obtain ⟨frame, hframe, hkind⟩ := Option.map_eq_some_iff.mp h
  cases frame with
  | eid tx id => exact ⟨tx, id, hframe⟩
  | uid tx id => cases hkind
  | url tx address => cases hkind
  | tlm telemetry => cases hkind
  | etlm telemetry => cases hkind

/-- The slot gets an identifier of that beacon time. -/
def Moment.Rotates (i : SlotIndex) (time : UInt32) (m : Moment) : Prop :=
  .eidRotated i time ∈ m.events

/-- The slot has got an identifier of that beacon time, and no key since. -/
def Rotated (i : SlotIndex) (time : UInt32) (life : List Moment) : Prop :=
  ∃ earlier m later, life = earlier ++ m :: later ∧ m.Rotates i time ∧
    ∀ n ∈ later, ¬n.Installs i

theorem rotated_concat {i : SlotIndex} {time : UInt32} {m : Moment} (h : m.Rotates i time)
    (life : List Moment) : Rotated i time (life ++ [m]) := by
  refine ⟨life, m, [], rfl, h, ?_⟩
  intro n hmem
  cases hmem

theorem Rotated.concat {i : SlotIndex} {time : UInt32} {life : List Moment}
    (h : Rotated i time life) {m : Moment} (hm : ¬m.Installs i) : Rotated i time (life ++ [m]) := by
  obtain ⟨earlier, n, later, rfl, hrotates, hlater⟩ := h
  refine ⟨earlier, n, later ++ [m], by simp, hrotates, ?_⟩
  intro other hother
  cases List.mem_append.mp hother with
  | inl hother => exact hlater other hother
  | inr hother => exact List.mem_singleton.mp hother ▸ hm

/-! ## From moment to moment -/

namespace Entry

theorem time_of_mem_deeds {x : Entry} {deed : Deed} (h : deed ∈ x.deeds) :
    deed.time = x.request.time := by
  obtain ⟨d, request⟩ := x
  cases List.mem_append.mp h with
  | inl hasked =>
      cases request with
      | read attr now => exact List.mem_singleton.mp hasked ▸ rfl
      | write attr offset data now => exact List.mem_singleton.mp hasked ▸ rfl
      | poll now => cases hasked
      | radioEvent event now => cases hasked
      | command command now => cases hasked
      | saveIfDirty now => cases hasked
  | inr htook =>
      obtain ⟨turn, -, rfl⟩ := List.mem_map.mp htook
      rfl

theorem time_of_mem_moments {x : Entry} {m : Moment} (h : m ∈ x.moments) :
    m.deed.time = x.request.time := by
  have hdeed := State.deed_of_mem_moments h
  exact time_of_mem_deeds hdeed

end Entry

theorem History.moments_concat (history : History) (x : Entry) :
    History.moments (history ++ [x]) = history.moments ++ x.moments := by
  simp [moments]

theorem History.moments_ordered (history : History)
    (hordered : history.Pairwise fun x y => x.request.time ≤ y.request.time) :
    history.moments.Pairwise fun m n => m.deed.time ≤ n.deed.time := by
  refine List.pairwise_flatMap.mpr ⟨?_, hordered.imp ?_⟩
  · intro x _
    refine List.pairwise_iff_forall_sublist.mpr ?_
    intro m n hsublist
    have hm : m ∈ x.moments := hsublist.subset List.mem_cons_self
    have hn : n ∈ x.moments := hsublist.subset (List.mem_cons_of_mem _ List.mem_cons_self)
    exact Nat.le_of_eq ((Entry.time_of_mem_moments hm).trans (Entry.time_of_mem_moments hn).symm)
  · intro x y hle m hm n hn
    rw [Entry.time_of_mem_moments hm, Entry.time_of_mem_moments hn]
    exact hle

section Lasting

variable {P : List Moment → State → Prop}

/-- What every deed preserves holds at each of some moments and after them. -/
theorem State.moments_invariant
    (hdeed : ∀ (life : List Moment) (m : Moment), P life m.state → P (life ++ [m]) m.after)
    {life : List Moment} {s : State} (h : P life s) (deeds : List Deed) :
    (∀ earlier m later, s.moments deeds = earlier ++ m :: later → P (life ++ earlier) m.state) ∧
      P (life ++ s.moments deeds) (s.afterDeeds deeds) := by
  induction deeds generalizing life s with
  | nil =>
      constructor
      · intro earlier m later heq
        simp [State.moments] at heq
      · rw [State.moments, List.append_nil]
        exact h
  | cons deed rest ih =>
      let m : Moment := ⟨s, deed⟩
      have hnext : P (life ++ [m]) m.after := hdeed life m h
      obtain ⟨hmoments, hlast⟩ := ih hnext
      constructor
      · intro earlier n later heq
        cases earlier with
        | nil =>
            obtain ⟨rfl, -⟩ := List.cons.inj heq
            rwa [List.append_nil]
        | cons first earlier =>
            obtain ⟨rfl, hrest⟩ := List.cons.inj heq
            have hthen := hmoments earlier n later hrest
            rwa [List.append_assoc] at hthen
      · rw [List.append_assoc] at hlast
        exact hlast

/-- What every deed preserves, and what is seen from the slots and the boots before, holds at each
moment of a run and after it. -/
theorem Device.moments_invariant
    (hdeed : ∀ (life : List Moment) (m : Moment), P life m.state → P (life ++ [m]) m.after)
    (hcongr : ∀ (life : List Moment) (s t : State), s.config = t.config → s.slots = t.slots →
      s.clock.prior = t.clock.prior → P life s → P life t)
    {config : Config} {store : Store} {start d : Device} {history : History}
    (hbooted : Booted config store start) (hstart : P [] start.1.state)
    (hrun : Run start history d) :
    (∀ life m later, history.moments = life ++ m :: later → P life m.state) ∧
      P history.moments d.1.state := by
  induction hrun with
  | start =>
      constructor
      · intro life m later heq
        simp [History.moments] at heq
      · exact hstart
  | @serve history d request hrun ih =>
      let x : Entry := ⟨d, request⟩
      obtain ⟨hmoments, hfound⟩ := ih
      have hreach := (Reachable.boot hbooted).of_run hrun
      have hhush : P history.moments d.1.state.hush :=
        hcongr _ d.1.state d.1.state.hush rfl rfl rfl hfound
      obtain ⟨hwithin, hdone⟩ := State.moments_invariant hdeed hhush x.deeds
      obtain ⟨t, hreplays, hslots, hprior⟩ := Entry.replays (x := x) hreach.pendingEvents
      have hconfig : t.config = (serve request d).state.1.state.config := by
        have hkept := (hreplays.invariant (P := fun s => s.config = d.1.state.config)
          (fun m _ _ hm => (m.deed.config_perform m.state).trans hm) rfl).2
        exact hkept.trans (config_serve request d).symm
      rw [History.moments_concat]
      constructor
      · -- The moment is one of this request, or of one before.
        intro life m later heq
        rcases List.append_eq_append_iff.mp heq with
          ⟨earlier, rfl, hrest⟩ | ⟨rest, hhistory, hrest⟩
        · exact hwithin earlier m later hrest
        · cases rest with
          | nil =>
              rw [List.append_nil] at hhistory
              have hfirst := hwithin [] m later hrest.symm
              rwa [List.append_nil, hhistory] at hfirst
          | cons first rest =>
              obtain ⟨rfl, -⟩ := List.cons.inj hrest
              exact hmoments life m rest hhistory
      · rw [hreplays.state] at hdone
        exact hcongr _ _ _ hconfig hslots hprior hdone

end Lasting

/-- The slot's identifier was computed at that beacon time, from the slot's key. -/
structure Slot.Computed (life : List Moment) (i : SlotIndex) (held : Slot) (id : Octets 8)
    (time : UInt32) : Prop where
  rotated : Rotated i time life
  identifier : Ephemeral.identifier held.key held.exponent time = .ok id
  nextRotation : held.nextRotation = saturate32 (time.toNat + Ephemeral.period held.exponent)

/-- Every identifier is due or was computed at a moment before. -/
structure Fresh (life : List Moment) (now : Nat) (s : State) : Prop where
  bounded : s.Bounded
  identifiers : ∀ i id, (s.slots.table.value i).id? = some id →
    (s.slots.table.value i).nextRotation = 0 ∨
      ∃ time, (s.slots.table.value i).Computed life i id time ∧ time ≤ s.clock.time now

namespace Fresh

variable {life : List Moment} {now : Nat} {s t : State}

theorem later (h : Fresh life now s) {time : Nat} (hlater : now ≤ time) : Fresh life time s := by
  constructor
  · exact h.bounded
  · intro i id hid
    cases h.identifiers i id hid with
    | inl hdue => exact .inl hdue
    | inr hcomputed =>
        obtain ⟨seconds, hcomputed, hle⟩ := hcomputed
        exact .inr ⟨seconds, hcomputed, UInt32.le_trans hle (s.clock.time_mono hlater)⟩

theorem of_slots_eq (h : Fresh life now s) (hsound : t.config.Sound) (hslots : s.slots = t.slots)
    (hprior : s.clock.prior = t.clock.prior) : Fresh life now t := by
  constructor
  · exact h.bounded.of_slots_eq hsound hslots
  · intro i id hid
    rw [← hslots] at hid ⊢
    rw [← Clock.time_of_prior_eq hprior]
    exact h.identifiers i id hid

/-- A deed leaves an identifier alone, computes one, or makes one due. -/
theorem after {m : Moment} (h : Fresh life m.deed.time m.state) :
    Fresh (life ++ [m]) m.deed.time m.after := by
  constructor
  · exact m.bounded_after h.bounded
  · intro i id hid
    change ((m.deed.perform m.state).state.slots.table.value i).id? = some id at hid
    change ((m.deed.perform m.state).state.slots.table.value i).nextRotation = 0 ∨
      ∃ time,
        ((m.deed.perform m.state).state.slots.table.value i).Computed (life ++ [m]) i id time ∧
        time ≤ (m.deed.perform m.state).state.clock.time m.deed.time
    cases m.renewal h.bounded.sound i with
    | retained hinstalls hretains hprior =>
        rw [hretains.nextRotation, Clock.time_of_prior_eq hprior]
        cases h.identifiers i id (hretains.id id hid) with
        | inl hdue => exact .inl hdue
        | inr hcomputed =>
            obtain ⟨time, hcomputed, htime⟩ := hcomputed
            refine .inr ⟨time, ⟨hcomputed.rotated.concat hinstalls, ?_, ?_⟩, htime⟩
            · rw [hretains.key, hretains.exponent]
              exact hcomputed.identifier
            · rw [hretains.nextRotation, hretains.exponent]
              exact hcomputed.nextRotation
    | rotated tx computed hframe hcomputed hnext hprior hevent =>
        have hsame : computed = id := by
          rw [Slot.id?, hframe] at hid
          exact Option.some.inj hid
        refine .inr ⟨m.state.clock.time m.deed.time, ⟨?_, hsame ▸ hcomputed, hnext⟩, ?_⟩
        · exact rotated_concat hevent life
        · rw [Clock.time_of_prior_eq hprior]
          exact UInt32.le_refl _
    | due hnext _ => exact .inl hnext

/-- An identifier that is not due was computed less than a period ago. -/
theorem computed_of_early (h : Fresh life now s) {i : SlotIndex} {tx : Int8} {old : Octets 8}
    (hframe : (s.slots.table.value i).frame = some (.eid tx old))
    (hearly : s.clock.time now < (s.slots.table.value i).nextRotation) :
    ∃ time, (s.slots.table.value i).Computed life i old time ∧ time ≤ s.clock.time now ∧
      (s.clock.time now).toNat - time.toNat <
        1 <<< (s.slots.table.value i).exponent.toNat := by
  have hold : (s.slots.table.value i).id? = some old := by
    rw [Slot.id?, hframe]
  cases h.identifiers i old hold with
  | inl hdue =>
      rw [hdue] at hearly
      exact absurd hearly UInt32.not_lt_zero
  | inr hcomputed =>
      obtain ⟨time, hcomputed, hle⟩ := hcomputed
      rw [hcomputed.nextRotation] at hearly
      exact ⟨time, hcomputed, hle, Ephemeral.sub_lt_of_not_due hearly⟩

end Fresh

/-! ## Turns of a slot -/

namespace Moment

variable {m : Moment} {i : SlotIndex} {payload : Bytes} {now : Nat} {tx : Int8} {id : Octets 8}

/-- What the radio takes is the identifier that the slot has once it has been renewed if due. -/
theorem Faithful.ofFrame_identifier (h : m.Faithful) (hdeed : m.deed = .took ⟨i, some payload⟩ now)
    (hframe : ((State.rotateIfDue i now m.state).state.slots.table.value i).frame =
      some (.eid tx id)) :
    Advert.ofFrame (.eid tx id) = .ok payload := by
  obtain ⟨advert, hadvert, rfl⟩ := h i payload now hdeed
  obtain ⟨frame, hlive, hpayload⟩ := State.prepare_of_some hadvert
  obtain ⟨held, shown, hheld, hshown, hsame⟩ := State.liveFrame_of_some hlive
  have hvalue : (State.rotateIfDue i now m.state).state.slots.slot? i =
      some ((State.rotateIfDue i now m.state).state.slots.table.value i) :=
    PerSlot.getElem?_eq_value ..
  rw [hvalue, Option.some.injEq] at hheld
  rw [← hheld, hframe, Option.some.injEq] at hshown
  have hsent : frame = .eid tx id := by
    rw [hshown]
    apply hsame
    rw [← hshown]
    simp [Frame.kind]
  rw [← hsent]
  exact hpayload

theorem not_installs_of_took {turn : Turn} (hdeed : m.deed = .took turn now) : ¬m.Installs i := by
  rintro ⟨attr, offset, data, time, hasked, -⟩
  rw [hdeed] at hasked
  cases hasked

theorem rotates_of_rotated {turn : Turn} (hdeed : m.deed = .took turn now)
    (hslot : turn.slot = i)
    (h : (State.rotateIfDue i now m.state).state = m.state.rotated i tx id now) :
    m.Rotates i (m.state.clock.time now) := by
  have hevents : m.events = (State.rotateIfDue i now m.state).state.pendingEvents := by
    rw [events, hdeed, ← hslot]
    exact congrArg (fun x => x.2.2) (Turn.renewing_perform turn now m.state)
  rw [Rotates, hevents, h]
  exact State.mem_enqueueEvent _ _

end Moment

/-- What the radio takes of a slot with a changing identity was computed from the slot's key, and
not longer ago than a period. -/
theorem Fresh.airs {life : List Moment} {m : Moment} (h : Fresh life m.deed.time m.state)
    (hfaithful : m.Faithful) {i : SlotIndex} {payload : Bytes} {now : Nat}
    (hdeed : m.deed = .took ⟨i, some payload⟩ now) {tx : Int8} {old : Octets 8}
    (hframe : (m.state.slots.table.value i).frame = some (.eid tx old)) :
    ∃ time id, Rotated i time (life ++ [m]) ∧
      Ephemeral.identifier (m.state.slots.table.value i).key (m.state.slots.table.value i).exponent
        time = .ok id ∧
      Advert.ofFrame (.eid tx id) = .ok payload ∧
      time ≤ m.state.clock.time now ∧
      (m.state.clock.time now).toNat - time.toNat <
        1 <<< (m.state.slots.table.value i).exponent.toNat := by
  have htime : m.deed.time = now := by
    rw [hdeed]
    rfl
  rcases State.rotateIfDue_of_eid hframe (h.bounded.exponent_le i) now with
    ⟨hearly, hkept⟩ | ⟨id, hid, hrotated⟩
  · -- It is not due, so it is an old one, of an earlier moment of this boot.
    have hpayload : Advert.ofFrame (.eid tx old) = .ok payload := by
      apply hfaithful.ofFrame_identifier hdeed
      rw [hkept]
      exact hframe
    obtain ⟨time, hcomputed, hle, hage⟩ := (htime ▸ h).computed_of_early hframe hearly
    have hrotates := hcomputed.rotated.concat (Moment.not_installs_of_took hdeed)
    exact ⟨time, old, hrotates, hcomputed.identifier, hpayload, hle, hage⟩
  · -- It is due, so the turn has begun with a rotation.
    have hpayload : Advert.ofFrame (.eid tx id) = .ok payload := by
      apply hfaithful.ofFrame_identifier hdeed
      rw [hrotated, State.value_rotated, if_pos rfl]
    have hrotates := rotated_concat (Moment.rotates_of_rotated hdeed rfl hrotated) life
    have hage : (m.state.clock.time now).toNat - (m.state.clock.time now).toNat <
        1 <<< (m.state.slots.table.value i).exponent.toNat := by
      rw [Nat.sub_self]
      exact Ephemeral.period_pos _
    exact ⟨m.state.clock.time now, id, hrotates, hid, hpayload, UInt32.le_refl _, hage⟩

/-! ## Runs -/

namespace Device

variable {config : Config} {store : Store} {start d : Device} {history : History}

/-- When a boot starts every identifier is due. -/
theorem Booted.freshIdentifiers (hstore : store.medium.Bounded) (hbooted : Booted config store d)
    (now : Nat) : Fresh [] now d.1.state := by
  constructor
  · exact hbooted.bounded hstore
  · intro i id _
    exact .inl (hbooted.fresh.2.2 i)

theorem faithful_of_run (hbooted : Booted config store start) (hrun : Run start history d)
    {m : Moment} (hm : m ∈ history.moments) : m.Faithful := by
  induction hrun with
  | start => cases hm
  | @serve history d request hrun ih =>
      rw [History.moments_concat] at hm
      cases List.mem_append.mp hm with
      | inl hm => exact ih hm
      | inr hm =>
          have hreach := (Reachable.boot hbooted).of_run hrun
          exact Entry.faithful (x := ⟨d, request⟩) hreach.pendingEvents hm

/-- The device has fresh identifiers at each moment of its run and after it. -/
theorem fresh_of_run (hstore : store.medium.Bounded) (hbooted : Booted config store start)
    (hrun : Run start history d)
    (hordered : history.Pairwise fun x y => x.request.time ≤ y.request.time) :
    (∀ life m later, history.moments = life ++ m :: later → Fresh life m.deed.time m.state) ∧
      ∀ now, (∀ x ∈ history, x.request.time ≤ now) → Fresh history.moments now d.1.state := by
  let P (life : List Moment) (s : State) : Prop :=
    (life.Pairwise fun m n => m.deed.time ≤ n.deed.time) →
      ∀ now, (∀ m ∈ life, m.deed.time ≤ now) → Fresh life now s
  have hdeed (life : List Moment) (m : Moment) (h : P life m.state) : P (life ++ [m]) m.after := by
    intro hmoments now hnow
    obtain ⟨hlife, -, hlast⟩ := List.pairwise_append.mp hmoments
    have hfresh : Fresh life m.deed.time m.state :=
      h hlife _ fun n hn => hlast n hn m (List.mem_singleton_self m)
    exact hfresh.after.later (hnow m (List.mem_append_right _ (List.mem_singleton_self m)))
  have hcongr (life : List Moment) (s t : State) (hconfig : s.config = t.config)
      (hslots : s.slots = t.slots) (hprior : s.clock.prior = t.clock.prior) (h : P life s) :
      P life t := by
    intro hlife now hnow
    have hfresh := h hlife now hnow
    exact hfresh.of_slots_eq (hconfig ▸ hfresh.bounded.sound) hslots hprior
  have hstart : P [] start.1.state := fun _ now _ => hbooted.freshIdentifiers hstore now
  have hmoments := history.moments_ordered hordered
  obtain ⟨hwithin, hdone⟩ := moments_invariant hdeed hcongr hbooted hstart hrun
  constructor
  · intro life m later heq
    rw [heq] at hmoments
    obtain ⟨hlife, -, hlast⟩ := List.pairwise_append.mp hmoments
    exact hwithin life m later heq hlife _ fun n hn => hlast n hn m List.mem_cons_self
  · intro now hnow
    refine hdone hmoments now ?_
    intro m hm
    obtain ⟨x, hx, hmx⟩ := List.mem_flatMap.mp hm
    rw [Entry.time_of_mem_moments hmx]
    exact hnow x hx

/-- Whatever the radio takes of a slot with a changing identity carries an identifier computed from
the key that the slot has, at a rotation of this boot since the key came, less than a period ago. -/
theorem airs_fresh_identifier (hstore : store.medium.Inherited)
    (hbooted : Booted config store start) (hrun : Run start history d)
    (hordered : history.Pairwise fun x y => x.request.time ≤ y.request.time)
    {life later : List Moment} {m : Moment} (hmoments : history.moments = life ++ m :: later)
    {i : SlotIndex} {payload : Bytes} {now : Nat} (hdeed : m.deed = .took ⟨i, some payload⟩ now)
    {tx : Int8} {old : Octets 8}
    (hframe : (m.state.slots.table.value i).frame = some (.eid tx old)) :
    ∃ time id, Rotated i time (life ++ [m]) ∧
      Ephemeral.identifier (m.state.slots.table.value i).key (m.state.slots.table.value i).exponent
        time = .ok id ∧
      Advert.ofFrame (.eid tx id) = .ok payload ∧
      time ≤ m.state.clock.time now ∧
      (m.state.clock.time now).toNat - time.toNat <
        1 <<< (m.state.slots.table.value i).exponent.toNat := by
  have hfresh := (fresh_of_run hstore.bounded hbooted hrun hordered).1 life m later hmoments
  have hmem : m ∈ history.moments := by
    rw [hmoments]
    exact List.mem_append_right _ List.mem_cons_self
  exact hfresh.airs (faithful_of_run hbooted hrun hmem) hdeed hframe

/-- One slot is broadcast, and its identity changes. -/
def changing : Config :=
  { Config.standard with slotIntervals := #v[0, 0, 700] }

/-- What the third slot holds, and which turns there are when beaconing starts. -/
def outset (start : Device) : Option FrameKind × List (Nat × Bool) :=
  let turns := Transcript.turns none (serve (.command .startBeacon 0) start).output
  ((start.1.state.slots.table.value .third).kind?,
    turns.map fun turn => (turn.slot, turn.sent.isSome))

theorem exists_outset :
    ∃ start, Booted changing ⟨.memory none, fun _ _ => none, 0⟩ start ∧
      outset start = (some .eid, [(2, true)]) :=
  exists_booted_of_eq (.idle 100 10240 fun _ _ => none) (some (Octets.zero 32)) 0 outset
    (by decide +kernel)

theorem exists_moment_of_outset {start : Device} (h : outset start = (some .eid, [(2, true)])) :
    ∃ payload tx old, History.moments [⟨start, .command .startBeacon 0⟩] =
        [⟨start.1.state.hush, .took ⟨2, some payload⟩ 0⟩] ∧
      (start.1.state.slots.table.value .third).frame = some (.eid tx old) := by
  simp only [outset, Prod.mk.injEq] at h
  obtain ⟨hkind, hturns⟩ := h
  obtain ⟨⟨slot, sent⟩, others, hfirst, hturn, hothers⟩ := List.map_eq_cons_iff.mp hturns
  simp only [Prod.mk.injEq] at hturn
  obtain ⟨rfl, hsent⟩ := hturn
  obtain ⟨payload, rfl⟩ := Option.isSome_iff_exists.mp hsent
  have hnone : others = [] := List.map_eq_nil_iff.mp hothers
  obtain ⟨tx, old, hframe⟩ := Slot.frame_of_kind_eid hkind
  refine ⟨payload, tx, old, ?_, hframe⟩
  simp only [History.moments, List.flatMap_cons, List.flatMap_nil, List.append_nil, Entry.moments,
    Entry.deeds, Entry.output, Request.asked, List.nil_append, hfirst, hnone]
  rfl

/-- The first identifier on air is one of this boot. -/
theorem first_identifier_on_air :
    ∃ start m payload time id, Booted changing ⟨.memory none, fun _ _ => none, 0⟩ start ∧
      History.moments [⟨start, .command .startBeacon 0⟩] = [m] ∧
      m.deed = .took ⟨2, some payload⟩ 0 ∧ Rotated .third time [m] ∧
      Ephemeral.identifier (m.state.slots.table.value .third).key
        (m.state.slots.table.value .third).exponent time = .ok id := by
  obtain ⟨start, hbooted, houtset⟩ := exists_outset
  obtain ⟨payload, tx, old, hmoments, hframe⟩ := exists_moment_of_outset houtset
  have hrun := (Run.start : Run start [] start).serve (.command .startBeacon 0)
  have hsplit : History.moments [⟨start, .command .startBeacon 0⟩] =
      [] ++ ⟨start.1.state.hush, .took ⟨2, some payload⟩ 0⟩ :: [] := hmoments
  obtain ⟨time, id, hrotated, hid, -⟩ := airs_fresh_identifier (i := .third) .memory hbooted hrun
    (List.pairwise_singleton ..) hsplit rfl hframe
  exact ⟨start, _, payload, time, id, hbooted, hmoments, rfl, hrotated, hid⟩

end Device

end Beacon

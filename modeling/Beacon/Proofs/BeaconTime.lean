import Beacon.Proofs.Storing

/-!
# Beacon time across boots

A beacon is switched on and off again, over flash that was blank at first and
keeps what it is given.  Its clock counts all that has been saved: beacon time is
never less than it was when everything was saved, or at a rotation that was
followed by a save of either kind, and never more than the time that the beacon
has been up in all.

The invariant of a boot is about the clock that is stored: it has the same past as
the clock of the device, and has come at most as far.  Starting again makes its
whole count the past.
-/

namespace Beacon

/-! ## Counts -/

namespace Clock

def seconds (now : Nat) : UInt32 :=
  saturate32 (now / 1000)

/-- All that the clock has counted. -/
def total (clock : Clock) : UInt32 :=
  clock.boot.prior

theorem toNat_total (clock : Clock) :
    clock.total.toNat = min (clock.prior.toNat + clock.elapsed.toNat) (UInt32.size - 1) :=
  toNat_saturate32 _

theorem toNat_time (clock : Clock) (now : Nat) :
    (clock.time now).toNat = min (clock.prior.toNat + (seconds now).toNat) (UInt32.size - 1) :=
  toNat_saturate32 _

theorem toNat_seconds_le (now : Nat) : (seconds now).toNat ≤ now / 1000 := by
  rw [seconds, toNat_saturate32]
  exact Nat.min_le_left _ _

theorem seconds_mono {now later : Nat} (h : now ≤ later) : seconds now ≤ seconds later := by
  have hseconds : now / 1000 ≤ later / 1000 := Nat.div_le_div_right h
  rw [UInt32.le_iff_toNat_le, seconds, seconds, toNat_saturate32, toNat_saturate32]
  omega

theorem prior_le_total (clock : Clock) : clock.prior ≤ clock.total := by
  rw [UInt32.le_iff_toNat_le, toNat_total]
  exact Nat.le_min.mpr ⟨Nat.le_add_right _ _, Nat.le_sub_one_of_lt clock.prior.toNat_lt⟩

theorem time_le_total {clock held : Clock} (hprior : held.prior = clock.prior) {now : Nat}
    (h : seconds now ≤ held.elapsed) : clock.time now ≤ held.total := by
  rw [UInt32.le_iff_toNat_le] at h ⊢
  rw [toNat_time, toNat_total, hprior]
  omega

theorem total_le_time {clock held : Clock} (hprior : held.prior = clock.prior) {now : Nat}
    (h : held.elapsed ≤ seconds now) : held.total ≤ clock.time now := by
  rw [UInt32.le_iff_toNat_le] at h ⊢
  rw [toNat_time, toNat_total, hprior]
  omega

theorem total_le_total {held other : Clock} (hprior : held.prior = other.prior)
    (h : held.elapsed ≤ other.elapsed) : held.total ≤ other.total := by
  rw [UInt32.le_iff_toNat_le] at h ⊢
  rw [toNat_total, toNat_total, hprior]
  omega

end Clock

open Clock

/-! ## The stored clock -/

namespace Medium

def Stocked (medium : Medium) : Prop :=
  ∃ params, (load medium).value = .ok (some params)

/-- The clock that a boot would start from. -/
def clock (medium : Medium) : Clock :=
  match (load medium).value with
  | .ok (some params) => params.clock
  | _ => .zero

end Medium

namespace Store

/-- The store refuses nothing. -/
def Works (store : Store) : Prop :=
  ∀ n call, store.verdict n call = none

/-- Flash that nothing has been written to. -/
def blank : Store :=
  ⟨.flash .erased, fun _ _ => none, 0⟩

theorem Works.clock_save {store : Store} (h : store.Works) {params : Params}
    (hmagic : params.magic = Params.magicWord) :
    (save params store).state.medium.Stocked ∧
      (save params store).state.medium.clock = params.clock := by
  rcases medium_save hmagic store with ⟨-, -, hload⟩ | ⟨fault, hrefused, -⟩
  · refine ⟨⟨params, hload⟩, ?_⟩
    rw [Medium.clock, hload]
  · cases (h _ _).symm.trans hrefused

theorem Works.clock_saveClock {store : Store} (h : store.Works) (hstocked : store.medium.Stocked)
    (clock : Clock) :
    (saveClock clock store).state.medium.Stocked ∧
      (saveClock clock store).state.medium.clock = clock := by
  obtain ⟨params, hheld⟩ := hstocked
  rcases medium_saveClock clock store with ⟨-, -, hload⟩ | ⟨fault, hrefused, -⟩
  · rw [hheld] at hload
    refine ⟨⟨{ params with clock }, hload⟩, ?_⟩
    rw [Medium.clock, hload]
    rfl
  · cases (h _ _).symm.trans hrefused

end Store

/-! ## Boots -/

namespace Device

/-- The device was started from the store at that time. -/
def BootedAt (config : Config) (now : Nat) (store : Store) (d : Device) : Prop :=
  ∃ radio entropy engine, (boot radio config entropy now store).value = .ok engine ∧
    d = (engine, (boot radio config entropy now store).state)

theorem BootedAt.booted {config : Config} {now : Nat} {store : Store} {d : Device}
    (h : BootedAt config now store d) : Booted config store d := by
  obtain ⟨radio, entropy, engine, hboot, rfl⟩ := h
  exact ⟨radio, entropy, now, engine, hboot, rfl⟩

theorem clock_adopted (medium : Medium) {s : State} (hzero : s.clock = .zero) :
    (adopted (Medium.load medium).value s).clock = ⟨medium.clock.total, 0⟩ := by
  rw [Medium.clock]
  cases (Medium.load medium).value with
  | error fault => exact hzero
  | ok stored =>
      cases stored with
      | none => exact hzero
      | some params => rfl

/-- The whole count that is stored is the past of the boot, and the boot saves how far it has come. -/
theorem BootedAt.clock_eq {config : Config} {now : Nat} {store : Store} {d : Device}
    (hworks : store.Works) (h : BootedAt config now store d) :
    d.1.state.clock = ⟨store.medium.clock.total, seconds now⟩ ∧
      d.2.medium.Stocked ∧ d.2.medium.clock = d.1.state.clock := by
  obtain ⟨radio, entropy, engine, hboot, rfl⟩ := h
  obtain ⟨s, hs, hd⟩ := boot_eq_ok hboot
  obtain ⟨slots, identity, rng, -, -, rfl⟩ := State.ofConfig_eq_ok hs
  obtain ⟨hvalue, hverdict, -⟩ := Store.load_of_none (hworks store.calls .load)
  rw [hd, hvalue]
  have hclock := clock_adopted store.medium (s := .factory config slots identity rng
    radio.minInterval radio.maxInterval) rfl
  generalize adopted (Medium.load store.medium).value _ = adoptee at hclock ⊢
  let before : Device := (Engine.ofState radio adoptee, (Store.load store).state)
  have hsavings := (savings_persist now before).2
  have hclock : (persist now before).state.1.state.clock =
      ⟨store.medium.clock.total, seconds now⟩ :=
    (congrArg Savings.clock hsavings).trans (congrArg (Clock.record now) hclock)
  have hstore : (persist now before).state.2 =
      (Store.save (before.whole now) (Store.load store).state).state :=
    congrArg Savings.store hsavings
  have hloaded : (Store.load store).state.Works := fun n call => hverdict ▸ hworks n call
  have hmagic : (before.whole now).magic = Params.magicWord := rfl
  obtain ⟨hstocked, hsaved⟩ := hloaded.clock_save hmagic
  refine ⟨hclock, ?_⟩
  change (persist now before).state.2.medium.Stocked ∧
    (persist now before).state.2.medium.clock = (persist now before).state.1.state.clock
  rw [hstore]
  exact ⟨hstocked, hsaved.trans (congrArg Savings.clock hsavings).symm⟩

end Device

/-! ## One boot -/

/-- The uptimes that count for ever: everything was saved at that time, or a slot got an identifier,
and something was saved later. -/
inductive History.Kept (boot : Nat) (history : History) : Nat → Prop
  | boot : Kept boot history boot
  | full {x : Entry} : x ∈ history → x.SavesAll → Kept boot history x.request.time
  | rotation {x y : Entry} {earlier later : History} :
      history = earlier ++ x :: later → x.Rotates → y ∈ later → y.Saves →
      Kept boot history x.request.time

theorem History.Kept.of_concat {boot time : Nat} {history : History} {x : Entry}
    (h : Kept boot (history ++ [x]) time) :
    Kept boot history time ∨ x.SavesAll ∧ x.request.time = time ∨
      x.Saves ∧ ∃ y ∈ history, y.Rotates ∧ y.request.time = time := by
  cases h with
  | boot => exact .inl .boot
  | @full y hmem hsaves =>
      cases List.mem_append.mp hmem with
      | inl hmem => exact .inl (.full hmem hsaves)
      | inr hmem =>
          rw [List.mem_singleton.mp hmem] at hsaves ⊢
          exact .inr (.inl ⟨hsaves, rfl⟩)
  | @rotation y z earlier later hsplit hrotates hmem hsaves =>
      rcases List.eq_nil_or_concat later with rfl | ⟨later, last, rfl⟩
      · cases hmem
      · rw [List.concat_eq_append, ← List.cons_append, ← List.append_assoc] at hsplit
        obtain ⟨rfl, hlast⟩ := List.append_inj' hsplit rfl
        cases hlast
        rw [List.concat_eq_append] at hmem
        cases List.mem_append.mp hmem with
        | inl hmem => exact .inl (.rotation rfl hrotates hmem hsaves)
        | inr hmem =>
            rw [List.mem_singleton.mp hmem] at hsaves
            exact .inr (.inr ⟨hsaves, y, List.mem_append_right _ List.mem_cons_self, hrotates, rfl⟩)

/-- The stored clock has the past of the boot, and has come at least as far as what counts for ever
and at most as far as the clock of the device, which has come as far as the last rotation and no
farther than the boot. -/
structure Device.Counts (boot : Nat) (prior : UInt32) (history : History) (d : Device) : Prop where
  works : d.2.Works
  stocked : d.2.medium.Stocked
  prior_eq : d.1.state.clock.prior = prior
  stored_prior_eq : d.2.medium.clock.prior = prior
  stored_le : d.2.medium.clock.elapsed ≤ d.1.state.clock.elapsed
  elapsed_le : ∀ now, boot ≤ now → (∀ x ∈ history, x.request.time ≤ now) →
    d.1.state.clock.elapsed ≤ seconds now
  rotations_le : ∀ x ∈ history, x.Rotates → seconds x.request.time ≤ d.1.state.clock.elapsed
  kept_le : ∀ time, history.Kept boot time → seconds time ≤ d.2.medium.clock.elapsed

/-- A request takes the clock of the device and the stored one on, and neither back. -/
structure Entry.Advances (x : Entry) : Prop where
  works : x.after.2.Works
  stocked : x.after.2.medium.Stocked
  prior_eq : x.after.1.state.clock.prior = x.before.1.state.clock.prior
  stored_prior_eq : x.after.2.medium.clock.prior = x.before.1.state.clock.prior
  stored_le : x.after.2.medium.clock.elapsed ≤ x.after.1.state.clock.elapsed
  mono : x.before.1.state.clock.elapsed ≤ x.after.1.state.clock.elapsed
  elapsed_le : x.after.1.state.clock.elapsed ≤ seconds x.request.time
  stored_mono : x.before.2.medium.clock.elapsed ≤ x.after.2.medium.clock.elapsed
  rotated : x.Rotates → seconds x.request.time ≤ x.after.1.state.clock.elapsed
  saved : x.Saves → x.before.1.state.clock.elapsed ≤ x.after.2.medium.clock.elapsed
  full : x.SavesAll → seconds x.request.time ≤ x.after.2.medium.clock.elapsed

namespace Device.Counts

variable {boot : Nat} {prior : UInt32} {history : History} {x : Entry}

theorem concat (h : x.before.Counts boot prior history) (hx : x.Advances) :
    x.after.Counts boot prior (history ++ [x]) where
  works := hx.works
  stocked := hx.stocked
  prior_eq := hx.prior_eq.trans h.prior_eq
  stored_prior_eq := hx.stored_prior_eq.trans h.prior_eq
  stored_le := hx.stored_le
  elapsed_le now _ hnow :=
    UInt32.le_trans hx.elapsed_le
      (seconds_mono (hnow x (List.mem_append_right _ (List.mem_singleton_self x))))
  rotations_le y hmem hrotates := by
    cases List.mem_append.mp hmem with
    | inl hmem => exact UInt32.le_trans (h.rotations_le y hmem hrotates) hx.mono
    | inr hmem =>
        rw [List.mem_singleton.mp hmem] at hrotates ⊢
        exact hx.rotated hrotates
  kept_le time hkept := by
    rcases hkept.of_concat with hkept | ⟨hfull, rfl⟩ | ⟨hsaves, y, hmem, hrotates, rfl⟩
    · exact UInt32.le_trans (h.kept_le time hkept) hx.stored_mono
    · exact hx.full hfull
    · exact UInt32.le_trans (h.rotations_le y hmem hrotates) (hx.saved hsaves)

/-- Without a save only the clock of the device may go on. -/
theorem advances_of_still (h : x.before.Counts boot prior history)
    (hcome : x.before.1.state.clock.elapsed ≤ seconds x.request.time)
    (hspared : ∀ m ∈ x.moments, m.resets = false) {t : State} (hstored : x.output.stored = [])
    (hreplays : Replays x.before.1.state.hush x.deeds t) (hclock : x.after.1.state.clock = t.clock)
    (hstore : x.after.2 = x.before.2) : x.Advances := by
  have hunsaved : ¬x.Saves := Entry.not_saves_of_still hstored
  have hclocks : x.after.1.state.clock.prior = x.before.1.state.clock.prior ∧
      x.before.1.state.clock.elapsed ≤ x.after.1.state.clock.elapsed ∧
      x.after.1.state.clock.elapsed ≤ seconds x.request.time ∧
      (x.Rotates → seconds x.request.time ≤ x.after.1.state.clock.elapsed) := by
    obtain ⟨-, ⟨hnone, hlast, -⟩ | ⟨-, hlast, -⟩⟩ := State.ticked (s := x.before.1.state.hush) rfl
      (fun _ => Entry.time_of_mem_deeds) hspared
    · have hsame : x.after.1.state.clock = x.before.1.state.clock :=
        hclock.trans (hreplays.state ▸ hlast)
      rw [hsame]
      exact ⟨rfl, UInt32.le_refl _, hcome, fun hrotates =>
        absurd hrotates (Entry.not_rotates hnone)⟩
    · have hset : x.after.1.state.clock = x.before.1.state.clock.record x.request.time :=
        hclock.trans (hreplays.state ▸ hlast)
      rw [hset]
      exact ⟨rfl, hcome, UInt32.le_refl _, fun _ => UInt32.le_refl _⟩
  obtain ⟨hprior, hmono, helapsed, hrotated⟩ := hclocks
  constructor
  · exact hstore ▸ h.works
  · exact hstore ▸ h.stocked
  · exact hprior
  · rw [hstore, h.stored_prior_eq, h.prior_eq]
  · rw [hstore]
    exact UInt32.le_trans h.stored_le hmono
  · exact hmono
  · exact helapsed
  · rw [hstore]
    exact UInt32.le_refl _
  · exact hrotated
  · exact fun hsaves => absurd hsaves hunsaved
  · exact fun hfull => absurd hfull.saves hunsaved

/-- With a save the stored clock comes as far as that of the device. -/
theorem advances_of_saved (h : x.before.Counts boot prior history) (hworks : x.after.2.Works)
    (hdeeds : x.deeds = []) (hstocked : x.after.2.medium.Stocked)
    (hsaved : x.after.2.medium.clock = x.after.1.state.clock)
    (hprior : x.after.1.state.clock.prior = x.before.1.state.clock.prior)
    (hmono : x.before.1.state.clock.elapsed ≤ x.after.1.state.clock.elapsed)
    (helapsed : x.after.1.state.clock.elapsed ≤ seconds x.request.time)
    (hfull : x.SavesAll → seconds x.request.time ≤ x.after.1.state.clock.elapsed) :
    x.Advances := by
  have hunrotated : ¬x.Rotates := Entry.not_rotates_of_idle hdeeds
  constructor
  · exact hworks
  · exact hstocked
  · exact hprior
  · exact hsaved ▸ hprior
  · exact hsaved ▸ UInt32.le_refl _
  · exact hmono
  · exact helapsed
  · exact hsaved ▸ UInt32.le_trans h.stored_le hmono
  · exact fun hrotates => absurd hrotates hunrotated
  · exact fun _ => hsaved ▸ hmono
  · exact hsaved ▸ hfull

theorem advances (h : x.before.Counts boot prior history) (hphase : x.before.1.InPhase)
    (htold : x.before.1.state.pendingEvents = []) (hboot : boot ≤ x.request.time)
    (hordered : ∀ y ∈ history, y.request.time ≤ x.request.time)
    (hspared : ∀ m ∈ x.moments, m.resets = false) : x.Advances := by
  have hcome := h.elapsed_le x.request.time hboot hordered
  have hkeeping := x.keeping hphase htold
  have hworks : x.after.2.Works := fun n call => hkeeping.verdict_eq ▸ h.works n call
  cases hkeeping with
  | still hstored hreplays hafter =>
      exact h.advances_of_still hcome hspared hstored hreplays (congrArg Savings.clock hafter)
        (congrArg Savings.store hafter)
  | @whole params fault hdeeds _ hparams _ _ hafter =>
      have hmagic : params.magic = Params.magicWord := hparams ▸ rfl
      have hrecorded : params.clock = x.before.1.state.clock.record x.request.time := hparams ▸ rfl
      have hclock : x.after.1.state.clock = x.before.1.state.clock.record x.request.time :=
        congrArg Savings.clock hafter
      have hstore : x.after.2 = (Store.save params x.before.2).state := congrArg Savings.store hafter
      obtain ⟨hstocked, hsaved⟩ := h.works.clock_save hmagic
      rw [← hstore] at hstocked hsaved
      apply h.advances_of_saved hworks hdeeds hstocked (hsaved.trans (hrecorded.trans hclock.symm))
      · rw [hclock]
        rfl
      · exact hclock ▸ hcome
      · exact hclock ▸ UInt32.le_refl _
      · exact fun _ => hclock ▸ UInt32.le_refl _
  | @clock clock fault hdeeds _ _ _ hsame _ hstored hafter =>
      have hclock : x.after.1.state.clock = clock := congrArg Savings.clock hafter
      have hstore : x.after.2 = (Store.saveClock clock x.before.2).state :=
        congrArg Savings.store hafter
      obtain ⟨hstocked, hsaved⟩ := h.works.clock_saveClock h.stocked clock
      rw [← hstore] at hstocked hsaved
      apply h.advances_of_saved hworks hdeeds hstocked (hsaved.trans hclock.symm)
      · rw [hclock, hsame]
      · exact hclock ▸ hsame ▸ UInt32.le_refl _
      · exact hclock ▸ hsame ▸ hcome
      · rintro ⟨params, hmem⟩
        rw [hstored] at hmem
        cases List.mem_singleton.mp hmem

end Device.Counts

/-- The time of a rotation is that of the clock that the deed found. -/
theorem Moment.time_of_rotates {m : Moment} (htold : m.state.pendingEvents = []) {i : SlotIndex}
    {time : UInt32} (h : m.Rotates i time) : time = m.state.clock.time m.deed.time := by
  rw [Rotates] at h
  cases m.ticks htold with
  | idle _ hevents _ _ =>
      rw [hevents] at h
      cases h
  | rotated j _ hevents _ _ =>
      rw [hevents] at h
      exact (Event.eidRotated.inj (List.mem_singleton.mp h)).2
  | reset _ hevents _ _ =>
      rw [hevents] at h
      cases h

/-- The request finds the clocks as they should be, takes them on, and tells the time. -/
structure Entry.Timely (boot : Nat) (prior : UInt32) (x : Entry) : Prop where
  counts : ∃ earlier, x.before.Counts boot prior earlier
  advances : x.Advances
  rotations : ∀ m ∈ x.moments, ∀ i time, m.Rotates i time →
    time = x.before.1.state.clock.time x.request.time

theorem Entry.time_of_rotates {x : Entry} (hspared : ∀ m ∈ x.moments, m.resets = false) {m : Moment}
    (hm : m ∈ x.moments) {i : SlotIndex} {time : UInt32} (h : m.Rotates i time) :
    time = x.before.1.state.clock.time x.request.time := by
  have htold := State.told_moments (s := x.before.1.state.hush) rfl hm
  have hprior := (State.ticked (s := x.before.1.state.hush) rfl
    (fun _ => Entry.time_of_mem_deeds) hspared).1 m hm
  rw [m.time_of_rotates htold h, Entry.time_of_mem_deeds (State.deed_of_mem_moments hm)]
  exact Clock.time_of_prior_eq hprior _

namespace Device

variable {config : Config} {store : Store} {boot : Nat} {start d : Device} {history : History}

theorem BootedAt.counts (hworks : store.Works) (hbooted : BootedAt config boot store d) :
    d.Counts boot d.1.state.clock.prior [] := by
  obtain ⟨hclock, hstocked, hsaved⟩ := hbooted.clock_eq hworks
  have hverdict := hbooted.booted.verdict_eq
  constructor
  · exact fun n call => hverdict ▸ hworks n call
  · exact hstocked
  · rfl
  · rw [hsaved]
  · rw [hsaved]
    exact UInt32.le_refl _
  · intro now hnow _
    rw [hclock]
    exact seconds_mono hnow
  · intro x hmem
    cases hmem
  · intro time hkept
    cases hkept with
    | boot =>
        rw [hsaved, hclock]
        exact UInt32.le_refl _
    | full hmem _ => cases hmem
    | rotation hsplit _ _ _ => simp at hsplit

theorem counts_of_run (hworks : store.Works) (hbooted : BootedAt config boot store start)
    (hrun : Run start history d) (hboot : ∀ x ∈ history, boot ≤ x.request.time)
    (hordered : history.Pairwise fun x y => x.request.time ≤ y.request.time)
    (hspared : ∀ m ∈ history.moments, m.resets = false) :
    d.Counts boot start.1.state.clock.prior history ∧
      ∀ x ∈ history, x.Timely boot start.1.state.clock.prior := by
  induction hrun with
  | start => exact ⟨hbooted.counts hworks, fun x hmem => absurd hmem List.not_mem_nil⟩
  | @serve history d request hrun ih =>
      let x : Entry := ⟨d, request⟩
      have hlast : x ∈ history ++ [x] := List.mem_append_right _ (List.mem_singleton_self x)
      obtain ⟨hbefore, -, hlater⟩ := List.pairwise_append.mp hordered
      rw [History.moments_concat] at hspared
      have hsparedNow : ∀ m ∈ x.moments, m.resets = false :=
        fun m hm => hspared m (List.mem_append_right _ hm)
      obtain ⟨hcounts, htimely⟩ := ih (fun y hy => hboot y (List.mem_append_left _ hy)) hbefore
        fun m hm => hspared m (List.mem_append_left _ hm)
      have hreach := Reachable.of_run (.boot hbooted.booted) hrun
      have hadvances : x.Advances := Counts.advances hcounts hreach.inPhase hreach.pendingEvents
        (hboot x hlast) (fun y hy => hlater y hy x (List.mem_singleton_self x)) hsparedNow
      refine ⟨Counts.concat hcounts hadvances, fun y hy => ?_⟩
      cases List.mem_append.mp hy with
      | inl hy => exact htimely y hy
      | inr hy =>
          rw [List.mem_singleton.mp hy]
          exact ⟨⟨history, hcounts⟩, hadvances,
            fun m hm i time => Entry.time_of_rotates hsparedNow hm⟩

end Device

/-! ## Boot after boot -/

/-- From one start to the next: what the device was asked, and how long it was up. -/
structure Session where
  config : Config
  store : Store
  boot : Nat
  start : Device
  history : History
  last : Device
  uptime : Nat

namespace Session

/-- The device was started from the store, and then asked one thing after the other, and nobody
brought back the factory defaults. -/
structure Valid (s : Session) : Prop where
  booted : Device.BootedAt s.config s.boot s.store s.start
  run : Run s.start s.history s.last
  boot_le : ∀ x ∈ s.history, s.boot ≤ x.request.time
  ordered : s.history.Pairwise fun x y => x.request.time ≤ y.request.time
  boot_le_uptime : s.boot ≤ s.uptime
  le_uptime : ∀ x ∈ s.history, x.request.time ≤ s.uptime
  spared : ∀ m ∈ s.history.moments, m.resets = false

/-- A beacon time that must not be forgotten: that of the start, of a request that saved everything,
or of a rotation that was followed by a save. -/
inductive Saved (s : Session) : UInt32 → Prop
  | boot : Saved s (s.start.1.state.clock.time s.boot)
  | full {x : Entry} : x ∈ s.history → x.SavesAll →
      Saved s (x.before.1.state.clock.time x.request.time)
  | rotation {x y : Entry} {earlier later : History} {m : Moment} {i : SlotIndex} {time : UInt32} :
      s.history = earlier ++ x :: later → m ∈ x.moments → m.Rotates i time → y ∈ later → y.Saves →
      Saved s time

variable {s : Session}

theorem Valid.counts (h : s.Valid) (hworks : s.store.Works) :
    s.last.Counts s.boot s.start.1.state.clock.prior s.history ∧
      ∀ x ∈ s.history, x.Timely s.boot s.start.1.state.clock.prior :=
  Device.counts_of_run hworks h.booted h.run h.boot_le h.ordered h.spared

theorem Saved.exists_kept {time : UInt32} (hsaved : s.Saved time) (h : s.Valid)
    (hworks : s.store.Works) :
    ∃ now, s.history.Kept s.boot now ∧ time = s.start.1.state.clock.time now := by
  obtain ⟨-, htimely⟩ := h.counts hworks
  have hsame (x : Entry) (hx : x ∈ s.history) (now : Nat) :
      x.before.1.state.clock.time now = s.start.1.state.clock.time now := by
    obtain ⟨earlier, hcounts⟩ := (htimely x hx).counts
    exact Clock.time_of_prior_eq hcounts.prior_eq now
  cases hsaved with
  | boot => exact ⟨s.boot, .boot, rfl⟩
  | @full x hx hfull => exact ⟨x.request.time, .full hx hfull, hsame x hx _⟩
  | @rotation x y earlier later m i time hsplit hm hrotates hy hsaves =>
      have hx : x ∈ s.history := hsplit ▸ List.mem_append_right _ List.mem_cons_self
      have hrotated : x.Rotates := ⟨m, hm, List.any_eq_true.mpr ⟨_, hrotates, rfl⟩⟩
      refine ⟨x.request.time, .rotation hsplit hrotated hy hsaves, ?_⟩
      exact ((htimely x hx).rotations m hm i time hrotates).trans (hsame x hx _)

/-- The whole count that was stored is the past of the session. -/
theorem Valid.prior_eq (h : s.Valid) (hworks : s.store.Works) :
    s.start.1.state.clock.prior = s.store.medium.clock.total := by
  rw [(h.booted.clock_eq hworks).1]

/-- What a session leaves in its store comes after all that it saved, and after all that was saved
before it. -/
theorem Valid.le_left (h : s.Valid) (hworks : s.store.Works) :
    s.store.medium.clock.total ≤ s.last.2.medium.clock.total ∧
      ∀ time, s.Saved time → time ≤ s.last.2.medium.clock.total := by
  obtain ⟨hcounts, -⟩ := h.counts hworks
  constructor
  · rw [← h.prior_eq hworks, ← hcounts.stored_prior_eq]
    exact prior_le_total _
  · intro time hsaved
    obtain ⟨now, hkept, rfl⟩ := hsaved.exists_kept h hworks
    exact time_le_total hcounts.stored_prior_eq (hcounts.kept_le now hkept)

/-- The beacon time at the end of a session comes after what is left, and the session adds no more
than its uptime. -/
theorem Valid.left_le (h : s.Valid) (hworks : s.store.Works) :
    s.last.2.medium.clock.total ≤ s.last.1.state.clock.time s.uptime ∧
      (s.last.1.state.clock.time s.uptime).toNat ≤
        s.store.medium.clock.total.toNat + s.uptime / 1000 := by
  obtain ⟨hcounts, -⟩ := h.counts hworks
  constructor
  · apply total_le_time (hcounts.stored_prior_eq.trans hcounts.prior_eq.symm)
    exact UInt32.le_trans hcounts.stored_le
      (hcounts.elapsed_le s.uptime h.boot_le_uptime h.le_uptime)
  · have hseconds := toNat_seconds_le s.uptime
    rw [toNat_time, hcounts.prior_eq, h.prior_eq hworks]
    omega

/-- The stored clock is not taken back, neither by the start nor by a request. -/
theorem Valid.stored_mono (h : s.Valid) (hworks : s.store.Works) :
    s.store.medium.clock.total ≤ s.start.2.medium.clock.total ∧
      ∀ x ∈ s.history, x.before.2.medium.clock.total ≤ x.after.2.medium.clock.total := by
  obtain ⟨-, htimely⟩ := h.counts hworks
  constructor
  · obtain ⟨hclock, -, hsaved⟩ := h.booted.clock_eq hworks
    rw [hsaved, hclock]
    exact prior_le_total ⟨s.store.medium.clock.total, seconds s.boot⟩
  · intro x hx
    obtain ⟨⟨earlier, hcounts⟩, hadvances, -⟩ := htimely x hx
    apply total_le_total _ hadvances.stored_mono
    rw [hcounts.stored_prior_eq, hadvances.stored_prior_eq, hcounts.prior_eq]

end Session

/-- How long the sessions were up together, in whole seconds of each. -/
def Session.upSeconds : List Session → Nat
  | [] => 0
  | s :: later => s.uptime / 1000 + upSeconds later

theorem Session.upSeconds_concat (past : List Session) (s : Session) :
    upSeconds (past ++ [s]) = upSeconds past + s.uptime / 1000 := by
  induction past with
  | nil => exact Nat.add_comm _ _
  | cons first past ih =>
      rw [List.cons_append, upSeconds, upSeconds, ih, Nat.add_assoc]

/-- One session after the other, each over the store that the one before it has left. -/
inductive Life : List Session → Store → Prop
  | blank : Life [] .blank
  | next {past : List Session} {s : Session} :
      Life past s.store → s.Valid → Life (past ++ [s]) s.last.2

namespace Life

variable {past : List Session} {present : Session} {store : Store}

theorem of_concat (h : Life (past ++ [present]) store) :
    Life past present.store ∧ present.Valid ∧ store = present.last.2 := by
  generalize hsessions : past ++ [present] = sessions at h
  cases h with
  | blank => simp at hsessions
  | next hpast hvalid =>
      obtain ⟨rfl, hlast⟩ := List.append_inj' hsessions rfl
      cases hlast
      exact ⟨hpast, hvalid, rfl⟩

theorem works {sessions : List Session} (h : Life sessions store) : store.Works := by
  induction h with
  | blank => exact fun n call => rfl
  | next _ hvalid ih => exact (hvalid.counts ih).1.works

theorem stored_mono {sessions : List Session} (h : Life sessions store) :
    ∀ s ∈ sessions, s.store.medium.clock.total ≤ s.start.2.medium.clock.total ∧
      ∀ x ∈ s.history, x.before.2.medium.clock.total ≤ x.after.2.medium.clock.total := by
  induction h with
  | blank => exact fun s hmem => absurd hmem List.not_mem_nil
  | @next past s hpast hvalid ih =>
      intro t hmem
      cases List.mem_append.mp hmem with
      | inl hmem => exact ih t hmem
      | inr hmem =>
          rw [List.mem_singleton.mp hmem]
          exact hvalid.stored_mono hpast.works

/-- What is stored comes after all that was saved, and not after all uptime. -/
theorem total_bounds {sessions : List Session} (h : Life sessions store) :
    (∀ s ∈ sessions, ∀ time, s.Saved time → time ≤ store.medium.clock.total) ∧
      store.medium.clock.total.toNat ≤ Session.upSeconds sessions := by
  induction h with
  | blank =>
      refine ⟨fun s hmem => absurd hmem List.not_mem_nil, ?_⟩
      have hblank : Store.blank.medium.clock = .zero := rfl
      rw [hblank]
      exact Nat.le_refl 0
  | @next past s hpast hvalid ih =>
      obtain ⟨hsaved, htotal⟩ := ih
      obtain ⟨hkept, hown⟩ := hvalid.le_left hpast.works
      obtain ⟨hlast, hadded⟩ := hvalid.left_le hpast.works
      constructor
      · intro t hmem time htime
        cases List.mem_append.mp hmem with
        | inl hmem => exact UInt32.le_trans (hsaved t hmem time htime) hkept
        | inr hmem =>
            rw [List.mem_singleton.mp hmem] at htime
            exact hown time htime
      · have hnat := UInt32.le_iff_toNat_le.mp hlast
        rw [Session.upSeconds_concat]
        omega

/-- Beacon time is never less than at any earlier save of everything, nor than at any earlier
rotation that was followed by a save in its own session, and never more than all sessions have been
up together; and the stored clock is never taken back. -/
theorem beacon_time_bounds (h : Life (past ++ [present]) store) :
    (∀ s ∈ past ++ [present], ∀ time, s.Saved time →
        time ≤ present.last.1.state.clock.time present.uptime) ∧
      (present.last.1.state.clock.time present.uptime).toNat ≤
        Session.upSeconds (past ++ [present]) ∧
      ∀ s ∈ past ++ [present], s.store.medium.clock.total ≤ s.start.2.medium.clock.total ∧
        ∀ x ∈ s.history, x.before.2.medium.clock.total ≤ x.after.2.medium.clock.total := by
  obtain ⟨hpast, hvalid, rfl⟩ := h.of_concat
  obtain ⟨hlast, hadded⟩ := hvalid.left_le hpast.works
  refine ⟨?_, ?_, h.stored_mono⟩
  · intro s hmem time htime
    exact UInt32.le_trans (h.total_bounds.1 s hmem time htime) hlast
  · have htotal := hpast.total_bounds.2
    rw [Session.upSeconds_concat]
    omega

/-- With entropy to be had, every configuration that can be used starts a device at any time. -/
theorem exists_bootedAt {config : Config} (hflaw : config.flaw? = none) (now : Nat) (store : Store) :
    ∃ d, Device.BootedAt config now store d := by
  let radio : Radio := .idle 100 10240 fun _ _ => none
  obtain ⟨slots, identity, rng, -, hs⟩ :=
    State.ofConfig_of_sound hflaw (Octets.zero 32) radio.minInterval radio.maxInterval
  exact ⟨_, radio, some (Octets.zero 32), _, (Device.boot_of_ok hs now store).1, rfl⟩

/-- Five seconds that were saved count after a restart. -/
theorem time_after_restart :
    ∃ first second store, Life ([first] ++ [second]) store ∧
      5 ≤ (second.last.1.state.clock.time second.uptime).toNat ∧
      (second.last.1.state.clock.time second.uptime).toNat ≤ 12 := by
  have hflaw : Config.standard.flaw? = none := by decide +kernel
  obtain ⟨start, hbooted⟩ := exists_bootedAt hflaw 0 .blank
  let x : Entry := ⟨start, .command .saveParams 5000⟩
  obtain ⟨again, hagain⟩ := exists_bootedAt hflaw 0 x.after.2
  let first : Session := ⟨.standard, .blank, 0, start, [x], x.after, 5000⟩
  let second : Session := ⟨.standard, x.after.2, 0, again, [], again, 7000⟩
  have houtput : x.output = (Device.persist 5000 start).output := Entry.output_saveParams 5000 start
  have hdeeds : x.deeds = [] :=
    Entry.deeds_eq_nil rfl (houtput ▸ Device.turnless_persist 5000 start)
  have hfirst : first.Valid := by
    refine ⟨hbooted, Run.start.serve _, fun y _ => Nat.zero_le _, List.pairwise_singleton ..,
      Nat.zero_le _, ?_, ?_⟩
    · intro y hy
      rw [List.mem_singleton.mp hy]
      exact Nat.le_refl 5000
    · intro m hm
      rw [History.moments, List.flatMap_singleton, Entry.moments, hdeeds] at hm
      cases hm
  have hsecond : second.Valid :=
    ⟨hagain, .start, fun y hy => absurd hy List.not_mem_nil, .nil, Nat.zero_le _,
      fun y hy => absurd hy List.not_mem_nil, fun m hm => absurd hm List.not_mem_nil⟩
  have hone : Life ([] ++ [first]) first.last.2 := .next .blank hfirst
  have hlife : Life ([first] ++ [second]) second.last.2 := hone.next hsecond
  obtain ⟨hsaved, hbound, -⟩ := beacon_time_bounds hlife
  refine ⟨first, second, _, hlife, ?_, ?_⟩
  · have hworks : start.2.Works := (hbooted.counts fun n call => rfl).works
    have hstored : x.output.stored =
        [(.save (start.whole 5000), start.2.fault? (.save (start.whole 5000)))] :=
      houtput ▸ Device.stored_persist 5000 start
    have hfull : x.SavesAll := by
      refine ⟨start.whole 5000, ?_⟩
      rw [hstored, Store.fault?, hworks]
      exact List.mem_singleton_self _
    have hkept := hsaved first List.mem_cons_self _ (.full (List.mem_singleton_self x) hfull)
    have hseconds : (seconds 5000).toNat = 5 := by decide
    have hcount := toNat_time start.1.state.clock 5000
    have hnat := UInt32.le_iff_toNat_le.mp hkept
    have hsize : UInt32.size - 1 = 4294967295 := rfl
    change (start.1.state.clock.time 5000).toNat ≤ _ at hnat
    omega
  · have hsum : Session.upSeconds ([first] ++ [second]) = 12 := by
      simp [Session.upSeconds, first, second]
    exact hsum ▸ hbound

end Life

end Beacon

import Beacon.Proofs.Storing

/-!
# What waits to be saved

A write that has been accepted waits until everything is saved, however often the
store refuses.  The time of a rotation waits as long as no attempt is made; an
attempt that the store refuses is not made again, until there is another rotation
or everything is to be saved anyway.

Both are read off what has been asked of the device and what has been asked of the
store, and the marks of the engine are held against that.
-/

namespace Beacon

namespace History

/-- A write has been accepted, and not everything has been saved since. -/
def Unsaved (history : History) : Prop :=
  history.Since (fun x => x.writes = true) Entry.SavesAll

/-- A slot has got an identifier, and nothing has been saved since. -/
def Untimed (history : History) : Prop :=
  history.Since Entry.Rotates Entry.Saves

/-- The store has refused to save, and no slot has got an identifier since. -/
def Forgotten (history : History) : Prop :=
  history.Since Entry.Refused Entry.Rotates

/-- The clock was noted when a slot last got an identifier. -/
def Notes (clock : Clock) (history : History) : Prop :=
  history.Since (fun x => x.Rotates ∧ clock.record x.request.time = clock) Entry.Rotates

end History

/-- The marks of the engine say what waits to be saved. -/
structure Device.Marked (history : History) (d : Device) : Prop where
  params : d.1.paramsDirty = true ↔ history.Unsaved
  untimed : d.1.state.clockDirty = true → history.Untimed
  noted : d.1.state.clockDirty = true → history.Notes d.1.state.clock
  dirty : history.Untimed → d.1.paramsDirty = false →
    (d.1.state.clockDirty = true ↔ ¬history.Forgotten)

namespace Device.Marked

variable {history : History} {x : Entry}

theorem of_still (h : x.before.Marked history) (htold : x.before.1.state.pendingEvents = [])
    {t : State} (hstored : x.output.stored = [])
    (hreplays : Replays x.before.1.state.hush x.deeds t)
    (hafter : x.after.savings =
      ⟨t.clock, t.clockDirty, x.before.1.paramsDirty || x.writes, x.before.2⟩) :
    x.after.Marked (history ++ [x]) := by
  have hclock : x.after.1.state.clock = t.clock := congrArg Savings.clock hafter
  have hdirty : x.after.1.state.clockDirty = t.clockDirty := congrArg Savings.clockDirty hafter
  have hparams : x.after.1.paramsDirty = (x.before.1.paramsDirty || x.writes) :=
    congrArg Savings.paramsDirty hafter
  have hkept : ¬x.Saves := Entry.not_saves_of_still hstored
  have hkeptAll : ¬x.SavesAll := fun hsaves => hkept hsaves.saves
  have hserved : ¬x.Refused := Entry.not_refused_of_still hstored
  have htime : ∀ deed ∈ x.deeds, deed.time = x.request.time := fun _ => Entry.time_of_mem_deeds
  have hlast := hreplays.state
  constructor
  · rw [hparams, History.Unsaved, History.since_append, Bool.or_eq_true, h.params, or_comm]
    exact or_congr_right ⟨fun hunsaved => ⟨hunsaved, hkeptAll⟩, And.left⟩
  · intro hmark
    rw [hdirty, ← hlast] at hmark
    rcases State.noted_of_clockDirty rfl htime hmark with ⟨hbefore, -⟩ | ⟨hrotates, -⟩
    · exact History.since_append.mpr (.inr ⟨h.untimed hbefore, hkept⟩)
    · exact History.since_append.mpr (.inl hrotates)
  · intro hmark
    rw [hdirty, ← hlast] at hmark
    rw [hclock, ← hlast]
    rcases State.noted_of_clockDirty rfl htime hmark with ⟨hbefore, hsame, hnone⟩ | ⟨hrotates, hnoted⟩
    · rw [hsame]
      exact History.since_append.mpr (.inr ⟨h.noted hbefore, Entry.not_rotates hnone⟩)
    · exact History.since_append.mpr (.inl ⟨hrotates, hnoted⟩)
  · intro huntimed hclean
    rw [hparams, Bool.or_eq_false_iff] at hclean
    have hspared : ∀ m ∈ x.moments, m.resets = false := by
      intro m hm
      cases hresets : m.resets with
      | false => rfl
      | true => cases hclean.2.symm.trans (Entry.writes_of_resets htold hm hresets)
    rw [hdirty, ← hlast, History.Forgotten, History.since_append]
    obtain ⟨-, ⟨hnone, -, hsame⟩ | ⟨hrotates, -, hset⟩⟩ :=
      State.ticked (s := x.before.1.state.hush) rfl htime hspared
    · have hunrotated : ¬x.Rotates := Entry.not_rotates hnone
      rcases History.since_append.mp huntimed with hrotates | ⟨hbefore, -⟩
      · exact absurd hrotates hunrotated
      · rw [hsame, show x.before.1.state.hush.clockDirty = x.before.1.state.clockDirty from rfl,
          h.dirty hbefore hclean.1]
        exact not_congr ⟨fun hlost => .inr ⟨hlost, hunrotated⟩,
          fun hlost => hlost.elim (fun hrefused => absurd hrefused hserved) And.left⟩
    · refine iff_of_true hset ?_
      rintro (hrefused | ⟨-, hunrotated⟩)
      · exact hserved hrefused
      · exact hunrotated hrotates

/-- Whoever tries to save takes the mark of the clock away. -/
theorem of_attempt (h : x.before.Marked history) (hdeeds : x.deeds = [])
    (hwrites : x.writes = false)
    {call : StoreCall} {fault : Option StoreFault} (hstored : x.output.stored = [(call, fault)])
    (hdirty : x.after.1.state.clockDirty = false)
    (hparams : x.after.1.paramsDirty = true ↔ x.before.1.paramsDirty = true ∧ ¬x.SavesAll) :
    x.after.Marked (history ++ [x]) := by
  have hunrotated : ¬x.Rotates := Entry.not_rotates_of_idle hdeeds
  have hclean (hmark : x.after.1.state.clockDirty = true) : False := by
    cases hdirty.symm.trans hmark
  constructor
  · refine (hparams.trans (and_congr_left fun _ => h.params)).trans
      (Iff.trans ?_ History.since_append.symm)
    rw [hwrites]
    exact ⟨.inr, fun hunsaved => hunsaved.resolve_left Bool.false_ne_true⟩
  · exact fun hmark => absurd hmark hclean
  · exact fun hmark => absurd hmark hclean
  · intro huntimed _
    refine iff_of_false hclean (not_not.mpr ?_)
    rcases History.since_append.mp huntimed with hrotates | ⟨-, hunsaved⟩
    · exact absurd hrotates hunrotated
    · cases fault with
      | none => exact absurd ⟨call, hstored ▸ List.mem_singleton_self _⟩ hunsaved
      | some fault =>
          exact History.since_append.mpr
            (.inl ⟨call, fault, hstored ▸ List.mem_singleton_self _⟩)

theorem serve (h : x.before.Marked history) (hphase : x.before.1.InPhase)
    (htold : x.before.1.state.pendingEvents = []) : x.after.Marked (history ++ [x]) := by
  cases x.keeping hphase htold with
  | still hstored hreplays hafter => exact h.of_still htold hstored hreplays hafter
  | @whole params fault hdeeds hwrites _ _ hstored hafter =>
      have hdirty : x.after.1.paramsDirty = (x.before.1.paramsDirty && fault.isSome) :=
        congrArg Savings.paramsDirty hafter
      apply h.of_attempt hdeeds hwrites hstored (congrArg Savings.clockDirty hafter)
      rw [hdirty, Bool.and_eq_true]
      apply and_congr_right
      intro _
      cases fault with
      | none =>
          refine iff_of_false Bool.false_ne_true (not_not.mpr ⟨params, ?_⟩)
          exact hstored ▸ List.mem_singleton_self _
      | some fault =>
          refine iff_of_true rfl ?_
          rintro ⟨other, hmem⟩
          rw [hstored] at hmem
          cases List.mem_singleton.mp hmem
  | clock hdeeds hwrites hclean _ _ _ hstored hafter =>
      have hdirty : x.after.1.paramsDirty = false := congrArg Savings.paramsDirty hafter
      apply h.of_attempt hdeeds hwrites hstored (congrArg Savings.clockDirty hafter)
      rw [hdirty, hclean]
      exact iff_of_false Bool.false_ne_true fun hboth => Bool.false_ne_true hboth.1

end Device.Marked

/-! ## Runs -/

namespace Device

variable {config : Config} {store : Store} {start d : Device} {history : History}

theorem Booted.marked (hbooted : Booted config store d) : d.Marked [] := by
  have hclean : d.1.paramsDirty = false ∧ d.1.state.clockDirty = false := by
    obtain ⟨radio, slots, identity, rng, now, -, -, rfl⟩ := hbooted.exists_state
    have hsavings := (savings_persist now (Engine.ofState radio (adopted (Store.load store).value
      (.factory config slots identity rng radio.minInterval radio.maxInterval)),
      (Store.load store).state)).2
    exact ⟨congrArg Savings.paramsDirty hsavings, congrArg Savings.clockDirty hsavings⟩
  have hnever (hmark : d.1.state.clockDirty = true) : False := by
    cases hclean.2.symm.trans hmark
  constructor
  · rw [hclean.1]
    exact iff_of_false Bool.false_ne_true (History.not_since_nil _ _)
  · exact fun hmark => absurd hmark hnever
  · exact fun hmark => absurd hmark hnever
  · exact fun huntimed => absurd huntimed (History.not_since_nil _ _)

theorem marked_of_run (hbooted : Booted config store start) (hrun : Run start history d) :
    d.Marked history := by
  induction hrun with
  | start => exact hbooted.marked
  | @serve history d request hrun ih =>
      have hreach := Reachable.of_run (.boot hbooted) hrun
      exact ih.serve (x := ⟨d, request⟩) hreach.inPhase hreach.pendingEvents

/-- What there is to write when something waits: everything, or the clock by itself. -/
def due (d : Device) (now : Nat) : StoreCall :=
  if d.1.paramsDirty then .save (d.whole now) else .saveClock d.1.state.clock

theorem saveIfDirty_eq_true_iff (now : Nat) (d : Device) :
    (saveIfDirty now d).value = true ↔
      (d.1.paramsDirty = true ∨ d.1.state.clockDirty = true) ∧ d.2.fault? (d.due now) = none := by
  cases hparams : d.1.paramsDirty with
  | true =>
      rw [saveIfDirty_of_dirty hparams, (savings_persist now d).1, due, if_pos hparams,
        Option.isNone_iff_eq_none]
      exact ⟨fun htaken => ⟨.inl rfl, htaken⟩, And.right⟩
  | false =>
      rw [saveIfDirty_of_clean hparams]
      cases hclock : d.1.state.clockDirty with
      | true =>
          rw [(savings_saveClockIfDirty hclock).1, due, if_neg (Bool.eq_false_iff.mp hparams),
            Option.isNone_iff_eq_none]
          exact ⟨fun htaken => ⟨.inr rfl, htaken⟩, And.right⟩
      | false =>
          rw [saveClockIfDirty_of_clean hclock]
          exact iff_of_false Bool.false_ne_true fun hboth => by simpa using hboth.1

/-- What is written leaves nothing to be written at once. -/
theorem saveIfDirty_of_true {now : Nat} (h : (saveIfDirty now d).value = true) :
    Transcript.stored (saveIfDirty now d).output = [(d.due now, none)] ∧
      ∀ later, (saveIfDirty later (saveIfDirty now d).state).value = false := by
  obtain ⟨hmarks, htaken⟩ := (saveIfDirty_eq_true_iff now d).mp h
  have hclean : Transcript.stored (saveIfDirty now d).output = [(d.due now, none)] ∧
      (saveIfDirty now d).state.1.paramsDirty = false ∧
      (saveIfDirty now d).state.1.state.clockDirty = false := by
    cases hparams : d.1.paramsDirty with
    | true =>
        have hsavings := (savings_persist now d).2
        rw [due, if_pos hparams] at htaken ⊢
        rw [htaken] at hsavings
        rw [saveIfDirty_of_dirty hparams, stored_persist, htaken]
        refine ⟨rfl, ?_, congrArg Savings.clockDirty hsavings⟩
        exact (congrArg Savings.paramsDirty hsavings).trans (Bool.and_false _)
    | false =>
        have hclock := hmarks.resolve_left (Bool.eq_false_iff.mp hparams)
        have hsavings := (savings_saveClockIfDirty hclock).2
        rw [due, if_neg (Bool.eq_false_iff.mp hparams)] at htaken ⊢
        rw [saveIfDirty_of_clean hparams, stored_saveClockIfDirty hclock, htaken]
        refine ⟨rfl, ?_, congrArg Savings.clockDirty hsavings⟩
        exact (congrArg Savings.paramsDirty hsavings).trans hparams
  obtain ⟨hstored, hparams, hclock⟩ := hclean
  refine ⟨hstored, fun later => ?_⟩
  rw [saveIfDirty_of_clean hparams, saveClockIfDirty_of_clean hclock]

/-- With a store that works, what waits is written: everything after an accepted write, whatever the
store has refused since, and otherwise the time of the latest rotation, exactly unless the store has
refused to save since that rotation.  What has been written is not written again. -/
theorem pending_saved_unless_forgotten (hbooted : Booted config store start)
    (hrun : Run start history d) (now : Nat) :
    (history.Unsaved ∨ history.Untimed → (∀ call, d.2.fault? call = none) →
        ((saveIfDirty now d).value = true ↔ history.Unsaved ∨ ¬history.Forgotten)) ∧
      ((saveIfDirty now d).value = true →
        (∃ call, Transcript.stored (saveIfDirty now d).output = [(call, none)] ∧
          (history.Unsaved ∧ call = .save (d.whole now) ∨
            ¬history.Unsaved ∧ history.Notes d.1.state.clock ∧
              call = .saveClock d.1.state.clock)) ∧
        ∀ later, (saveIfDirty later (saveIfDirty now d).state).value = false) := by
  have hmarked := marked_of_run hbooted hrun
  constructor
  · intro hpending hworks
    rw [saveIfDirty_eq_true_iff, and_iff_left (hworks _), ← hmarked.params]
    apply or_congr_right'
    intro hclean
    have hsaved : ¬history.Unsaved := fun hunsaved => hclean (hmarked.params.mpr hunsaved)
    exact hmarked.dirty (hpending.resolve_left hsaved) (Bool.eq_false_iff.mpr hclean)
  · intro hwritten
    obtain ⟨hstored, hagain⟩ := saveIfDirty_of_true hwritten
    refine ⟨⟨d.due now, hstored, ?_⟩, hagain⟩
    rw [← hmarked.params, due]
    cases hparams : d.1.paramsDirty with
    | true => exact .inl ⟨rfl, rfl⟩
    | false =>
        obtain ⟨hmarks, -⟩ := (saveIfDirty_eq_true_iff now d).mp hwritten
        have hclock := hmarks.resolve_left (Bool.eq_false_iff.mp hparams)
        exact .inr ⟨Bool.false_ne_true, hmarked.noted hclock, rfl⟩

/-- Beaconing starts. -/
def lighting (start : Device) : Entry :=
  ⟨start, .command .startBeacon 0⟩

/-- The host saves what the start of beaconing has left to save. -/
def attempt (start : Device) : Entry :=
  ⟨(lighting start).after, .saveIfDirty 0⟩

/-- Whether the slots whose turn it was got an identifier, what came of each call to the store, how
many calls there were, and what a second attempt to save gives. -/
def outcomes (start : Device) :
    List Bool × List (Option StoreFault) × List (Option StoreFault) × Nat × Bool :=
  ((lighting start).moments.map Moment.rotates, (lighting start).output.stored.map Prod.snd,
    (attempt start).output.stored.map Prod.snd, (attempt start).after.2.calls,
    (saveIfDirty 0 (attempt start).after).value)

theorem rotates_of_outcomes {start : Device} {rest}
    (h : outcomes start = ([true], rest)) : (lighting start).Rotates := by
  have hmap : (lighting start).moments.map Moment.rotates = [true] := congrArg Prod.fst h
  obtain ⟨m, others, hmoments, hrotates, -⟩ := List.map_eq_cons_iff.mp hmap
  exact ⟨m, hmoments ▸ List.mem_cons_self, hrotates⟩

/-- The time of the first rotation is written. -/
theorem first_rotation_saved :
    ∃ start, Booted rotating ⟨.memory none, fun _ _ => none, 0⟩ start ∧
      History.Untimed [lighting start] ∧ (saveIfDirty 0 (lighting start).after).value = true := by
  obtain ⟨start, hbooted, houtcomes⟩ : ∃ start,
      Booted rotating ⟨.memory none, fun _ _ => none, 0⟩ start ∧
        outcomes start = ([true], [], [none], 3, false) :=
    exists_booted_of_eq (.idle 100 10240 fun _ _ => none) (some (Octets.zero 32)) 0 outcomes
      (by decide +kernel)
  have hrun := (Run.start : Run start [] start).serve (.command .startBeacon 0)
  have hrotates := rotates_of_outcomes houtcomes
  have huntimed : History.Untimed [lighting start] :=
    ⟨[], lighting start, [], rfl, hrotates, fun y hy => absurd hy List.not_mem_nil⟩
  have hstored : (lighting start).output.stored = [] :=
    List.map_eq_nil_iff.mp (congrArg (fun outcomes => outcomes.2.1) houtcomes)
  have hremembered : ¬History.Forgotten [lighting start] := by
    rw [← List.nil_append [lighting start], History.Forgotten, History.since_append]
    rintro (hrefused | ⟨hnever, -⟩)
    · exact Entry.not_refused_of_still hstored hrefused
    · exact History.not_since_nil _ _ hnever
  have hworks (call : StoreCall) : (lighting start).after.2.fault? call = none :=
    congrFun (congrFun (verdict_of_run hbooted hrun) _) call
  obtain ⟨hwritten, -⟩ := pending_saved_unless_forgotten hbooted hrun 0
  exact ⟨start, hbooted, huntimed, (hwritten (.inr huntimed) hworks).mpr (.inr hremembered)⟩

/-- The call after loading and the first save is refused. -/
def refusing : Store :=
  ⟨.memory none, fun n _ => if n = 2 then some .io else none, 0⟩

/-- What waits to be saved is not always written by a store that works. -/
theorem not_always_written :
    ¬∀ (config : Config) (store : Store) (start d : Device) (history : History) (now : Nat),
      Booted config store start → Run start history d → history.Unsaved ∨ history.Untimed →
      (∀ call, d.2.fault? call = none) → (saveIfDirty now d).value = true := by
  intro halways
  obtain ⟨start, hbooted, houtcomes⟩ : ∃ start, Booted rotating refusing start ∧
      outcomes start = ([true], [], [some .io], 3, false) :=
    exists_booted_of_eq (.idle 100 10240 fun _ _ => none) (some (Octets.zero 32)) 0 outcomes
      (by decide +kernel)
  have hrun := ((Run.start : Run start [] start).serve (.command .startBeacon 0)).serve
    (.saveIfDirty 0)
  have hrefused : (attempt start).output.stored.map Prod.snd = [some .io] :=
    congrArg (fun outcomes => outcomes.2.2.1) houtcomes
  have hcalls : (attempt start).after.2.calls = 3 :=
    congrArg (fun outcomes => outcomes.2.2.2.1) houtcomes
  have hunsaved : ¬(attempt start).Saves := by
    rintro ⟨call, hmem⟩
    have hnone := List.mem_map_of_mem (f := Prod.snd) hmem
    rw [hrefused] at hnone
    cases List.mem_singleton.mp hnone
  have huntimed : History.Untimed [lighting start, attempt start] := by
    refine ⟨[], lighting start, [attempt start], rfl, rotates_of_outcomes houtcomes, ?_⟩
    intro y hy
    exact List.mem_singleton.mp hy ▸ hunsaved
  have hworks (call : StoreCall) : (attempt start).after.2.fault? call = none := by
    have hverdict := congrFun (congrFun (verdict_of_run hbooted hrun) 3) call
    rw [Store.fault?, hcalls]
    exact hverdict
  have hwritten := halways _ _ _ _ _ 0 hbooted hrun (.inr huntimed) hworks
  cases hwritten.symm.trans (congrArg (fun outcomes => outcomes.2.2.2.2) houtcomes)

end Device

end Beacon

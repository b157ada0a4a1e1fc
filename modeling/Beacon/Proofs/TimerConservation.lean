import Beacon.Proofs.Polling
import Beacon.Proofs.TimerOrder

/-!
# No timer is lost

What becomes of a timer can be told from its post alone.  A drain polls at one
time until nothing is due any more.  After it a timer that was to fire once and
was due has fired once, and a repeating one as often as its period fits into the
time since it was posted, no matter when it was polled before.
-/

namespace Beacon

open TimerLedger

/-- The last thing asked was a poll that found nothing due. -/
def TimerHistory.Drained (now : Nat) (history : TimerHistory) : Prop :=
  ∃ (earlier : TimerHistory) (x : TimerEntry),
    history = earlier ++ [x] ∧ x.call = .popDue now ∧ x.answer = .fired none

theorem TimerEntry.deed?_of_drained {x : TimerEntry} {now : Nat} (hcall : x.call = .popDue now)
    (hnone : x.answer = .fired none) : x.deed? = none := by
  rw [deed?, hcall, hnone]

theorem TimerEntry.deed?_of_fired {x : TimerEntry} {id : TimerId} {task : Task}
    (hfired : x.answer = .fired (some (id, task))) : x.deed? = some (.fired id) := by
  obtain ⟨queue, call⟩ := x
  cases call with
  | postIn now delay task => cases hfired
  | postEvery now period task => cases hfired
  | cancel id => cases hfired
  | popDue now => rw [deed?, hfired]

theorem TimerEntry.popDue_eq_none {x : TimerEntry} {now : Nat} (hcall : x.call = .popDue now)
    (hnone : x.answer = .fired none) : (TimerQueue.popDue now x.before).value = none := by
  obtain ⟨queue, call⟩ := x
  subst hcall
  exact TimerAnswer.fired.inj hnone

theorem TimerHistory.mem_posted {history : TimerHistory} {x : TimerEntry} {t : Timer}
    (hx : x ∈ history) (hdeed : x.deed? = some (.posted t)) : t ∈ history.ledger.posted := by
  have hledger : .posted t ∈ history.ledger := List.mem_filterMap.mpr ⟨x, hx, hdeed⟩
  exact List.mem_filterMap.mpr ⟨_, hledger, rfl⟩

/-- The last time that a timer fired. -/
theorem TimerHistory.exists_last_fired {history : TimerHistory} {id : TimerId}
    (hfired : 0 < history.ledger.fires id) :
    ∃ (earlier : TimerHistory) (x : TimerEntry) (later : TimerHistory),
      history = earlier ++ x :: later ∧ x.deed? = some (.fired id) ∧
        history.ledger.fires id = earlier.ledger.fires id + 1 := by
  induction history using List.reverseRecOn with
  | nil => exact absurd hfired (Nat.lt_irrefl 0)
  | append_singleton history x ih =>
      rw [ledger_append, fires_append] at hfired ⊢
      by_cases hdeed : x.deed? = some (.fired id)
      · exact ⟨history, x, [], rfl, hdeed, by simp [hdeed, fires]⟩
      · have hnone : fires x.deed?.toList id = 0 := by
          refine List.count_eq_zero.mpr fun hmem => hdeed ?_
          exact Option.mem_toList.mp hmem
        rw [hnone, Nat.add_zero] at hfired ⊢
        obtain ⟨earlier, y, later, rfl, hy, hfires⟩ := ih hfired
        exact ⟨earlier, y, later ++ [x], by simp, hy, hfires⟩

namespace TimerQueue

variable {queue : TimerQueue} {ledger : TimerLedger}

theorem popDue_none {now : Nat} (hnone : (popDue now queue).value = none) :
    ∀ t ∈ queue.pending, now < t.deadline := by
  rcases popDue_cases now queue with ⟨hlater, -⟩ | ⟨t, timers, -, -, -, h⟩
  · exact hlater
  · rw [h] at hnone
    cases hnone

theorem popDue_isSome_iff (now : Nat) (queue : TimerQueue) :
    (popDue now queue).value.isSome ↔
      ∃ deadline, queue.nextDeadline? = some deadline ∧ deadline ≤ now := by
  rcases popDue_cases now queue with ⟨hlater, h⟩ | ⟨t, timers, hfires, hdue, -, h⟩
  · rw [h]
    refine iff_of_false Bool.false_ne_true ?_
    rintro ⟨deadline, hnext, hdue⟩
    obtain ⟨⟨t, ht, rfl⟩, -⟩ := nextDeadline?_eq_some_iff.mp hnext
    exact Nat.not_lt.mpr hdue (hlater t ht)
  · rw [h]
    obtain ⟨deadline, hnext, hfirst⟩ := exists_nextDeadline? hfires.mem
    exact iff_of_true rfl ⟨deadline, hnext, Nat.le_trans hfirst hdue⟩

theorem insert_eq_none_iff (deadline : Nat) (period : Option Nat) (task : Task)
    (queue : TimerQueue) :
    (insert deadline period task queue).value = none ↔ capacity ≤ queue.pending.length := by
  rcases insert_cases deadline period task queue with ⟨hfull, h⟩ | ⟨hroom, -, h⟩
  · rw [h]
    exact iff_of_true rfl hfull
  · rw [h]
    exact iff_of_false (by simp) (Nat.not_le.mpr hroom)

theorem insert_state_of_none {deadline : Nat} {period : Option Nat} {task : Task}
    (hnone : (insert deadline period task queue).value = none) :
    (insert deadline period task queue).state = queue := by
  rcases insert_cases deadline period task queue with ⟨-, h⟩ | ⟨-, -, h⟩
  · rw [h]
  · rw [h] at hnone
    cases hnone

/-- A timer that fires uses up rounds that are left. -/
theorem roundsLeft_popDue_lt {now : Nat}
    (hperiods : ∀ t ∈ queue.pending, ∀ period ∈ t.period, 0 < period)
    (hsome : (popDue now queue).value ≠ none) :
    (∀ t ∈ (popDue now queue).state.pending, ∀ period ∈ t.period, 0 < period) ∧
      Scheduler.roundsLeft now (popDue now queue).state.pending <
        Scheduler.roundsLeft now queue.pending := by
  rcases popDue_cases now queue with ⟨-, h⟩ | ⟨t, timers, hfires, hdue, -, h⟩
  · rw [h] at hsome
    exact absurd rfl hsome
  rw [h]
  constructor
  · intro u hu
    cases hfires.mem_after hu with
    | inl hagain =>
        rw [Timer.period_of_again hagain]
        exact hperiods t hfires.mem
    | inr hu => exact hperiods u hu
  · have hleft := Scheduler.roundsLeft_of_fires hfires now
    have hpositive := hperiods t hfires.mem
    obtain ⟨id, deadline, period, task⟩ := t
    cases period with
    | none =>
        have hround : Timer.rounds now ⟨id, deadline, none, task⟩ = 1 := by
          rw [Timer.rounds, if_neg (Nat.not_lt.mpr hdue)]
        rw [hround] at hleft
        change _ = _ + 0 at hleft
        change Scheduler.roundsLeft now timers.pending < _
        omega
    | some period =>
        have hround : Timer.rounds now ⟨id, deadline + period, some period, task⟩ + 2 =
            Timer.rounds now ⟨id, deadline, some period, task⟩ :=
          Timer.rounds_repeated rfl (hpositive period rfl) hdue
        change _ = _ + (Timer.rounds now ⟨id, deadline + period, some period, task⟩ + 0) at hleft
        change Scheduler.roundsLeft now timers.pending < _
        omega

/-- Polling at one time finds nothing due in the end. -/
theorem exists_drain (now : Nat) (hperiods : ∀ t ∈ queue.pending, ∀ period ∈ t.period, 0 < period) :
    ∃ drain queue', TimerRun queue drain queue' ∧ (∀ x ∈ drain, x.call = .popDue now) ∧
      drain.Drained now := by
  have hends : Act.Ends (popDue now) queue := by
    refine Act.ends_of_measure
      (P := fun queue : TimerQueue => ∀ t ∈ queue.pending, ∀ period ∈ t.period, 0 < period)
      (fun queue => Scheduler.roundsLeft now queue.pending) ?_ hperiods
    intro queue fired hperiods hfired
    exact roundsLeft_popDue_lt hperiods (by simp [hfired])
  induction hends with
  | @stop queue hnone =>
      refine ⟨_, _, TimerRun.start.serve (.popDue now), ?_, [], _, rfl, rfl, ?_⟩
      · intro x hx
        rw [List.mem_singleton.mp hx]
      · exact congrArg TimerAnswer.fired hnone
  | @more queue fired hsome _ ih =>
      obtain ⟨drain, queue', hrun, hcalls, earlier, x, rfl, hlast⟩ :=
        ih (roundsLeft_popDue_lt hperiods (by simp [hsome])).1
      refine ⟨_, queue', (TimerRun.start.serve (.popDue now)).append hrun, ?_, _ :: earlier, x, rfl,
        hlast⟩
      intro y hy
      cases hy with
      | head => rfl
      | tail _ hy => exact hcalls y hy

end TimerQueue

namespace TimerRun

variable {history earlier later : TimerHistory} {queue : TimerQueue} {x y : TimerEntry} {t : Timer}
  {id : TimerId} {now : Nat}

/-- A repeating timer has only fired for deadlines that polls had come to. -/
theorem last_fired_le (hrun : TimerRun .empty history queue)
    (hfew : history.ledger.posted.length < UInt32.size) {limit : Nat}
    (hlimit : ∀ x ∈ history, ∀ now, x.call = .popDue now → now ≤ limit)
    {period : Nat} (ht : t ∈ history.ledger.posted) (hperiod : t.period = some period)
    (hfired : 0 < history.ledger.fires t.id) :
    t.deadline + (history.ledger.fires t.id - 1) * period ≤ limit := by
  obtain ⟨earlier, x, later, rfl, hdeed, hfires⟩ := TimerHistory.exists_last_fired hfired
  obtain ⟨s, now, hid, hlive, hcall, hdue, -⟩ := fires_first (hrun.refines_before hfew) hdeed
  obtain ⟨u, hu, -, hrest⟩ := mem_live.mp hlive.2
  have hsame : u = t := by
    have hposted : u ∈ (TimerHistory.ledger (earlier ++ x :: later)).posted := by
      rw [TimerHistory.ledger_append_append, posted_append]
      exact List.mem_append_left _ hu
    exact (hrun.refines hfew).orderly.eq_of_id hposted ht ((Timer.id_of_after hrest).symm.trans hid)
  rw [hsame, Timer.after_repeated hperiod] at hrest
  cases hrest
  rw [hfires, Nat.add_sub_cancel]
  exact Nat.le_trans hdue (hlimit x (by simp) now hcall)

/-- A timer that has been cancelled does not fire. -/
theorem not_fired_of_cancelled (hrun : TimerRun .empty (earlier ++ y :: later) queue)
    (hfew : (TimerHistory.ledger (earlier ++ y :: later)).posted.length < UInt32.size)
    (hcancelled : .cancelled id ∈ earlier.ledger) : y.deed? ≠ some (.fired id) := by
  intro hfired
  obtain ⟨t, -, hid, hfires, -⟩ := fires_first (hrun.refines_before hfew) hfired
  obtain ⟨u, -, hlive, hrest⟩ := mem_live.mp hfires.2
  rw [← Timer.id_of_after hrest, hid] at hlive
  exact hlive hcancelled

theorem live_due_of_drained (hrun : TimerRun .empty history queue)
    (hfew : history.ledger.posted.length < UInt32.size) (hdrained : history.Drained now) :
    ∀ t ∈ history.ledger.live, now < t.deadline := by
  obtain ⟨earlier, x, rfl, hcall, hnone⟩ := hdrained
  have hrefines := hrun.refines_before hfew
  have hledger : TimerHistory.ledger (earlier ++ [x]) = earlier.ledger := by
    rw [TimerHistory.ledger_append, TimerEntry.deed?_of_drained hcall hnone]
    exact List.append_nil _
  intro t ht
  rw [hledger, ← hrefines.mem_iff] at ht
  exact TimerQueue.popDue_none (x.popDue_eq_none hcall hnone) t ht

end TimerRun

/-- What becomes of the timers of a queue, as far as the history tells. -/
structure TimerHistory.Conserves (history : TimerHistory) (queue : TimerQueue) : Prop where
  /-- Polling at one time comes to an end. -/
  drains : ∀ now, ∃ drain queue', TimerRun queue drain queue' ∧
    (∀ x ∈ drain, x.call = .popDue now) ∧ drain.Drained now
  /-- Once drained at its deadline or later, a timer that is to fire once has done so. -/
  once : ∀ (earlier later : TimerHistory) now, history = earlier ++ later → earlier.Drained now →
    ∀ x ∈ earlier, ∀ start delay task id, x.call = .postIn start delay task →
      x.answer = .posted (some id) → .cancelled id ∉ history.ledger → start + delay ≤ now →
        history.ledger.fires id = 1
  /-- Once drained at the latest time so far, a repeating timer has fired for every period. -/
  again : ∀ now, history.Drained now →
    (∀ x ∈ history, ∀ earlier, x.call = .popDue earlier → earlier ≤ now) →
    ∀ x ∈ history, ∀ start period task id, x.call = .postEvery start period task → 1 ≤ period →
      x.answer = .posted (some id) → .cancelled id ∉ history.ledger →
        history.ledger.fires id = (now - start) / period
  /-- What can be cancelled is what may still fire. -/
  cancels : ∀ id, (TimerQueue.cancel id queue).value = true ↔ ∃ t ∈ history.ledger.live, t.id = id
  /-- What has been cancelled does not fire any more. -/
  silences : ∀ (earlier : TimerHistory) x (later : TimerHistory) id,
    history = earlier ++ x :: later → x.call = .cancel id → x.answer = .cancelled true →
      ∀ y ∈ later, ∀ task, y.answer ≠ .fired (some (id, task))
  /-- A timer is refused exactly if six may still fire. -/
  refuses : ∀ now time task,
    ((TimerQueue.postIn now time task queue).value = none ↔ history.ledger.live.length = 6) ∧
      ((TimerQueue.postEvery now time task queue).value = none ↔ history.ledger.live.length = 6)
  /-- A refusal changes nothing. -/
  refused : ∀ now time task,
    ((TimerQueue.postIn now time task queue).value = none →
        (TimerQueue.postIn now time task queue).state = queue) ∧
      ((TimerQueue.postEvery now time task queue).value = none →
        (TimerQueue.postEvery now time task queue).state = queue)
  /-- A poll fires exactly if the next deadline has come, which is the first of those that may
  still fire. -/
  polls : ∀ now,
    ((TimerQueue.popDue now queue).value.isSome ↔
        ∃ deadline, queue.nextDeadline? = some deadline ∧ deadline ≤ now) ∧
      ((TimerQueue.popDue now queue).value.isSome ↔ ∃ t ∈ history.ledger.live, t.deadline ≤ now)

namespace TimerRun

variable {history : TimerHistory} {queue : TimerQueue}

theorem fires_once (hrun : TimerRun .empty history queue)
    (hfew : history.ledger.posted.length < UInt32.size) {earlier later : TimerHistory} {now : Nat}
    (hsplit : history = earlier ++ later) (hdrained : earlier.Drained now) {t : Timer}
    (ht : t ∈ earlier.ledger.posted) (honce : t.period = none)
    (hcancelled : .cancelled t.id ∉ history.ledger) (hdue : t.deadline ≤ now) :
    history.ledger.fires t.id = 1 := by
  subst hsplit
  have hatMost : fires (TimerHistory.ledger (earlier ++ later)) t.id ≤ 1 := by
    apply (hrun.refines hfew).orderly.once t _ honce
    rw [TimerHistory.ledger_append_append, posted_append]
    exact List.mem_append_left _ ht
  rw [TimerHistory.ledger_append_append] at hfew hcancelled hatMost ⊢
  rw [fires_append] at hatMost ⊢
  have hfired : earlier.ledger.fires t.id ≠ 0 := by
    intro hzero
    have hlive : t ∈ earlier.ledger.live := by
      refine mem_live.mpr ⟨t, ht, fun hmem => hcancelled (List.mem_append_left _ hmem), ?_⟩
      rw [hzero, Timer.after_zero]
    obtain ⟨queue', hearlier⟩ := hrun.exists_middle
    have hfewer := Nat.lt_of_le_of_lt (posted_length_le_append _ _) hfew
    exact Nat.not_lt.mpr hdue (hearlier.live_due_of_drained hfewer hdrained t hlive)
  omega

theorem fires_again (hrun : TimerRun .empty history queue)
    (hfew : history.ledger.posted.length < UInt32.size) {now : Nat}
    (hdrained : history.Drained now)
    (hlatest : ∀ x ∈ history, ∀ earlier, x.call = .popDue earlier → earlier ≤ now) {t : Timer}
    (ht : t ∈ history.ledger.posted) {start period : Nat} (hperiod : t.period = some period)
    (hdeadline : t.deadline = start + period) (hcancelled : .cancelled t.id ∉ history.ledger) :
    history.ledger.fires t.id = (now - start) / period := by
  have hpositive : 0 < period := (hrun.refines hfew).orderly.periods t ht period hperiod
  have hnext := Timer.after_repeated hperiod (history.ledger.fires t.id)
  have hwaits : now < t.deadline + history.ledger.fires t.id * period :=
    hrun.live_due_of_drained hfew hdrained _ (mem_live.mpr ⟨t, ht, hcancelled, hnext⟩)
  have hlast := hrun.last_fired_le hfew hlatest ht hperiod
  rw [hdeadline] at hwaits hlast
  symm
  apply Nat.div_eq_of_lt_le
  · cases hfires : history.ledger.fires t.id with
    | zero => simp
    | succ n =>
        rw [hfires, Nat.add_sub_cancel] at hlast
        have hlast := hlast (Nat.succ_pos n)
        rw [Nat.succ_mul]
        omega
  · rw [Nat.succ_mul]
    omega

theorem conserves_timers (hrun : TimerRun .empty history queue)
    (hfew : history.ledger.posted.length < UInt32.size) : history.Conserves queue := by
  have hrefines := hrun.refines hfew
  have hlength : history.ledger.live.length = queue.pending.length :=
    hrefines.pending_perm.length_eq.symm
  have hroom := queue.length_pending_le
  constructor
  case drains =>
    intro now
    exact TimerQueue.exists_drain now fun t ht => hrefines.period_pos ht
  case once =>
    intro earlier later now hsplit hdrained x hx start delay task id hcall hanswer hcancelled hdue
    have hdeed : x.deed? = some (.posted ⟨id, start + delay, none, task⟩) := by
      rw [TimerEntry.deed?, hcall, hanswer]
    have hposted := TimerHistory.mem_posted hx hdeed
    exact hrun.fires_once hfew hsplit hdrained hposted rfl hcancelled hdue
  case again =>
    intro now hdrained hlatest x hx start period task id hcall hpositive hanswer hcancelled
    have hdeed : x.deed? = some (.posted ⟨id, start + period, some period, task⟩) := by
      rw [TimerEntry.deed?, hcall, hanswer]
      simp only [Nat.max_eq_left hpositive]
    exact hrun.fires_again hfew hdrained hlatest (TimerHistory.mem_posted hx hdeed) rfl rfl
      hcancelled
  case cancels =>
    intro id
    change queue.isPending id = true ↔ _
    simp only [TimerQueue.isPending_iff, hrefines.mem_iff]
  case silences =>
    rintro earlier x later id rfl hcall hanswer y hy task hfired
    have hdeed : x.deed? = some (.cancelled id) := by rw [TimerEntry.deed?, hcall, hanswer]
    obtain ⟨between, rest, rfl⟩ := List.append_of_mem hy
    rw [← List.cons_append, ← List.append_assoc] at hrun hfew
    refine hrun.not_fired_of_cancelled hfew ?_ (TimerEntry.deed?_of_fired hfired)
    rw [TimerHistory.ledger_append_append]
    exact List.mem_append_right _ (List.mem_filterMap.mpr ⟨x, .head between, hdeed⟩)
  case refuses =>
    intro now time task
    rw [hlength, TimerQueue.postIn, TimerQueue.postEvery, TimerQueue.insert_eq_none_iff,
      TimerQueue.insert_eq_none_iff]
    change (6 ≤ _ ↔ _) ∧ (6 ≤ _ ↔ _)
    change _ ≤ 6 at hroom
    omega
  case refused =>
    intro now time task
    exact ⟨TimerQueue.insert_state_of_none, TimerQueue.insert_state_of_none⟩
  case polls =>
    intro now
    refine ⟨TimerQueue.popDue_isSome_iff now queue, ?_⟩
    constructor
    · intro hsome
      rcases TimerQueue.popDue_cases now queue with ⟨-, h⟩ | ⟨t, timers, hfires, hdue, -⟩
      · rw [h] at hsome
        cases hsome
      · exact ⟨t, (hrefines.mem_iff t).mp hfires.mem, hdue⟩
    · rintro ⟨t, ht, hdue⟩
      rw [Option.isSome_iff_ne_none]
      intro hnone
      have hlater := TimerQueue.popDue_none hnone t ((hrefines.mem_iff t).mpr ht)
      exact Nat.not_lt.mpr hdue hlater

/-- The late poll drains the queue. -/
theorem conserves_timers_late :
    ∃ queue, TimerRun .empty late queue ∧ late.ledger.posted.length < UInt32.size ∧
      late.Conserves queue := by
  have hfew : late.ledger.posted.length < UInt32.size := by decide +kernel
  obtain ⟨queue, hrun⟩ : ∃ queue, TimerRun .empty late queue := TimerRun.of _ _
  exact ⟨queue, hrun, hfew, hrun.conserves_timers hfew⟩

end TimerRun

end Beacon

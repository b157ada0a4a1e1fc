import Beacon.Proofs.TimerLedger

/-!
# The order in which timers fire

While the clock does not go back, what has fired stays ahead of all that waits: a
timer that is set again or posted later is due later, or at the same moment under
a larger id.  So timers fire by their deadlines, and where these agree in the
order of posting, in any run.
-/

namespace Beacon

/-- The clock does not go back. -/
def TimerHistory.Forward (history : TimerHistory) : Prop :=
  (history.filterMap fun x => x.call.now?).Pairwise (· ≤ ·)

/-- The call fires a timer, taken as it was due after the calls before. -/
def TimerEntry.Fires (earlier : TimerHistory) (x : TimerEntry) (t : Timer) : Prop :=
  x.deed? = some (.fired t.id) ∧ t ∈ earlier.ledger.live

theorem TimerHistory.Forward.le {earlier between later : TimerHistory} {x y : TimerEntry}
    (hforward : TimerHistory.Forward (earlier ++ x :: between ++ y :: later)) {now now' : Nat}
    (hx : x.call.now? = some now) (hy : y.call.now? = some now') : now ≤ now' := by
  have hpairwise := List.pairwise_filterMap.mp hforward
  have hcross := (List.pairwise_append.mp hpairwise).2.2 x (by simp) y (by simp)
  exact hcross now hx now' hy

/-- A timer that is alive has been posted. -/
theorem TimerHistory.id_mem_posted {earlier later : TimerHistory} {t : Timer}
    (ht : t ∈ earlier.ledger.live) :
    t.id ∈ (TimerHistory.ledger (earlier ++ later)).posted.map Timer.id := by
  obtain ⟨u, hu, -, hrest⟩ := TimerLedger.mem_live.mp ht
  rw [Timer.id_of_after hrest, TimerHistory.ledger_append_append, TimerLedger.posted_append]
  exact List.mem_map_of_mem (List.mem_append_left _ hu)

/-- In a list that grows, the smaller of two members stands first. -/
theorem pair_sublist_of_lt {ids : List TimerId} {first second : TimerId}
    (hgrows : ids.Pairwise fun a b => a.toNat < b.toNat) (hfirst : first ∈ ids)
    (hsecond : second ∈ ids) (hless : first.toNat < second.toNat) :
    [first, second].Sublist ids := by
  obtain ⟨front, back, rfl⟩ := List.append_of_mem hfirst
  obtain ⟨-, -, hfront⟩ := List.pairwise_append.mp hgrows
  rcases List.mem_append.mp hsecond with hmem | hmem
  · have hgreater := hfront second hmem first (.head back)
    exact absurd hgreater (Nat.lt_asymm hless)
  · cases hmem with
    | head => exact absurd hless (Nat.lt_irrefl _)
    | tail _ hmem =>
        have hpair : [first, second].Sublist (first :: back) :=
          (List.singleton_sublist.mpr hmem).cons_cons first
        exact hpair.trans (List.sublist_append_right front _)

namespace TimerRun

variable {history earlier between later : TimerHistory} {queue : TimerQueue} {x y : TimerEntry}
  {t u : Timer} {id : TimerId}

/-- The queue refines the ledger at every call of a run. -/
theorem refines_before (hrun : TimerRun .empty (earlier ++ x :: later) queue)
    (hfew : (TimerHistory.ledger (earlier ++ x :: later)).posted.length < UInt32.size) :
    earlier.ledger.Refines x.before := by
  apply hrun.upTo.1.refines
  rw [TimerHistory.ledger_append_append] at hfew
  exact Nat.lt_of_le_of_lt (TimerLedger.posted_length_le_append _ _) hfew

/-- A call that fires fires the earliest of the pending timers, which is due. -/
theorem fires_first (hrefines : earlier.ledger.Refines x.before)
    (hfired : x.deed? = some (.fired id)) :
    ∃ t now, t.id = id ∧ x.Fires earlier t ∧ x.call = .popDue now ∧ t.deadline ≤ now ∧
      (∀ u ∈ x.before.pending, ¬u.before t) ∧ x.before.Fires t x.after := by
  cases x.effect with
  | nothing hdeed =>
      rw [hdeed] at hfired
      cases hfired
  | posted t hdeed =>
      rw [hdeed] at hfired
      cases hfired
  | cancelled id hdeed =>
      rw [hdeed] at hfired
      cases hfired
  | fired t now hdeed hcall hdue hearliest hfires =>
      have hid : t.id = id := by
        rw [hdeed] at hfired
        cases hfired
        rfl
      have hlive : t ∈ earlier.ledger.live := (hrefines.mem_iff t).mp hfires.mem
      exact ⟨t, now, hid, ⟨hdeed, hlive⟩, hcall, hdue, hearliest, hfires⟩

theorem live_eq_of_id (hrefines : earlier.ledger.Refines x.before) (ht : t ∈ earlier.ledger.live)
    (hu : u ∈ earlier.ledger.live) (hid : t.id = u.id) : t = u := by
  have ht' := (hrefines.mem_iff t).mpr ht
  have hu' := (hrefines.mem_iff u).mpr hu
  exact hrefines.eq_of_id ht' hu' hid

/-- What has fired stays ahead of what waits. -/
theorem before_pending (hrun : TimerRun .empty (earlier ++ x :: between) queue)
    (hfew : (TimerHistory.ledger (earlier ++ x :: between)).posted.length < UInt32.size)
    (hforward : TimerHistory.Forward (earlier ++ x :: between)) (hfires : x.Fires earlier t) :
    ∀ v ∈ queue.pending, t.before v := by
  have hrefines := hrun.refines_before hfew
  obtain ⟨t', now, hid, hfires', hcall, hdue, hearliest, hfired⟩ :=
    fires_first hrefines hfires.1
  obtain rfl : t' = t := live_eq_of_id hrefines hfires'.2 hfires.2 hid
  induction between using List.reverseRecOn generalizing queue with
  | nil =>
      obtain ⟨-, rfl⟩ := hrun.last
      intro v hv
      rcases (hfired.mem_iff hrefines.issued.nodup).mp hv with hagain | ⟨hv, hother⟩
      · exact Timer.before_again (hrefines.period_pos hfired.mem) hagain
      · exact Timer.before_of_not (hearliest v hv) hother
  | append_singleton between y ih =>
      rw [← List.cons_append, ← List.append_assoc] at hrun hfew hforward
      obtain ⟨hbefore, rfl⟩ := hrun.last
      have hfewer :
          (TimerHistory.ledger (earlier ++ x :: between)).posted.length < UInt32.size := by
        rw [TimerHistory.ledger_append_append] at hfew
        exact Nat.lt_of_le_of_lt (TimerLedger.posted_length_le_append _ _) hfew
      have hahead := ih hbefore hfewer
        (hforward.sublist ((List.sublist_append_left _ _).filterMap _))
      intro v hv
      cases y.effect with
      | nothing _ hafter =>
          rw [hafter] at hv
          exact hahead v hv
      | cancelled id _ _ hafter =>
          rw [hafter] at hv
          exact hahead v ((TimerQueue.pending_remove_sublist id y.before).subset hv)
      | fired s now _ _ _ _ hfires =>
          cases hfires.mem_after hv with
          | inl hagain =>
              have hperiod := (hbefore.refines hfewer).period_pos hfires.mem
              exact Timer.before_trans (hahead s hfires.mem) (Timer.before_again hperiod hagain)
          | inr hv => exact hahead v hv
      | posted s _ hid _ hnow hadmits =>
          cases hadmits.mem_iff.mp hv with
          | inr hv => exact hahead v hv
          | inl heq =>
              obtain ⟨now', hlate, hnow'⟩ := hnow
              have hclock : now ≤ now' :=
                hforward.le (by rw [hcall]; rfl) hnow'
              have hnewest : s.id.toNat =
                  (TimerHistory.ledger (earlier ++ x :: between)).posted.length := by
                rw [hid, (hbefore.refines hfewer).next_id hfewer]
              have holder : t'.id.toNat < earlier.ledger.posted.length :=
                hrefines.pending_known hfired.mem
              have hmore := TimerLedger.posted_length_le_append earlier.ledger
                (TimerHistory.ledger (x :: between))
              rw [← TimerHistory.ledger_append_append] at hmore
              rw [heq, Timer.before_iff]
              omega

/-- While the clock does not go back, every firing is of a timer that is alive and due, no timer
fires earlier than one that fired before it was due, and of two that were due at the same moment the
one posted first fires first. -/
theorem fires_in_order (hrun : TimerRun .empty history queue)
    (hfew : history.ledger.posted.length < UInt32.size) (hforward : history.Forward) :
    (∀ earlier x later id, history = earlier ++ x :: later → x.deed? = some (.fired id) →
        ∃ t, t.id = id ∧ x.Fires earlier t) ∧
      (∀ earlier x later t, history = earlier ++ x :: later → x.Fires earlier t →
        ∃ now, x.call = .popDue now ∧ t.deadline ≤ now) ∧
      ∀ earlier x between y later t u, history = earlier ++ x :: between ++ y :: later →
        x.Fires earlier t → y.Fires (earlier ++ x :: between) u →
          t.deadline ≤ u.deadline ∧
            (t.deadline = u.deadline →
              [t.id, u.id].Sublist (history.ledger.posted.map Timer.id)) := by
  refine ⟨?_, ?_, ?_⟩
  · rintro earlier x later id rfl hfired
    obtain ⟨t, -, hid, hfires, -⟩ := fires_first (hrun.refines_before hfew) hfired
    exact ⟨t, hid, hfires⟩
  · rintro earlier x later t rfl hfires
    have hrefines := hrun.refines_before hfew
    obtain ⟨t', now, hid, hfires', hcall, hdue, -⟩ := fires_first hrefines hfires.1
    obtain rfl : t' = t := live_eq_of_id hrefines hfires'.2 hfires.2 hid
    exact ⟨now, hcall, hdue⟩
  · rintro earlier x between y later t u rfl ht hu
    have hrefines := hrun.refines_before hfew
    have hfewer := hfew
    rw [TimerHistory.ledger_append_append] at hfewer
    have hbefore : t.before u := by
      apply hrun.upTo.1.before_pending _ _ ht
      · exact (hrefines.mem_iff u).mpr hu.2
      · exact Nat.lt_of_le_of_lt (TimerLedger.posted_length_le_append _ _) hfewer
      · exact hforward.sublist ((List.sublist_append_left _ _).filterMap _)
    rw [Timer.before_iff] at hbefore
    refine ⟨by omega, fun hsame => ?_⟩
    have hhanded : ((TimerHistory.ledger (earlier ++ x :: between ++ y :: later)).posted.map
        Timer.id).Pairwise fun a b => a.toNat < b.toNat :=
      List.pairwise_map.mpr (hrun.refines hfew).orderly.handed
    refine pair_sublist_of_lt hhanded ?_ (TimerHistory.id_mem_posted hu.2) (by omega)
    rw [List.append_assoc]
    exact TimerHistory.id_mem_posted ht.2

/-- A late poll finds two timers, of which the older one is due once more when the other is due.
The younger one stands in front of it, where a timer was cancelled. -/
def late : TimerHistory :=
  .of .empty [.postIn 0 3 (.enqueue 1), .postEvery 0 5 (.enqueue 0), .cancel 0,
    .postIn 0 10 .manageRadio, .popDue 12, .popDue 12, .popDue 12, .popDue 12]

theorem fires_in_order_late :
    late.ledger.drop 3 = [.posted ⟨2, 10, none, .manageRadio⟩, .fired 1, .fired 1, .fired 2] ∧
      late.ledger.posted.length < UInt32.size ∧
      late.Forward ∧
      ∀ earlier x between y later t u, late = earlier ++ x :: between ++ y :: later →
        x.Fires earlier t → y.Fires (earlier ++ x :: between) u → t.deadline ≤ u.deadline := by
  have hfew : late.ledger.posted.length < UInt32.size := by decide +kernel
  have hforward : late.Forward := by
    unfold TimerHistory.Forward
    decide +kernel
  obtain ⟨queue, hrun⟩ : ∃ queue, TimerRun .empty late queue := TimerRun.of _ _
  obtain ⟨-, -, hordered⟩ := hrun.fires_in_order hfew hforward
  refine ⟨by decide +kernel, hfew, hforward, ?_⟩
  intro earlier x between y later t u hsplit ht hu
  exact (hordered earlier x between y later t u hsplit ht hu).1

end TimerRun

end Beacon

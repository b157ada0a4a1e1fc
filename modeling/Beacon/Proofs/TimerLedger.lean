import Beacon.Proofs.TimerRuns

/-!
# The ledger of a timer queue

What a queue has granted says which timers are alive and when each of them is due
next: a timer that is to fire once until it does, a repeating one for ever, at its
first deadline and a period later for each time that it has fired, and either only
until it is cancelled.  As long as the ids do not come round the queue holds just
these timers, whichever places of its table they have come to.
-/

namespace Beacon

abbrev TimerLedger := List TimerDeed

def TimerHistory.ledger (history : TimerHistory) : TimerLedger :=
  history.filterMap TimerEntry.deed?

namespace TimerLedger

variable {ledger : TimerLedger} {t u : Timer}

/-- The timers that were posted, oldest first. -/
def posted (ledger : TimerLedger) : List Timer :=
  ledger.filterMap TimerDeed.timer?

def fires (ledger : TimerLedger) (id : TimerId) : Nat :=
  ledger.count (.fired id)

/-- What is left of a posted timer, if it has not been cancelled. -/
def rest? (ledger : TimerLedger) (t : Timer) : Option Timer :=
  if .cancelled t.id ∈ ledger then none else t.after (ledger.fires t.id)

/-- The timers that are yet to fire, each as it is due next. -/
def live (ledger : TimerLedger) : List Timer :=
  ledger.posted.filterMap ledger.rest?

theorem mem_live :
    t ∈ ledger.live ↔
      ∃ u ∈ ledger.posted, .cancelled u.id ∉ ledger ∧ u.after (ledger.fires u.id) = some t := by
  simp only [live, List.mem_filterMap, rest?]
  refine exists_congr fun u => and_congr_right fun _ => ?_
  by_cases hcancelled : .cancelled u.id ∈ ledger
  · simp [hcancelled]
  · simp [hcancelled]

theorem posted_append (first second : TimerLedger) :
    posted (first ++ second) = first.posted ++ second.posted :=
  List.filterMap_append

theorem posted_length_le_append (first second : TimerLedger) :
    first.posted.length ≤ (posted (first ++ second)).length := by
  rw [posted_append, List.length_append]
  exact Nat.le_add_right _ _

theorem posted_append_of_none {deed : TimerDeed} (htimer : deed.timer? = none)
    (ledger : TimerLedger) : posted (ledger ++ [deed]) = ledger.posted := by
  rw [posted_append, posted, posted, List.filterMap_cons_none htimer]
  exact List.append_nil _

theorem fires_append (first second : TimerLedger) (id : TimerId) :
    fires (first ++ second) id = first.fires id + second.fires id :=
  List.count_append

theorem fires_append_of_ne {deed : TimerDeed} {id : TimerId} (hdeed : deed ≠ .fired id)
    (ledger : TimerLedger) : fires (ledger ++ [deed]) id = ledger.fires id := by
  rw [fires_append, fires, fires, List.count_singleton, beq_eq_false_iff_ne.mpr hdeed]
  rfl

theorem fires_append_fired (ledger : TimerLedger) (id : TimerId) :
    fires (ledger ++ [.fired id]) id = ledger.fires id + 1 := by
  rw [fires_append, fires, fires, List.count_singleton_self]

theorem id_of_rest? (hrest : ledger.rest? t = some u) : u.id = t.id := by
  unfold rest? at hrest
  split at hrest
  next => cases hrest
  next => exact Timer.id_of_after hrest

/-! ## Ledgers of queues -/

/-- Ids are given out one after the other, and what happens to a timer happens after its post. -/
structure Orderly (ledger : TimerLedger) : Prop where
  handed : ledger.posted.Pairwise fun t u => t.id.toNat < u.id.toNat
  known : ∀ deed ∈ ledger, deed.id.toNat < ledger.posted.length
  periods : ∀ t ∈ ledger.posted, ∀ period ∈ t.period, 0 < period
  once : ∀ t ∈ ledger.posted, t.period = none → ledger.fires t.id ≤ 1

namespace Orderly

theorem nil : Orderly [] where
  handed := .nil
  known _ hmem := nomatch hmem
  periods _ hmem := nomatch hmem
  once _ hmem := nomatch hmem

theorem mem_known (h : ledger.Orderly) (ht : t ∈ ledger.posted) :
    t.id.toNat < ledger.posted.length := by
  obtain ⟨deed, hdeed, htimer⟩ := List.mem_filterMap.mp ht
  cases deed with
  | posted u =>
      cases htimer
      exact h.known _ hdeed
  | cancelled id => cases htimer
  | fired id => cases htimer

theorem eq_of_id (h : ledger.Orderly) (ht : t ∈ ledger.posted) (hu : u ∈ ledger.posted)
    (hid : t.id = u.id) : t = u := by
  have hnodup : (ledger.posted.map Timer.id).Nodup := by
    rw [List.Nodup, List.pairwise_map]
    exact h.handed.imp fun hless heq => Nat.ne_of_lt hless (congrArg UInt32.toNat heq)
  exact List.inj_on_of_nodup_map hnodup ht hu hid

/-- No two timers that are alive have the same id. -/
theorem live_handed (h : ledger.Orderly) :
    ledger.live.Pairwise fun t u => t.id.toNat < u.id.toNat := by
  rw [live, List.pairwise_filterMap]
  refine h.handed.imp fun {t u} hless t' ht' u' hu' => ?_
  rwa [id_of_rest? ht', id_of_rest? hu']

theorem ne_of_next (h : ledger.Orderly) (hnext : t.id.toNat = ledger.posted.length) :
    ∀ deed ∈ ledger, deed.id ≠ t.id := by
  intro deed hdeed heq
  have hless := h.known deed hdeed
  rw [heq, hnext] at hless
  exact Nat.lt_irrefl _ hless

theorem fires_next (h : ledger.Orderly) (hnext : t.id.toNat = ledger.posted.length) :
    ledger.fires t.id = 0 := by
  apply List.count_eq_zero.mpr
  intro hmem
  exact h.ne_of_next hnext _ hmem rfl

theorem posted (h : ledger.Orderly) (hnext : t.id.toNat = ledger.posted.length)
    (hperiod : ∀ period ∈ t.period, 0 < period) : Orderly (ledger ++ [.posted t]) := by
  have hposted : TimerLedger.posted (ledger ++ [.posted t]) = ledger.posted ++ [t] :=
    posted_append ledger _
  constructor
  · rw [hposted]
    refine List.pairwise_append.mpr ⟨h.handed, List.pairwise_singleton _ t, fun u hu v hv => ?_⟩
    rw [List.mem_singleton.mp hv, hnext]
    exact h.mem_known hu
  · intro deed hdeed
    rw [hposted, List.length_append]
    cases List.mem_append.mp hdeed with
    | inl hdeed => exact Nat.lt_succ_of_lt (h.known deed hdeed)
    | inr hdeed =>
        rw [List.mem_singleton.mp hdeed]
        exact Nat.lt_succ_of_le (Nat.le_of_eq hnext)
  · intro u hu
    rw [hposted] at hu
    cases List.mem_append.mp hu with
    | inl hu => exact h.periods u hu
    | inr hu => exact List.mem_singleton.mp hu ▸ hperiod
  · intro u hu hnone
    rw [hposted] at hu
    rw [fires_append_of_ne (by simp)]
    cases List.mem_append.mp hu with
    | inl hu => exact h.once u hu hnone
    | inr hu =>
        rw [List.mem_singleton.mp hu, h.fires_next hnext]
        exact Nat.zero_le 1

/-- What is not a post is about a timer that was posted. -/
theorem append (h : ledger.Orderly) {deed : TimerDeed} (htimer : deed.timer? = none)
    (hknown : deed.id.toNat < ledger.posted.length)
    (honce : ∀ t ∈ ledger.posted, t.period = none → fires (ledger ++ [deed]) t.id ≤ 1) :
    Orderly (ledger ++ [deed]) := by
  have hposted := posted_append_of_none htimer ledger
  constructor
  · rw [hposted]
    exact h.handed
  · intro deed' hdeed
    rw [hposted]
    cases List.mem_append.mp hdeed with
    | inl hdeed => exact h.known deed' hdeed
    | inr hdeed =>
        rw [List.mem_singleton.mp hdeed]
        exact hknown
  · rw [hposted]
    exact h.periods
  · rw [hposted]
    exact honce

theorem mem_live_posted (h : ledger.Orderly) (hnext : t.id.toNat = ledger.posted.length) :
    u ∈ live (ledger ++ [.posted t]) ↔ u = t ∨ u ∈ ledger.live := by
  have hposted : TimerLedger.posted (ledger ++ [.posted t]) = ledger.posted ++ [t] :=
    posted_append ledger _
  have hfires : ∀ id, fires (ledger ++ [.posted t]) id = ledger.fires id :=
    fun id => fires_append_of_ne (by simp) ledger
  have hfirst : t.after (ledger.fires t.id) = some t := by
    rw [h.fires_next hnext, Timer.after_zero]
  rw [mem_live, mem_live, hposted]
  simp only [hfires, List.mem_append, List.mem_singleton, reduceCtorEq, or_false]
  constructor
  · rintro ⟨v, hv | rfl, hcancelled, hrest⟩
    · exact .inr ⟨v, hv, hcancelled, hrest⟩
    · rw [hfirst] at hrest
      exact .inl (Option.some.inj hrest).symm
  · rintro (rfl | ⟨v, hv, hrest⟩)
    · exact ⟨u, .inr rfl, fun hmem => h.ne_of_next hnext _ hmem rfl, hfirst⟩
    · exact ⟨v, .inl hv, hrest⟩

end Orderly

theorem mem_live_cancelled {id : TimerId} :
    t ∈ live (ledger ++ [.cancelled id]) ↔ t ∈ ledger.live ∧ t.id ≠ id := by
  have hfires : ∀ id', fires (ledger ++ [.cancelled id]) id' = ledger.fires id' :=
    fun id' => fires_append_of_ne (by simp) ledger
  rw [mem_live, mem_live, posted_append_of_none rfl]
  simp only [hfires, List.mem_append, List.mem_singleton, TimerDeed.cancelled.injEq, not_or]
  constructor
  · rintro ⟨u, hu, ⟨hcancelled, hid⟩, hrest⟩
    rw [← Timer.id_of_after hrest] at hid
    exact ⟨⟨u, hu, hcancelled, hrest⟩, hid⟩
  · rintro ⟨⟨u, hu, hcancelled, hrest⟩, hid⟩
    rw [Timer.id_of_after hrest] at hid
    exact ⟨u, hu, ⟨hcancelled, hid⟩, hrest⟩

namespace Orderly

/-- A timer that fires is replaced by what is left of it, and the others are as before. -/
theorem mem_live_fired (h : ledger.Orderly) (ht : t ∈ ledger.live) :
    u ∈ live (ledger ++ [.fired t.id]) ↔ t.again = some u ∨ (u ∈ ledger.live ∧ u.id ≠ t.id) := by
  obtain ⟨first, hfirst, hlive, hleft⟩ := mem_live.mp ht
  have hid := Timer.id_of_after hleft
  have hother : ∀ {v : Timer}, v.id ≠ t.id →
      fires (ledger ++ [.fired t.id]) v.id = ledger.fires v.id :=
    fun hne => fires_append_of_ne (by simpa using Ne.symm hne) ledger
  have hagain : first.after (fires (ledger ++ [.fired t.id]) first.id) = t.again := by
    rw [← hid, fires_append_fired, hid, Timer.after_succ hleft]
  rw [mem_live, mem_live, posted_append_of_none rfl]
  simp only [List.mem_append, List.mem_singleton, reduceCtorEq, or_false]
  constructor
  · rintro ⟨v, hv, hcancelled, hrest⟩
    by_cases hsame : v.id = t.id
    · obtain rfl : v = first := h.eq_of_id hv hfirst (hsame.trans hid)
      exact .inl (hagain.symm.trans hrest)
    · rw [hother hsame] at hrest
      rw [← Timer.id_of_after hrest] at hsame
      exact .inr ⟨⟨v, hv, hcancelled, hrest⟩, hsame⟩
  · rintro (hset | ⟨⟨v, hv, hcancelled, hrest⟩, hne⟩)
    · exact ⟨first, hfirst, hlive, hagain.trans hset⟩
    · rw [Timer.id_of_after hrest] at hne
      rw [← hother hne] at hrest
      exact ⟨v, hv, hcancelled, hrest⟩

end Orderly

/-! ## What the queue holds -/

/-- The queue holds what the ledger says is alive. -/
structure Refines (ledger : TimerLedger) (queue : TimerQueue) : Prop where
  orderly : ledger.Orderly
  issued : queue.Issued ledger.posted.length
  mem_iff : ∀ t, t ∈ queue.pending ↔ t ∈ ledger.live

namespace Refines

variable {queue timers : TimerQueue} {id : TimerId}

theorem empty : Refines [] .empty where
  orderly := .nil
  issued := ⟨rfl, fun _ hmem => (nomatch hmem), List.nodup_nil⟩
  mem_iff _ := Iff.rfl

theorem period_pos (h : ledger.Refines queue) (ht : t ∈ queue.pending) :
    ∀ period ∈ t.period, 0 < period := by
  obtain ⟨u, hu, -, hrest⟩ := mem_live.mp ((h.mem_iff t).mp ht)
  rw [Timer.period_of_after hrest]
  exact h.orderly.periods u hu

theorem pending_known (h : ledger.Refines queue) (ht : t ∈ queue.pending) :
    t.id.toNat < ledger.posted.length := by
  apply h.issued.before
  exact List.mem_map_of_mem ht

theorem eq_of_id (h : ledger.Refines queue) (ht : t ∈ queue.pending) (hu : u ∈ queue.pending)
    (hid : t.id = u.id) : t = u :=
  List.inj_on_of_nodup_map h.issued.nodup ht hu hid

theorem pending_perm (h : ledger.Refines queue) : queue.pending.Perm ledger.live := by
  refine (List.perm_ext_iff_of_nodup (.of_map _ h.issued.nodup) ?_).mpr h.mem_iff
  rw [List.Nodup]
  refine h.orderly.live_handed.imp ?_
  rintro t u hless rfl
  exact Nat.lt_irrefl _ hless

theorem next_id (h : ledger.Refines queue) (hfew : ledger.posted.length < UInt32.size) :
    queue.nextId.toNat = ledger.posted.length := by
  rw [h.issued.next]
  exact Nat.mod_eq_of_lt hfew

theorem posted (h : ledger.Refines queue) (hfew : ledger.posted.length < UInt32.size)
    (hid : t.id = queue.nextId) (hperiod : ∀ period ∈ t.period, 0 < period)
    (hadmits : queue.Admits t timers) : Refines (ledger ++ [.posted t]) timers := by
  have hnext : t.id.toNat = ledger.posted.length := by rw [hid, h.next_id hfew]
  constructor
  · exact h.orderly.posted hnext hperiod
  · rw [posted_append, List.length_append]
    exact h.issued.admits hfew hadmits hid
  · intro u
    rw [hadmits.mem_iff, h.mem_iff, h.orderly.mem_live_posted hnext]

theorem cancelled (h : ledger.Refines queue) (hpending : queue.isPending id) :
    Refines (ledger ++ [.cancelled id]) (queue.remove id) := by
  constructor
  · apply h.orderly.append rfl
    · obtain ⟨t, ht, rfl⟩ := TimerQueue.isPending_iff.mp hpending
      exact h.pending_known ht
    · intro t ht hnone
      rw [fires_append_of_ne (by simp)]
      exact h.orderly.once t ht hnone
  · rw [posted_append_of_none rfl]
    have hsublist := TimerQueue.pending_remove_sublist id queue
    exact h.issued.of_subperm (queue.nextId_remove id) (hsublist.map Timer.id).subperm
  · intro t
    rw [TimerQueue.mem_remove h.issued.nodup, h.mem_iff, mem_live_cancelled]

theorem fired (h : ledger.Refines queue) (hfires : queue.Fires t timers) :
    Refines (ledger ++ [.fired t.id]) timers := by
  have ht := hfires.mem
  constructor
  · refine h.orderly.append rfl (h.pending_known ht) fun u hu hnone => ?_
    by_cases hid : u.id = t.id
    · -- A timer that is to fire once has not fired before, or it would not be alive.
      obtain ⟨first, hfirst, -, hleft⟩ := mem_live.mp ((h.mem_iff t).mp ht)
      obtain rfl : u = first :=
        h.orderly.eq_of_id hu hfirst (hid.trans (Timer.id_of_after hleft))
      rw [Timer.after_once hnone] at hleft
      split at hleft
      next hzero =>
        have hcount : fires (ledger ++ [.fired t.id]) u.id = 1 := by
          rw [hid, fires_append_fired, ← hid, hzero]
        exact Nat.le_of_eq hcount
      next => cases hleft
    · rw [fires_append_of_ne (by simpa using Ne.symm hid)]
      exact h.orderly.once u hu hnone
  · rw [posted_append_of_none rfl]
    exact h.issued.of_subperm hfires.next hfires.ids_subperm
  · intro u
    rw [hfires.mem_iff h.issued.nodup, h.mem_iff,
      h.orderly.mem_live_fired ((h.mem_iff t).mp ht)]

end Refines

end TimerLedger

theorem TimerHistory.ledger_append (history : TimerHistory) (x : TimerEntry) :
    TimerHistory.ledger (history ++ [x]) = history.ledger ++ x.deed?.toList := by
  rw [ledger, List.filterMap_append]
  cases h : x.deed? with
  | none => simp [ledger, h]
  | some deed => simp [ledger, h]

theorem TimerHistory.ledger_append_append (first second : TimerHistory) :
    TimerHistory.ledger (first ++ second) = first.ledger ++ second.ledger :=
  List.filterMap_append

/-- In every run the queue holds what the ledger says. -/
theorem TimerRun.refines {history : TimerHistory} {queue : TimerQueue}
    (hrun : TimerRun .empty history queue) (hfew : history.ledger.posted.length < UInt32.size) :
    history.ledger.Refines queue := by
  induction hrun with
  | start => exact .empty
  | @serve history queue call hrun ih =>
      have hledger := TimerHistory.ledger_append history ⟨queue, call⟩
      have hrefines : history.ledger.Refines queue := by
        apply ih
        rw [hledger, TimerLedger.posted_append, List.length_append] at hfew
        exact Nat.lt_of_le_of_lt (Nat.le_add_right _ _) hfew
      change TimerLedger.Refines _ (TimerEntry.after ⟨queue, call⟩)
      rw [hledger]
      cases TimerEntry.effect ⟨queue, call⟩ with
      | nothing hdeed hafter =>
          rw [hdeed, hafter, Option.toList_none, List.append_nil]
          exact hrefines
      | posted t hdeed hid hperiod _ hadmits =>
          rw [hdeed]
          refine hrefines.posted (Nat.lt_of_succ_lt ?_) hid hperiod hadmits
          rwa [hledger, hdeed, TimerLedger.posted_append, List.length_append] at hfew
      | cancelled id hdeed hpending hafter =>
          rw [hdeed, hafter]
          exact hrefines.cancelled hpending
      | fired t now hdeed _ _ _ hfires =>
          rw [hdeed]
          exact hrefines.fired hfires

end Beacon

import Beacon.Timer
import Mathlib.Data.List.Nodup
import Mathlib.Data.List.Perm.Subperm
import Mathlib.Tactic.Common

/-!
# Operations on timers

What posting, cancelling and firing do to the pending timers, each said once.  A
write to the table changes one place of this list: a timer comes in between two
others, goes away, or is set again where it stood.  Everything else about a queue
is read off these lemmas, with no regard to the table.
-/

namespace Beacon

namespace Timer

variable {t u v : Timer}

theorem before_iff :
    t.before u ↔ t.deadline < u.deadline ∨ (t.deadline = u.deadline ∧ t.id.toNat < u.id.toNat) := by
  simp [before, UInt32.lt_iff_toNat_lt]

theorem before_trans (htu : t.before u) (huv : u.before v) : t.before v := by
  rw [before_iff] at htu huv ⊢
  omega

theorem not_before_trans (hut : ¬u.before t) (hvu : ¬v.before u) : ¬v.before t := by
  rw [before_iff] at hut hvu ⊢
  omega

theorem not_before_of_before (htu : t.before u) : ¬u.before t := by
  rw [before_iff] at htu ⊢
  omega

theorem before_of_not (h : ¬t.before u) (hid : t.id ≠ u.id) : u.before t := by
  have hdiffer : t.id.toNat ≠ u.id.toNat := fun heq => hid (UInt32.toNat_inj.mp heq)
  rw [before_iff] at h ⊢
  omega

theorem id_of_again (h : t.again = some u) : u.id = t.id := by
  obtain ⟨period, -, rfl⟩ := Option.map_eq_some_iff.mp h
  rfl

theorem period_of_again (h : t.again = some u) : u.period = t.period := by
  obtain ⟨period, -, rfl⟩ := Option.map_eq_some_iff.mp h
  rfl

theorem task_of_again (h : t.again = some u) : u.task = t.task := by
  obtain ⟨period, -, rfl⟩ := Option.map_eq_some_iff.mp h
  rfl

end Timer

namespace TimerQueue

variable {queue timers : TimerQueue} {t u : Timer} {i j : Place} {id : TimerId}

def ids (queue : TimerQueue) : List TimerId :=
  queue.pending.map Timer.id

/-! ## Places -/

theorem mem_places (i : Place) : i ∈ places :=
  List.mem_finRange i

theorem length_places : places.length = capacity :=
  List.length_finRange

def front : Place := ⟨0, Nat.zero_lt_succ 5⟩

theorem entry_put_self (i : Place) (x : Option Timer) (queue : TimerQueue) :
    (queue.put i x).entry i = x :=
  Vector.getElem_set_self i.isLt

theorem entry_put_of_ne (hne : i ≠ j) (x : Option Timer) (queue : TimerQueue) :
    (queue.put i x).entry j = queue.entry j :=
  Vector.getElem_set_ne i.isLt j.isLt (Fin.val_ne_of_ne hne)

theorem mem_pending : t ∈ queue.pending ↔ ∃ i, queue.entry i = some t := by
  rw [pending, List.mem_filterMap]
  exact exists_congr fun i => and_iff_right (mem_places i)

theorem pending_eq {first last : List Place} (hplaces : places = first ++ i :: last)
    (queue : TimerQueue) :
    queue.pending =
      first.filterMap queue.entry ++ (queue.entry i).toList ++ last.filterMap queue.entry := by
  rw [pending, hplaces, List.filterMap_append, List.append_assoc]
  congr 1
  cases h : queue.entry i with
  | none => rw [List.filterMap_cons_none h, Option.toList_none, List.nil_append]
  | some t => rw [List.filterMap_cons_some h, Option.toList_some, List.singleton_append]

/-- A write changes what stands at its place. -/
theorem pending_put {first last : List Place} (hplaces : places = first ++ i :: last)
    (x : Option Timer) (queue : TimerQueue) :
    (queue.put i x).pending =
      first.filterMap queue.entry ++ x.toList ++ last.filterMap queue.entry := by
  have hnodup : (first ++ i :: last).Nodup := hplaces ▸ List.nodup_finRange capacity
  obtain ⟨-, hlast, hfirst⟩ := List.nodup_append.mp hnodup
  have hbefore : first.filterMap (queue.put i x).entry = first.filterMap queue.entry := by
    apply List.filterMap_congr
    intro j hj
    exact entry_put_of_ne (hfirst j hj i (.head last)).symm x queue
  have hbehind : last.filterMap (queue.put i x).entry = last.filterMap queue.entry := by
    apply List.filterMap_congr
    intro j hj
    apply entry_put_of_ne
    rintro rfl
    exact (List.nodup_cons.mp hlast).1 hj
  rw [pending_eq hplaces, entry_put_self, hbefore, hbehind]

theorem length_pending_le (queue : TimerQueue) : queue.pending.length ≤ capacity := by
  rw [← length_places]
  exact List.length_filterMap_le _ _

/-- There is a free place unless all six timers wait. -/
theorem free?_eq_none_iff : queue.free? = none ↔ capacity ≤ queue.pending.length := by
  have hfull : queue.free? = none ↔ ∀ i ∈ places, (queue.entry i).isSome := by
    rw [free?, List.find?_eq_none]
    refine forall₂_congr fun i _ => ?_
    cases queue.entry i <;> simp
  have hlength := queue.length_pending_le
  rw [hfull, ← List.filterMap_length_eq_length, length_places]
  change queue.pending.length = capacity ↔ _
  omega

/-! ## Posting -/

/-- A timer is put among those that wait, and the next id is the one after it. -/
structure Admits (queue : TimerQueue) (t : Timer) (timers : TimerQueue) : Prop where
  split : ∃ earlier later, queue.pending = earlier ++ later ∧ timers.pending = earlier ++ t :: later
  next : timers.nextId = queue.nextId + 1

namespace Admits

theorem perm (h : queue.Admits t timers) : timers.pending.Perm (t :: queue.pending) := by
  obtain ⟨earlier, later, hqueue, htimers⟩ := h.split
  rw [hqueue, htimers]
  exact List.perm_middle

theorem mem_iff (h : queue.Admits t timers) : u ∈ timers.pending ↔ u = t ∨ u ∈ queue.pending := by
  rw [h.perm.mem_iff, List.mem_cons]

theorem length_eq (h : queue.Admits t timers) :
    timers.pending.length = queue.pending.length + 1 := by
  rw [h.perm.length_eq, List.length_cons]

theorem pending_of_nil (h : queue.Admits t timers) (hnil : queue.pending = []) :
    timers.pending = [t] := by
  have hperm := h.perm
  rw [hnil] at hperm
  exact List.perm_singleton.mp hperm

theorem filter_of_neg {p : Timer → Bool} (h : queue.Admits t timers) (ht : p t = false) :
    timers.pending.filter p = queue.pending.filter p := by
  obtain ⟨earlier, later, hqueue, htimers⟩ := h.split
  rw [hqueue, htimers, List.filter_append, List.filter_append, List.filter_cons_of_neg (by simp [ht])]

end Admits

/-- The queue after a post. -/
def posted (deadline : Nat) (period : Option Nat) (task : Task) (queue : TimerQueue) : TimerQueue :=
  (insert deadline period task queue).state

/-- A post is refused if six timers wait, and otherwise its timer has the next id. -/
theorem insert_cases (deadline : Nat) (period : Option Nat) (task : Task) (queue : TimerQueue) :
    (capacity ≤ queue.pending.length ∧
        insert deadline period task queue = ⟨none, queue, [.notice (.timersFull task)]⟩) ∨
      (queue.pending.length < capacity ∧
        queue.Admits ⟨queue.nextId, deadline, period, task⟩ (queue.posted deadline period task) ∧
        insert deadline period task queue =
          ⟨some queue.nextId, queue.posted deadline period task, []⟩) := by
  unfold posted
  simp only [insert, Act.bind_apply, Act.get_apply, Done.after_nil]
  cases hfree : queue.free? with
  | none => exact .inl ⟨free?_eq_none_iff.mp hfree, rfl⟩
  | some i =>
      have hroom : queue.pending.length < capacity := by
        refine Nat.lt_of_not_le fun hfull => ?_
        rw [free?_eq_none_iff.mpr hfull] at hfree
        cases hfree
      obtain ⟨hnone, first, last, hplaces, -⟩ := List.find?_eq_some_iff_append.mp hfree
      have hpending := pending_eq hplaces queue
      rw [Option.isNone_iff_eq_none.mp hnone, Option.toList_none, List.append_nil] at hpending
      refine .inr ⟨hroom, ⟨⟨_, _, hpending, ?_⟩, rfl⟩, rfl⟩
      refine (pending_put hplaces _ queue).trans ?_
      rw [Option.toList_some, List.append_assoc, List.singleton_append]

theorem insert_of_room (hroom : queue.pending.length < capacity) (deadline : Nat)
    (period : Option Nat) (task : Task) :
    insert deadline period task queue =
      ⟨some queue.nextId, queue.posted deadline period task, []⟩ := by
  rcases insert_cases deadline period task queue with ⟨hfull, -⟩ | ⟨-, -, hinsert⟩
  · exact absurd hroom (Nat.not_lt.mpr hfull)
  · exact hinsert

theorem admits_posted (hroom : queue.pending.length < capacity) (deadline : Nat)
    (period : Option Nat) (task : Task) :
    queue.Admits ⟨queue.nextId, deadline, period, task⟩ (queue.posted deadline period task) := by
  rcases insert_cases deadline period task queue with ⟨hfull, -⟩ | ⟨-, hadmits, -⟩
  · exact absurd hroom (Nat.not_lt.mpr hfull)
  · exact hadmits

/-- A timer stays at its place when another is posted. -/
theorem entry_posted (hentry : queue.entry i = some t) (deadline : Nat) (period : Option Nat)
    (task : Task) : (queue.posted deadline period task).entry i = some t := by
  simp only [posted, insert, Act.bind_apply, Act.get_apply, Done.after_nil]
  cases hfree : queue.free? with
  | none => exact hentry
  | some j =>
      have hempty := List.find?_some hfree
      have hne : j ≠ i := by
        rintro rfl
        rw [hentry] at hempty
        cases hempty
      exact (entry_put_of_ne hne _ queue).trans hentry

theorem ids_insert (deadline : Nat) (period : Option Nat) (task : Task) (queue : TimerQueue) :
    (insert deadline period task queue).state.ids.Perm
      ((insert deadline period task queue).value.toList ++ queue.ids) := by
  rcases insert_cases deadline period task queue with ⟨-, h⟩ | ⟨-, hadmits, h⟩
  · rw [h]
    exact .refl _
  · rw [h]
    exact hadmits.perm.map Timer.id

theorem mem_insert {deadline : Nat} {period : Option Nat} {task : Task}
    (ht : t ∈ (insert deadline period task queue).state.pending) :
    t ∈ queue.pending ∨
      (insert deadline period task queue).value = some t.id ∧
        t.deadline = deadline ∧ t.period = period ∧ t.task = task := by
  rcases insert_cases deadline period task queue with ⟨-, h⟩ | ⟨-, hadmits, h⟩
  · rw [h] at ht
    exact .inl ht
  · rw [h] at ht ⊢
    rcases hadmits.mem_iff.mp ht with rfl | ht
    · exact .inr ⟨rfl, rfl, rfl, rfl⟩
    · exact .inl ht

/-! ## Firing -/

theorem earliest_eq_none_iff {waiting : List (Place × Timer)} :
    earliest waiting = none ↔ waiting = [] := by
  cases waiting with
  | nil => exact iff_of_true rfl rfl
  | cons x rest =>
      refine iff_of_false ?_ (List.cons_ne_nil x rest)
      rw [earliest]
      split
      next => exact Option.some_ne_none x
      next => split <;> exact Option.some_ne_none _

theorem earliest_spec {waiting : List (Place × Timer)} {x : Place × Timer}
    (h : earliest waiting = some x) : x ∈ waiting ∧ ∀ y ∈ waiting, ¬y.2.before x.2 := by
  induction waiting generalizing x with
  | nil => cases h
  | cons z rest ih =>
      have hself : ∀ t : Timer, ¬t.before t := by
        intro t ht
        exact Timer.not_before_of_before ht ht
      rw [earliest] at h
      cases hrest : earliest rest with
      | none =>
          rw [hrest] at h
          cases h
          rw [earliest_eq_none_iff.mp hrest]
          exact ⟨.head _, List.forall_mem_singleton.mpr (hself z.2)⟩
      | some y =>
          obtain ⟨hy, hfirst⟩ := ih hrest
          simp only [hrest] at h
          split at h
          next hbefore =>
            cases h
            exact ⟨.tail z hy,
              List.forall_mem_cons.mpr ⟨Timer.not_before_of_before hbefore, hfirst⟩⟩
          next hnot =>
            cases h
            refine ⟨.head rest, List.forall_mem_cons.mpr ⟨hself z.2, fun w hw => ?_⟩⟩
            exact Timer.not_before_trans hnot (hfirst w hw)

theorem mem_occupied {x : Place × Timer} : x ∈ queue.occupied ↔ queue.entry x.1 = some x.2 := by
  obtain ⟨i, t⟩ := x
  simp only [occupied, List.mem_filterMap, Option.map_eq_some_iff, Prod.mk.injEq]
  constructor
  · rintro ⟨j, -, u, hentry, rfl, rfl⟩
    exact hentry
  · intro hentry
    exact ⟨i, mem_places i, t, hentry, rfl, rfl⟩

/-- A timer that waits fires: it is set again where it stands, or goes away. -/
structure Fires (queue : TimerQueue) (t : Timer) (timers : TimerQueue) : Prop where
  split : ∃ earlier later, queue.pending = earlier ++ t :: later ∧
    timers.pending = earlier ++ t.again.toList ++ later
  next : timers.nextId = queue.nextId

namespace Fires

theorem mem (h : queue.Fires t timers) : t ∈ queue.pending := by
  obtain ⟨earlier, later, hqueue, -⟩ := h.split
  rw [hqueue]
  simp

/-- The timers that waited are the one that fires and others, and these wait on. -/
theorem exists_others (h : queue.Fires t timers) :
    ∃ others, queue.pending.Perm (t :: others) ∧
      timers.pending.Perm (t.again.toList ++ others) := by
  obtain ⟨earlier, later, hqueue, htimers⟩ := h.split
  refine ⟨earlier ++ later, ?_, ?_⟩
  · rw [hqueue]
    exact List.perm_middle
  · rw [htimers, ← List.append_assoc]
    exact List.perm_append_comm.append_right later

theorem mem_after (h : queue.Fires t timers) (hu : u ∈ timers.pending) :
    t.again = some u ∨ u ∈ queue.pending := by
  obtain ⟨others, hqueue, htimers⟩ := h.exists_others
  rw [htimers.mem_iff, List.mem_append, Option.mem_toList] at hu
  rw [hqueue.mem_iff]
  exact hu.imp id (List.mem_cons_of_mem t)

/-- With no two ids alike, the others are the timers with another id. -/
theorem mem_iff (h : queue.Fires t timers) (hnodup : queue.ids.Nodup) :
    u ∈ timers.pending ↔ t.again = some u ∨ (u ∈ queue.pending ∧ u.id ≠ t.id) := by
  obtain ⟨others, hqueue, htimers⟩ := h.exists_others
  have hids : (t.id :: others.map Timer.id).Nodup := (hqueue.map Timer.id).nodup_iff.mp hnodup
  have hothers : u ∈ others → u.id ≠ t.id := by
    intro hu heq
    exact (List.nodup_cons.mp hids).1 (heq ▸ List.mem_map_of_mem hu)
  rw [htimers.mem_iff, hqueue.mem_iff, List.mem_append, Option.mem_toList, List.mem_cons]
  refine or_congr_right ⟨fun hu => ⟨.inr hu, hothers hu⟩, ?_⟩
  rintro ⟨rfl | hu, hne⟩
  · exact absurd rfl hne
  · exact hu

/-- A timer that fires once is gone. -/
theorem perm_of_once (h : queue.Fires t timers) (honce : t.period = none) :
    queue.pending.Perm (t :: timers.pending) := by
  obtain ⟨earlier, later, hqueue, htimers⟩ := h.split
  rw [Timer.again, honce, Option.map_none, Option.toList_none, List.append_nil] at htimers
  rw [hqueue, htimers]
  exact List.perm_middle

/-- A timer that repeats keeps its id and its task, and so does the queue all of them. -/
theorem map_of_again {α : Type} (h : queue.Fires t timers) {f : Timer → α}
    (hagain : t.again = some u) (hf : f u = f t) : timers.pending.map f = queue.pending.map f := by
  obtain ⟨earlier, later, hqueue, htimers⟩ := h.split
  rw [hagain, Option.toList_some] at htimers
  rw [hqueue, htimers, List.map_append, List.map_append, List.map_singleton, hf, List.append_assoc,
    List.singleton_append, List.map_append, List.map_cons]

theorem filter_of_ne {task : Task} (h : queue.Fires t timers) (hne : t.task ≠ task) :
    timers.pending.filter (·.task = task) = queue.pending.filter (·.task = task) := by
  obtain ⟨earlier, later, hqueue, htimers⟩ := h.split
  have hagain : t.again.toList.filter (·.task = task) = [] := by
    refine List.filter_eq_nil_iff.mpr fun u hu => ?_
    rw [Timer.task_of_again (Option.mem_toList.mp hu), decide_eq_true_eq]
    exact hne
  rw [hqueue, htimers, List.filter_append, List.filter_append, hagain, List.append_nil,
    List.filter_append, List.filter_cons_of_neg (by simpa using hne)]

theorem ids_subperm (h : queue.Fires t timers) : timers.ids.Subperm queue.ids := by
  obtain ⟨others, hqueue, htimers⟩ := h.exists_others
  have hids : (t.again.toList.map Timer.id).Sublist [t.id] := by
    cases hagain : t.again with
    | none => exact List.nil_sublist _
    | some u => rw [Option.toList_some, List.map_singleton, Timer.id_of_again hagain]
  have hsub := (hids.append_right (others.map Timer.id)).subperm
  rw [← List.map_append] at hsub
  exact ((htimers.map Timer.id).subperm.trans hsub).trans (hqueue.map Timer.id).symm.subperm

end Fires

/-- Nothing fires unless a timer is due.  Of those that are due the earliest fires. -/
theorem popDue_cases (now : Nat) (queue : TimerQueue) :
    ((∀ t ∈ queue.pending, now < t.deadline) ∧ popDue now queue = ⟨none, queue, []⟩) ∨
      ∃ t timers, queue.Fires t timers ∧ t.deadline ≤ now ∧
        (∀ u ∈ queue.pending, ¬u.before t) ∧
        popDue now queue = ⟨some (t.id, t.task), timers, []⟩ := by
  simp only [popDue, modifyGet, MonadStateOf.modifyGet]
  cases hfirst : earliest (queue.occupied.filter (·.2.deadline ≤ now)) with
  | none =>
      refine .inl ⟨fun t ht => ?_, rfl⟩
      obtain ⟨i, hentry⟩ := mem_pending.mp ht
      have hnone := List.filter_eq_nil_iff.mp (earliest_eq_none_iff.mp hfirst) (i, t)
        (mem_occupied.mpr hentry)
      simpa using hnone
  | some x =>
      obtain ⟨i, t⟩ := x
      obtain ⟨hmem, hearliest⟩ := earliest_spec hfirst
      obtain ⟨hoccupied, hdue⟩ := List.mem_filter.mp hmem
      have hdue : t.deadline ≤ now := of_decide_eq_true hdue
      have hentry : queue.entry i = some t := mem_occupied.mp hoccupied
      obtain ⟨first, last, hplaces⟩ := List.append_of_mem (mem_places i)
      refine .inr ⟨t, queue.put i t.again, ⟨⟨_, _, ?_, pending_put hplaces _ queue⟩, rfl⟩, hdue,
        fun u hu hbefore => ?_, rfl⟩
      · rw [pending_eq hplaces, hentry, Option.toList_some, List.append_assoc,
          List.singleton_append]
      · -- A timer that is before one that is due is due itself.
        have hsooner := Timer.before_iff.mp hbefore
        have hudue : u.deadline ≤ now := by omega
        obtain ⟨j, hj⟩ := mem_pending.mp hu
        refine hearliest (j, u) (List.mem_filter.mpr ⟨mem_occupied.mpr hj, ?_⟩) hbefore
        exact decide_eq_true hudue

/-- What fires has waited, and firing gives nothing new to do. -/
theorem popDue_tasks (now : Nat) (queue : TimerQueue) :
    popDue now queue = ⟨none, queue, []⟩ ∨
      ∃ t ∈ queue.pending, ∃ timers : TimerQueue,
        (∀ u ∈ timers.pending, ∃ v ∈ queue.pending, v.task = u.task) ∧
        popDue now queue = ⟨some (t.id, t.task), timers, []⟩ := by
  rcases popDue_cases now queue with ⟨-, h⟩ | ⟨t, timers, hfires, -, -, h⟩
  · exact .inl h
  · refine .inr ⟨t, hfires.mem, timers, fun u hu => ?_, h⟩
    cases hfires.mem_after hu with
    | inl hagain => exact ⟨t, hfires.mem, (Timer.task_of_again hagain).symm⟩
    | inr hu => exact ⟨u, hu, rfl⟩

theorem nextDeadline?_eq_some_iff {deadline : Nat} :
    queue.nextDeadline? = some deadline ↔
      (∃ t ∈ queue.pending, t.deadline = deadline) ∧ ∀ t ∈ queue.pending, deadline ≤ t.deadline := by
  rw [nextDeadline?, List.min?_eq_some_iff, List.mem_map, List.forall_mem_map]

theorem exists_nextDeadline? (ht : t ∈ queue.pending) :
    ∃ deadline, queue.nextDeadline? = some deadline ∧ deadline ≤ t.deadline := by
  cases hnext : queue.nextDeadline? with
  | none =>
      rw [nextDeadline?, List.min?_eq_none_iff, List.map_eq_nil_iff] at hnext
      rw [hnext] at ht
      cases ht
  | some deadline => exact ⟨deadline, rfl, (nextDeadline?_eq_some_iff.mp hnext).2 t ht⟩

/-! ## Cancelling -/

theorem isPending_iff : queue.isPending id ↔ ∃ t ∈ queue.pending, t.id = id := by
  rw [isPending, find?, List.find?_isSome]
  constructor
  · rintro ⟨i, -, hany⟩
    cases hentry : queue.entry i with
    | none =>
        rw [hentry] at hany
        cases hany
    | some t =>
        rw [hentry] at hany
        exact ⟨t, mem_pending.mpr ⟨i, hentry⟩, of_decide_eq_true hany⟩
  · rintro ⟨t, ht, hid⟩
    obtain ⟨i, hentry⟩ := mem_pending.mp ht
    exact ⟨i, mem_places i, by rw [hentry]; simpa using hid⟩

/-- Of the timers with an id the first goes away. -/
theorem pending_remove (id : TimerId) (queue : TimerQueue) :
    (queue.remove id).pending = queue.pending.eraseP (·.id = id) := by
  rw [remove]
  cases hfind : queue.find? id with
  | none =>
      refine (List.eraseP_of_forall_not fun t ht => ?_).symm
      obtain ⟨i, hentry⟩ := mem_pending.mp ht
      have hother := List.find?_eq_none.mp hfind i (mem_places i)
      rwa [hentry] at hother
  | some i =>
      obtain ⟨hany, first, last, hplaces, hfirst⟩ := List.find?_eq_some_iff_append.mp hfind
      have hothers : ∀ t ∈ first.filterMap queue.entry, ¬decide (t.id = id) = true := by
        intro t ht
        obtain ⟨j, hj, hentry⟩ := List.mem_filterMap.mp ht
        have hother := hfirst j hj
        rw [hentry] at hother
        simpa using hother
      cases hentry : queue.entry i with
      | none =>
          rw [hentry] at hany
          cases hany
      | some t =>
          rw [hentry] at hany
          have hid : decide (t.id = id) = true := hany
          change (queue.put i none).pending = _
          rw [pending_put hplaces, pending_eq hplaces, hentry, List.append_assoc, List.append_assoc,
            List.eraseP_append_right _ hothers, Option.toList_some, List.singleton_append,
            List.eraseP_cons_of_pos (p := fun u : Timer => decide (u.id = id)) hid,
            Option.toList_none, List.nil_append]

/-- A timer stays at its place when another is cancelled. -/
theorem entry_remove (hentry : queue.entry i = some t) (hother : t.id ≠ id) :
    (queue.remove id).entry i = some t := by
  rw [remove]
  cases hfind : queue.find? id with
  | none => exact hentry
  | some j =>
      have hfound := List.find?_some hfind
      have hne : j ≠ i := by
        rintro rfl
        rw [hentry] at hfound
        exact hother (of_decide_eq_true hfound)
      exact (entry_put_of_ne hne none queue).trans hentry

/-- Of two timers with one id the first is cancelled. -/
theorem pending_remove_front (hentry : queue.entry front = some t) :
    queue.pending = t :: (queue.remove t.id).pending := by
  have hplaces : places = [] ++ front :: places.tail := rfl
  have hpending := pending_eq hplaces queue
  rw [hentry, Option.toList_some, List.filterMap_nil, List.nil_append, List.singleton_append]
    at hpending
  rw [pending_remove, hpending, List.eraseP_cons_of_pos (by simp)]

theorem ids_remove (id : TimerId) (queue : TimerQueue) :
    (queue.remove id).ids = queue.ids.erase id := by
  rw [ids, pending_remove, ids]
  induction queue.pending with
  | nil => rfl
  | cons t rest ih =>
      by_cases h : t.id = id
      · simp [h]
      · simp [h, ih]

theorem nextId_remove (id : TimerId) (queue : TimerQueue) :
    (queue.remove id).nextId = queue.nextId := by
  rw [remove]
  split
  next => rfl
  next => rfl

theorem remove_of_not_isPending (h : queue.isPending id = false) : queue.remove id = queue := by
  rw [isPending, Option.isSome_eq_false_iff, Option.isNone_iff_eq_none] at h
  rw [remove, h]

theorem pending_remove_sublist (id : TimerId) (queue : TimerQueue) :
    (queue.remove id).pending.Sublist queue.pending := by
  rw [pending_remove]
  exact List.eraseP_sublist

theorem pending_cancel?_sublist (handle : Option TimerId) (queue : TimerQueue) :
    (queue.cancel? handle).pending.Sublist queue.pending := by
  cases handle with
  | none => exact .refl _
  | some id => exact pending_remove_sublist id queue

theorem ids_cancel?_perm {handle : Option TimerId} {others : List TimerId}
    (h : queue.ids.Perm (handle.toList ++ others)) : (queue.cancel? handle).ids.Perm others := by
  cases handle with
  | none => exact h
  | some id =>
      rw [cancel?, ids_remove]
      have herase := h.erase id
      simpa using herase

theorem ids_foldl_cancel?_perm {handles : List (Option TimerId)} {others : List TimerId}
    (h : queue.ids.Perm (handles.flatMap Option.toList ++ others)) :
    (handles.foldl (fun q handle => q.cancel? handle) queue).ids.Perm others := by
  induction handles generalizing queue with
  | nil => simpa using h
  | cons handle rest ih =>
      simp only [List.flatMap_cons, List.append_assoc] at h
      exact ih (ids_cancel?_perm h)

theorem pending_eq_nil_of_ids (h : queue.ids.Perm []) : queue.pending = [] := by
  apply List.map_eq_nil_iff.mp
  exact h.eq_nil

end TimerQueue

end Beacon

import Beacon.Proofs.SchedulerSteps

/-!
# Timers on air

While the scheduler is on air its pending timers are those that its handles
name, a slot's timer comes again and again and the radio manager has at most one.
Ids are compared as a multiset: a number that comes up again after the counter
has gone round does no harm.

Each step of the scheduler preserves this, and stopping leaves no timer behind.
-/

namespace Beacon

/-- A timer that the scheduler posts. -/
inductive Timer.OnAir : Timer → Prop
  | enqueue {id : TimerId} {deadline period slot : Nat} :
      0 < period → OnAir ⟨id, deadline, some period, .enqueue slot⟩
  | manageRadio {id : TimerId} {deadline : Nat} : OnAir ⟨id, deadline, none, .manageRadio⟩

namespace Scheduler

variable {π : Type}

def slotHandles (s : Scheduler) : List TimerId :=
  s.slotTimers.toList.flatMap Option.toList

/-- The timers that stopping cancels. -/
def handles (s : Scheduler) : List TimerId :=
  s.slotHandles ++ s.manager.toList

/-- Nothing is armed, queued or under way. -/
structure AtRest (s : Scheduler) : Prop where
  slotTimers : s.slotTimers = .all none
  manager : s.manager = none
  queue : s.queue = []
  running : s.running = false

structure Coherent (s : Scheduler) : Prop where
  owned : s.timers.ids.Perm s.handles
  onAir : ∀ t ∈ s.timers.pending, t.OnAir
  /-- The radio manager's timer is the one that its handle names. -/
  managed :
    ((s.timers.pending.filter (·.task = .manageRadio)).map Timer.id).Sublist s.manager.toList

/-! ## Stopping -/

theorem atRest_stop (s : Scheduler) : (stop s).state.AtRest := ⟨rfl, rfl, rfl, rfl⟩

theorem AtRest.handles_eq {s : Scheduler} (hrest : s.AtRest) : s.handles = [] := by
  simp [handles, slotHandles, hrest.slotTimers, hrest.manager, PerSlot.all]

/-- Stopping takes away the timers that the handles name. -/
theorem ids_stop_perm {s : Scheduler} {others : List TimerId}
    (howned : s.timers.ids.Perm (s.handles ++ others)) : (stop s).state.timers.ids.Perm others := by
  rw [stop_state]
  simp only [disarm, ← Vector.foldl_toList]
  apply TimerQueue.ids_cancel?_perm
  apply TimerQueue.ids_foldl_cancel?_perm
  rwa [handles, slotHandles, List.append_assoc] at howned

/-! ## Handles of slots -/

/-- Putting a handle into a table adds it to those of the table without it. -/
theorem flatMap_set_perm (handle : Option TimerId) {handles : List (Option TimerId)} {i : Nat}
    (hi : i < handles.length) :
    ((handles.set i handle).flatMap Option.toList).Perm
      (handle.toList ++ (handles.set i none).flatMap Option.toList) := by
  induction handles generalizing i with
  | nil => simp at hi
  | cons first rest ih =>
      cases i with
      | zero => exact .refl _
      | succ i =>
          have hrest := (ih (Nat.lt_of_succ_lt_succ hi)).append_left first.toList
          exact hrest.trans (List.perm_append_comm_assoc ..)

theorem slotHandles_put_perm (s : Scheduler) (slot : SlotIndex) (handle : Option TimerId) :
    { s with slotTimers := s.slotTimers.put slot handle }.slotHandles.Perm
      (handle.toList ++ { s with slotTimers := s.slotTimers.put slot none }.slotHandles) := by
  simp only [slotHandles, PerSlot.put, Vector.toList_set]
  exact flatMap_set_perm handle (by simp)

theorem slotHandles_perm (s : Scheduler) (slot : SlotIndex) :
    s.slotHandles.Perm
      ((s.slotTimers.value slot).toList ++
        { s with slotTimers := s.slotTimers.put slot none }.slotHandles) := by
  have hself : s.slotTimers.put slot (s.slotTimers.value slot) = s.slotTimers := by
    simp [PerSlot.put, PerSlot.value]
  have hperm := s.slotHandles_put_perm slot (s.slotTimers.value slot)
  rwa [hself] at hperm

/-! ## One step -/

namespace Coherent

theorem empty {s : Scheduler} (hrest : s.AtRest) (hpending : s.timers.pending = []) :
    s.Coherent where
  owned := by simp [TimerQueue.ids, hpending, hrest.handles_eq]
  onAir := by simp [hpending]
  managed := by simp [hpending]

theorem disarmSlot {s : Scheduler} (hcoh : s.Coherent) (slot : SlotIndex) :
    (s.disarmSlot slot).Coherent where
  owned := by
    apply TimerQueue.ids_cancel?_perm
    refine hcoh.owned.trans ?_
    change (s.slotHandles ++ s.manager.toList).Perm
      (_ ++ ((Scheduler.disarmSlot slot s).slotHandles ++ s.manager.toList))
    rw [← List.append_assoc]
    exact (s.slotHandles_perm slot).append_right _
  onAir t ht := hcoh.onAir t ((TimerQueue.pending_cancel?_sublist _ _).subset ht)
  managed :=
    (((TimerQueue.pending_cancel?_sublist _ _).filter _).map _).trans hcoh.managed

theorem arm {s : Scheduler} (hcoh : s.Coherent) {slot : SlotIndex}
    (hfree : s.slotTimers.value slot = none) (interval : UInt16) (now : Nat) :
    (arm slot interval now s).state.Coherent := by
  have hnone : s.slotTimers.put slot none = s.slotTimers := by
    rw [← hfree]
    simp [PerSlot.put, PerSlot.value]
  rw [arm_state]
  constructor
  · refine (TimerQueue.ids_insert _ _ _ _).trans ?_
    have hput := s.slotHandles_put_perm slot
      (TimerQueue.postEvery now interval.toNat (.enqueue slot) s.timers).value
    rw [hnone] at hput
    refine (hcoh.owned.append_left _).trans ?_
    rw [handles, ← List.append_assoc]
    exact hput.symm.append_right _
  · intro t ht
    rcases TimerQueue.mem_insert ht with ht | ⟨-, -, hperiod, htask⟩
    · exact hcoh.onAir t ht
    · obtain ⟨id, deadline, period, task⟩ := t
      cases hperiod
      cases htask
      exact .enqueue (by omega)
  · rcases TimerQueue.insert_cases (now + interval.toNat) (some (max interval.toNat 1))
      (.enqueue slot) s.timers with ⟨-, h⟩ | ⟨-, hadmits, h⟩
    · simp only [TimerQueue.postEvery, h]
      exact hcoh.managed
    · simp only [TimerQueue.postEvery, h]
      rw [hadmits.filter_of_neg (by rfl)]
      exact hcoh.managed

theorem manageRadio [AdvertProvider π] {s : Scheduler}
    (hfree : { s with manager := none }.Coherent) (now : Nat) (p : π) :
    (manageRadio now (s, p)).state.1.Coherent := by
  rcases manageRadio_cases now s p with ⟨-, radio, h⟩ | ⟨slot, rest, delay, radio, p', -, h⟩
  · rw [h]
    exact ⟨hfree.owned, hfree.onAir, hfree.managed⟩
  · rw [h]
    have hids := TimerQueue.ids_insert (now + delay) none .manageRadio s.timers
    have howned : s.timers.ids.Perm s.slotHandles := by
      simpa [handles, slotHandles] using hfree.owned
    constructor
    · exact (hids.trans (howned.append_left _)).trans List.perm_append_comm
    · intro t ht
      rcases TimerQueue.mem_insert ht with ht | ⟨-, -, hperiod, htask⟩
      · exact hfree.onAir t ht
      · obtain ⟨id, deadline, period, task⟩ := t
        cases hperiod
        cases htask
        exact .manageRadio
    · have hnone : s.timers.pending.filter (·.task = .manageRadio) = [] := by
        have hmanaged := List.sublist_nil.mp hfree.managed
        exact List.map_eq_nil_iff.mp hmanaged
      rcases TimerQueue.insert_cases (now + delay) none .manageRadio s.timers with
        ⟨-, h⟩ | ⟨-, hadmits, h⟩
      · simp only [TimerQueue.postIn, h, hnone]
        exact .refl _
      · have hmanagers := (hadmits.perm.filter (·.task = .manageRadio)).map Timer.id
        simp only [List.filter_cons_of_pos, decide_true, hnone, List.map_cons, List.map_nil]
          at hmanagers
        simp only [TimerQueue.postIn, h, List.perm_singleton.mp hmanagers]
        exact .refl _

theorem enqueue [AdvertProvider π] {s : Scheduler} (hcoh : s.Coherent) (slot now : Nat) (p : π) :
    (enqueue slot now (s, p)).state.1.Coherent := by
  obtain ⟨queue, -, h | ⟨hmanager, h⟩⟩ := enqueue_cases slot now s p
  · rw [h]
    exact ⟨hcoh.owned, hcoh.onAir, hcoh.managed⟩
  · rw [h]
    refine manageRadio ?_ now p
    rw [← hmanager]
    exact ⟨hcoh.owned, hcoh.onAir, hcoh.managed⟩

theorem rearm [AdvertProvider π] {s : Scheduler} (hcoh : s.Coherent) (slot now : Nat) (p : π) :
    (rearm p slot now s).state.Coherent := by
  rcases rearm_cases p slot now s with h | ⟨i, -, h | ⟨interval, h⟩⟩
  · rw [h]
    exact hcoh
  · rw [h]
    exact hcoh.disarmSlot i
  · rw [h]
    exact (hcoh.disarmSlot i).arm (PerSlot.value_put_self i none _) interval now

theorem armAll [AdvertProvider π] (p : π) (now : Nat) {slots : List SlotIndex}
    (hslots : slots.Nodup) {s : Scheduler} (hcoh : s.Coherent)
    (hfree : ∀ slot ∈ slots, s.slotTimers.value slot = none) :
    (armAll p now slots s).state.Coherent ∧ (armAll p now slots s).state.manager = s.manager := by
  induction slots generalizing s with
  | nil => exact ⟨hcoh, rfl⟩
  | cons slot rest ih =>
      obtain ⟨hslot, hrest⟩ := List.nodup_cons.mp hslots
      rw [armAll_cons]
      cases AdvertProvider.interval? p slot.val with
      | none => exact ih hrest hcoh fun other hother => hfree other (.tail _ hother)
      | some interval =>
          have hqueued : { s with queue := s.queue ++ [slot.val] }.Coherent :=
            ⟨hcoh.owned, hcoh.onAir, hcoh.managed⟩
          refine ih hrest (hqueued.arm (hfree slot (.head _)) interval now) ?_
          intro other hother
          have hne : slot ≠ other := fun heq => hslot (heq ▸ hother)
          rw [arm_state]
          exact (PerSlot.value_put_of_ne hne _ _).trans (hfree other (.tail _ hother))

/-- A scheduler that has come on air with some slot to be broadcast. -/
theorem start [AdvertProvider π] {s : Scheduler} {p : π} {slot : SlotIndex}
    (hslot : AdvertProvider.interval? p slot ≠ none) (now : Nat)
    (hpending : s.disarm.timers.pending = []) :
    (start now (s, p)).state.1.Coherent ∧ (start now (s, p)).state.1.running = true := by
  obtain ⟨quieted, armed, hquieted, harmed, -, h⟩ := start_of_interval hslot now s
  have hslotTimers : quieted.slotTimers = .all none := congrArg Agenda.slotTimers hquieted
  have hmanager : quieted.manager = none := congrArg Agenda.manager hquieted
  have hcoh : quieted.Coherent := by
    rw [eq_of_agenda hquieted]
    exact empty ⟨rfl, rfl, rfl, rfl⟩ hpending
  obtain ⟨harm, hfree⟩ := hcoh.armAll p now (by decide : SlotIndex.all.Nodup) fun slot _ => by
    rw [hslotTimers, PerSlot.value_all]
  rw [← harmed] at harm hfree
  have hnone : armed.manager = none := hfree.trans hmanager
  rw [h]
  refine ⟨manageRadio ?_ now p, running_manageRadio now _ p⟩
  rw [← hnone]
  exact ⟨harm.owned, harm.onAir, harm.managed⟩

/-- The timer that has fired is either a slot's, which comes again, or the manager's, which is
gone and leaves the radio free. -/
theorem popDue {s : Scheduler} (hcoh : s.Coherent) {now : Nat} {id : TimerId} {task : Task}
    (hfired : (TimerQueue.popDue now s.timers).value = some (id, task)) :
    (∃ slot, task = .enqueue slot ∧
        { s with timers := (TimerQueue.popDue now s.timers).state }.Coherent) ∨
      task = .manageRadio ∧
        { s with timers := (TimerQueue.popDue now s.timers).state, manager := none }.Coherent := by
  rcases TimerQueue.popDue_cases now s.timers with ⟨-, h⟩ | ⟨t, timers, hfires, -, -, h⟩
  · simp [h] at hfired
  · rw [h] at hfired ⊢
    simp only [Option.some.injEq, Prod.mk.injEq] at hfired
    obtain ⟨-, rfl⟩ := hfired
    have howned := hcoh.owned
    have hmanaged := hcoh.managed
    cases hcoh.onAir t hfires.mem with
    | @enqueue id deadline period slot hperiod =>
        refine .inl ⟨slot, rfl, ?_, ?_, ?_⟩
        · change (timers.pending.map Timer.id).Perm s.handles
          rw [hfires.map_of_again rfl rfl]
          exact howned
        · intro u hu
          cases hfires.mem_after hu with
          | inl hagain =>
              cases hagain
              exact .enqueue hperiod
          | inr hu => exact hcoh.onAir u hu
        · change ((timers.pending.filter (·.task = .manageRadio)).map Timer.id).Sublist _
          rw [hfires.filter_of_ne Task.noConfusion]
          exact hmanaged
    | @manageRadio id deadline =>
        have hpending := hfires.perm_of_once rfl
        have hmanagers := (hpending.filter (·.task = .manageRadio)).map Timer.id
        rw [List.filter_cons_of_pos (by rfl), List.map_cons] at hmanagers
        cases hmanager : s.manager with
        | none =>
            rw [hmanager, Option.toList_none, List.sublist_nil] at hmanaged
            rw [hmanaged, List.nil_perm] at hmanagers
            cases hmanagers
        | some held =>
            rw [hmanager, Option.toList_some] at hmanaged
            obtain rfl : id = held :=
              List.mem_singleton.mp (hmanaged.subset (hmanagers.mem_iff.mpr (.head _)))
            -- The manager has one handle, so no other timer of its kind waits.
            have hothers : timers.pending.filter (·.task = .manageRadio) = [] := by
              have hlength := hmanaged.length_le
              rw [hmanagers.length_eq, List.length_cons, List.length_map, List.length_singleton]
                at hlength
              exact List.eq_nil_of_length_eq_zero (by omega)
            refine .inr ⟨rfl, ?_, fun u hu => ?_, ?_⟩
            · have hmine : (id :: timers.pending.map Timer.id).Perm (id :: s.slotHandles) := by
                rw [handles, hmanager] at howned
                exact (hpending.map Timer.id).symm.trans (howned.trans List.perm_append_comm)
              change (timers.pending.map Timer.id).Perm (s.slotHandles ++ [])
              rw [List.append_nil]
              exact hmine.cons_inv
            · cases hfires.mem_after hu with
              | inl hagain => cases hagain
              | inr hu => exact hcoh.onAir u hu
            · change ((timers.pending.filter (·.task = .manageRadio)).map Timer.id).Sublist []
              rw [hothers]
              exact .refl _

end Coherent

end Scheduler

end Beacon

import Beacon.Proofs.Isolation

/-!
# What rings after coming on air

A scheduler that comes on air has no timers.  There is room for one for each slot
and for that of the radio manager, so that every slot that is to be broadcast is
rung for by a timer of its own from then on, and no other slot by any.

Here no timer has been posted before, and it makes no difference how many ids are
left.
-/

namespace Beacon

namespace Scheduler

variable {p : State} {now : Nat} {s : Scheduler} {i slot : SlotIndex}

/-- What rings for a slot: the timer that its handle names, and the timers that put it into the
queue. -/
def bell (s : Scheduler) (i : SlotIndex) : Option TimerId × List Timer :=
  (s.slotTimers.value i, s.ringers i)

/-- The slot is rung for each time its interval has passed, or never if it has none. -/
def RungAt (s : Scheduler) (i : SlotIndex) (now : Nat) : Option UInt16 → Prop
  | none => s.bell i = (none, [])
  | some interval =>
    ∃ id, s.bell i = (some id, [⟨id, now + interval.toNat, some interval.toNat, .enqueue i⟩])

theorem RungAt.congr {t : Scheduler} (hbell : t.bell i = s.bell i) {interval? : Option UInt16}
    (h : s.RungAt i now interval?) : t.RungAt i now interval? := by
  cases interval? with
  | none => exact hbell.trans h
  | some interval => exact h.imp fun _ hid => hbell.trans hid

theorem RungAt.isArmed {interval? : Option UInt16} (h : s.RungAt i now interval?) :
    s.isArmed i = interval?.isSome := by
  have hisArmed : s.isArmed i = (s.bell i).1.isSome := by
    rw [Scheduler.isArmed, PerSlot.getElem?_eq_value, Option.getD_some]
    rfl
  cases interval? with
  | none => rw [hisArmed, h]; rfl
  | some interval =>
      obtain ⟨id, hid⟩ := h
      rw [hisArmed, hid]
      rfl

/-! ## Arming -/

theorem bell_arm_of_ne (hne : slot ≠ i) (interval : UInt16) (now : Nat) (s : Scheduler) :
    (arm slot interval now s).state.bell i = s.bell i := by
  apply Prod.ext
  · exact PerSlot.value_put_of_ne hne _ _
  · exact ringers_arm hne interval now s

theorem length_arm_le (slot : SlotIndex) (interval : UInt16) (now : Nat) (s : Scheduler) :
    (arm slot interval now s).state.timers.pending.length ≤ s.timers.pending.length + 1 := by
  rw [arm_state, TimerQueue.postEvery]
  rcases TimerQueue.insert_cases (now + interval.toNat) (some (max interval.toNat 1))
    (.enqueue slot) s.timers with ⟨-, h⟩ | ⟨-, hadmits, h⟩
  · rw [h]
    exact Nat.le_succ _
  · rw [h]
    exact Nat.le_of_eq hadmits.length_eq

/-- With room for a timer, a slot that nothing rings for gets one. -/
theorem rungAt_arm (hroom : s.timers.pending.length < TimerQueue.capacity)
    (hsilent : s.bell i = (none, [])) {interval : UInt16} (hinterval : interval ≠ 0) (now : Nat) :
    (arm i interval now s).state.RungAt i now (some interval) := by
  have hperiod : max interval.toNat 1 = interval.toNat :=
    Nat.max_eq_left (Nat.pos_of_ne_zero fun hzero => hinterval (UInt16.toNat_inj.mp hzero))
  have hadmits := TimerQueue.admits_posted hroom (now + interval.toNat) (some interval.toNat)
    (.enqueue i)
  have hinsert : TimerQueue.postEvery now interval.toNat (.enqueue i) s.timers =
      ⟨some s.timers.nextId,
        s.timers.posted (now + interval.toNat) (some interval.toNat) (.enqueue i), []⟩ := by
    rw [TimerQueue.postEvery, hperiod]
    exact TimerQueue.insert_of_room hroom _ _ _
  refine ⟨s.timers.nextId, Prod.ext ?_ ?_⟩
  · rw [arm_state, hinsert]
    exact PerSlot.value_put_self ..
  · rw [arm_state, hinsert]
    have hringers : s.timers.pending.filter (·.task = .enqueue i) = [] := congrArg Prod.snd hsilent
    have hposted := hadmits.perm.filter (·.task = .enqueue i)
    rw [List.filter_cons_of_pos (by simp), hringers] at hposted
    exact List.perm_singleton.mp hposted

theorem bell_armAll_of_not_mem {slots : List SlotIndex} (hnot : i ∉ slots) (p : State) (now : Nat)
    (s : Scheduler) : (armAll p now slots s).state.bell i = s.bell i := by
  induction slots generalizing s with
  | nil => rfl
  | cons slot rest ih =>
      obtain ⟨hne, hrest⟩ : i ≠ slot ∧ i ∉ rest := by simpa using hnot
      rw [armAll_cons]
      cases AdvertProvider.interval? p slot.val with
      | none => exact ih hrest s
      | some interval => exact (ih hrest _).trans (bell_arm_of_ne hne.symm interval now _)

theorem rungAt_armAll {slots : List SlotIndex} (hslots : slots.Nodup)
    (hroom : s.timers.pending.length + slots.length ≤ TimerQueue.capacity)
    (hsilent : ∀ i ∈ slots, s.bell i = (none, [])) (now : Nat) :
    ∀ i ∈ slots, (armAll p now slots s).state.RungAt i now (p.interval? i) := by
  induction slots generalizing s with
  | nil =>
      intro i hi
      cases hi
  | cons slot rest ih =>
      obtain ⟨hslot, hrest⟩ := List.nodup_cons.mp hslots
      rw [List.length_cons] at hroom
      intro i hi
      rw [armAll_cons]
      cases hinterval : p.interval? slot with
      | none =>
          rw [show AdvertProvider.interval? p slot.val = none from hinterval]
          cases List.mem_cons.mp hi with
          | inl heq =>
              subst heq
              rw [hinterval]
              exact (bell_armAll_of_not_mem hslot p now s).trans (hsilent i hi)
          | inr hi => exact ih hrest (by omega) (fun j hj => hsilent j (.tail _ hj)) i hi
      | some interval =>
          rw [show AdvertProvider.interval? p slot.val = some interval from hinterval]
          let queued : Scheduler := { s with queue := s.queue ++ [slot.val] }
          cases List.mem_cons.mp hi with
          | inl heq =>
              subst heq
              rw [hinterval]
              have hnow := rungAt_arm (s := queued) (by change s.timers.pending.length < _; omega)
                (hsilent i hi) (State.ne_zero_of_interval? hinterval) now
              exact hnow.congr (bell_armAll_of_not_mem hslot p now _)
          | inr hi =>
              have hlength := length_arm_le slot interval now queued
              have hroom : (arm slot interval now queued).state.timers.pending.length +
                  rest.length ≤ TimerQueue.capacity := by
                change _ ≤ s.timers.pending.length + 1 at hlength
                omega
              refine ih hrest hroom (fun j hj => ?_) i hi
              have hne : slot ≠ j := fun heq => hslot (heq ▸ hj)
              exact (bell_arm_of_ne hne interval now queued).trans (hsilent j (.tail _ hj))

/-! ## Coming on air -/

theorem bell_manageRadio (now : Nat) (s : Scheduler) (p : State) (i : SlotIndex) :
    (manageRadio now (s, p)).state.1.bell i = s.bell i := by
  rcases manageRadio_cases now s p with ⟨-, radio, h⟩ | ⟨slot, rest, delay, radio, p', -, h⟩
  · rw [h]
    rfl
  · rw [h]
    refine Prod.ext rfl ?_
    change (TimerQueue.insert (now + delay) none .manageRadio s.timers).state.pending.filter _ = _
    rcases TimerQueue.insert_cases (now + delay) none .manageRadio s.timers with
      ⟨-, h⟩ | ⟨-, hadmits, h⟩
    · rw [h]
      rfl
    · rw [h]
      exact hadmits.filter_of_neg (decide_eq_false Task.noConfusion)

/-- A scheduler that starts without timers has one for each slot that is to be broadcast. -/
theorem rungAt_start (hpending : s.disarm.timers.pending = []) (p : State) (now : Nat)
    (i : SlotIndex) : (start now (s, p)).state.1.RungAt i now (p.interval? i) := by
  have hsilent (t : Scheduler) (h : t.agenda = s.disarm.agenda) (j : SlotIndex) :
      t.bell j = (none, []) := by
    have hslots : t.slotTimers = .all none := congrArg Agenda.slotTimers h
    have htimers : t.timers = s.disarm.timers := congrArg Agenda.timers h
    rw [bell, ringers, hslots, htimers, hpending, PerSlot.value_all]
    rfl
  by_cases hloud : ∃ slot : SlotIndex, AdvertProvider.interval? p slot ≠ none
  · obtain ⟨slot, hslot⟩ := hloud
    obtain ⟨quieted, armed, hquieted, rfl, -, hstate⟩ := start_of_interval hslot now s
    have hnone : quieted.timers.pending = [] := by
      rw [show quieted.timers = s.disarm.timers from congrArg Agenda.timers hquieted, hpending]
    have hroom : quieted.timers.pending.length + SlotIndex.all.length ≤ TimerQueue.capacity := by
      rw [hnone]
      decide
    have hall := rungAt_armAll (p := p) (by decide : SlotIndex.all.Nodup) hroom
      (fun j _ => hsilent quieted hquieted j) now i i.mem_all
    rw [hstate]
    refine RungAt.congr (bell_manageRadio now _ p i) ?_
    exact hall
  · have hnone : ∀ slot : SlotIndex, AdvertProvider.interval? p slot = none :=
      fun slot => not_not.mp fun hslot => hloud ⟨slot, hslot⟩
    rw [(start_of_silent hnone now s).2, show p.interval? i = none from hnone i]
    exact hsilent _ rfl i

end Scheduler

namespace Engine

variable {e : Engine}

theorem Quiet.rungAt_enterBeacon (hquiet : e.Quiet) (now : Nat) (i : SlotIndex) :
    (enterBeacon now e).state.scheduler.RungAt i now (e.state.interval? i) := by
  have hrung := Scheduler.rungAt_start hquiet.pending_disarm e.state now i
  simp only [enterBeacon, onAir, Act.bind_apply, Act.within_apply, Done.state_after]
  cases (Scheduler.start now (e.scheduler, e.state)).value with
  | error fault =>
      simp only [Act.bind_apply, Done.state_after, setMode_state]
      exact hrung
  | ok _ =>
      simp only [Act.bind_apply, Done.state_after, setMode_state]
      exact hrung

/-- Whatever rang before, after coming on air it is the slots that are to be broadcast. -/
theorem InPhase.rungAt_startBeacon (hphase : e.InPhase) (now : Nat) (i : SlotIndex) :
    (Engine.startBeacon now e).state.scheduler.RungAt i now (e.state.interval? i) := by
  obtain ⟨calls, heq⟩ := startBeacon_eq now e
  have hrung := hphase.cleared.rungAt_enterBeacon now i
  rw [state_cleared] at hrung
  rw [heq]
  exact hrung

end Engine

end Beacon

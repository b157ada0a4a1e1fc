import Beacon.Proofs.Armed
import Beacon.Proofs.SlotData

/-!
# Slots apart

A central sees one slot at a time, and what it does is confined to that slot: all
that a read or a write changes of the slots it changes of the active one, and the
engine arms no other slot anew.  A write of the active slot chooses another slot,
and changes neither.  Only a factory reset is about all of them.

Timers are told apart by their ids, of which there are only so many.  The timer of
another slot is safe from being cancelled until the ids come round.  From then on
it may share its id with that of the active slot, and if it stands in front of it
in the table it is the one that is cancelled.
-/

namespace Beacon

/-! ## The state -/

namespace State

variable {s t : State} {i : SlotIndex}

/-- Of the slots none but the active one is another than before. -/
def Confined (s t : State) : Prop :=
  ∀ i, s.slots.active ≠ i → t.slots.table.value i = s.slots.table.value i

theorem confined_of_table (h : t.slots.table = s.slots.table) : s.Confined t := by
  intro i hne
  rw [h]

theorem confined_modifyActive {f : Slot → Slot}
    (h : t = { s with slots := s.slots.modifyActive f }) : s.Confined t := by
  intro i hi
  rw [h]
  exact PerSlot.value_put_of_ne hi _ _

theorem confined_rotateIfDue (now : Nat) (s : State) :
    s.Confined (rotateIfDue s.slots.active now s).state := by
  intro i hi
  rcases rotateIfDue_cases s.slots.active now s with
    ⟨notes, h⟩ | ⟨j, tx, old, id, hj, -, -, -, h⟩
  · rw [h]
  · obtain rfl : j = s.slots.active := Fin.ext hj
    rw [h]
    exact (s.value_rotated s.slots.active i tx id now).trans (if_neg hi)

theorem confined_written (content : Content) (now : Nat) (s : State) :
    s.Confined (content.written now s) := by
  cases content with
  | key key exponent =>
      intro i hi
      exact (confined_rotateIfDue now (s.keyed key exponent) i hi).trans
        (value_keyed_of_ne hi key exponent)
  | _ => exact confined_modifyActive rfl

end State

namespace Attribute

variable {s : State} {attr : Attribute} {data : Bytes} {now : Nat}

theorem confined_read (attr : Attribute) (now : Nat) (s : State) :
    s.Confined (attr.read now s).state := by
  obtain ⟨t, lock, rng, cursor, ht, hstate⟩ := read_state attr now s
  rw [hstate]
  cases ht with
  | inl h =>
      subst h
      exact State.confined_of_table rfl
  | inr h =>
      subst h
      exact State.confined_rotateIfDue now s

/-- Everything but the request to go back to what all slots held at first. -/
def Selective (attr : Attribute) (data : Bytes) : Prop :=
  ∀ flag, flag ≠ 0 → ¬(attr = .factoryReset ∧ data = [flag])

theorem confined_writeValue {effect : WriteEffect} (hselective : attr.Selective data)
    (h : (attr.writeValue data now s).value = .ok effect) :
    s.Confined (attr.writeValue data now s).state := by
  cases attr with
  | capabilities => cases h
  | publicEcdhKey => cases h
  | eidIdentityKey => cases h
  | advInterval =>
      change s.Confined (writeInterval data s).state
      unfold writeInterval
      split
      · exact State.confined_modifyActive rfl
      · exact State.confined_of_table rfl
  | radioTxPower =>
      change s.Confined (writeRadioTx data s).state
      unfold writeRadioTx
      split
      · exact State.confined_modifyActive rfl
      · exact State.confined_of_table rfl
  | advTxPower =>
      change s.Confined (writeAdvTx data s).state
      unfold writeAdvTx
      split
      · exact State.confined_modifyActive rfl
      · exact State.confined_of_table rfl
  | advSlotData =>
      obtain ⟨content, hspelled⟩ := spelled_of_writeSlotData h
      have hstate : (writeValue .advSlotData data now s).state = content.written now s :=
        (writeSlotData_of_spelled hspelled now).2
      rw [hstate]
      exact State.confined_written content now s
  | activeSlot =>
      rcases writeActiveSlot_cases data s with ⟨fault, hwrite⟩ | ⟨i, hwrite⟩
      · rw [writeValue, hwrite]
        exact State.confined_of_table rfl
      · rw [writeValue, hwrite]
        exact State.confined_of_table rfl
  | remainConnectable =>
      rcases writeConnectable_cases data s with ⟨fault, hwrite⟩ | ⟨on, hwrite⟩
      · rw [writeValue, hwrite]
        exact State.confined_of_table rfl
      · rw [writeValue, hwrite]
        exact State.confined_of_table rfl
  | lockState =>
      rw [writeValue]
      rcases writeLock_cases data s with ⟨fault, -, hstate⟩ | ⟨lock, -, -, hstate⟩
      · rw [hstate]
        exact State.confined_of_table rfl
      · rw [hstate]
        exact State.confined_of_table rfl
  | unlock =>
      rw [writeValue, writeUnlock_state]
      exact State.confined_of_table rfl
  | factoryReset =>
      rw [writeValue]
      rcases writeReset_cases data s with
        ⟨fault, -, hstate⟩ | ⟨-, -, hstate⟩ | ⟨flag, slots, identity, rng, hdata, hflag, -⟩
      · rw [hstate]
        exact State.confined_of_table rfl
      · rw [hstate]
        exact State.confined_of_table rfl
      · exact absurd ⟨rfl, hdata⟩ (hselective flag hflag)

theorem confined_write (hselective : attr.Selective data) (offset now : Nat) (s : State) :
    s.Confined (attr.write offset data now s).state := by
  cases hwrite : (attr.write offset data now s).value with
  | error fault =>
      rw [write_state_of_error hwrite]
      split
      · exact State.confined_of_table rfl
      · exact State.confined_of_table rfl
  | ok effect =>
      obtain ⟨-, hvalue⟩ := write_of_ok hwrite
      rw [hvalue] at hwrite ⊢
      exact confined_writeValue hselective hwrite

/-- An effect is about the active slot, if it is about a slot. -/
theorem effect_of_selective (hselective : attr.Selective data) {offset : Nat} {effect : WriteEffect}
    (h : (attr.write offset data now s).value = .ok effect) :
    effect = .none ∨ (∃ state, effect = .lock state) ∨
      effect = .intervalChanged s.slots.active ∨ effect = .slotChanged s.slots.active := by
  have houtcome := outcome_write attr offset data now s
  rw [h] at houtcome
  have heffect := houtcome.effect_eq
  cases attr with
  | advInterval => exact .inr (.inr (.inl heffect))
  | advSlotData => exact .inr (.inr (.inr heffect))
  | lockState => exact .inr (.inl ⟨_, heffect⟩)
  | unlock => exact .inr (.inl ⟨_, heffect⟩)
  | factoryReset =>
      obtain ⟨-, hvalue⟩ := write_of_ok h
      rw [hvalue, writeValue] at h
      rcases writeReset_cases data s with
        ⟨fault, hfault, -⟩ | ⟨-, hspared, -⟩ | ⟨flag, slots, identity, rng, hdata, hflag, -⟩
      · cases hfault.symm.trans h
      · cases hspared.symm.trans h
        exact .inl rfl
      · exact absurd ⟨rfl, hdata⟩ (hselective flag hflag)
  | _ => exact .inl heffect

end Attribute

/-! ## The timers -/

theorem TimerQueue.filter_remove {p : Timer → Bool} {id : TimerId} {queue : TimerQueue}
    (h : ∀ t ∈ queue.pending.filter p, t.id ≠ id) :
    (queue.remove id).pending.filter p = queue.pending.filter p := by
  rw [pending_remove]
  generalize queue.pending = pending at h
  induction pending with
  | nil => rfl
  | cons t rest ih =>
      by_cases hid : t.id = id
      · have hother : ¬p t = true := fun hp =>
          h t (List.mem_filter.mpr ⟨List.mem_cons_self, hp⟩) hid
        rw [List.eraseP_cons_of_pos (by simpa using hid), List.filter_cons_of_neg hother]
      · have hrest : ∀ u ∈ rest.filter p, u.id ≠ id := by
          intro u hu
          obtain ⟨hmem, hp⟩ := List.mem_filter.mp hu
          exact h u (List.mem_filter.mpr ⟨List.mem_cons_of_mem t hmem, hp⟩)
        rw [List.eraseP_cons_of_neg (by simpa using hid), List.filter_cons, List.filter_cons,
          ih hrest]

namespace Scheduler

variable {s : Scheduler} {n : Nat} {slot i : SlotIndex}

/-- With ids left, a timer that goes by the id of a handle is that of the handle. -/
theorem Accounts.task_of_handle {rest : List Ticket} (h : s.Accounts rest n) {t : Timer}
    (ht : t ∈ s.timers.pending) (hhandle : s.slotTimers.value slot = some t.id) :
    t.task = .enqueue slot := by
  have hticket : (⟨t.id, .enqueue slot, true⟩ : Ticket) ∈ s.tickets :=
    mem_tickets.mpr (.inl ⟨slot, hhandle, rfl, rfl⟩)
  have hmem := h.matched.mem_iff.mpr (List.mem_append_left rest hticket)
  obtain ⟨u, hu, hsame⟩ := List.mem_map.mp hmem
  have hid : u.id = t.id := congrArg Ticket.id hsame
  obtain rfl : u = t := List.inj_on_of_nodup_map h.issued.nodup hu ht hid
  exact congrArg Ticket.task hsame

theorem ringers_disarmSlot (hdistinct : ∀ t ∈ s.ringers i, s.slotTimers.value slot ≠ some t.id) :
    (s.disarmSlot slot).ringers i = s.ringers i := by
  unfold disarmSlot
  cases hhandle : s.slotTimers.value slot with
  | none => rfl
  | some id =>
      refine TimerQueue.filter_remove fun t ht hid => hdistinct t ht ?_
      rw [hhandle, hid]

theorem ringers_arm (hne : slot ≠ i) (interval : UInt16) (now : Nat) (s : Scheduler) :
    (arm slot interval now s).state.ringers i = s.ringers i := by
  have htask : decide (Task.enqueue slot = .enqueue i) = false := decide_eq_false (enqueue_ne hne)
  rw [arm_state]
  unfold ringers TimerQueue.postEvery
  rcases TimerQueue.insert_cases (now + interval.toNat) (some (max interval.toNat 1))
    (.enqueue slot) s.timers with ⟨-, h⟩ | ⟨-, hadmits, h⟩
  · rw [h]
  · rw [h]
    exact hadmits.filter_of_neg htask

/-- Arming a slot anew cancels no timer of another slot with another id. -/
theorem ringers_rearm (hne : slot ≠ i)
    (hdistinct : s.running = true → ∀ t ∈ s.ringers i, s.slotTimers.value slot ≠ some t.id)
    (p : State) (now : Nat) : (rearm p slot now s).state.ringers i = s.ringers i := by
  unfold rearm
  rw [dif_pos slot.isLt]
  simp only [Act.bind_apply, Act.get_apply, Done.after_nil, Fin.eta]
  cases hrunning : s.running with
  | false => rfl
  | true =>
      have hdisarmed := ringers_disarmSlot (hdistinct hrunning)
      rw [if_pos rfl]
      cases AdvertProvider.interval? p slot.val with
      | none => exact hdisarmed
      | some interval => exact (ringers_arm hne interval now _).trans hdisarmed

end Scheduler

/-! ## The engine -/

namespace Engine

variable {attr : Attribute} {data : Bytes} {now : Nat} {e : Engine}

theorem scheduler_rearm (slot now : Nat) (e : Engine) :
    (rearm slot now e).state.scheduler = e.scheduler ∨
      (rearm slot now e).state.scheduler =
        (Scheduler.rearm e.state slot now e.scheduler).state := by
  simp only [rearm, Act.bind_apply, Act.get_apply, Done.after_nil]
  split
  · exact .inr rfl
  · exact .inl rfl

theorem slots_rearm (slot now : Nat) (e : Engine) :
    (rearm slot now e).state.state.slots = e.state.slots := by
  have hheld := held_rearm slot now e
  exact congrArg (fun x : State × Bool => x.1.slots) hheld

/-- After a write the engine changes no slot, and the scheduler at most arms the active slot anew. -/
theorem writeAttribute_of_selective (hselective : attr.Selective data) (offset now : Nat)
    (e : Engine) :
    (writeAttribute attr offset data now e).state.state.slots =
        (attr.write offset data now e.state).state.slots ∧
      ((writeAttribute attr offset data now e).state.scheduler = e.scheduler ∨
        ∃ p : State, (writeAttribute attr offset data now e).state.scheduler =
          (Scheduler.rearm p e.state.slots.active now e.scheduler).state) := by
  cases hwrite : (attr.write offset data now e.state).value with
  | error fault =>
      rw [(writeAttribute_of_error hwrite).2]
      exact ⟨rfl, .inl rfl⟩
  | ok effect =>
      rw [(writeAttribute_of_ok hwrite).2]
      let e' : Engine :=
        { e with state := (attr.write offset data now e.state).state, paramsDirty := true }
      have hrearmed : (rearm e.state.slots.active now e').state.scheduler = e.scheduler ∨
          ∃ p : State, (rearm e.state.slots.active now e').state.scheduler =
            (Scheduler.rearm p e.state.slots.active now e.scheduler).state :=
        (scheduler_rearm _ now e').imp_right fun h => ⟨e'.state, h⟩
      rcases Attribute.effect_of_selective hselective hwrite with rfl | ⟨state, rfl⟩ | rfl | rfl
      · exact ⟨rfl, .inl rfl⟩
      · exact ⟨rfl, .inl rfl⟩
      · exact ⟨slots_rearm _ now e', hrearmed⟩
      · exact ⟨slots_rearm _ now e', hrearmed⟩

end Engine

/-- A central reads an attribute, or writes one without resetting the beacon. -/
inductive Request.Selective : Request → Prop
  | read (attr : Attribute) (now : Nat) : Selective (.read attr now)
  | write {attr : Attribute} {data : Bytes} (offset now : Nat) :
      attr.Selective data → Selective (.write attr offset data now)

namespace Device

variable {config : Config} {store : Store} {start d : Device} {history : History}

/-- Before the ids come round, no timer of another slot goes by the id of this slot's handle. -/
theorem distinct_of_run (hbooted : Booted config store start) (hrun : Run start history d)
    (hfew : history.posts < UInt32.size) (hrunning : d.1.scheduler.running = true)
    {slot i : SlotIndex} (hne : slot ≠ i) {t : Timer} (ht : t ∈ d.1.scheduler.ringers i) :
    d.1.scheduler.slotTimers.value slot ≠ some t.id := by
  intro hhandle
  have haccounts := (accounts_of_run hbooted hrun hfew).2
  have hphase := (Reachable.of_run (.boot hbooted) hrun).inPhase
  have hslots := (hphase.beaconing_of_running hrunning).accounts haccounts
  obtain ⟨hpending, htask⟩ := List.mem_filter.mp ht
  have hother := hslots.task_of_handle hpending hhandle
  exact Scheduler.enqueue_ne hne (hother.symm.trans (of_decide_eq_true htask))

/-- Whatever a central reads or writes, short of a reset, every slot but the active one stays as it
was, with its handle.  So do the timers that ring for it, as long as no id has been given out
twice. -/
theorem other_slots_stay (hbooted : Booted config store start) (hrun : Run start history d)
    {request : Request} (hselective : request.Selective) {i : SlotIndex}
    (hi : d.1.state.slots.active ≠ i) :
    let after := (serve request d).state
    after.1.state.slots.table.value i = d.1.state.slots.table.value i ∧
      after.1.scheduler.slotTimers.value i = d.1.scheduler.slotTimers.value i ∧
      (history.posts < UInt32.size →
        after.1.scheduler.ringers i = d.1.scheduler.ringers i) := by
  intro after
  cases hselective with
  | read attr now => exact ⟨Attribute.confined_read attr now d.1.state i hi, rfl, fun _ => rfl⟩
  | @write attr data offset now hselective =>
      obtain ⟨hslots, hscheduler⟩ := Engine.writeAttribute_of_selective hselective offset now d.1
      have hslot : after.1.state.slots.table.value i = d.1.state.slots.table.value i :=
        (congrArg (fun slots : Slots => slots.table.value i) hslots).trans
          (Attribute.confined_write hselective offset now d.1.state i hi)
      refine ⟨hslot, ?_⟩
      rcases hscheduler with hkept | ⟨p, hrearmed⟩
      · have hscheduler : after.1.scheduler = d.1.scheduler := hkept
        rw [hscheduler]
        exact ⟨rfl, fun _ => rfl⟩
      · have hscheduler : after.1.scheduler =
            (Scheduler.rearm p d.1.state.slots.active now d.1.scheduler).state := hrearmed
        have hother : d.1.state.slots.active.val ≠ i.val := fun h => hi (Fin.ext h)
        rw [hscheduler]
        refine ⟨(Scheduler.passesBy_rearm hother p now d.1.scheduler).handle, fun hfew => ?_⟩
        apply Scheduler.ringers_rearm hi
        intro hrunning t ht
        exact distinct_of_run hbooted hrun hfew hrunning hi ht

/-- Two slots take turns, and a central chooses the second one. -/
def secondChosen (start : Device) : Device :=
  (serve (.write .activeSlot 0 [1] 50) (serve (.command .startBeacon 0) start).state).state

def toSecondChosen (start : Device) : History :=
  [⟨start, .command .startBeacon 0⟩,
    ⟨(serve (.command .startBeacon 0) start).state, .write .activeSlot 0 [1] 50⟩]

theorem run_secondChosen (start : Device) :
    Run start (toSecondChosen start) (secondChosen start) := by
  have hbeaconing := (Run.start : Run start [] start).serve (.command .startBeacon 0)
  exact hbeaconing.serve (.write .activeSlot 0 [1] 50)

/-- The second slot is armed anew, and the first one is still rung for by the one timer it had. -/
theorem first_slot_stays :
    ∃ start t, Booted paired ⟨.memory none, fun _ _ => none, 0⟩ start ∧
      (secondChosen start).1.scheduler.ringers .first = [t] ∧
      (serve (.write .advInterval 0 [11, 184] 60)
        (secondChosen start)).state.1.scheduler.ringers .first = [t] := by
  obtain ⟨start, hbooted, hchosen⟩ :
      ∃ start, Booted paired ⟨.memory none, fun _ _ => none, 0⟩ start ∧
        ((toSecondChosen start).posts, (secondChosen start).1.state.slots.active,
          ((secondChosen start).1.scheduler.ringers .first).length) = (3, 1, 1) :=
    exists_booted_of_eq (.idle 100 10240 fun _ _ => none) (some (Octets.zero 32)) 0
      (fun start => ((toSecondChosen start).posts, (secondChosen start).1.state.slots.active,
        ((secondChosen start).1.scheduler.ringers .first).length)) (by decide +kernel)
  simp only [Prod.mk.injEq] at hchosen
  obtain ⟨hposts, hactive, hlength⟩ := hchosen
  obtain ⟨t, ht⟩ := List.length_eq_one_iff.mp hlength
  have hfew : (toSecondChosen start).posts < UInt32.size := by
    rw [hposts]
    decide
  have hother : (secondChosen start).1.state.slots.active ≠ .first := by
    rw [hactive]
    decide
  have hselective : Attribute.advInterval.Selective [11, 184] := fun flag hflag h => by cases h.1
  obtain ⟨-, -, hkept⟩ := other_slots_stay hbooted (run_secondChosen start)
    (.write 0 60 hselective) hother
  exact ⟨start, t, hbooted, ht, (hkept hfew).trans ht⟩

end Device

/-! ## Once the ids have come round -/

namespace Scheduler

variable {s : Scheduler} {n : Nat} {t : Timer}

/-- The second slot has the last id that was given out, and some timer stands at the first place. -/
structure Renewed (n : Nat) (t : Timer) (s : Scheduler) : Prop where
  running : s.running = true
  ahead : s.timers.entry TimerQueue.front = some t
  handle : s.slotTimers.value .second = some (.ofNat n)
  next : s.timers.nextId = .ofNat (n + 1)
  waits : s.timers.isPending (.ofNat n)
  few : s.timers.pending.length ≤ 3

/-- Arming the second slot anew takes one more id. -/
theorem Renewed.rearm (h : s.Renewed n t) (hother : t.id ≠ .ofNat n) {p : State}
    {interval : UInt16} (hinterval : p.interval? SlotIndex.second = some interval) (now : Nat) :
    (rearm p SlotIndex.second now s).state.Renewed (n + 1) t := by
  let removed := s.timers.remove (.ofNat n)
  have htimers : (s.disarmSlot .second).timers = removed := by
    rw [disarmSlot, h.handle]
    rfl
  have hnext : removed.nextId = .ofNat (n + 1) := (s.timers.nextId_remove _).trans h.next
  have hfew : removed.pending.length ≤ 2 := by
    obtain ⟨u, hu, hid⟩ := TimerQueue.isPending_iff.mp h.waits
    have hlength := List.length_eraseP_of_mem hu (p := (·.id = .ofNat n)) (decide_eq_true hid)
    rw [← TimerQueue.pending_remove] at hlength
    have := h.few
    change removed.pending.length = _ at hlength
    omega
  have hroom : removed.pending.length < TimerQueue.capacity := Nat.lt_of_le_of_lt hfew (by decide)
  let deadline := now + interval.toNat
  let period := some (max interval.toNat 1)
  have hadmits := TimerQueue.admits_posted hroom deadline period (.enqueue SlotIndex.second)
  have hinsert : TimerQueue.postEvery now interval.toNat (.enqueue SlotIndex.second) removed =
      ⟨some removed.nextId, removed.posted deadline period (.enqueue SlotIndex.second), []⟩ :=
    TimerQueue.insert_of_room hroom _ _ _
  rw [rearm_of_interval (p := p) h.running hinterval, arm_state, htimers, hinsert]
  constructor
  case running => exact h.running
  case ahead => exact TimerQueue.entry_posted (TimerQueue.entry_remove h.ahead hother) _ _ _
  case handle =>
    rw [← hnext]
    exact PerSlot.value_put_self _ _ _
  case next =>
    apply hadmits.next.trans
    rw [hnext]
    apply UInt32.toNat.inj
    simp
  case waits =>
    rw [← hnext]
    exact TimerQueue.isPending_iff.mpr ⟨_, hadmits.mem_iff.mpr (.inl rfl), rfl⟩
  case few =>
    have hlength := hadmits.length_eq
    change (removed.posted deadline period (.enqueue SlotIndex.second)).pending.length ≤ 3
    omega

/-- Where the ids have come round, the second slot is armed anew at the cost of the first one's
timer. -/
theorem Renewed.ringers_ne (h : s.Renewed n t) (hid : t.id = .ofNat n)
    (htask : t.task = .enqueue SlotIndex.first) {p : State} {interval : UInt16}
    (hinterval : p.interval? SlotIndex.second = some interval) (now : Nat) :
    (Scheduler.rearm p SlotIndex.second now s).state.ringers .first ≠ s.ringers .first := by
  have hpending : s.timers.pending = t :: (s.disarmSlot .second).timers.pending := by
    rw [disarmSlot, h.handle, ← hid]
    exact TimerQueue.pending_remove_front h.ahead
  have hbefore : s.ringers .first = t :: (s.disarmSlot .second).ringers .first := by
    rw [ringers, hpending, List.filter_cons_of_pos (by simpa using htask)]
    rfl
  have harmed : (Scheduler.rearm p SlotIndex.second now s).state.ringers .first =
      (s.disarmSlot .second).ringers .first := by
    rw [rearm_of_interval (p := p) h.running hinterval]
    exact ringers_arm (by decide) interval now _
  rw [harmed, hbefore]
  exact (List.cons_ne_self t _).symm

end Scheduler

namespace Engine

variable {e : Engine}

/-- The second slot is chosen, on air, and may be set. -/
structure Settable (e : Engine) : Prop where
  mode : e.mode = .beacon
  unlocked : e.state.lock.isLocked = false
  active : e.state.slots.active = .second
  framed : (e.state.slots.table.value .second).frame.isSome
  limits : (e.state.minInterval, e.state.maxInterval) = (100, 10240)

/-- Setting the second slot to three seconds arms it anew. -/
theorem Settable.set (h : e.Settable) (now : Nat) :
    (writeAttribute .advInterval 0 [11, 184] now e).state.Settable ∧
      ∃ p : State, p.interval? SlotIndex.second = some 3000 ∧
        (writeAttribute .advInterval 0 [11, 184] now e).state.scheduler =
          (Scheduler.rearm p SlotIndex.second now e.scheduler).state := by
  obtain ⟨hmin, hmax⟩ := Prod.mk.inj h.limits
  let p : State :=
    { e.state with slots := e.state.slots.modifyActive fun slot => { slot with interval := 3000 } }
  have hwrite : Attribute.advInterval.write 0 [11, 184] now e.state =
      ⟨.ok (.intervalChanged .second), p, []⟩ := by
    have hwanted : UInt16.ofNat (Bytes.ofBigEndian [11, 184]) = 3000 := by decide
    have hlimited : max e.state.minInterval (min 3000 e.state.maxInterval) = 3000 := by
      rw [hmin, hmax]
      decide
    have hnonzero : (3000 : UInt16) ≠ 0 := by decide
    simp only [Attribute.write, Act.bind_apply, Act.get_apply, Done.after_nil, h.unlocked,
      Bool.false_and, Bool.false_eq_true, if_false, ne_eq, not_true_eq_false, Attribute.writeValue,
      Attribute.writeInterval, List.length_cons, List.length_nil, if_true, Attribute.updateActive,
      Act.modify_apply, h.active, hwanted, hnonzero, hlimited]
    rfl
  have hactive : p.slots.active = .second := h.active
  have hslot : p.slots.table.value .second =
      { e.state.slots.table.value .second with interval := 3000 } := by
    change (e.state.slots.table.put _ _).value .second = _
    rw [h.active, PerSlot.value_put_self]
  have hinterval : p.interval? SlotIndex.second = some 3000 := by
    rw [State.interval?_eq_ite, hslot, if_pos]
    exact Bool.and_eq_true_iff.mpr ⟨h.framed, decide_eq_true (by decide : (3000 : UInt16) ≠ 0)⟩
  have hfollow : (follow (.intervalChanged SlotIndex.second) now
      { e with state := p, paramsDirty := true }).state =
        { e with
          scheduler := (Scheduler.rearm p SlotIndex.second now e.scheduler).state
          state := p
          paramsDirty := true } := by
    simp only [follow, rearm, Act.bind_apply, Act.get_apply, Done.after_nil, h.mode, if_true]
    rfl
  obtain ⟨-, hstate⟩ := writeAttribute_of_ok (e := e) (congrArg Done.value hwrite)
  rw [hwrite] at hstate
  rw [hstate, hfollow]
  refine ⟨⟨h.mode, h.unlocked, hactive, ?_, h.limits⟩, p, hinterval, rfl⟩
  change (p.slots.table.value .second).frame.isSome
  rw [hslot]
  exact h.framed

end Engine

namespace Device

/-- The second slot has been set, and the timer of the first one is the first of all. -/
def hasSecondSet (start : Device) : Bool :=
  let e := (retuned start).1
  let timers := e.scheduler.timers
  e.mode = .beacon && !e.state.lock.isLocked && e.state.slots.active = .second &&
    (e.state.slots.table.value .second).frame.isSome &&
    (e.state.minInterval, e.state.maxInterval) = (100, 10240) && e.scheduler.running &&
    (timers.entry TimerQueue.front).any (fun t => t.id = 0 && t.task = .enqueue SlotIndex.first) &&
    e.scheduler.slotTimers.value .second = some 3 && timers.nextId = 4 && timers.isPending 3 &&
    timers.pending.length = 3

/-- A central may set the second slot over and over until the ids come round. -/
theorem exists_renewed (n : Nat) (hn : n + 3 ≤ UInt32.size) :
    ∃ start history d t, Booted paired ⟨.memory none, fun _ _ => none, 0⟩ start ∧
      Run start history d ∧ t.id = 0 ∧ t.task = .enqueue SlotIndex.first ∧ d.1.Settable ∧
      d.1.scheduler.Renewed (n + 3) t := by
  induction n with
  | zero =>
      obtain ⟨start, hbooted, hset⟩ : ∃ start,
          Booted paired ⟨.memory none, fun _ _ => none, 0⟩ start ∧ hasSecondSet start = true :=
        exists_booted_of_eq (.idle 100 10240 fun _ _ => none) (some (Octets.zero 32)) 0 hasSecondSet
          (by decide +kernel)
      simp only [hasSecondSet, Bool.and_eq_true, decide_eq_true_eq, Bool.not_eq_true'] at hset
      obtain ⟨⟨⟨⟨⟨⟨⟨⟨⟨⟨hmode, hunlocked⟩, hactive⟩, hframe⟩, hlimits⟩, hrunning⟩, hahead⟩, hhandle⟩,
        hnext⟩, hwaits⟩, hlength⟩ := hset
      cases hfront : (retuned start).1.scheduler.timers.entry TimerQueue.front with
      | none =>
          rw [hfront] at hahead
          cases hahead
      | some t =>
          rw [hfront, Option.any_some, Bool.and_eq_true, decide_eq_true_eq, decide_eq_true_eq]
            at hahead
          exact ⟨start, _, _, t, hbooted, run_retuned start, hahead.1, hahead.2,
            ⟨hmode, hunlocked, hactive, hframe, hlimits⟩,
            ⟨hrunning, hfront, hhandle, hnext, hwaits, Nat.le_of_eq hlength⟩⟩
  | succ n ih =>
      obtain ⟨start, history, d, t, hbooted, hrun, hid, htask, hsettable, hrenewed⟩ :=
        ih (Nat.le_of_succ_le hn)
      obtain ⟨hagain, p, hinterval, hrearmed⟩ := hsettable.set 60
      have hother : t.id ≠ .ofNat (n + 3) := by
        intro heq
        have hzero := congrArg UInt32.toNat (hid.symm.trans heq)
        rw [UInt32.toNat_ofNat_of_lt' (by omega)] at hzero
        cases hzero
      refine ⟨start, _, _, t, hbooted, hrun.serve (.write .advInterval 0 [11, 184] 60), hid, htask,
        hagain, ?_⟩
      change (Engine.writeAttribute .advInterval 0 [11, 184] 60 d.1).state.scheduler.Renewed _ t
      rw [hrearmed]
      have hnext := hrenewed.rearm hother hinterval 60
      rwa [Nat.add_right_comm] at hnext

/-- The timer of the second slot comes to have the id of the first one's, which stands in front of
it.  Setting the second slot once more cancels the timer of the first. -/
theorem first_slot_silenced :
    ¬∀ (config : Config) (store : Store) (d : Device) (request : Request) (i : SlotIndex),
      Reachable config store d → request.Selective → d.1.state.slots.active ≠ i →
        (serve request d).state.1.scheduler.ringers i = d.1.scheduler.ringers i := by
  intro hstays
  obtain ⟨start, history, d, t, hbooted, hrun, hid, htask, hsettable, hrenewed⟩ :=
    exists_renewed (UInt32.size - 3) (Nat.le_of_eq rfl)
  obtain ⟨-, p, hinterval, hrearmed⟩ := hsettable.set 60
  have hselective : Attribute.advInterval.Selective [11, 184] := fun flag hflag h => by cases h.1
  have hother : d.1.state.slots.active ≠ .first := by
    rw [hsettable.active]
    decide
  have hkept := hstays _ _ d (.write .advInterval 0 [11, 184] 60) .first
    (.of_run (.boot hbooted) hrun) (.write 0 60 hselective) hother
  change (Engine.writeAttribute .advInterval 0 [11, 184] 60 d.1).state.scheduler.ringers _ = _
    at hkept
  rw [hrearmed] at hkept
  exact hrenewed.ringers_ne hid htask hinterval 60 hkept

end Device

end Beacon

import Beacon.Proofs.Ownership
import Beacon.Proofs.Restart

/-!
# Arming slots

What a slot is to send, and how often, stands in the state; its timer is the
scheduler's.  Most steps of the scheduler pass a slot by: its handle stays, and no
timer is new to it.  A slot that is armed when nothing rings for it agrees with the
state from then on, and a slot that is armed anew is disarmed first.

A write changes what one slot is to send, and its effect names that slot; the other
writes leave all slots alone.
-/

namespace Beacon

theorem Transcript.Dropless.left {a b : Transcript} (h : Dropless (a ++ b)) : a.Dropless := by
  intro task hmem
  exact h task (List.mem_append_left b hmem)

theorem Transcript.Dropless.right {a b : Transcript} (h : Dropless (a ++ b)) : b.Dropless := by
  intro task hmem
  exact h task (List.mem_append_right a hmem)

theorem TimerQueue.mem_popDue {now : Nat} {queue : TimerQueue} {t : Timer}
    (ht : t ∈ (popDue now queue).state.pending) :
    ∃ u ∈ queue.pending, u.task = t.task ∧ u.period = t.period := by
  rcases popDue_cases now queue with ⟨-, h⟩ | ⟨u, timers, hfires, -, -, h⟩
  · rw [h] at ht
    exact ⟨t, ht, rfl, rfl⟩
  · rw [h] at ht
    cases hfires.mem_after ht with
    | inl hagain =>
        exact ⟨u, hfires.mem, (Timer.task_of_again hagain).symm, (Timer.period_of_again hagain).symm⟩
    | inr ht => exact ⟨t, ht, rfl, rfl⟩

/-- A slot that is to be broadcast has an interval. -/
theorem State.ne_zero_of_interval? {s : State} {slot : Nat} {interval : UInt16}
    (h : s.interval? slot = some interval) : interval ≠ 0 := by
  obtain ⟨held, hheld, rfl⟩ := Option.map_eq_some_iff.mp h
  have hbroadcast := (Option.filter_eq_some_iff.mp hheld).2
  simp only [Slot.isBroadcast, Bool.and_eq_true, decide_eq_true_eq] at hbroadcast
  exact hbroadcast.2

theorem State.interval?_eq_ite (s : State) (i : SlotIndex) :
    s.interval? i =
      if (s.slots.table.value i).isBroadcast then some (s.slots.table.value i).interval
      else none := by
  have hslot : s.slots.slot? i = some (s.slots.table.value i) := PerSlot.getElem?_eq_value _ i
  rw [interval?, hslot, Option.filter_some]
  split <;> rfl

/-! ## The scheduler -/

namespace Scheduler

variable {now n : Nat} {s t : Scheduler} {p q : State} {i slot : SlotIndex}

/-- The slot's handle is there if and only if the slot is to be broadcast, and its timers repeat at
its interval. -/
structure ArmedAt (s : Scheduler) (p : State) (i : SlotIndex) : Prop where
  handle : (s.slotTimers.value i).isSome = (p.interval? i).isSome
  period : ∀ x ∈ s.timers.pending, x.task = .enqueue i →
    ∃ interval, p.interval? i = some interval ∧ x.period = some interval.toNat

/-- Nothing rings for the slot. -/
structure Unarmed (s : Scheduler) (i : SlotIndex) : Prop where
  handle : s.slotTimers.value i = none
  timers : ∀ x ∈ s.timers.pending, x.task ≠ .enqueue i

/-- The slot's handle stays, and no timer is new to the slot. -/
structure PassesBy (i : SlotIndex) (s t : Scheduler) : Prop where
  handle : t.slotTimers.value i = s.slotTimers.value i
  timers : ∀ x ∈ t.timers.pending, x.task = .enqueue i →
    ∃ y ∈ s.timers.pending, y.task = x.task ∧ y.period = x.period

theorem Unarmed.armedAt (h : s.Unarmed i) (hnone : p.interval? i = none) : s.ArmedAt p i where
  handle := by
    rw [h.handle, hnone]
    rfl
  period x hx htask := absurd htask (h.timers x hx)

theorem PassesBy.trans {u : Scheduler} (h : PassesBy i s t) (h' : PassesBy i t u) :
    PassesBy i s u where
  handle := h'.handle.trans h.handle
  timers x hx htask := by
    obtain ⟨y, hy, hytask, hyperiod⟩ := h'.timers x hx htask
    obtain ⟨z, hz, hztask, hzperiod⟩ := h.timers y hy (hytask.trans htask)
    exact ⟨z, hz, hztask.trans hytask, hzperiod.trans hyperiod⟩

theorem ArmedAt.passedBy (h : s.ArmedAt p i) (hpasses : PassesBy i s t)
    (hsame : q.interval? i = p.interval? i) : t.ArmedAt q i where
  handle := by rw [hpasses.handle, hsame, h.handle]
  period x hx htask := by
    obtain ⟨y, hy, hytask, hyperiod⟩ := hpasses.timers x hx htask
    rw [hsame, ← hyperiod]
    exact h.period y hy (hytask.trans htask)

theorem Unarmed.passedBy (h : s.Unarmed i) (hpasses : PassesBy i s t) : t.Unarmed i where
  handle := hpasses.handle.trans h.handle
  timers x hx htask := by
    obtain ⟨y, hy, hytask, -⟩ := hpasses.timers x hx htask
    exact h.timers y hy (hytask.trans htask)

theorem passesBy_of_eq (hslots : t.slotTimers = s.slotTimers) (htimers : t.timers = s.timers) :
    PassesBy i s t where
  handle := by rw [hslots]
  timers x hx _ := by
    rw [htimers] at hx
    exact ⟨x, hx, rfl, rfl⟩

theorem passesBy_popDue (now : Nat) (s : Scheduler) (i : SlotIndex) :
    PassesBy i s { s with timers := (TimerQueue.popDue now s.timers).state } where
  handle := rfl
  timers _ hx _ := TimerQueue.mem_popDue hx

/-- A timer that is posted for something else. -/
theorem passesBy_insert {deadline : Nat} {period : Option Nat} {task : Task}
    (htask : task ≠ .enqueue i) (hslots : t.slotTimers.value i = s.slotTimers.value i)
    (htimers : t.timers = (TimerQueue.insert deadline period task s.timers).state) :
    PassesBy i s t where
  handle := hslots
  timers x hx hxtask := by
    rw [htimers] at hx
    rcases TimerQueue.mem_insert hx with hx | ⟨-, -, -, hposted⟩
    · exact ⟨x, hx, rfl, rfl⟩
    · exact absurd (hposted.symm.trans hxtask) htask

theorem passesBy_manageRadio (now : Nat) (s : Scheduler) (p : State) (i : SlotIndex) :
    PassesBy i s (manageRadio now (s, p)).state.1 := by
  rcases manageRadio_cases now s p with ⟨-, radio, h⟩ | ⟨slot, rest, delay, radio, p', -, h⟩
  · rw [h]
    exact passesBy_of_eq rfl rfl
  · rw [h]
    exact passesBy_insert Task.noConfusion rfl rfl

theorem passesBy_offer (slot : Nat) (s : Scheduler) (i : SlotIndex) :
    PassesBy i s (offer slot s).state := by
  obtain ⟨queue, h, -⟩ := offer_cases slot s
  rw [h]
  exact passesBy_of_eq rfl rfl

theorem passesBy_disarmSlot (hne : slot ≠ i) (s : Scheduler) :
    PassesBy i s (s.disarmSlot slot) where
  handle := PerSlot.value_put_of_ne hne none s.slotTimers
  timers x hx _ := ⟨x, (TimerQueue.pending_cancel?_sublist _ _).subset hx, rfl, rfl⟩

theorem enqueue_ne (hne : slot ≠ i) : Task.enqueue slot ≠ .enqueue i := by
  intro heq
  exact hne (Fin.ext (Task.enqueue.inj heq))

theorem passesBy_arm (hne : slot ≠ i) (interval : UInt16) (now : Nat) (s : Scheduler) :
    PassesBy i s (arm slot interval now s).state := by
  apply passesBy_insert (enqueue_ne hne) ?_ rfl
  exact PerSlot.value_put_of_ne hne _ s.slotTimers

theorem passesBy_rearm {slot : Nat} (hne : slot ≠ i.val) (p : State) (now : Nat) (s : Scheduler) :
    PassesBy i s (rearm p slot now s).state := by
  unfold rearm
  split
  next hslot =>
    have hother : (⟨slot, hslot⟩ : SlotIndex) ≠ i := fun heq => hne (congrArg Fin.val heq)
    have hdisarmed := passesBy_disarmSlot hother s
    simp only [Act.bind_apply, Act.get_apply, Done.after_nil]
    cases s.running with
    | false => exact passesBy_of_eq rfl rfl
    | true =>
        rw [if_pos rfl]
        cases AdvertProvider.interval? p slot with
        | none => exact hdisarmed
        | some interval => exact hdisarmed.trans (passesBy_arm hother interval now _)
  next => exact passesBy_of_eq rfl rfl

theorem passesBy_armAll (p : State) (now : Nat) {slots : List SlotIndex} (hnot : i ∉ slots)
    (s : Scheduler) : PassesBy i s (armAll p now slots s).state := by
  induction slots generalizing s with
  | nil => exact passesBy_of_eq rfl rfl
  | cons slot rest ih =>
      obtain ⟨hne, hrest⟩ : i ≠ slot ∧ i ∉ rest := by simpa using hnot
      rw [armAll_cons]
      cases AdvertProvider.interval? p slot.val with
      | none => exact ih hrest s
      | some interval =>
          have hqueued : PassesBy i s { s with queue := s.queue ++ [slot.val] } :=
            passesBy_of_eq rfl rfl
          exact (hqueued.trans (passesBy_arm (Ne.symm hne) interval now _)).trans (ih hrest _)

/-- A slot that is armed when nothing rings for it. -/
theorem Unarmed.armedAt_arm (h : s.Unarmed i) {interval : UInt16}
    (hinterval : p.interval? i = some interval)
    (hdropless : Transcript.Dropless (arm i interval now s).output) :
    (arm i interval now s).state.ArmedAt p i := by
  have hpositive : 0 < interval.toNat :=
    Nat.pos_of_ne_zero fun hzero => State.ne_zero_of_interval? hinterval (UInt16.toNat_inj.mp hzero)
  have hposted : ∃ id,
      (TimerQueue.postEvery now interval.toNat (.enqueue i) s.timers).value = some id := by
    rcases TimerQueue.insert_cases (now + interval.toNat) (some (max interval.toNat 1)) (.enqueue i)
      s.timers with ⟨-, hfull⟩ | ⟨-, -, hroom⟩
    · refine absurd ?_ (hdropless (.enqueue i))
      have houtput : (arm i interval now s).output =
          (TimerQueue.postEvery now interval.toNat (.enqueue i) s.timers).output ++ [] := rfl
      rw [houtput, TimerQueue.postEvery, hfull]
      exact List.mem_cons_self
    · exact ⟨_, congrArg Done.value hroom⟩
  obtain ⟨id, hid⟩ := hposted
  rw [arm_state]
  constructor
  · simp only [PerSlot.value_put_self, hid, hinterval, Option.isSome_some]
  · intro x hx htask
    rcases TimerQueue.mem_insert hx with hx | ⟨-, -, hperiod, -⟩
    · exact absurd htask (h.timers x hx)
    · refine ⟨interval, hinterval, ?_⟩
      rw [hperiod, Nat.max_eq_left hpositive]

/-- No timer is left for a slot that has been disarmed. -/
theorem Accounts.unarmed_disarmSlot (h : s.Accounts [] n) (i : SlotIndex) :
    (s.disarmSlot i).Unarmed i := by
  have hhandle : (s.disarmSlot i).slotTimers.value i = none := PerSlot.value_put_self i none _
  refine ⟨hhandle, fun x hx htask => ?_⟩
  have hmatched := (h.disarmSlot i).matched
  rw [List.append_nil] at hmatched
  have hticket := hmatched.mem_iff.mp (List.mem_map_of_mem hx)
  rcases mem_tickets.mp hticket with ⟨j, hj, hjtask, -⟩ | ⟨-, hmanager, -⟩
  · have hsame : i = j := Fin.ext (Task.enqueue.inj (htask.symm.trans hjtask))
    rw [← hsame, hhandle] at hj
    cases hj
  · cases htask.symm.trans hmanager

/-- A slot that is armed anew agrees with the state, whatever it was before. -/
theorem Accounts.armedAt_rearm (h : s.Accounts [] n) (hrunning : s.running = true) {slot : Nat}
    (hothers : ∀ i : SlotIndex, slot ≠ i.val → s.ArmedAt p i)
    (hdropless : Transcript.Dropless (Scheduler.rearm p slot now s).output) (i : SlotIndex) :
    (Scheduler.rearm p slot now s).state.ArmedAt p i := by
  by_cases hslot : slot = i.val
  · subst hslot
    have hunarmed := h.unarmed_disarmSlot i
    revert hdropless
    simp only [Scheduler.rearm, i.isLt, dif_pos, Act.bind_apply, Act.get_apply, Done.after_nil,
      hrunning, if_pos]
    cases hinterval : AdvertProvider.interval? p i.val with
    | none => exact fun _ => hunarmed.armedAt hinterval
    | some interval => exact fun hdropless => hunarmed.armedAt_arm hinterval hdropless.right.left
  · exact (hothers i hslot).passedBy (passesBy_rearm hslot p now s) rfl

/-- Every slot is armed if it is to be broadcast. -/
theorem armedAt_armAll {slots : List SlotIndex} (hslots : slots.Nodup)
    (hunarmed : ∀ i ∈ slots, s.Unarmed i)
    (hdropless : Transcript.Dropless (armAll p now slots s).output) :
    ∀ i ∈ slots, (armAll p now slots s).state.ArmedAt p i := by
  induction slots generalizing s with
  | nil =>
      intro i hi
      cases hi
  | cons slot rest ih =>
      obtain ⟨hslot, hrest⟩ := List.nodup_cons.mp hslots
      intro i hi
      rw [armAll] at hdropless
      rw [armAll_cons]
      cases hinterval : AdvertProvider.interval? p slot.val with
      | none =>
          rw [hinterval] at hdropless
          cases List.mem_cons.mp hi with
          | inl heq =>
              subst heq
              have hnow := (hunarmed i hi).armedAt hinterval
              exact hnow.passedBy (passesBy_armAll p now hslot s) rfl
          | inr hi => exact ih hrest (fun j hj => hunarmed j (.tail _ hj)) hdropless i hi
      | some interval =>
          rw [hinterval] at hdropless
          let queued : Scheduler := { s with queue := s.queue ++ [slot.val] }
          have hqueued (j : SlotIndex) : PassesBy j s queued := passesBy_of_eq rfl rfl
          cases List.mem_cons.mp hi with
          | inl heq =>
              subst heq
              have hnow := ((hunarmed i hi).passedBy (hqueued i)).armedAt_arm hinterval
                hdropless.right.left
              exact hnow.passedBy (passesBy_armAll p now hslot _) rfl
          | inr hi =>
              refine ih hrest (fun j hj => ?_) hdropless.right.right.right i hi
              have hne : slot ≠ j := fun heq => hslot (heq ▸ hj)
              exact (hunarmed j (.tail _ hj)).passedBy
                ((hqueued j).trans (passesBy_arm hne interval now queued))

end Scheduler

/-! ## What a write leaves alone -/

/-- The effect is not about the slot. -/
def WriteEffect.Spares (i : SlotIndex) : WriteEffect → Prop
  | .none => True
  | .intervalChanged slot => slot ≠ i
  | .slotChanged slot => slot ≠ i
  | .lock _ => True
  | .factoryReset => False

namespace Attribute

variable {α : Type} {s : State} {i : SlotIndex}

theorem interval?_modifyActive_of_ne (f : Slot → Slot) (hi : s.slots.active ≠ i) :
    { s with slots := s.slots.modifyActive f }.interval? i = s.interval? i := by
  simp only [State.interval?_eq_ite, Slots.modifyActive, Slots.modify, PerSlot.value_put_of_ne hi]

/-- Power does not bear on what a slot is to send. -/
theorem interval?_modifyActive_of_keeps {f : Slot → Slot}
    (hbroadcast : ∀ slot, (f slot).isBroadcast = slot.isBroadcast)
    (hinterval : ∀ slot, (f slot).interval = slot.interval) (i : SlotIndex) :
    { s with slots := s.slots.modifyActive f }.interval? i = s.interval? i := by
  by_cases hi : s.slots.active = i
  · simp only [State.interval?_eq_ite, Slots.modifyActive, Slots.modify, hi, PerSlot.value_put_self,
      hbroadcast, hinterval]
  · exact interval?_modifyActive_of_ne f hi

theorem isBroadcast_setAdvTx (tx : Int8) (slot : Slot) :
    (slot.setAdvTx tx).isBroadcast = slot.isBroadcast := by
  simp only [Slot.isBroadcast, Slot.setAdvTx, Option.isSome_map]
  rfl

theorem EditsActive.interval?_eq {a : α} {done : Done State (Except Fault α)}
    (h : EditsActive a s done) (hi : s.slots.active ≠ i) :
    done.state.interval? i = s.interval? i := by
  rcases h with ⟨fault, -, hstate⟩ | ⟨f, -, -, hsetup⟩
  · rw [hstate]
  · rw [State.interval?_eq_of_setup_eq hsetup, interval?_modifyActive_of_ne f hi]

theorem EditsActive.value_eq {a b : α} {done : Done State (Except Fault α)}
    (h : EditsActive a s done) (hvalue : done.value = .ok b) : a = b := by
  rcases h with ⟨fault, hfault, -⟩ | ⟨f, hok, -, -⟩
  · cases hfault.symm.trans hvalue
  · cases hok.symm.trans hvalue
    rfl

theorem interval?_writeRadioTx (data : Bytes) (s : State) (i : SlotIndex) :
    (writeRadioTx data s).state.interval? i = s.interval? i := by
  unfold writeRadioTx
  split
  next raw =>
    let level := powerIndex s.radioLevels raw.toInt8
    let f (slot : Slot) : Slot :=
      { slot with radioTx := s.radioLevels.get level }.setAdvTx (s.advLevels.get level)
    have hbroadcast (slot : Slot) : (f slot).isBroadcast = slot.isBroadcast :=
      isBroadcast_setAdvTx _ _
    exact interval?_modifyActive_of_keeps hbroadcast (fun _ => rfl) i
  next => rfl

theorem interval?_writeAdvTx (data : Bytes) (s : State) (i : SlotIndex) :
    (writeAdvTx data s).state.interval? i = s.interval? i := by
  unfold writeAdvTx
  split
  next raw =>
    exact interval?_modifyActive_of_keeps (isBroadcast_setAdvTx _) (fun _ => rfl) i
  next => rfl

/-- What a slot is to send, and how often, changes by a write whose effect is about that slot, and
by no other. -/
theorem interval?_writeValue {attr : Attribute} {data : Bytes} {now : Nat} {effect : WriteEffect}
    (h : (attr.writeValue data now s).value = .ok effect) (hspares : effect.Spares i) :
    (attr.writeValue data now s).state.interval? i = s.interval? i := by
  cases attr with
  | capabilities => rfl
  | publicEcdhKey => rfl
  | eidIdentityKey => rfl
  | radioTxPower => exact interval?_writeRadioTx data s i
  | advTxPower => exact interval?_writeAdvTx data s i
  | advInterval =>
      have hedits := editsActive_writeInterval data s
      rw [← hedits.value_eq h] at hspares
      exact hedits.interval?_eq hspares
  | advSlotData =>
      have hedits := editsActive_writeSlotData data now s
      rw [← hedits.value_eq h] at hspares
      exact hedits.interval?_eq hspares
  | activeSlot =>
      rw [writeValue]
      rcases writeActiveSlot_cases data s with ⟨fault, hwrite⟩ | ⟨j, hwrite⟩
      · rw [hwrite]
      · rw [hwrite]
        rfl
  | remainConnectable =>
      rw [writeValue]
      rcases writeConnectable_cases data s with ⟨fault, hwrite⟩ | ⟨on, hwrite⟩
      · rw [hwrite]
      · rw [hwrite]
        rfl
  | lockState =>
      rw [writeValue]
      rcases writeLock_cases data s with ⟨fault, -, hstate⟩ | ⟨lock, -, -, hstate⟩
      · rw [hstate]
      · rw [hstate]
        rfl
  | unlock =>
      rw [writeValue, writeUnlock_state]
      rfl
  | factoryReset =>
      rcases writeReset_cases data s with
        ⟨fault, -, hstate⟩ | ⟨-, -, hstate⟩ | ⟨flag, slots, identity, rng, -, -, -, hvalue, -⟩
      · rw [writeValue, hstate]
      · rw [writeValue, hstate]
      · rw [writeValue, hvalue] at h
        cases h
        exact absurd hspares id

theorem interval?_write {attr : Attribute} {offset : Nat} {data : Bytes} {now : Nat}
    {effect : WriteEffect} (h : (attr.write offset data now s).value = .ok effect)
    (hspares : effect.Spares i) :
    (attr.write offset data now s).state.interval? i = s.interval? i := by
  obtain ⟨-, hwrite⟩ := write_of_ok h
  rw [hwrite] at h ⊢
  exact interval?_writeValue h hspares

theorem interval?_write_of_error {attr : Attribute} {offset : Nat} {data : Bytes} {now : Nat}
    {fault : Fault} (h : (attr.write offset data now s).value = .error fault) (i : SlotIndex) :
    (attr.write offset data now s).state.interval? i = s.interval? i := by
  have houtcome := outcome_write attr offset data now s
  rw [h] at houtcome
  rcases houtcome.state_of_error with hstate | ⟨-, -, hstate⟩
  · rw [hstate]
  · rw [hstate]
    rfl

end Attribute

end Beacon

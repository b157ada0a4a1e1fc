import Beacon.Proofs.Actions
import Beacon.Proofs.TimerQueue
import Beacon.Scheduler

/-!
# Steps of the scheduler

What each step of the scheduler can do to its timers, its queue and its handles,
each said once, with the radio and the provider of adverts left open.

The timers of a scheduler on air are exactly those that its handles name.  Ids
are compared as a multiset: a number that comes up again after the counter has
gone round does no harm.
-/

namespace Beacon

namespace Radio

/-- Why the call would be refused, as the one decided after `n` others. -/
def refusal? (radio : Radio) (n : Nat) (call : RadioCall) : Option RadioFault :=
  if oversized call then some .payloadTooLong else radio.verdict n call

theorem refusal?_congr {radio other : Radio} (h : radio.verdict = other.verdict) (n : Nat)
    (call : RadioCall) : radio.refusal? n call = other.refusal? n call := by
  rw [refusal?, refusal?, h]

theorem ask_of_refusal {radio : Radio} {call : RadioCall} {fault : RadioFault}
    (h : radio.refusal? radio.decided call = some fault) :
    ask call radio =
      ⟨.error fault, { radio with decided := radio.decided + 1 }, [.radio call (some fault)]⟩ := by
  unfold refusal? at h
  simp only [ask, Act.bind_apply, Act.get_apply, Done.after_nil, Act.put_apply, Act.set_apply, h]
  rfl

theorem ask_of_no_refusal {radio : Radio} {call : RadioCall}
    (h : radio.refusal? radio.decided call = none) :
    ask call radio =
      ⟨.ok (), apply call { radio with decided := radio.decided + 1 }, [.radio call none]⟩ := by
  unfold refusal? at h
  simp only [ask, Act.bind_apply, Act.get_apply, Done.after_nil, Act.put_apply, Act.set_apply, h]
  rfl

theorem tell_apply (call : RadioCall) (radio : Radio) :
    tell call radio = ⟨(), apply call radio, [.radio call none]⟩ := rfl

theorem verdict_apply (call : RadioCall) (radio : Radio) :
    (apply call radio).verdict = radio.verdict := by
  cases call <;> rfl

theorem decided_apply (call : RadioCall) (radio : Radio) :
    (apply call radio).decided = radio.decided := by
  cases call <;> rfl

theorem verdict_ask (call : RadioCall) (radio : Radio) :
    (ask call radio).state.verdict = radio.verdict := by
  cases h : radio.refusal? radio.decided call with
  | none => rw [ask_of_no_refusal h, verdict_apply]
  | some fault => rw [ask_of_refusal h]

theorem decided_ask (call : RadioCall) (radio : Radio) :
    (ask call radio).state.decided = radio.decided + 1 := by
  cases h : radio.refusal? radio.decided call with
  | none => rw [ask_of_no_refusal h, decided_apply]
  | some fault => rw [ask_of_refusal h]

theorem verdict_quiet : Act.Keeps verdict quiet := by
  intro radio
  simp only [quiet, Act.bind_apply, Act.get_apply, Done.after_nil]
  split <;> rfl

theorem decided_quiet : Act.Keeps decided quiet := by
  intro radio
  simp only [quiet, Act.bind_apply, Act.get_apply, Done.after_nil]
  split <;> rfl

end Radio

/-- A scheduler but for its radio. -/
structure Agenda where
  timers : TimerQueue
  queue : List Nat
  slotTimers : PerSlot (Option TimerId)
  manager : Option TimerId
  running : Bool

namespace Scheduler

variable {π α β : Type}

def agenda (s : Scheduler) : Agenda :=
  ⟨s.timers, s.queue, s.slotTimers, s.manager, s.running⟩

theorem eq_of_agenda {s t : Scheduler} (h : t.agenda = s.agenda) :
    t = { s with radio := t.radio } := by
  obtain ⟨radio, timers, queue, slotTimers, manager, running⟩ := t
  simp only [agenda, Agenda.mk.injEq] at h
  obtain ⟨rfl, rfl, rfl, rfl, rfl⟩ := h
  rfl

/-! ## What a step does -/

theorem agenda_onRadio (action : Act Radio α) : Act.Keeps agenda (onRadio action) := fun _ => rfl

theorem agenda_changeAddress (newAddress : Option (Octets 6)) :
    Act.Keeps agenda (changeAddress newAddress) := by
  cases newAddress with
  | none => exact fun _ => rfl
  | some address =>
      refine (agenda_onRadio _).bind fun answer => ?_
      cases answer <;> exact fun _ => rfl

theorem stop_state (s : Scheduler) :
    (stop s).state = { s.disarm with radio := (Radio.quiet s.radio).state } := rfl

section Provider

variable [AdvertProvider π]

theorem agenda_transmit (slot : Nat) (advert : PreparedAdvert) :
    Act.Keeps (fun x : Scheduler × π => x.1.agenda) (transmit slot advert) := by
  refine Act.Keeps.bind (fun x => agenda_changeAddress _ x.1) fun _ => ?_
  refine Act.Keeps.bind (fun x => agenda_onRadio _ x.1) fun _ => ?_
  refine Act.Keeps.bind (fun x => agenda_onRadio _ x.1) fun _ => ?_
  refine Act.Keeps.bind (fun x => agenda_onRadio _ x.1) fun answer => ?_
  cases answer <;> exact fun _ => rfl

theorem agenda_broadcast (slot now : Nat) :
    Act.Keeps (fun x : Scheduler × π => x.1.agenda) (broadcast slot now) := by
  refine Act.Keeps.bind (fun _ => rfl) fun advert => ?_
  cases advert with
  | none => exact fun _ => rfl
  | some advert => exact agenda_transmit slot advert

/-- The radio manager has nothing to do any more, or it takes the next slot from the queue and
posts itself again. -/
theorem manageRadio_cases (now : Nat) (s : Scheduler) (p : π) :
    (s.queue = [] ∧
        ∃ radio, (manageRadio now (s, p)).state = ({ s with radio, manager := none }, p)) ∨
      ∃ slot rest delay radio p', s.queue = slot :: rest ∧
        (manageRadio now (s, p)).state =
          ({ s with
              radio, queue := rest
              timers := (TimerQueue.postIn now delay .manageRadio s.timers).state
              manager := (TimerQueue.postIn now delay .manageRadio s.timers).value }, p') := by
  obtain ⟨radio, timers, queue, slotTimers, manager, running⟩ := s
  cases queue with
  | nil => exact .inl ⟨rfl, (Radio.quiet radio).state, rfl⟩
  | cons slot rest =>
      let quieted : Scheduler := ⟨(Radio.quiet radio).state, timers, rest, slotTimers, none, running⟩
      let sent : Scheduler × π := (broadcast slot now (quieted, p)).state
      have hsent : sent.1 = { quieted with radio := sent.1.radio } :=
        eq_of_agenda (agenda_broadcast slot now (quieted, p))
      have htimers : sent.1.timers = timers := congrArg Scheduler.timers hsent
      refine .inr ⟨slot, rest, sent.1.radio.minInterval.toNat, sent.1.radio, sent.2, rfl, ?_⟩
      calc
        (manageRadio now (⟨radio, timers, slot :: rest, slotTimers, manager, running⟩, p)).state =
            ({ sent.1 with
                timers := (TimerQueue.postIn now sent.1.radio.minInterval.toNat .manageRadio
                  sent.1.timers).state
                manager := (TimerQueue.postIn now sent.1.radio.minInterval.toNat .manageRadio
                  sent.1.timers).value }, sent.2) := rfl
        _ = _ := by
          rw [htimers, hsent]

theorem running_manageRadio (now : Nat) (s : Scheduler) (p : π) :
    (manageRadio now (s, p)).state.1.running = s.running := by
  rcases manageRadio_cases now s p with ⟨-, radio, h⟩ | ⟨slot, rest, delay, radio, p', -, h⟩ <;>
    rw [h]

theorem offer_cases (slot : Nat) (s : Scheduler) :
    ∃ queue, (offer slot s).state = { s with queue } ∧ queue.length ≤ s.queue.length + 1 := by
  simp only [offer, Act.bind_apply, Act.get_apply, Done.after_nil]
  split
  next => exact ⟨s.queue, rfl, Nat.le_succ _⟩
  next =>
    split
    next => exact ⟨s.queue ++ [slot], rfl, by simp⟩
    next => exact ⟨s.queue, rfl, Nat.le_succ _⟩

/-- The slot waits, or the free radio manager takes over at once. -/
theorem enqueue_cases (slot now : Nat) (s : Scheduler) (p : π) :
    ∃ queue, queue.length ≤ s.queue.length + 1 ∧
      ((enqueue slot now (s, p)).state = ({ s with queue }, p) ∨
        s.manager = none ∧
          (enqueue slot now (s, p)).state = (manageRadio now ({ s with queue }, p)).state) := by
  obtain ⟨queue, hoffer, hlength⟩ := offer_cases slot s
  refine ⟨queue, hlength, ?_⟩
  unfold enqueue
  simp only [Act.bind_apply, Act.onFst_apply, Act.get_apply, Done.state_after, hoffer]
  cases hmanager : s.manager with
  | none =>
      rw [if_pos Option.isNone_none]
      exact .inr ⟨rfl, rfl⟩
  | some id => exact .inl rfl

theorem running_enqueue (slot now : Nat) (s : Scheduler) (p : π) :
    (enqueue slot now (s, p)).state.1.running = s.running := by
  obtain ⟨queue, -, h | ⟨-, h⟩⟩ := enqueue_cases slot now s p
  · rw [h]
  · rw [h, running_manageRadio]

theorem arm_state (slot : SlotIndex) (interval : UInt16) (now : Nat) (s : Scheduler) :
    (arm slot interval now s).state =
      { s with
        timers := (TimerQueue.postEvery now interval.toNat (.enqueue slot) s.timers).state
        slotTimers := s.slotTimers.put slot
          (TimerQueue.postEvery now interval.toNat (.enqueue slot) s.timers).value } := rfl

/-- The slot's timer is gone. -/
def disarmSlot (slot : SlotIndex) (s : Scheduler) : Scheduler :=
  { s with
    timers := s.timers.cancel? (s.slotTimers.value slot)
    slotTimers := s.slotTimers.put slot none }

theorem rearm_cases (p : π) (slot now : Nat) (s : Scheduler) :
    (rearm p slot now s).state = s ∨
      ∃ i : SlotIndex, s.running = true ∧
        ((rearm p slot now s).state = s.disarmSlot i ∨
          ∃ interval, (rearm p slot now s).state = (arm i interval now (s.disarmSlot i)).state) := by
  unfold rearm
  split
  next hslot =>
    simp only [Act.bind_apply, Act.get_apply, Done.after_nil]
    cases hrunning : s.running with
    | false => exact .inl rfl
    | true =>
        refine .inr ⟨⟨slot, hslot⟩, rfl, ?_⟩
        rw [if_pos rfl]
        cases AdvertProvider.interval? p slot with
        | none => exact .inl rfl
        | some interval => exact .inr ⟨interval, rfl⟩
  next => exact .inl rfl

/-- On air a slot that is to be broadcast gets another timer for the one it had. -/
theorem rearm_of_interval {p : π} {s : Scheduler} {slot : SlotIndex} {interval : UInt16}
    (hrunning : s.running = true) (hinterval : AdvertProvider.interval? p slot.val = some interval)
    (now : Nat) : (rearm p slot now s).state = (arm slot interval now (s.disarmSlot slot)).state := by
  unfold rearm
  rw [dif_pos slot.isLt]
  simp only [Act.bind_apply, Act.get_apply, Done.after_nil, Fin.eta, if_pos hrunning, hinterval]
  rfl

theorem armAll_cons (p : π) (now : Nat) (slot : SlotIndex) (rest : List SlotIndex)
    (s : Scheduler) :
    (armAll p now (slot :: rest) s).state =
      match AdvertProvider.interval? p slot.val with
      | none => (armAll p now rest s).state
      | some interval =>
        (armAll p now rest
          (arm slot interval now { s with queue := s.queue ++ [slot.val] }).state).state := by
  rw [armAll]
  cases AdvertProvider.interval? p slot.val <;> rfl

theorem running_rearm (p : π) (slot now : Nat) (s : Scheduler) :
    (rearm p slot now s).state.running = s.running := by
  rcases rearm_cases p slot now s with h | ⟨i, -, h | ⟨interval, h⟩⟩ <;> rw [h]
  · rfl
  · rfl

theorem start_of_silent {p : π}
    (hsilent : ∀ slot : SlotIndex, AdvertProvider.interval? p slot = none)
    (now : Nat) (s : Scheduler) :
    (start now (s, p)).value = .error .invalidInterval ∧
      (start now (s, p)).state = ((stop s).state, p) := by
  have hall :
      (SlotIndex.all.all fun slot => (AdvertProvider.interval? p slot.val).isNone) = true := by
    simp [hsilent]
  simp only [start, Act.bind_apply, Act.onFst_apply, Act.get_apply, Done.after_nil, hall, if_true]
  exact ⟨rfl, rfl⟩

/-- Otherwise each slot is armed and the radio manager takes the first of them. -/
theorem start_of_interval {p : π} {slot : SlotIndex}
    (hslot : AdvertProvider.interval? p slot ≠ none) (now : Nat) (s : Scheduler) :
    ∃ quieted armed : Scheduler,
      quieted.agenda = s.disarm.agenda ∧ armed = (armAll p now SlotIndex.all quieted).state ∧
      (start now (s, p)).value = .ok () ∧
      (start now (s, p)).state = (manageRadio now ({ armed with running := true }, p)).state := by
  have hall :
      (SlotIndex.all.all fun slot => (AdvertProvider.interval? p slot.val).isNone) = false := by
    rw [Bool.eq_false_iff]
    intro hsilent
    have hnone := List.all_eq_true.mp hsilent slot slot.mem_all
    exact hslot (Option.isNone_iff_eq_none.mp hnone)
  let told := Radio.tell (.interval (stop s).state.radio.minInterval)
  let quieted := (onRadio told (stop s).state).state
  refine ⟨quieted, (armAll p now SlotIndex.all quieted).state, rfl, rfl, ?_⟩
  simp only [start, Act.bind_apply, Act.onFst_apply, Act.get_apply, Done.after_nil, hall]
  exact ⟨rfl, rfl⟩

end Provider

end Scheduler

end Beacon

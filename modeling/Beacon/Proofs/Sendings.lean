import Beacon.Proofs.Moments
import Beacon.Proofs.SchedulerSteps

/-!
# The turn of a slot

A slot that has its turn and something to send first has the device address
changed if a new one waits, then the power and the connectable flag set, and then
its payload started.  The radio manager reports how that went.  A slot with
nothing to send is silent.
-/

namespace Beacon

variable {now : Nat}

/-- What a turn asked of the device address: the new one, and why it was refused if it was. -/
abbrev Addressing := Option (Octets 6 × Option RadioFault)

def Addressing.outputs : Addressing → Transcript
  | none => []
  | some (address, none) => [.radio (.address address) none]
  | some (address, some fault) =>
    [.radio (.address address) (some fault), .notice (.addressRefused fault)]

/-- The report on a payload that the radio took or refused. -/
def Notice.onStart (slot : Nat) : Option RadioFault → Notice
  | none => .slotOnAir slot
  | some fault => .slotRefused slot fault

/-- What sending an advert puts out once the address is settled. -/
def PreparedAdvert.outputs (advert : PreparedAdvert) (slot : Nat) (fault : Option RadioFault) :
    Transcript :=
  [.radio (.txPower advert.radioTx) none, .radio (.connectable advert.connectable) none,
    .radio (.start advert.payload) fault, .notice (.onStart slot fault)]

namespace Radio

theorem ask_output (call : RadioCall) (radio : Radio) :
    (ask call radio).output = [.radio call (radio.refusal? radio.decided call)] := by
  cases h : radio.refusal? radio.decided call with
  | none => rw [ask_of_no_refusal h]
  | some fault => rw [ask_of_refusal h]

end Radio

namespace State

/-- An advert carries what the slot and the state hold, and takes the waiting address with it. -/
theorem prepare_eq_of_some {slot now : Nat} {s : State} {advert : PreparedAdvert}
    (h : (State.prepare slot now s).value = some advert) :
    ∃ frame held, (liveFrame slot now s).value = some frame ∧
      Advert.ofFrame frame = .ok advert.payload ∧
      (liveFrame slot now s).state.slots.slot? slot = some held ∧
      advert.radioTx = held.radioTx ∧
      advert.connectable = (liveFrame slot now s).state.remainConnectable ∧
      advert.newAddress = (liveFrame slot now s).state.pendingAddress ∧
      (State.prepare slot now s).state =
        { (liveFrame slot now s).state with pendingAddress := none } := by
  obtain ⟨frame, hlive, hpayload⟩ := prepare_of_some h
  simp only [State.prepare, Act.bind_apply, Done.value_after, Done.state_after, hlive, hpayload,
    Act.get_apply, Done.after_nil] at h ⊢
  cases hslot : (liveFrame slot now s).state.slots.slot? slot with
  | none => simp [hslot] at h
  | some held =>
      simp only [hslot, Act.bind_apply, Act.set_apply, Act.pure_apply, Done.after_nil,
        Option.some.injEq] at h ⊢
      rw [← h]
      exact ⟨frame, held, rfl, hpayload, rfl, rfl, rfl, rfl, trivial⟩

theorem prepare_state_of_none {slot now : Nat} {s : State}
    (h : (State.prepare slot now s).value = none) :
    (State.prepare slot now s).state = (liveFrame slot now s).state := by
  simp only [State.prepare, Act.bind_apply, Done.value_after, Done.state_after] at h ⊢
  cases hlive : (liveFrame slot now s).value with
  | none => rfl
  | some frame =>
      simp only [hlive] at h ⊢
      cases hpayload : Advert.ofFrame frame with
      | error fault => rfl
      | ok payload =>
          simp only [hpayload, Act.bind_apply, Act.get_apply, Done.after_nil] at h ⊢
          cases hslot : (liveFrame slot now s).state.slots.slot? slot with
          | none => rfl
          | some held => simp [hslot] at h

end State

namespace Scheduler

theorem changeAddress_output (newAddress : Option (Octets 6)) (s : Scheduler) :
    ∃ addressing : Addressing, addressing.map Prod.fst = newAddress ∧
      (changeAddress newAddress s).output = addressing.outputs := by
  cases newAddress with
  | none => exact ⟨none, rfl, rfl⟩
  | some address =>
      cases h : s.radio.refusal? s.radio.decided (.address address) with
      | none =>
          refine ⟨some (address, none), rfl, ?_⟩
          simp only [changeAddress, onRadio, Act.bind_apply, Act.within_apply,
            Radio.ask_of_no_refusal h]
          rfl
      | some fault =>
          refine ⟨some (address, some fault), rfl, ?_⟩
          simp only [changeAddress, onRadio, Act.bind_apply, Act.within_apply,
            Radio.ask_of_refusal h]
          rfl

theorem transmit_output (slot : Nat) (advert : PreparedAdvert) (x : Scheduler × State) :
    ∃ (addressing : Addressing) (fault : Option RadioFault),
      addressing.map Prod.fst = advert.newAddress ∧
      (transmit slot advert x).output = addressing.outputs ++ advert.outputs slot fault ∧
      (transmit slot advert x).state.2 = if fault.isSome then x.2 else x.2.countAdvert := by
  obtain ⟨addressing, haddress, hchange⟩ := changeAddress_output advert.newAddress x.1
  let told := Radio.apply (.connectable advert.connectable)
    (Radio.apply (.txPower advert.radioTx) (changeAddress advert.newAddress x.1).state.radio)
  refine ⟨addressing, told.refusal? told.decided (.start advert.payload), haddress, ?_⟩
  simp only [transmit, onRadio, Act.bind_apply, Act.onFst_apply, Act.within_apply, Radio.tell_apply,
    Done.output_after, Done.state_after, hchange]
  cases h : told.refusal? told.decided (.start advert.payload) with
  | none =>
      rw [Radio.ask_of_no_refusal h]
      exact ⟨rfl, rfl⟩
  | some fault =>
      rw [Radio.ask_of_refusal h]
      exact ⟨rfl, rfl⟩

/-- A slot with nothing to send is silent. -/
theorem broadcast_of_none {slot now : Nat} {x : Scheduler × State}
    (h : (State.prepare slot now x.2).value = none) :
    (broadcast slot now x).output =
        (State.prepare slot now x.2).output ++ [.notice (.slotSilent slot)] ∧
      (broadcast slot now x).state.2 = (State.prepare slot now x.2).state := by
  have hvalue : (AdvertProvider.prepare slot now x.2).value = none := h
  simp only [broadcast, Act.bind_apply, Act.onSnd_apply, hvalue]
  exact ⟨rfl, rfl⟩

theorem broadcast_of_some {slot now : Nat} {x : Scheduler × State} {advert : PreparedAdvert}
    (h : (State.prepare slot now x.2).value = some advert) :
    ∃ (addressing : Addressing) (fault : Option RadioFault),
      addressing.map Prod.fst = advert.newAddress ∧
      (broadcast slot now x).output =
        (State.prepare slot now x.2).output ++
          (addressing.outputs ++ advert.outputs slot fault) ∧
      (broadcast slot now x).state.2 =
        if fault.isSome then (State.prepare slot now x.2).state
        else (State.prepare slot now x.2).state.countAdvert := by
  obtain ⟨addressing, fault, haddress, houtput, hstate⟩ :=
    transmit_output slot advert (x.1, (State.prepare slot now x.2).state)
  have hvalue : (AdvertProvider.prepare slot now x.2).value = some advert := h
  refine ⟨addressing, fault, haddress, ?_, ?_⟩
  · rw [← houtput]
    simp only [broadcast, Act.bind_apply, Act.onSnd_apply, hvalue]
    rfl
  · rw [← hstate]
    simp only [broadcast, Act.bind_apply, Act.onSnd_apply, hvalue]
    rfl

/-- The radio is taken from whoever has it, to be given to the next in the queue. -/
def handOver (rest : List Nat) (s : Scheduler) : Scheduler :=
  { s with radio := (Radio.quiet s.radio).state, queue := rest, manager := none }

theorem manageRadio_eq_of_nil {s : Scheduler} (hqueue : s.queue = []) (now : Nat) (p : State) :
    manageRadio now (s, p) = ⟨(), (s.handOver [], p), (Radio.quiet s.radio).output⟩ := by
  obtain ⟨radio, timers, queue, slotTimers, manager, running⟩ := s
  cases hqueue
  rfl

theorem manageRadio_eq_of_cons {s : Scheduler} {slot : Nat} {rest : List Nat}
    (hqueue : s.queue = slot :: rest) (now : Nat) (p : State) :
    ∃ delay, manageRadio now (s, p) =
      ⟨(), ({ s.handOver rest with
          radio := (broadcast slot now (s.handOver rest, p)).state.1.radio
          timers := (TimerQueue.postIn now delay .manageRadio s.timers).state
          manager := (TimerQueue.postIn now delay .manageRadio s.timers).value },
        (broadcast slot now (s.handOver rest, p)).state.2),
        (Radio.quiet s.radio).output ++
          ((broadcast slot now (s.handOver rest, p)).output ++
            (TimerQueue.postIn now delay .manageRadio s.timers).output)⟩ := by
  obtain ⟨radio, timers, queue, slotTimers, manager, running⟩ := s
  cases hqueue
  let taken : Scheduler := handOver rest ⟨radio, timers, slot :: rest, slotTimers, manager, running⟩
  let sent := broadcast slot now (taken, p)
  have hsent : sent.state.1 = { taken with radio := sent.state.1.radio } :=
    eq_of_agenda (agenda_broadcast slot now (taken, p))
  have htimers : sent.state.1.timers = timers := congrArg Scheduler.timers hsent
  let delay := sent.state.1.radio.minInterval.toNat
  refine ⟨delay, ?_⟩
  calc
    manageRadio now (⟨radio, timers, slot :: rest, slotTimers, manager, running⟩, p) =
        ⟨(), ({ sent.state.1 with
            timers := (TimerQueue.postIn now delay .manageRadio sent.state.1.timers).state
            manager := (TimerQueue.postIn now delay .manageRadio sent.state.1.timers).value },
          sent.state.2),
          (Radio.quiet radio).output ++ (sent.output ++
            ((TimerQueue.postIn now delay .manageRadio sent.state.1.timers).output ++ []))⟩ := rfl
    _ = _ := by
      rw [htimers, hsent, List.append_nil]

end Scheduler

/-! ## The turn that is told of -/

/-- What the radio took of the advert. -/
def PreparedAdvert.sent (advert : PreparedAdvert) (fault : Option RadioFault) : Option Bytes :=
  if fault.isSome then none else some advert.payload

theorem Addressing.turnless_outputs (addressing : Addressing) :
    Transcript.Turnless addressing.outputs := by
  match addressing with
  | none => exact Transcript.turnless_nil
  | some (address, none) => exact Transcript.turnless_singleton rfl
  | some (address, some refusal) =>
      have hasked : Transcript.Turnless [.radio (.address address) (some refusal)] :=
        Transcript.turnless_singleton rfl
      exact hasked.append (Transcript.turnless_singleton rfl)

theorem Transcript.turns_round {opening : Transcript} (hopening : opening.Aside) (slot : Nat)
    (addressing : Addressing) (advert : PreparedAdvert) (fault : Option RadioFault)
    (rest : Transcript) (started : Option Bytes) :
    ∃ later,
      turns started (opening ++ (addressing.outputs ++ (advert.outputs slot fault ++ rest))) =
      ⟨slot, advert.sent fault⟩ :: turns later rest := by
  rw [turns_append, hopening.turnless.turns_eq_nil, List.nil_append]
  match addressing with
  | none => cases fault <;> exact ⟨_, rfl⟩
  | some (address, none) => cases fault <;> exact ⟨_, rfl⟩
  | some (address, some refusal) => cases fault <;> exact ⟨_, rfl⟩

namespace State

/-- A slot with nothing to send has its turn all the same. -/
theorem perform_silent {slot : Nat} (s : State) :
    ((⟨slot, none⟩ : Turn).perform now s).state = (State.prepare slot now s).state := rfl

theorem perform_sent (slot : Nat) (advert : PreparedAdvert) (fault : Option RadioFault)
    (s : State) :
    ((⟨slot, advert.sent fault⟩ : Turn).perform now s).state =
      if fault.isSome then (State.prepare slot now s).state
      else (State.prepare slot now s).state.countAdvert := by
  cases fault <;> rfl

theorem faithful_silent (slot now : Nat) (s : State) :
    Moment.Faithful ⟨s, .took ⟨slot, none⟩ now⟩ := by
  intro other payload time hdeed
  cases hdeed

theorem faithful_sent {slot : Nat} {s : State} {advert : PreparedAdvert}
    (hadvert : (State.prepare slot now s).value = some advert) (fault : Option RadioFault) :
    Moment.Faithful ⟨s, .took ⟨slot, advert.sent fault⟩ now⟩ := by
  intro other payload time hdeed
  cases fault with
  | some fault => cases hdeed
  | none =>
      cases hdeed
      exact ⟨advert, hadvert, rfl⟩

end State

end Beacon

import Beacon.Proofs.Booting

/-!
# What a locked beacon gives away

A central that finds the beacon locked talks to its lock and to nothing else: as
long as the beacon stays locked, every read and every write acts on the lock and
the random bits alone, and `Access.gate` is that action.  Two beacons with the
same lock and the same random bits to come can therefore not be told apart, and
neither of them is changed beyond its challenge.
-/

namespace Beacon

/-- One thing that a central asks of an attribute. -/
inductive Access where
  | read (attr : Attribute) (now : Nat)
  | write (attr : Attribute) (offset : Nat) (data : Bytes) (now : Nat)

inductive Reply where
  | value (result : Except Fault Bytes)
  | written (result : Except Fault WriteEffect)

namespace Access

def perform (access : Access) : Act State Reply := do
  match access with
  | .read attr now => return .value (← attr.read now)
  | .write attr offset data now => return .written (← attr.write offset data now)

def performAll : List Access → Act State (List Reply)
  | [] => pure []
  | access :: rest => do
    let reply ← access.perform
    let replies ← performAll rest
    return reply :: replies

/-- Nothing that is asked for opens the lock. -/
def StaysLocked : List Access → State → Prop
  | [], s => s.lock.isLocked
  | access :: rest, s => s.lock.isLocked ∧ StaysLocked rest (access.perform s).state

/-- All that a locked beacon does. -/
def gate (access : Access) : Act (Lock × Drbg) Reply := do
  match access with
  | .read .lockState _ => return .value (.ok [(← get).1.state.code])
  | .read .unlock _ =>
    match ← Lock.challenge with
    | .ok challenge => return .value (.ok challenge.toList)
    | .error fault => return .value (.error fault)
  | .read attr _ =>
    Act.note (.readRefused attr)
    return .value (.error .notPermitted)
  | .write .unlock offset data _ =>
    if offset ≠ 0 then return .written (.error .invalidOffset)
    else
      match ← Lock.respond data with
      | .ok () => return .written (.ok (.lock (← get).1.state))
      | .error fault => return .written (.error fault)
  | .write attr _ _ _ =>
    Act.note (.writeRefused attr)
    return .written (.error .notPermitted)

/-! ## One access -/

theorem read_of_locked {s : State} (hlocked : s.lock.isLocked) (attr : Attribute) (now : Nat) :
    (Access.read attr now).perform s = Attribute.onLock (Access.read attr now).gate s := by
  have hrefused (hattr : attr.readableWhileLocked = false) :
      attr.read now s = ⟨.error .notPermitted, s, [.notice (.readRefused attr)]⟩ := by
    simp only [Attribute.read, Act.bind_apply, Act.get_apply, Done.after_nil, hlocked, hattr,
      Bool.not_false, Bool.and_true, if_true]
    rfl
  have hadmitted (hattr : attr.readableWhileLocked = true) :
      attr.read now s = attr.readValue now s := by
    simp only [Attribute.read, Act.bind_apply, Act.get_apply, Done.after_nil, hattr, Bool.not_true,
      Bool.and_false, Bool.false_eq_true, if_false]
  cases attr with
  | lockState =>
      simp only [perform, Act.bind_apply, hadmitted rfl]
      rfl
  | unlock =>
      simp only [perform, Act.bind_apply, hadmitted rfl, Attribute.readValue, Attribute.onLock,
        gate, Act.get_apply, Act.within_apply, Done.after_nil]
      cases (Lock.challenge (s.lock, s.rng)).value <;> simp [Done.after]
  | _ =>
      simp only [perform, Act.bind_apply, hrefused rfl]
      rfl

theorem write_of_locked {s : State} (hlocked : s.lock.isLocked) (attr : Attribute) (offset : Nat)
    (data : Bytes) (now : Nat) :
    (Access.write attr offset data now).perform s =
      Attribute.onLock (Access.write attr offset data now).gate s := by
  have hrefused (hattr : attr.writableWhileLocked = false) :
      attr.write offset data now s =
        ⟨.error .notPermitted, s, [.notice (.writeRefused attr)]⟩ := by
    simp only [Attribute.write, Act.bind_apply, Act.get_apply, Done.after_nil, hlocked, hattr,
      Bool.not_false, Bool.and_true, if_true]
    rfl
  cases attr with
  | unlock =>
      by_cases hoffset : offset = 0
      · subst hoffset
        have hadmitted : Attribute.unlock.write 0 data now s = Attribute.writeUnlock data s :=
          Attribute.write_of_admitted (by simp [Attribute.writableWhileLocked]) data now
        simp only [perform, Act.bind_apply, hadmitted, Attribute.writeUnlock, Attribute.onLock,
          gate, ne_eq, not_true_eq_false, if_false, Act.within_apply]
        cases (Lock.respond data (s.lock, s.rng)).value <;> simp [Done.after]
      · have hmisplaced : Attribute.unlock.write offset data now s =
            ⟨.error .invalidOffset, s, []⟩ := by
          simp only [Attribute.write, Attribute.writableWhileLocked, Act.bind_apply, Act.get_apply,
            Done.after_nil, Bool.not_true, Bool.and_false, Bool.false_eq_true, if_false, ne_eq,
            hoffset, not_false_eq_true, if_true]
          rfl
        simp only [perform, Act.bind_apply, hmisplaced, gate, ne_eq, hoffset, not_false_eq_true,
          if_true]
        rfl
  | _ =>
      simp only [perform, Act.bind_apply, hrefused rfl]
      rfl

/-- Of everything that is asked for, a locked beacon lets its lock alone decide. -/
theorem perform_of_locked {s : State} (hlocked : s.lock.isLocked) (access : Access) :
    access.perform s = Attribute.onLock access.gate s := by
  cases access with
  | read attr now => exact read_of_locked hlocked attr now
  | write attr offset data now => exact write_of_locked hlocked attr offset data now

theorem issue_lock (lock : Lock) (rng : Drbg) :
    ∃ token, (Lock.issue (lock, rng)).state.1 = { lock with token := token } :=
  ⟨_, rfl⟩

theorem challenge_lock (lock : Lock) (rng : Drbg) :
    ∃ token, (Lock.challenge (lock, rng)).state.1 = { lock with token := token } := by
  simp only [Lock.challenge, Act.bind_apply, Act.get_apply, Done.after_nil]
  split
  · exact issue_lock lock rng
  · exact ⟨lock.token, rfl⟩

/-- An answer that does not open the lock is at most used up. -/
theorem respond_lock {lock : Lock} (hlocked : lock.isLocked) (response : Bytes) (rng : Drbg)
    (hstill : (Lock.respond response (lock, rng)).state.1.isLocked) :
    ∃ token, (Lock.respond response (lock, rng)).state.1 = { lock with token := token } := by
  by_cases hlength : response.length = 16
  · by_cases hmatch : ∃ token, lock.token = some token ∧ token.toList = response
    · obtain ⟨token, htoken, rfl⟩ := hmatch
      have hopen := (Lock.respond_of_eq hlocked hlength htoken rng).2.1
      rw [Lock.isLocked, hopen] at hstill
      cases hstill
    · have hne : ∀ token, lock.token = some token → token.toList ≠ response :=
        fun token htoken heq => hmatch ⟨token, htoken, heq⟩
      rw [(Lock.respond_of_ne hlocked hlength hne rng).2]
      exact ⟨none, rfl⟩
  · rw [Lock.respond_of_length hlocked hlength rng]
    exact ⟨lock.token, rfl⟩

theorem state_gate_unlock (now : Nat) (held : Lock × Drbg) :
    ((Access.read .unlock now).gate held).state = (Lock.challenge held).state := by
  simp only [gate, Act.bind_apply, Done.state_after]
  cases (Lock.challenge held).value <;> rfl

/-- An access that does not open the lock leaves all of it but the challenge. -/
theorem gate_lock {lock : Lock} (hlocked : lock.isLocked) (rng : Drbg) (access : Access)
    (hstill : (access.gate (lock, rng)).state.1.isLocked) :
    ∃ token, (access.gate (lock, rng)).state.1 = { lock with token := token } := by
  cases access with
  | read attr now =>
      cases attr with
      | unlock =>
          rw [state_gate_unlock]
          exact challenge_lock lock rng
      | _ => exact ⟨lock.token, rfl⟩
  | write attr offset data now =>
      cases attr with
      | unlock =>
          by_cases hoffset : offset = 0
          · have hgate : ((Access.write .unlock offset data now).gate (lock, rng)).state =
                (Lock.respond data (lock, rng)).state := by
              simp only [gate, hoffset, ne_eq, not_true_eq_false, if_false, Act.bind_apply,
                Done.state_after]
              cases (Lock.respond data (lock, rng)).value <;> rfl
            rw [hgate] at hstill ⊢
            exact respond_lock hlocked data rng hstill
          · have hgate : ((Access.write .unlock offset data now).gate (lock, rng)).state =
                (lock, rng) := by
              simp only [gate, ne_eq, hoffset, not_false_eq_true, if_true]
              rfl
            rw [hgate]
            exact ⟨lock.token, rfl⟩
      | _ => exact ⟨lock.token, rfl⟩

/-! ## One access after the other -/

/-- What an access leaves of a locked state that it does not open. -/
theorem perform_state_of_locked {s : State} (hlocked : s.lock.isLocked) {access : Access}
    (hstill : (access.perform s).state.lock.isLocked) :
    ∃ token rng, (access.perform s).state = { s with lock.token := token, rng := rng } := by
  rw [perform_of_locked hlocked] at hstill ⊢
  obtain ⟨token, hlock⟩ := gate_lock hlocked s.rng access hstill
  refine ⟨token, (access.gate (s.lock, s.rng)).state.2, ?_⟩
  simp only [Attribute.onLock, Act.within_apply, hlock]

/-- The answer, the log and what becomes of the lock do not depend on the rest of the state. -/
theorem perform_of_lock_eq {s t : State} (hlocked : s.lock.isLocked) (hlock : t.lock = s.lock)
    (hrng : t.rng = s.rng) (access : Access) :
    (access.perform t).value = (access.perform s).value ∧
      (access.perform t).output = (access.perform s).output ∧
      (access.perform t).state.lock = (access.perform s).state.lock ∧
      (access.perform t).state.rng = (access.perform s).state.rng := by
  have hlocked' : t.lock.isLocked := by rwa [hlock]
  have hgate : access.gate (t.lock, t.rng) = access.gate (s.lock, s.rng) := by rw [hlock, hrng]
  rw [perform_of_locked hlocked, perform_of_locked hlocked']
  simp only [Attribute.onLock, Act.within_apply, hgate, and_self]

/-- Only a write can open the lock. -/
theorem isLocked_read {s : State} (hlocked : s.lock.isLocked) (attr : Attribute) (now : Nat) :
    ((Access.read attr now).perform s).state.lock.isLocked := by
  rw [read_of_locked hlocked]
  simp only [Attribute.onLock, Act.within_apply]
  cases attr with
  | unlock =>
      obtain ⟨token, hlock⟩ := challenge_lock s.lock s.rng
      rw [state_gate_unlock, hlock]
      exact hlocked
  | _ => exact hlocked

theorem StaysLocked.isLocked {accesses : List Access} {s : State} (h : StaysLocked accesses s) :
    s.lock.isLocked := by
  cases accesses with
  | nil => exact h
  | cons access rest => exact h.1

/-- Two states with the same lock and the same random bits to come give a central that does not
unlock them the same answers and the same log, whatever else is in them, and neither is changed but
for its challenge and its random bits.  What unlocks one of them unlocks the other. -/
theorem locked_gives_nothing_away {s t : State} (hlocked : s.lock.isLocked)
    (hlock : t.lock = s.lock) (hrng : t.rng = s.rng) (accesses : List Access) :
    (StaysLocked accesses t ↔ StaysLocked accesses s) ∧
      (StaysLocked accesses s →
        (performAll accesses t).value = (performAll accesses s).value ∧
        (performAll accesses t).output = (performAll accesses s).output ∧
        ∃ token rng,
          (performAll accesses s).state = { s with lock.token := token, rng := rng } ∧
          (performAll accesses t).state = { t with lock.token := token, rng := rng }) := by
  induction accesses generalizing s t with
  | nil =>
      constructor
      · rw [StaysLocked, StaysLocked, hlock]
      · intro _
        refine ⟨rfl, rfl, s.lock.token, s.rng, rfl, ?_⟩
        rw [← hlock, ← hrng]
        rfl
  | cons access rest ih =>
      have hlocked' : t.lock.isLocked := by rwa [hlock]
      obtain ⟨hvalue, houtput, hlock', hrng'⟩ := perform_of_lock_eq hlocked hlock hrng access
      by_cases hstill : (access.perform s).state.lock.isLocked
      · have hstill' : (access.perform t).state.lock.isLocked := by rwa [hlock']
        obtain ⟨hstays, hrest⟩ := ih hstill hlock' hrng'
        constructor
        · simp only [StaysLocked, hlocked, hlocked', hstays]
        · intro hs
          obtain ⟨hvalues, houtputs, token, rng, hs', ht'⟩ := hrest hs.2
          obtain ⟨token₁, rng₁, hs₁⟩ := perform_state_of_locked hlocked hstill
          obtain ⟨token₂, rng₂, ht₁⟩ := perform_state_of_locked hlocked' hstill'
          simp only [performAll, Act.bind_apply, Act.pure_apply, Done.value_after,
            Done.output_after, Done.state_after, hvalue, houtput, hvalues, houtputs, hs', ht',
            true_and]
          refine ⟨token, rng, ?_, ?_⟩
          · rw [hs₁]
          · rw [ht₁]
      · -- The access has opened both locks, and nothing is claimed of what follows.
        constructor
        · constructor
          · intro h
            rw [← hlock'] at hstill
            exact absurd h.2.isLocked hstill
          · intro h
            exact absurd h.2.isLocked hstill
        · intro h
          exact absurd h.2.isLocked hstill

/-- A beacon that starts locked and the same beacon with its slots cleared answer a central that
asks for a challenge, sets an interval and reads a slot with the same three replies. -/
theorem cleared_slots_stay_unknown :
    ∃ s t : State, s.lock.isLocked ∧ t.lock = s.lock ∧ t.rng = s.rng ∧ t.slots ≠ s.slots ∧
      (performAll [.read .unlock 0, .write .advInterval 0 [0, 0] 0, .read .advSlotData 0] t).value =
        (performAll [.read .unlock 0, .write .advInterval 0 [0, 0] 0, .read .advSlotData 0]
          s).value := by
  let config : Config := { Config.standard with lockState := .locked }
  have hflaw : config.flaw? = none := by decide +kernel
  obtain ⟨d, -, -, slots, identity, rng, hslots, hsetup⟩ :=
    Device.exists_fresh hflaw (Radio.idle 100 10240 fun _ _ => none)
  have hlocked : d.1.state.lock.isLocked := by
    rw [show d.1.state.lock = .fresh .locked config.unlockKey from congrArg Setup.lock hsetup]
    rfl
  have hframe : (d.1.state.slots.table.value .first).frame.isSome := by
    have hfactory := (Slots.factorySlot_eq_ok (Slots.ofConfig_eq_ok hslots .first)).1
    have hfirst := congrArg (fun setup : Setup =>
      (setup.settings.slots.value .first).frame.isSome) hsetup
    simp only [Device.setup, State.setup, State.settings, State.factory, PerSlot.value_map,
      Slot.settings, Option.isSome_map] at hfirst
    rwa [hfirst]
  let cleared : State := { d.1.state with slots := d.1.state.slots.mapSlots Slot.clear }
  have hdiffers : cleared.slots ≠ d.1.state.slots := by
    intro heq
    have hempty : (cleared.slots.table.value .first).frame = none := by
      simp only [cleared, Slots.mapSlots, PerSlot.value_map, Slot.clear]
    rw [heq] at hempty
    rw [hempty] at hframe
    cases hframe
  have hstays : StaysLocked
      [.read .unlock 0, .write .advInterval 0 [0, 0] 0, .read .advSlotData 0] d.1.state := by
    have hchallenged := isLocked_read hlocked .unlock 0
    have hrefused : ((Access.write .advInterval 0 [0, 0] 0).perform
        ((Access.read .unlock 0).perform d.1.state).state).state.lock.isLocked := by
      rw [write_of_locked hchallenged]
      exact hchallenged
    exact ⟨hlocked, hchallenged, hrefused, isLocked_read hrefused .advSlotData 0⟩
  have hsame := locked_gives_nothing_away hlocked (t := cleared) rfl rfl
    [.read .unlock 0, .write .advInterval 0 [0, 0] 0, .read .advSlotData 0]
  exact ⟨d.1.state, cleared, hlocked, rfl, rfl, hdiffers, (hsame.2 hstays).1⟩

end Access

end Beacon

import Beacon.Proofs.Notes
import Beacon.Proofs.Restart

/-!
# Rejected writes

A write that is rejected leaves the device as it was and reports the rejection
once.  Only an answer to a challenge is not taken back when it is wrong: the
challenge is used up.

The one write that many things could go wrong with, the factory reset, is never
rejected by an open beacon: the configuration that it returns to is the one that
the device was started with, and a device is started with no other than a usable
one.
-/

namespace Beacon

namespace Lock

/-- A wrong answer of the right length is told apart from every other rejection. -/
theorem respond_value_of_ne {lock : Lock} {response : Bytes} (hlocked : lock.isLocked)
    (hlength : response.length = 16)
    (hne : ∀ token, lock.token = some token → token.toList ≠ response) (rng : Drbg) :
    (respond response (lock, rng)).value = .error .authenticationFailed := by
  simp only [respond, Act.bind_apply, Act.get_apply, Done.after_nil, hlocked, not_true_eq_false,
    if_false, hlength, ne_eq, Act.set_apply]
  cases htoken : lock.token with
  | none => rfl
  | some token =>
      simp only [hne token htoken, not_false_eq_true, if_true]
      rfl

end Lock

namespace Attribute

/-! ## What is left of a rejected write -/

/-- A rejected answer has used up the challenge if it could have been the right one. -/
theorem writeUnlock_state_of_error {data : Bytes} {s : State} {fault : Fault}
    (h : (writeUnlock data s).value = .error fault) :
    (writeUnlock data s).state =
      if data.length = 16 ∧ fault = .authenticationFailed then { s with lock.token := none }
      else s := by
  have hrejected : ∀ {cause}, (Lock.respond data (s.lock, s.rng)).value = .error cause →
      fault = cause := by
    intro cause hcause
    rw [writeUnlock_of_error hcause] at h
    exact (Except.error.inj h).symm
  by_cases hlocked : s.lock.isLocked
  · by_cases hlength : data.length = 16
    · by_cases hmatch : ∃ token, s.lock.token = some token ∧ token.toList = data
      · obtain ⟨token, htoken, rfl⟩ := hmatch
        have haccepted := (Lock.respond_of_eq hlocked hlength htoken s.rng).1
        rw [writeUnlock_of_ok haccepted] at h
        cases h
      · have hne : ∀ token, s.lock.token = some token → token.toList ≠ data :=
          fun token htoken heq => hmatch ⟨token, htoken, heq⟩
        have hfault := hrejected (Lock.respond_value_of_ne hlocked hlength hne s.rng)
        have hstate := (Lock.respond_of_ne hlocked hlength hne s.rng).2
        rw [writeUnlock_state, hstate, if_pos ⟨hlength, hfault⟩]
    · have hrespond := Lock.respond_of_length hlocked hlength s.rng
      rw [writeUnlock_state, hrespond, if_neg fun hmiss => hlength hmiss.1]
  · have hrespond := Lock.respond_of_not_locked hlocked data s.rng
    have hfault := hrejected (congrArg Done.value hrespond)
    have hmiss : ¬(data.length = 16 ∧ fault = .authenticationFailed) := by
      rw [hfault]
      simp
    rw [writeUnlock_state, hrespond, if_neg hmiss]

theorem write_state_of_error {attr : Attribute} {offset : Nat} {data : Bytes} {now : Nat}
    {s : State} {fault : Fault} (h : (attr.write offset data now s).value = .error fault) :
    (attr.write offset data now s).state =
      if attr = .unlock ∧ offset = 0 ∧ data.length = 16 ∧ fault = .authenticationFailed then
        { s with lock.token := none }
      else s := by
  by_cases hattr : attr = .unlock
  · subst hattr
    by_cases hoffset : offset = 0
    · subst hoffset
      have hadmitted : Attribute.unlock.write 0 data now s = writeUnlock data s :=
        write_of_admitted (by simp [writableWhileLocked]) data now
      rw [hadmitted] at h ⊢
      rw [writeUnlock_state_of_error h]
      simp only [true_and]
    · rw [(write_of_offset hoffset data now).2, if_neg fun hmiss => hoffset hmiss.2.1]
  · have houtcome := outcome_write attr offset data now s
    rw [h] at houtcome
    rcases houtcome.state_of_error with hstate | ⟨hunlock, -⟩
    · rw [hstate, if_neg fun hmiss => hattr hmiss.1]
    · exact absurd hunlock hattr

/-! ## The configuration stays -/

theorem Outcome.config_eq {attr : Attribute} {data : Bytes} {s t : State}
    {result : Except Fault WriteEffect} (h : Outcome attr data s result t) :
    t.config = s.config := by
  cases h with
  | edited f heffect hedit hsetup => exact congrArg Setup.config hsetup
  | refused => rfl
  | mistaken => rfl
  | unlocked => rfl
  | locks => rfl
  | moved => rfl
  | connectable => rfl
  | spared => rfl
  | reset => rfl

theorem config_read (attr : Attribute) (now : Nat) : Act.Keeps State.config (attr.read now) := by
  intro s
  by_cases hattr : attr = .unlock
  · subst hattr
    by_cases hlocked : s.lock.isLocked
    · obtain ⟨challenge, rng, h⟩ := read_unlock_of_locked hlocked now
      rw [h]
    · rw [read_unlock_of_not_locked hlocked]
  · exact congrArg Setup.config (setup_read hattr now s)

/-- With a usable configuration to return to, an open beacon lets itself be reset. -/
theorem write_factoryReset_of_sound {s : State} (hopen : ¬s.lock.isLocked)
    (hsound : s.config.Sound) {flag : UInt8} (hflag : flag ≠ 0) (now : Nat) :
    (Attribute.factoryReset.write 0 [flag] now s).value = .ok .factoryReset := by
  obtain ⟨slots, hslots⟩ := Slots.ofConfig_ok hsound
  have hadmitted : (s.lock.isLocked && !Attribute.factoryReset.writableWhileLocked) = false := by
    simp [hopen]
  have hreset : (writeReset [flag] s).value = .ok .factoryReset := by
    simp only [writeReset, hflag, if_false, State.factoryReset, Act.bind_apply, Act.get_apply,
      Done.after_nil, hslots, Done.value_after]
    rfl
  rw [write_of_admitted hadmitted]
  exact hreset

end Attribute

namespace Engine

theorem writeAttribute_output_of_error {attr : Attribute} {offset : Nat} {data : Bytes} {now : Nat}
    {e : Engine} {fault : Fault} (h : (attr.write offset data now e.state).value = .error fault) :
    (writeAttribute attr offset data now e).output =
      (attr.write offset data now e.state).output ++
        [.notice (.writeRejected attr fault), .event (.writeRejected attr)] := by
  simp only [writeAttribute, onState, Act.bind_apply, Act.within_apply, h]
  rfl

end Engine

namespace Device

/-- No request changes the configuration. -/
theorem config_serve (request : Request) :
    Act.Keeps (fun d : Device => d.1.state.config) (serve request) := by
  intro d
  have hkept : ∀ {d' : Device}, d'.setup = d.setup → d'.1.state.config = d.1.state.config :=
    fun h => congrArg Setup.config h
  cases request with
  | read attr now => exact Attribute.config_read attr now d.1.state
  | write attr offset data now =>
      have hwrite := Engine.setup_writeAttribute attr offset data now d.1
      have houtcome := Attribute.outcome_write attr offset data now d.1.state
      exact (congrArg Setup.config hwrite).trans houtcome.config_eq
  | poll now => exact hkept (setup_serve (by simp) (by simp) d)
  | radioEvent event now => exact hkept (setup_serve (by simp) (by simp) d)
  | command command now => exact hkept (setup_serve (by simp) (by simp) d)
  | saveIfDirty now => exact hkept (setup_serve (by simp) (by simp) d)

theorem config_adopted (loaded : Except StoreFault (Option Params)) (s : State) :
    (adopted loaded s).config = s.config := by
  cases loaded with
  | error fault => rfl
  | ok stored => cases stored <;> rfl

/-- A device has the configuration that it was started with. -/
theorem Reachable.config_eq {config : Config} {store : Store} {d : Device}
    (hreach : Reachable config store d) : d.1.state.config = config := by
  apply hreach.invariant (P := fun d => d.1.state.config = config)
  · intro store d hbooted
    obtain ⟨slots, identity, rng, minInterval, maxInterval, -, hsetup⟩ := hbooted.exists_setup
    exact (congrArg Setup.config hsetup).trans (config_adopted _ _)
  · intro d request hconfig
    exact (config_serve request d).trans hconfig

/-- The device with no challenge waiting for an answer. -/
def withoutChallenge (d : Device) : Device :=
  ({ d.1 with state.lock.token := none }, d.2)

theorem serve_write_value (attr : Attribute) (offset : Nat) (data : Bytes) (now : Nat)
    (d : Device) :
    (serve (.write attr offset data now) d).value =
      .done (Engine.writeAttribute attr offset data now d.1).value := rfl

theorem serve_write_output (attr : Attribute) (offset : Nat) (data : Bytes) (now : Nat)
    (d : Device) :
    (serve (.write attr offset data now) d).output =
      (Engine.writeAttribute attr offset data now d.1).output := by
  rw [serve, Act.bind_pure_apply]
  rfl

/-- A rejected write tells the radio nothing, reports itself once, and leaves the whole device as it
was; only a wrong answer to a challenge uses up the challenge.  An open device does not reject a
factory reset. -/
theorem rejected_write_keeps_device {config : Config} {store : Store} {d : Device}
    (hreach : Reachable config store d) (attr : Attribute) (offset : Nat) (data : Bytes)
    (now : Nat) :
    (∀ fault, (serve (.write attr offset data now) d).value = .done (.error fault) →
        Transcript.events (serve (.write attr offset data now) d).output =
            [.writeRejected attr] ∧
          Transcript.radioCalls (serve (.write attr offset data now) d).output = [] ∧
          (serve (.write attr offset data now) d).state =
            if attr = .unlock ∧ offset = 0 ∧ data.length = 16 ∧ fault = .authenticationFailed then
              d.withoutChallenge
            else d) ∧
      (¬d.1.state.lock.isLocked → ∀ flag : UInt8, flag ≠ 0 →
        (serve (.write .factoryReset 0 [flag] now) d).value = .done (.ok ())) := by
  constructor
  · intro fault hfault
    have hwrite : (attr.write offset data now d.1.state).value = .error fault := by
      rw [serve_write_value] at hfault
      cases hvalue : (attr.write offset data now d.1.state).value with
      | ok effect =>
          rw [(Engine.writeAttribute_of_ok hvalue).1] at hfault
          cases hfault
      | error cause =>
          rw [(Engine.writeAttribute_of_error hvalue).1] at hfault
          cases hfault
          rfl
    have hasides := Attribute.asides_write attr offset data now d.1.state
    rw [serve_write_output, Engine.writeAttribute_output_of_error hwrite]
    refine ⟨?_, ?_, ?_⟩
    · rw [Transcript.events_append, hasides.events_eq_nil]
      rfl
    · rw [Transcript.radioCalls_append, hasides.radioCalls_eq_nil]
      rfl
    · have hstate : (serve (.write attr offset data now) d).state =
          ({ d.1 with state := (attr.write offset data now d.1.state).state }, d.2) :=
        congrArg (fun e : Engine => (e, d.2)) (Engine.writeAttribute_of_error hwrite).2
      rw [hstate, Attribute.write_state_of_error hwrite]
      split
      next => rfl
      next => rfl
  · intro hopen flag hflag
    have hsound : d.1.state.config.Sound := by
      rw [hreach.config_eq]
      exact Config.sound_of_flaw? hreach.flaw?_eq_none
    have haccepted := Attribute.write_factoryReset_of_sound hopen hsound hflag now
    rw [serve_write_value, (Engine.writeAttribute_of_ok haccepted).1]

/-- A device that starts locked rejects an answer to a challenge that nobody has asked for. -/
theorem unasked_answer_keeps_device :
    ∃ config store d, Reachable config store d ∧
      (serve (.write .unlock 0 (List.replicate 16 0) 0) d).value =
        .done (.error .authenticationFailed) ∧
      Transcript.events (serve (.write .unlock 0 (List.replicate 16 0) 0) d).output =
        [.writeRejected .unlock] ∧
      (serve (.write .unlock 0 (List.replicate 16 0) 0) d).state = d.withoutChallenge := by
  let config : Config := { Config.standard with lockState := .locked }
  have hflaw : config.flaw? = none := by decide +kernel
  obtain ⟨d, hbooted, -, slots, identity, rng, -, hsetup⟩ :=
    exists_fresh hflaw (Radio.idle 100 10240 fun _ _ => none)
  have hlock : d.1.state.lock = .fresh .locked config.unlockKey := congrArg Setup.lock hsetup
  have hlocked : d.1.state.lock.isLocked := by
    rw [hlock]
    rfl
  have hne : ∀ token, d.1.state.lock.token = some token → token.toList ≠ List.replicate 16 0 := by
    intro token htoken
    rw [hlock] at htoken
    cases htoken
  have hwrite : (Attribute.unlock.write 0 (List.replicate 16 0) 0 d.1.state).value =
      .error .authenticationFailed := by
    rw [Attribute.write_of_admitted (by simp [Attribute.writableWhileLocked])]
    exact Attribute.writeUnlock_of_error
      (Lock.respond_value_of_ne hlocked (List.length_replicate ..) hne _)
  have hrejected : (serve (.write .unlock 0 (List.replicate 16 0) 0) d).value =
      .done (.error .authenticationFailed) := by
    rw [serve_write_value, (Engine.writeAttribute_of_error hwrite).1]
  obtain ⟨hevents, -, hstate⟩ :=
    (rejected_write_keeps_device (.boot hbooted) .unlock 0 (List.replicate 16 0) 0).1 _ hrejected
  refine ⟨config, _, d, .boot hbooted, hrejected, hevents, ?_⟩
  rw [hstate, if_pos ⟨rfl, rfl, List.length_replicate .., rfl⟩]

end Device

end Beacon

import Beacon.Proofs.Setup

/-!
# Requests of a central

What a read of an attribute can do to the state, up to what happens by itself,
and which writes get as far as the attribute.  A locked beacon does not let
anything pass but the challenge and the answer to it.
-/

namespace Beacon

namespace Attribute

open State

/-! ## Reads -/

/-- An open beacon lets every read pass to the attribute. -/
theorem read_of_open {s : State} (h : ¬s.lock.isLocked) (attr : Attribute) (now : Nat) :
    attr.read now s = attr.readValue now s := by
  have hadmitted : (s.lock.isLocked && !attr.readableWhileLocked) = false := by
    simp [h]
  simp only [read, Act.bind_apply, Act.get_apply, Done.after_nil, hadmitted]
  rw [if_neg Bool.false_ne_true]

theorem setup_readEid (now : Nat) : Act.Keeps setup (readEid now) := by
  refine Act.Keeps.bind (fun _ => rfl) fun s => ?_
  refine (setup_rotateIfDue s.slots.active now).bind fun _ t => ?_
  simp only [Act.bind_apply, Act.get_apply, Done.after_nil]
  cases t.slots.activeSlot.frame with
  | none => rfl
  | some frame => cases frame <;> rfl

theorem setup_readSlotData (now : Nat) : Act.Keeps setup (readSlotData now) := by
  intro s
  simp only [readSlotData, Act.bind_apply, Act.get_apply, Done.after_nil]
  cases s.slots.activeSlot.frame with
  | none => rfl
  | some frame =>
      cases hkind : frame.kind with
      | eid => simp only [hkind, setup_readEid now s]
      | tlm =>
          simp only [hkind]
          exact (setup_telemetryFrame now).bind (fun _ _ => rfl) s
      | uid => simp only [hkind]; rfl
      | url => simp only [hkind]; rfl

theorem setup_read {attr : Attribute} (hattr : attr ≠ .unlock) (now : Nat) :
    Act.Keeps setup (attr.read now) := by
  intro s
  simp only [read, Act.bind_apply, Act.get_apply, Done.after_nil]
  split
  next => rfl
  next =>
    simp only [readValue, Act.bind_apply, Act.get_apply, Done.after_nil]
    cases attr with
    | unlock => exact absurd rfl hattr
    | advSlotData => exact setup_readSlotData now s
    | eidIdentityKey =>
        simp only
        split <;> rfl
    | _ => rfl

theorem read_unlock_of_locked {s : State} (hlocked : s.lock.isLocked) (now : Nat) :
    ∃ challenge rng,
      Attribute.unlock.read now s =
        ⟨.ok challenge.toList,
          { s with
            lock.token := some (Aes.encrypt s.lock.key challenge)
            rng := rng }, []⟩ := by
  refine ⟨(s.rng.octets 16).1, (s.rng.octets 16).2, ?_⟩
  have hchallenge : Lock.challenge (s.lock, s.rng) =
      ⟨.ok (s.rng.octets 16).1,
        ({ s.lock with token := some (Aes.encrypt s.lock.key (s.rng.octets 16).1) },
          (s.rng.octets 16).2), []⟩ := by
    simp only [Lock.challenge, Act.bind_apply, Act.get_apply, Done.after_nil, hlocked, if_true]
    rfl
  simp only [read, readValue, onLock, readableWhileLocked, Act.bind_apply, Act.get_apply,
    Act.within_apply, Done.after_nil, hchallenge, Bool.not_true, Bool.and_false, Bool.false_eq_true,
    if_false]
  rfl

theorem read_unlock_of_not_locked {s : State} (hlocked : ¬s.lock.isLocked) (now : Nat) :
    Attribute.unlock.read now s = ⟨.error .notPermitted, s, []⟩ := by
  have hchallenge :
      Lock.challenge (s.lock, s.rng) = ⟨.error .notPermitted, (s.lock, s.rng), []⟩ := by
    simp only [Lock.challenge, Act.bind_apply, Act.get_apply, Done.after_nil, hlocked]
    rfl
  simp only [read, readValue, onLock, readableWhileLocked, Act.bind_apply, Act.get_apply,
    Act.within_apply, Done.after_nil, hchallenge, Bool.not_true, Bool.and_false, Bool.false_eq_true,
    if_false]
  rfl

/-! ## Writes under the lock -/

theorem write_of_refused {s : State} {attr : Attribute}
    (hrefused : (s.lock.isLocked && !attr.writableWhileLocked) = true) (offset : Nat)
    (data : Bytes) (now : Nat) :
    (attr.write offset data now s).value = .error .notPermitted ∧
      (attr.write offset data now s).state = s := by
  simp only [write, Act.bind_apply, Act.get_apply, Done.after_nil, hrefused, if_true]
  exact ⟨rfl, rfl⟩

theorem write_of_locked {s : State} (hlocked : s.lock.isLocked) {attr : Attribute}
    (hattr : attr ≠ .unlock) (offset : Nat) (data : Bytes) (now : Nat) :
    (attr.write offset data now s).value = .error .notPermitted ∧
      (attr.write offset data now s).state = s := by
  have hwritable : attr.writableWhileLocked = false := by
    cases attr <;> first | rfl | exact absurd rfl hattr
  exact write_of_refused (by simp [hlocked, hwritable]) offset data now

theorem write_of_offset {s : State} {attr : Attribute} {offset : Nat} (hoffset : offset ≠ 0)
    (data : Bytes) (now : Nat) :
    (∃ fault, (attr.write offset data now s).value = .error fault) ∧
      (attr.write offset data now s).state = s := by
  simp only [write, Act.bind_apply, Act.get_apply, Done.after_nil]
  split
  next => exact ⟨⟨_, rfl⟩, rfl⟩
  next => exact ⟨⟨_, rfl⟩, rfl⟩

theorem write_of_ok {s : State} {attr : Attribute} {offset : Nat} {data : Bytes} {now : Nat}
    {effect : WriteEffect} (h : (attr.write offset data now s).value = .ok effect) :
    offset = 0 ∧ attr.write offset data now s = writeValue attr data now s := by
  simp only [write, Act.bind_apply, Act.get_apply, Done.after_nil] at h ⊢
  split at h
  next => cases h
  next hopen =>
    split at h
    next => cases h
    next hoffset =>
      rw [if_neg hopen, if_neg hoffset]
      exact ⟨not_not.mp hoffset, rfl⟩

theorem write_of_admitted {s : State} {attr : Attribute}
    (hadmitted : (s.lock.isLocked && !attr.writableWhileLocked) = false) (data : Bytes) (now : Nat) :
    attr.write 0 data now s = writeValue attr data now s := by
  simp only [write, Act.bind_apply, Act.get_apply, Done.after_nil, hadmitted, Bool.false_eq_true,
    if_false, ne_eq, not_true_eq_false]

end Attribute

namespace Lock

/-! ## The lock -/

variable {lock : Lock} {response : Bytes}

theorem respond_of_not_locked (hlocked : ¬lock.isLocked) (response : Bytes) (rng : Drbg) :
    respond response (lock, rng) = ⟨.error .notPermitted, (lock, rng), []⟩ := by
  simp only [respond, Act.bind_apply, Act.get_apply, Done.after_nil, hlocked]
  rfl

theorem respond_of_length (hlocked : lock.isLocked) (hlength : response.length ≠ 16) (rng : Drbg) :
    respond response (lock, rng) = ⟨.error .invalidLength, (lock, rng), []⟩ := by
  simp only [respond, Act.bind_apply, Act.get_apply, Done.after_nil, hlocked, not_true_eq_false,
    if_false, if_pos hlength]
  rfl

theorem respond_of_ne (hlocked : lock.isLocked) (hlength : response.length = 16)
    (hne : ∀ token, lock.token = some token → token.toList ≠ response) (rng : Drbg) :
    (∃ fault, (respond response (lock, rng)).value = .error fault) ∧
      (respond response (lock, rng)).state = ({ lock with token := none }, rng) := by
  simp only [respond, Act.bind_apply, Act.get_apply, Done.after_nil, hlocked, not_true_eq_false,
    if_false, hlength, ne_eq, Act.set_apply]
  cases htoken : lock.token with
  | none => exact ⟨⟨_, rfl⟩, rfl⟩
  | some token =>
      simp only [hne token htoken, not_false_eq_true, if_true]
      exact ⟨⟨_, rfl⟩, rfl⟩

theorem respond_of_eq {token : Block} (hlocked : lock.isLocked) (hlength : token.toList.length = 16)
    (htoken : lock.token = some token) (rng : Drbg) :
    (respond token.toList (lock, rng)).value = .ok () ∧
      (respond token.toList (lock, rng)).state.1.state = .unlocked ∧
      (respond token.toList (lock, rng)).state.1.key = lock.key := by
  simp only [respond, Act.bind_apply, Act.get_apply, Done.after_nil, hlocked, not_true_eq_false,
    if_false, hlength, ne_eq, Act.set_apply, htoken]
  exact ⟨rfl, rfl, rfl⟩

/-- A written lock state is refused, opens the lock, or closes it and takes back the challenge. -/
theorem write_cases (value : Bytes) (lock : Lock) :
    (∃ fault, write value lock = ⟨.error fault, lock, []⟩) ∨
      (∃ next, next ≠ .locked ∧ write value lock = ⟨.ok next, { lock with state := next }, []⟩) ∨
      ∃ key, (write value lock).value = .ok .locked ∧
        (write value lock).state = ⟨.locked, key, none⟩ := by
  unfold write
  cases value with
  | nil => exact .inl ⟨_, rfl⟩
  | cons code wrapped =>
      simp only
      split
      next => exact .inl ⟨_, rfl⟩
      next =>
        cases LockState.ofCode code with
        | error fault => exact .inl ⟨fault, rfl⟩
        | ok next =>
            cases next with
            | unlocked => exact .inr (.inl ⟨.unlocked, by decide, rfl⟩)
            | unlockedAutoRelockDisabled =>
                exact .inr (.inl ⟨.unlockedAutoRelockDisabled, by decide, rfl⟩)
            | locked =>
                refine .inr (.inr ?_)
                by_cases hkey : wrapped.length = 16
                · refine ⟨Aes.decrypt lock.key (Bytes.octets 16 wrapped), ?_⟩
                  simp only [close, hkey]
                  exact ⟨rfl, rfl⟩
                · refine ⟨lock.key, ?_⟩
                  simp only [close, hkey]
                  exact ⟨rfl, rfl⟩

end Lock

end Beacon

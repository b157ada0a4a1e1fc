import Beacon.Proofs.BlockCipher
import Beacon.Proofs.SlotData
import Beacon.Proofs.Unlocking

/-!
# Wrapped keys

An identity key travels encrypted under the unlock key, in both directions, and so
does a new unlock key under the one that it replaces.  What a beacon unwraps when
it is written, it wraps when it is read, under the unlock key that it has by then.

Between the two the unlock key may have been replaced, and whoever replaces it
locks the beacon.  Nothing that a locked beacon is asked for touches a key.
-/

namespace Beacon

namespace Request

/-- The identity key of the active slot comes wrapped under the unlock key. -/
def installKey (wrapped : Octets 16) (exponent : UInt8) (now : Nat) : Request :=
  .write .advSlotData 0 (0x30 :: (wrapped.toList ++ [exponent])) now

/-- The beacon is to be locked under another unlock key, which comes wrapped under the present
one. -/
def replaceUnlockKey (wrapped : Octets 16) (now : Nat) : Request :=
  .write .lockState 0 (0x00 :: wrapped.toList) now

end Request

/-- All keys that a central has set, and the slot that it sees. -/
structure Keyring where
  unlockKey : Key
  active : SlotIndex
  identityKeys : PerSlot Key

def State.keyring (s : State) : Keyring where
  unlockKey := s.lock.key
  active := s.slots.active
  identityKeys := s.slots.table.map Slot.key

def Device.keyring (d : Device) : Keyring :=
  d.1.state.keyring

namespace Keyring

def identityKey (keys : Keyring) : Key :=
  keys.identityKeys.value keys.active

def install (key : Key) (keys : Keyring) : Keyring :=
  { keys with identityKeys := keys.identityKeys.put keys.active key }

/-- What a central that asks for the identity key is told; a key of zeros is none. -/
def told (keys : Keyring) : Except Fault Bytes :=
  if keys.identityKey.isZero then .error .notPermitted
  else .ok (Aes.encrypt keys.unlockKey keys.identityKey).toList

theorem identityKey_install (key : Key) (keys : Keyring) :
    (keys.install key).identityKey = key :=
  PerSlot.value_put_self ..

theorem told_install (key : Key) (keys : Keyring) :
    (keys.install key).told =
      if key.isZero then .error .notPermitted else .ok (Aes.encrypt keys.unlockKey key).toList := by
  rw [told, identityKey_install]
  rfl

end Keyring

namespace State

variable {s t : State}

theorem identityKey_keyring (s : State) :
    s.keyring.identityKey = s.slots.activeSlot.key :=
  PerSlot.value_map ..

theorem keyring_eq_of_setup (h : t.setup = s.setup) : t.keyring = s.keyring := by
  have hkeyring (u : State) : u.keyring =
      ⟨u.setup.lock.key, u.setup.settings.active, u.setup.settings.slots.map Slot.key⟩ := by
    rw [keyring, setup, settings, Vector.map_map]
    rfl
  rw [hkeyring, hkeyring, h]

theorem keyring_keyed (key : Key) (exponent : UInt8) (s : State) :
    (s.keyed key exponent).keyring = s.keyring.install key := by
  have hkeys : (s.keyed key exponent).slots.table.map Slot.key =
      PerSlot.put s.slots.active key (s.slots.table.map Slot.key) := by
    apply PerSlot.ext_value
    intro i
    by_cases hi : s.slots.active = i
    · subst i
      rw [PerSlot.value_put_self, PerSlot.value_map]
      exact congrArg Slot.key (s.activeSlot_keyed key exponent)
    · rw [PerSlot.value_put_of_ne hi, PerSlot.value_map, PerSlot.value_map, value_keyed_of_ne hi]
  rw [keyring, hkeys]
  rfl

end State

/-! ## Keys that are written -/

theorem Lock.state_close (wrapped : Octets 16) (lock : Lock) :
    (close wrapped.toList lock).state =
      { lock with key := Aes.decrypt lock.key wrapped, token := none } := by
  have hlength : wrapped.toList.length = 16 := by simp
  simp only [close, hlength, if_true, Act.bind_apply, Act.modify_apply, Act.note_apply,
    Done.state_after, Bytes.octets_toList]

theorem Lock.write_replacing (wrapped : Octets 16) (lock : Lock) :
    (write (0x00 :: wrapped.toList) lock).value = .ok .locked ∧
      (write (0x00 :: wrapped.toList) lock).state =
        ⟨.locked, Aes.decrypt lock.key wrapped, none⟩ := by
  have hlength : ¬(wrapped.toList.length ≠ 0 ∧ wrapped.toList.length ≠ 16) := by simp
  have hcode : LockState.ofCode 0x00 = .ok .locked := rfl
  simp only [write, hcode, if_neg hlength, if_true, Act.bind_apply, Act.modify_apply,
    Act.pure_apply, Done.value_after, Done.state_after, state_close, and_self]

namespace Attribute

variable {s : State}

theorem writeLock_replacing (wrapped : Octets 16) (s : State) :
    (writeLock (0x00 :: wrapped.toList) s).value = .ok (.lock .locked) ∧
      (writeLock (0x00 :: wrapped.toList) s).state =
        { s with lock := ⟨.locked, Aes.decrypt s.lock.key wrapped, none⟩ } := by
  obtain ⟨hvalue, hstate⟩ := Lock.write_replacing wrapped s.lock
  simp only [writeLock, onLock, Act.bind_apply, Act.within_apply, Act.onFst_apply,
    Done.value_after, Done.state_after, hvalue, hstate]
  exact ⟨rfl, rfl⟩

theorem write_replacing (hopen : ¬s.lock.isLocked) (wrapped : Octets 16) (now : Nat) :
    (Attribute.lockState.write 0 (0x00 :: wrapped.toList) now s).value = .ok (.lock .locked) ∧
      (Attribute.lockState.write 0 (0x00 :: wrapped.toList) now s).state =
        { s with lock := ⟨.locked, Aes.decrypt s.lock.key wrapped, none⟩ } := by
  rw [write_of_admitted (by simp [hopen])]
  exact writeLock_replacing wrapped s

theorem write_answer {token : Block} (hlocked : s.lock.isLocked)
    (htoken : s.lock.token = some token) (now : Nat) :
    (Attribute.unlock.write 0 token.toList now s).value = .ok (.lock .unlocked) ∧
      (Attribute.unlock.write 0 token.toList now s).state.lock.state = .unlocked := by
  obtain ⟨hvalue, hunlocked, -⟩ := Lock.respond_of_eq hlocked (by simp) htoken s.rng
  have hstate : (writeUnlock token.toList s).state.lock.state = .unlocked := by
    rw [writeUnlock_state]
    exact hunlocked
  rw [write_of_admitted (by simp [writableWhileLocked]), writeValue, writeUnlock_of_ok hvalue]
  rw [hstate]
  exact ⟨rfl, rfl⟩

/-! ## Keys that are read -/

theorem read_eidIdentityKey (hopen : ¬s.lock.isLocked) (now : Nat) :
    Attribute.eidIdentityKey.read now s = ⟨s.keyring.told, s, []⟩ := by
  rw [read_of_open hopen, Keyring.told, State.identityKey_keyring]
  simp only [readValue, Act.bind_apply, Act.get_apply, Done.after_nil]
  split
  next => rfl
  next => rfl

end Attribute

/-! ## Keys of a locked beacon -/

/-- No answer changes the unlock key. -/
theorem Lock.key_respond (response : Bytes) (lock : Lock) (rng : Drbg) :
    (respond response (lock, rng)).state.1.key = lock.key := by
  simp only [respond, Act.bind_apply, Act.get_apply, Done.after_nil]
  split
  next => rfl
  next =>
    split
    next => rfl
    next =>
      cases lock.token with
      | none => rfl
      | some token =>
          simp only [Act.bind_apply, Act.set_apply, Done.after_nil]
          split
          next => rfl
          next => rfl

namespace Attribute

theorem keyring_read (attr : Attribute) (now : Nat) : Act.Keeps State.keyring (attr.read now) := by
  intro s
  by_cases hattr : attr = .unlock
  · subst hattr
    by_cases hlocked : s.lock.isLocked
    · obtain ⟨challenge, rng, h⟩ := read_unlock_of_locked hlocked now
      rw [h]
      rfl
    · rw [read_unlock_of_not_locked hlocked]
  · exact State.keyring_eq_of_setup (setup_read hattr now s)

theorem keyring_write_of_locked {s : State} (hlocked : s.lock.isLocked) (attr : Attribute)
    (offset : Nat) (data : Bytes) (now : Nat) :
    (attr.write offset data now s).state.keyring = s.keyring := by
  by_cases hattr : attr = .unlock
  · subst hattr
    by_cases hoffset : offset = 0
    · subst hoffset
      rw [write_of_admitted (by simp [writableWhileLocked]), writeValue, writeUnlock_state]
      simp only [State.keyring, Lock.key_respond]
    · rw [(write_of_offset hoffset data now).2]
  · rw [(write_of_locked hlocked hattr offset data now).2]

end Attribute

/-- A locked device keeps its keys, whatever it is asked for; also when this opens the lock. -/
theorem Entry.keyring_after_of_locked {x : Entry} (hlocked : x.before.lock.isLocked) :
    x.after.keyring = x.before.keyring := by
  obtain ⟨d, request⟩ := x
  cases request with
  | read attr now => exact Attribute.keyring_read attr now d.1.state
  | write attr offset data now =>
      have hsetup := Engine.setup_writeAttribute attr offset data now d.1
      exact (State.keyring_eq_of_setup hsetup).trans
        (Attribute.keyring_write_of_locked hlocked attr offset data now)
  | poll now => exact State.keyring_eq_of_setup (Device.setup_serve (by simp) (by simp) d)
  | radioEvent event now =>
      exact State.keyring_eq_of_setup (Device.setup_serve (by simp) (by simp) d)
  | command command now =>
      exact State.keyring_eq_of_setup (Device.setup_serve (by simp) (by simp) d)
  | saveIfDirty now => exact State.keyring_eq_of_setup (Device.setup_serve (by simp) (by simp) d)

theorem Run.keyring_of_locked {start d : Device} {history : History} (hrun : Run start history d)
    (hlocked : ∀ x ∈ history, x.before.lock.isLocked) : d.keyring = start.keyring := by
  induction hrun with
  | start => rfl
  | @serve earlier d request _ ih =>
      have hbefore := ih fun x hx => hlocked x (List.mem_append_left _ hx)
      have hlast := Entry.keyring_after_of_locked (x := ⟨d, request⟩)
        (hlocked _ (List.mem_append_right _ (List.mem_singleton_self _)))
      exact hlast.trans hbefore

namespace Device

variable {d : Device}

/-- It has been unlocked: it was locked whenever it was asked for something, and now it is not. -/
def UnlockedTo (d d' : Device) : Prop :=
  ∃ history, Run d history d' ∧ (∀ x ∈ history, x.before.lock.isLocked) ∧ ¬d'.lock.isLocked

/-! ## Installing, replacing, unlocking -/

theorem serve_installKey (hopen : ¬d.lock.isLocked) (wrapped : Octets 16) {exponent : UInt8}
    (hexponent : exponent ≤ Ephemeral.maxExponent) (now : Nat) :
    (serve (.installKey wrapped exponent now) d).value = .done (.ok ()) ∧
      (serve (.installKey wrapped exponent now) d).state.1.state =
        ((Content.key (Aes.decrypt d.lock.key wrapped) exponent).written now d.1.state).hush := by
  have hspelled : Content.Spelled d.1.state (0x30 :: (wrapped.toList ++ [exponent]))
      (.key (Aes.decrypt d.lock.key wrapped) exponent) := .wrapped wrapped hexponent
  obtain ⟨hvalue, hstate⟩ := Engine.state_writeAttribute_of_spelled hopen hspelled now
  exact ⟨congrArg Answer.done hvalue, hstate⟩

theorem keyring_written_key (key : Key) (exponent : UInt8) (now : Nat) (s : State) :
    ((Content.key key exponent).written now s).hush.keyring = s.keyring.install key := by
  have hsetup : ((Content.key key exponent).written now s).hush.setup =
      (s.keyed key exponent).setup := State.setup_rotateIfDue s.slots.active now _
  exact (State.keyring_eq_of_setup hsetup).trans (State.keyring_keyed key exponent s)

theorem serve_read_eidIdentityKey (hopen : ¬d.lock.isLocked) (now : Nat) :
    (serve (.read .eidIdentityKey now) d).value = .value d.keyring.told ∧
      (serve (.read .eidIdentityKey now) d).state = ({ d.1 with state := d.1.state.hush }, d.2) := by
  have hread := Attribute.read_eidIdentityKey (s := d.1.state) hopen now
  constructor
  · rw [value_serve_read, hread]
    rfl
  · exact congrArg (fun done => ({ d.1 with state := done.state.hush }, d.2)) hread

theorem serve_replaceUnlockKey (hopen : ¬d.lock.isLocked) (wrapped : Octets 16) (now : Nat) :
    (serve (.replaceUnlockKey wrapped now) d).value = .done (.ok ()) ∧
      (serve (.replaceUnlockKey wrapped now) d).state.lock =
        ⟨.locked, Aes.decrypt d.lock.key wrapped, none⟩ ∧
      (serve (.replaceUnlockKey wrapped now) d).state.keyring =
        { d.keyring with unlockKey := Aes.decrypt d.lock.key wrapped } := by
  obtain ⟨hvalue, hstate⟩ := Attribute.write_replacing hopen wrapped now
  have hsetup := Engine.setup_writeAttribute .lockState 0 (0x00 :: wrapped.toList) now d.1
  rw [hstate] at hsetup
  refine ⟨?_, congrArg Setup.lock hsetup, State.keyring_eq_of_setup hsetup⟩
  exact congrArg Answer.done (Engine.writeAttribute_of_ok hvalue).1

/-- Whoever has the unlock key can answer the challenge that the device gives, and unlock it. -/
theorem unlockedTo_of_answer (hlocked : d.lock.isLocked) (asked : Nat) :
    ∃ challenge, (serve (.read .unlock asked) d).value = .value (.ok challenge.toList) ∧
      ∀ answered,
        let opened := serve (.write .unlock 0 (Aes.encrypt d.lock.key challenge).toList answered)
          (serve (.read .unlock asked) d).state
        opened.value = .done (.ok ()) ∧ d.UnlockedTo opened.state := by
  let x : Entry := ⟨d, .read .unlock asked⟩
  obtain ⟨challenge, hchallenge, hlock⟩ := Entry.challenge_of_read (x := x) hlocked rfl
  refine ⟨challenge, hchallenge.2, fun answered => ?_⟩
  have hstill : x.after.lock.isLocked := by
    rw [hlock]
    exact hlocked
  have htoken : x.after.lock.token = some (Aes.encrypt d.lock.key challenge) := by
    rw [hlock]
  obtain ⟨hvalue, hunlocked⟩ := Attribute.write_answer hstill htoken answered
  have hopened : ¬(serve (.write .unlock 0 (Aes.encrypt d.lock.key challenge).toList answered)
      x.after).state.lock.isLocked := by
    rw [lock_serve_write, Lock.isLocked, hunlocked]
    decide
  have hrun : Run d [x] x.after := .serve (.read .unlock asked) .start
  refine ⟨congrArg Answer.done (Engine.writeAttribute_of_ok hvalue).1, _, hrun.serve _, ?_, hopened⟩
  intro y hy
  rcases List.mem_pair.mp hy with rfl | rfl
  · exact hlocked
  · exact hstill

/-- A device that has been locked under another unlock key, and unlocked with it, has the identity
keys that it had. -/
theorem unlockKey_replaced (hopen : ¬d.lock.isLocked) (wrapped : Octets 16) (now : Nat) :
    let unlockKey := Aes.decrypt d.lock.key wrapped
    let closed := serve (.replaceUnlockKey wrapped now) d
    closed.value = .done (.ok ()) ∧
      closed.state.lock = ⟨.locked, unlockKey, none⟩ ∧
      (∀ asked, ∃ challenge,
        (serve (.read .unlock asked) closed.state).value = .value (.ok challenge.toList) ∧
          ∀ answered,
            let opened := serve (.write .unlock 0 (Aes.encrypt unlockKey challenge).toList answered)
              (serve (.read .unlock asked) closed.state).state
            opened.value = .done (.ok ()) ∧ closed.state.UnlockedTo opened.state) ∧
      ∀ opened, closed.state.UnlockedTo opened → opened.keyring = { d.keyring with unlockKey } := by
  intro unlockKey closed
  obtain ⟨haccepted, hlock, hkeyring⟩ := serve_replaceUnlockKey hopen wrapped now
  have hlocked : closed.state.lock.isLocked := by
    rw [hlock]
    rfl
  refine ⟨haccepted, hlock, fun asked => ?_, ?_⟩
  · obtain ⟨challenge, hchallenge, hanswered⟩ := unlockedTo_of_answer hlocked asked
    rw [hlock] at hanswered
    exact ⟨challenge, hchallenge, hanswered⟩
  · rintro opened ⟨history, hrun, hlocked, -⟩
    exact (hrun.keyring_of_locked hlocked).trans hkeyring

/-- An identity key that is written wrapped is installed, and reads as it was written.  When the
unlock key is replaced, the one that it is wrapped under is another, and nothing else changes: it is
the same identity key that is read after the device has been unlocked. -/
theorem key_wraps_round (hopen : ¬d.lock.isLocked) (wrapped : Octets 16) {exponent : UInt8}
    (hexponent : exponent ≤ 15) (now : Nat) :
    let key := Aes.decrypt d.lock.key wrapped
    let installed := serve (.installKey wrapped exponent now) d
    installed.value = .done (.ok ()) ∧
      installed.state.keyring = d.keyring.install key ∧
      installed.state.1.state.slots.activeSlot.exponent = exponent ∧
      (∀ later,
        (serve (.read .eidIdentityKey later) installed.state).value =
            .value (if key.isZero then .error .notPermitted else .ok wrapped.toList) ∧
          (serve (.read .eidIdentityKey later) installed.state).state = installed.state) ∧
      ∀ (rewrapped : Octets 16) (later : Nat),
        let unlockKey := Aes.decrypt d.lock.key rewrapped
        let closed := serve (.replaceUnlockKey rewrapped later) installed.state
        closed.value = .done (.ok ()) ∧
          closed.state.lock = ⟨.locked, unlockKey, none⟩ ∧
          (∀ asked, ∃ challenge,
            (serve (.read .unlock asked) closed.state).value = .value (.ok challenge.toList) ∧
              ∀ answered,
                let opened := serve (.write .unlock 0 (Aes.encrypt unlockKey challenge).toList answered)
                  (serve (.read .unlock asked) closed.state).state
                opened.value = .done (.ok ()) ∧ closed.state.UnlockedTo opened.state) ∧
          ∀ opened, closed.state.UnlockedTo opened →
            opened.keyring = Keyring.install key { d.keyring with unlockKey } ∧
              ∀ last, (serve (.read .eidIdentityKey last) opened).value =
                .value (if key.isZero then .error .notPermitted
                  else .ok (Aes.encrypt unlockKey key).toList) := by
  intro key installed
  obtain ⟨hvalue, hstate⟩ := serve_installKey hopen wrapped hexponent now
  have hkeyring : installed.state.keyring = d.keyring.install key := by
    rw [keyring, hstate]
    exact keyring_written_key key exponent now d.1.state
  have hlock : installed.state.lock = d.lock := by
    rw [lock, hstate]
    exact (Content.active_written (.key key exponent) now d.1.state).2
  have hopen' : ¬installed.state.lock.isLocked := by rwa [hlock]
  refine ⟨hvalue, hkeyring, ?_, fun later => ?_, fun rewrapped later => ?_⟩
  · obtain ⟨id, next, -, hactive, -⟩ := Content.written_key key hexponent now d.1.state
    rw [hstate]
    exact congrArg Slot.exponent hactive
  · obtain ⟨htold, hkept⟩ := serve_read_eidIdentityKey hopen' later
    have hback : Aes.encrypt d.keyring.unlockKey key = wrapped :=
      Aes.encrypt_decrypt d.lock.key wrapped
    have hhush : installed.state.1.state.hush = installed.state.1.state := by
      rw [hstate]
      rfl
    constructor
    · rw [htold, hkeyring, Keyring.told_install, hback]
    · rw [hkept, hhush]
  · intro unlockKey closed
    have hreplaced := unlockKey_replaced hopen' rewrapped later
    rw [hlock, hkeyring] at hreplaced
    obtain ⟨haccepted, hclosed, hunlocks, hkept⟩ := hreplaced
    refine ⟨haccepted, hclosed, hunlocks, fun opened hunlocked => ⟨hkept opened hunlocked, ?_⟩⟩
    intro last
    have hopened : ¬opened.lock.isLocked := hunlocked.choose_spec.2.2
    rw [(serve_read_eidIdentityKey hopened last).1, hkept opened hunlocked]
    exact congrArg Answer.value (Keyring.told_install key { d.keyring with unlockKey })

def sevens : Key :=
  Vector.replicate 16 7

def nines : Key :=
  Vector.replicate 16 9

/-- A key of sevens is installed, and then an unlock key of nines. -/
theorem sevens_wrapped_twice :
    ∃ d opened, Reachable .standard ⟨.memory none, fun _ _ => none, 0⟩ d ∧
      let installed := (serve (.installKey (Aes.encrypt d.lock.key sevens) 3 1000) d).state
      let closed := (serve (.replaceUnlockKey (Aes.encrypt d.lock.key nines) 2000) installed).state
      (serve (.read .eidIdentityKey 1000) installed).value =
          .value (.ok (Aes.encrypt d.lock.key sevens).toList) ∧
        closed.UnlockedTo opened ∧
        (serve (.read .eidIdentityKey 5000) opened).value =
          .value (.ok (Aes.encrypt nines sevens).toList) := by
  have hflaw : Config.standard.flaw? = none := by decide +kernel
  obtain ⟨d, hbooted, -, slots, identity, rng, -, hsetup⟩ :=
    exists_fresh hflaw (Radio.idle 100 10240 fun _ _ => none)
  have hlock : d.lock = .fresh .unlocked Config.standard.unlockKey := congrArg Setup.lock hsetup
  have hopen : ¬d.lock.isLocked := by
    rw [hlock]
    exact Bool.false_ne_true
  have hsevens : sevens.isZero = false := by decide
  obtain ⟨-, -, -, hread, hreplaced⟩ := key_wraps_round hopen
    (Aes.encrypt d.lock.key sevens) (by decide : (3 : UInt8) ≤ 15) 1000
  have hreplaced := hreplaced (Aes.encrypt d.lock.key nines) 2000
  simp only [Aes.decrypt_encrypt, hsevens, Bool.false_eq_true, if_false] at hread hreplaced
  obtain ⟨-, -, hunlocks, hkept⟩ := hreplaced
  obtain ⟨challenge, -, hanswered⟩ := hunlocks 3000
  obtain ⟨-, hopened⟩ := hanswered 4000
  exact ⟨d, _, .boot hbooted, (hread 1000).1, hopened, (hkept _ hopened).2 5000⟩

end Device

end Beacon

import Beacon.Proofs.Booting
import Beacon.Proofs.Writes

/-!
# Unlocking

What takes a locked beacon out of its lock can be read off the history: the
encrypted challenge that was read last, if nobody has tried to answer it and the
beacon has not been locked since.

The lock itself keeps no history.  What it does keep, the answer that it is
waiting for, is shown to be the encryption of the challenge that the history
leaves outstanding.
-/

namespace Beacon

namespace Device

def lock (d : Device) : Lock :=
  d.1.state.lock

end Device

namespace Entry

def Challenge (challenge : Block) (x : Entry) : Prop :=
  (∃ now, x.request = .read .unlock now) ∧ x.answer = .value (.ok challenge.toList)

/-- Something of the right length was written as an answer. -/
def Attempt (x : Entry) : Prop :=
  ∃ data now, x.request = .write .unlock 0 data now ∧ data.length = 16

def Locks (x : Entry) : Prop :=
  ¬x.before.lock.isLocked ∧ x.after.lock.isLocked

/-- An earlier challenge is not outstanding any more. -/
def Expires (x : Entry) : Prop :=
  (∃ challenge, x.Challenge challenge) ∨ x.Attempt ∨ x.Locks

end Entry

/-- The challenge was read last, nobody has tried to answer it, and the beacon has not been locked
since. -/
def History.Outstanding (challenge : Block) : History → Prop :=
  History.Since (Entry.Challenge challenge) Entry.Expires

namespace Device

/-! ## What a request does to the lock -/

theorem lock_eq_of_setup {d d' : Device} (h : d'.setup = d.setup) : d'.lock = d.lock :=
  congrArg Setup.lock h

theorem lock_serve_read (attr : Attribute) (now : Nat) (d : Device) :
    (serve (.read attr now) d).state.lock = (attr.read now d.1.state).state.lock := rfl

theorem lock_serve_write (attr : Attribute) (offset : Nat) (data : Bytes) (now : Nat) (d : Device) :
    (serve (.write attr offset data now) d).state.lock =
      (attr.write offset data now d.1.state).state.lock :=
  congrArg Setup.lock (Engine.setup_writeAttribute attr offset data now d.1)

end Device

namespace Entry

theorem not_challenge_of_ne {x : Entry} (hrequest : ∀ now, x.request ≠ .read .unlock now)
    (challenge : Block) : ¬x.Challenge challenge := by
  rintro ⟨⟨now, h⟩, -⟩
  exact hrequest now h

/-- A locked beacon that has been asked for anything but a challenge or an answer to one keeps its
lock. -/
theorem lock_after_of_other {x : Entry} (hlocked : x.before.lock.isLocked)
    (hread : ∀ now, x.request ≠ .read .unlock now) (hattempt : ¬x.Attempt) :
    x.after.lock = x.before.lock := by
  obtain ⟨d, request⟩ := x
  cases request with
  | read attr now =>
      have hattr : attr ≠ .unlock := by
        rintro rfl
        exact hread now rfl
      exact (Device.lock_serve_read attr now d).trans
        (congrArg Setup.lock (Attribute.setup_read hattr now d.1.state))
  | write attr offset data now =>
      refine (Device.lock_serve_write attr offset data now d).trans ?_
      by_cases hattr : attr = .unlock
      · subst hattr
        by_cases hoffset : offset = 0
        · subst hoffset
          have hlength : data.length ≠ 16 := fun h => hattempt ⟨data, now, rfl, h⟩
          rw [Attribute.write_of_admitted (by simp [Attribute.writableWhileLocked])]
          have hrespond := Lock.respond_of_length hlocked hlength d.1.state.rng
          rw [Attribute.writeValue, Attribute.writeUnlock_state]
          exact congrArg (fun done => done.state.1) hrespond
        · rw [(Attribute.write_of_offset hoffset data now).2]
          rfl
      · rw [(Attribute.write_of_locked hlocked hattr offset data now).2]
        rfl
  | poll now => exact Device.lock_eq_of_setup (Device.setup_serve (by simp) (by simp) d)
  | radioEvent event now => exact Device.lock_eq_of_setup (Device.setup_serve (by simp) (by simp) d)
  | command command now => exact Device.lock_eq_of_setup (Device.setup_serve (by simp) (by simp) d)
  | saveIfDirty now => exact Device.lock_eq_of_setup (Device.setup_serve (by simp) (by simp) d)

theorem challenge_of_read {x : Entry} {now : Nat} (hlocked : x.before.lock.isLocked)
    (hread : x.request = .read .unlock now) :
    ∃ challenge, x.Challenge challenge ∧
      x.after.lock =
        { x.before.lock with token := some (Aes.encrypt x.before.lock.key challenge) } := by
  obtain ⟨d, request⟩ := x
  subst hread
  obtain ⟨challenge, rng, h⟩ := Attribute.read_unlock_of_locked hlocked now
  refine ⟨challenge, ⟨⟨now, rfl⟩, ?_⟩, ?_⟩
  · exact congrArg (fun done => Answer.value done.value) h
  · exact congrArg (fun done => done.state.lock) h

theorem lock_after_attempt {x : Entry} {data : Bytes} {now : Nat}
    (hlocked : x.before.lock.isLocked) (hwrite : x.request = .write .unlock 0 data now)
    (hlength : data.length = 16) :
    (∃ token, x.before.lock.token = some token ∧ data = token.toList ∧
        x.after.lock.state = .unlocked) ∨
      ((∀ token, x.before.lock.token = some token → token.toList ≠ data) ∧
        x.after.lock = { x.before.lock with token := none }) := by
  obtain ⟨d, request⟩ := x
  subst hwrite
  have hafter : (⟨d, .write .unlock 0 data now⟩ : Entry).after.lock =
      (Lock.respond data (d.lock, d.1.state.rng)).state.1 := by
    refine (Device.lock_serve_write .unlock 0 data now d).trans ?_
    rw [Attribute.write_of_admitted (by simp [Attribute.writableWhileLocked]), Attribute.writeValue,
      Attribute.writeUnlock_state]
    rfl
  rw [hafter]
  by_cases hmatch : ∃ token, d.lock.token = some token ∧ data = token.toList
  · obtain ⟨token, htoken, rfl⟩ := hmatch
    exact .inl ⟨token, htoken, rfl, (Lock.respond_of_eq hlocked hlength htoken _).2.1⟩
  · have hne : ∀ token, d.lock.token = some token → token.toList ≠ data :=
      fun token htoken heq => hmatch ⟨token, htoken, heq.symm⟩
    exact .inr ⟨hne, congrArg Prod.fst (Lock.respond_of_ne hlocked hlength hne _).2⟩

theorem token_of_locks {x : Entry} (hlocks : x.Locks) : x.after.lock.token = none := by
  obtain ⟨d, request⟩ := x
  obtain ⟨hopen, hlocked⟩ := hlocks
  have hkept : (Entry.after ⟨d, request⟩).setup = d.setup →
      (Entry.after ⟨d, request⟩).lock.token = none := by
    intro h
    rw [Device.lock_eq_of_setup h] at hlocked
    exact absurd hlocked hopen
  cases request with
  | read attr now =>
      by_cases hattr : attr = .unlock
      · subst hattr
        have hrefused := Attribute.read_unlock_of_not_locked hopen now
        refine hkept ?_
        exact congrArg (fun done => done.state.setup) hrefused
      · exact hkept (Attribute.setup_read hattr now d.1.state)
  | write attr offset data now =>
      have hwrite := Device.lock_serve_write attr offset data now d
      have hlocked : (attr.write offset data now d.1.state).state.lock.isLocked := hwrite ▸ hlocked
      exact (congrArg Lock.token hwrite).trans
        ((Attribute.outcome_write attr offset data now _).token_of_locks hopen hlocked)
  | poll now => exact hkept (Device.setup_serve (by simp) (by simp) d)
  | radioEvent event now => exact hkept (Device.setup_serve (by simp) (by simp) d)
  | command command now => exact hkept (Device.setup_serve (by simp) (by simp) d)
  | saveIfDirty now => exact hkept (Device.setup_serve (by simp) (by simp) d)

theorem not_challenge_of_not_locked {x : Entry} (hopen : ¬x.before.lock.isLocked)
    (challenge : Block) : ¬x.Challenge challenge := by
  rintro ⟨⟨now, hread⟩, hanswer⟩
  obtain ⟨d, request⟩ := x
  cases hread
  have hrefused := congrArg (fun done => Answer.value done.value)
    (Attribute.read_unlock_of_not_locked hopen now)
  have hanswer : Answer.value (.error .notPermitted) = .value (.ok challenge.toList) :=
    hrefused.symm.trans hanswer
  simp at hanswer

end Entry

/-! ## Whole runs -/

def Device.Answerable (history : History) (d : Device) : Prop :=
  d.lock.isLocked → ∀ token, d.lock.token = some token ↔
    ∃ challenge, history.Outstanding challenge ∧ token = Aes.encrypt d.lock.key challenge

theorem Device.Answerable.of_booted {config : Config} {store : Store} {d : Device}
    (hbooted : Booted config store d) : d.Answerable [] := by
  obtain ⟨slots, identity, rng, minInterval, maxInterval, -, hsetup⟩ := hbooted.exists_setup
  have hlock := congrArg Setup.lock hsetup
  have hnone : d.lock.token = none := (congrArg Lock.token hlock).trans (lock_adopted _ rfl)
  intro _ token
  constructor
  · intro h
    exact absurd (hnone.symm.trans h) (by simp)
  · rintro ⟨challenge, houtstanding, -⟩
    exact absurd houtstanding (History.not_since_nil _ _)

/-- What the history leaves outstanding after one more request. -/
theorem History.outstanding_append {challenge : Block} {history : History} {x : Entry} :
    History.Outstanding challenge (history ++ [x]) ↔
      x.Challenge challenge ∨ (history.Outstanding challenge ∧ ¬x.Expires) :=
  History.since_append

theorem Entry.challenge_unique {x : Entry} {challenge other : Block}
    (hchallenge : x.Challenge challenge) (hother : x.Challenge other) : challenge = other := by
  have h := hchallenge.2.symm.trans hother.2
  simp only [Answer.value.injEq, Except.ok.injEq] at h
  exact Vector.toList_inj.mp h

theorem Device.Answerable.serve {history : History} {d : Device} (hd : d.Answerable history)
    (request : Request) :
    (Device.serve request d).state.Answerable (history ++ [⟨d, request⟩]) := by
  intro hafter token
  simp only [History.outstanding_append]
  let x : Entry := ⟨d, request⟩
  change x.after.lock.token = some token ↔ _
  by_cases hlocked : d.lock.isLocked
  · by_cases hread : ∃ now, request = .read .unlock now
    · obtain ⟨now, hread⟩ := hread
      obtain ⟨challenge, hchallenge, hlock⟩ := Entry.challenge_of_read (x := x) hlocked hread
      change x.after.lock.token = some token ↔
        ∃ c, _ ∧ token = Aes.encrypt x.after.lock.key c
      rw [hlock]
      constructor
      · intro h
        exact ⟨challenge, .inl hchallenge, (Option.some.inj h).symm⟩
      · rintro ⟨other, hother | ⟨-, hexpires⟩, htoken⟩
        · rw [htoken, Entry.challenge_unique hchallenge hother]
        · exact absurd (.inl ⟨challenge, hchallenge⟩) hexpires
    · have hnot : ∀ c, ¬x.Challenge c :=
        Entry.not_challenge_of_ne fun now h => hread ⟨now, h⟩
      by_cases hattempt : x.Attempt
      · obtain ⟨data, now, hwrite, hlength⟩ := hattempt
        rcases Entry.lock_after_attempt hlocked hwrite hlength with
          ⟨-, -, -, hunlocked⟩ | ⟨-, hlock⟩
        · have hlockedAfter : x.after.lock.state = .locked := of_decide_eq_true hafter
          rw [hunlocked] at hlockedAfter
          cases hlockedAfter
        · rw [hlock]
          constructor
          · intro h
            cases h
          · rintro ⟨c, hc | ⟨-, hexpires⟩, -⟩
            · exact absurd hc (hnot c)
            · exact absurd (.inr (.inl ⟨data, now, hwrite, hlength⟩)) hexpires
      · have hlock := Entry.lock_after_of_other hlocked (fun now h => hread ⟨now, h⟩) hattempt
        have hexpires : ¬x.Expires := by
          rintro (⟨c, hc⟩ | h | h)
          · exact hnot c hc
          · exact hattempt h
          · exact h.1 hlocked
        change _ ↔ ∃ c, (x.Challenge c ∨ history.Outstanding c ∧ ¬x.Expires) ∧
          token = Aes.encrypt x.after.lock.key c
        rw [hlock]
        simpa [hnot, hexpires] using hd hlocked token
  · have hlocks : x.Locks := ⟨hlocked, hafter⟩
    rw [Entry.token_of_locks hlocks]
    constructor
    · intro h
      cases h
    · rintro ⟨c, hc | ⟨-, hexpires⟩, -⟩
      · exact absurd hc (Entry.not_challenge_of_not_locked hlocked c)
      · exact absurd (.inr (.inr hlocks)) hexpires

theorem Device.Answerable.of_run {config : Config} {store : Store} {start d : Device}
    {history : History} (hstart : Booted config store start) (hrun : Run start history d) :
    d.Answerable history := by
  induction hrun with
  | start => exact .of_booted hstart
  | serve request _ ih => exact ih.serve request

/-- A locked device is unlocked by writing the encryption of the outstanding challenge, and by
nothing else. -/
theorem Device.unlocks_iff_outstanding {config : Config} {store : Store} {start d : Device}
    {history : History} (hstart : Booted config store start) (hrun : Run start history d)
    (hlocked : d.lock.isLocked) (request : Request) :
    (¬(Device.serve request d).state.lock.isLocked ↔
        ∃ data now challenge, request = .write .unlock 0 data now ∧ data.length = 16 ∧
          history.Outstanding challenge ∧ data = (Aes.encrypt d.lock.key challenge).toList) ∧
      (¬(Device.serve request d).state.lock.isLocked →
        (Device.serve request d).state.lock.state = .unlocked) := by
  have hanswerable := Device.Answerable.of_run hstart hrun hlocked
  let x : Entry := ⟨d, request⟩
  have hstill : x.after.lock.state = d.lock.state → ¬x.Attempt →
      (¬x.after.lock.isLocked ↔
        ∃ data now challenge, request = .write .unlock 0 data now ∧ data.length = 16 ∧
          history.Outstanding challenge ∧ data = (Aes.encrypt d.lock.key challenge).toList) ∧
      (¬x.after.lock.isLocked → x.after.lock.state = .unlocked) := by
    intro hstate hattempt
    have hlockedAfter : x.after.lock.isLocked := by
      rw [Lock.isLocked, hstate]
      exact hlocked
    refine ⟨⟨fun h => absurd hlockedAfter h, ?_⟩, fun h => absurd hlockedAfter h⟩
    rintro ⟨data, now, -, hwrite, hlength, -⟩
    exact absurd ⟨data, now, hwrite, hlength⟩ hattempt
  by_cases hattempt : x.Attempt
  · obtain ⟨data, now, hwrite, hlength⟩ := hattempt
    rcases Entry.lock_after_attempt hlocked hwrite hlength with
      ⟨token, htoken, hdata, hunlocked⟩ | ⟨hne, hlock⟩
    · obtain ⟨challenge, houtstanding, rfl⟩ := (hanswerable token).mp htoken
      have hopen : ¬x.after.lock.isLocked := by
        rw [Lock.isLocked, hunlocked]
        decide
      exact ⟨⟨fun _ => ⟨data, now, challenge, hwrite, hlength, houtstanding, hdata⟩,
        fun _ => hopen⟩, fun _ => hunlocked⟩
    · have hlockedAfter : x.after.lock.isLocked := by
        rw [hlock]
        exact hlocked
      refine ⟨⟨fun h => absurd hlockedAfter h, ?_⟩, fun h => absurd hlockedAfter h⟩
      rintro ⟨data', now', challenge, hwrite', -, houtstanding, rfl⟩
      cases hwrite.symm.trans hwrite'
      exact absurd rfl (hne _ ((hanswerable _).mpr ⟨challenge, houtstanding, rfl⟩))
  · by_cases hread : ∃ now, request = .read .unlock now
    · obtain ⟨now, hread⟩ := hread
      obtain ⟨challenge, -, hlock⟩ := Entry.challenge_of_read (x := x) hlocked hread
      exact hstill ((congrArg Lock.state hlock).trans rfl) hattempt
    · have hlock := Entry.lock_after_of_other (x := x) hlocked (fun now h => hread ⟨now, h⟩) hattempt
      exact hstill (congrArg Lock.state hlock) hattempt

/-- A device that starts locked is unlocked by reading a challenge and writing the answer. -/
theorem Device.unlocks_after_challenge :
    ∃ config store start d challenge,
      Booted config store start ∧
      Run start [⟨start, .read .unlock 0⟩] d ∧
      d.lock.isLocked ∧
      ¬(Device.serve
        (.write .unlock 0 (Aes.encrypt d.lock.key challenge).toList 0) d).state.lock.isLocked := by
  let config : Config := { Config.standard with lockState := .locked }
  let radio := Radio.idle 100 10240 fun _ _ => none
  let store : Store := ⟨.memory none, fun _ _ => none, 0⟩
  have hflaw : config.flaw? = none := by decide +kernel
  obtain ⟨slots, identity, rng, -, hbooted⟩ :=
    exists_booted hflaw radio (Octets.zero 32) 0 store
  generalize hstart : Done.state _ = start at hbooted
  have hlocked : start.lock.isLocked := by
    rw [← hstart, lock_eq_of_setup (setup_persist 0 _)]
    rfl
  let x : Entry := ⟨start, .read .unlock 0⟩
  obtain ⟨challenge, hchallenge, hlock⟩ := Entry.challenge_of_read (x := x) hlocked rfl
  have hrun : Run start [x] x.after := .serve (.read .unlock 0) .start
  have hstill : x.after.lock.isLocked := by
    rw [hlock]
    exact hlocked
  have houtstanding : History.Outstanding challenge ([] ++ [x]) :=
    History.outstanding_append.mpr (.inl hchallenge)
  refine ⟨config, store, start, x.after, challenge, hbooted, hrun, hstill, ?_⟩
  exact (Device.unlocks_iff_outstanding hbooted hrun hstill _).1.mpr
    ⟨_, 0, challenge, rfl, by simp, houtstanding, rfl⟩

end Beacon

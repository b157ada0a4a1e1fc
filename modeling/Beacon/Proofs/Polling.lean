import Beacon.Proofs.ModeTruth

/-!
# Whether polling comes to an end

On air every timer that fires uses up work: a repeating timer that is late has
some periods to catch up with, a slot that it queues takes one turn, and the
radio manager posts itself only while slots are queued.  A wait that is over
sends the engine on air, or back to configuration mode if there is nothing to
broadcast.  The latter is where polling may go on for ever, namely if that wait
takes no time and the radio never refuses.
-/

namespace Beacon

/-- How often the timer may still fire, where one that repeats counts twice. -/
def Timer.rounds (now : Nat) (t : Timer) : Nat :=
  if now < t.deadline then 0
  else
    match t.period with
    | none => 1
    | some period => 2 * ((now - t.deadline) / period + 1)

theorem Timer.rounds_once_le (now : Nat) {t : Timer} (hperiod : t.period = none) :
    t.rounds now ≤ 1 := by
  unfold rounds
  rw [hperiod]
  split <;> simp

theorem Timer.rounds_repeated {now : Nat} {t : Timer} {period : Nat}
    (hperiod : t.period = some period)
    (hpositive : 0 < period) (hdue : t.deadline ≤ now) :
    { t with deadline := t.deadline + period }.rounds now + 2 = t.rounds now := by
  unfold rounds
  simp only [hperiod, Nat.not_lt.mpr hdue, if_false]
  split
  next hlater =>
    rw [Nat.div_eq_of_lt (by omega)]
  next hagain =>
    have hdiv : (now - t.deadline) / period = (now - (t.deadline + period)) / period + 1 := by
      rw [← Nat.add_div_right _ hpositive]
      congr 1
      omega
    omega

namespace Scheduler

variable {π : Type}

def roundsLeft (now : Nat) : List Timer → Nat
  | [] => 0
  | t :: timers => t.rounds now + roundsLeft now timers

/-- An upper bound on the timers that may still fire; each slot that waits is good for one more. -/
def workLeft (now : Nat) (s : Scheduler) : Nat :=
  roundsLeft now s.timers.pending + s.queue.length

theorem roundsLeft_cons (now : Nat) (t : Timer) (timers : List Timer) :
    roundsLeft now (t :: timers) = t.rounds now + roundsLeft now timers :=
  rfl

theorem roundsLeft_perm {timers others : List Timer} (h : timers.Perm others) (now : Nat) :
    roundsLeft now timers = roundsLeft now others := by
  induction h with
  | nil => rfl
  | cons t _ ih => rw [roundsLeft_cons, roundsLeft_cons, ih]
  | swap t u timers =>
      rw [roundsLeft_cons, roundsLeft_cons, roundsLeft_cons, roundsLeft_cons]
      omega
  | trans _ _ hfirst hsecond => exact hfirst.trans hsecond

/-- A timer that fires leaves what it is good for from then on. -/
theorem roundsLeft_of_fires {queue timers : TimerQueue} {t : Timer} (h : queue.Fires t timers)
    (now : Nat) :
    roundsLeft now timers.pending + t.rounds now =
      roundsLeft now queue.pending + roundsLeft now t.again.toList := by
  obtain ⟨others, hqueue, htimers⟩ := h.exists_others
  rw [roundsLeft_perm hqueue, roundsLeft_perm htimers, roundsLeft_cons]
  cases t.again with
  | none =>
      rw [Option.toList_none, List.nil_append]
      exact Nat.add_comm _ _
  | some u =>
      rw [Option.toList_some, List.singleton_append, roundsLeft_cons, roundsLeft_cons]
      change _ = _ + (u.rounds now + 0)
      omega

theorem roundsLeft_postIn_le (now delay : Nat) (task : Task) (queue : TimerQueue) :
    roundsLeft now (TimerQueue.postIn now delay task queue).state.pending ≤
      roundsLeft now queue.pending + 1 := by
  rcases TimerQueue.insert_cases (now + delay) none task queue with ⟨-, h⟩ | ⟨-, hadmits, h⟩
  · simp only [TimerQueue.postIn, h]
    exact Nat.le_succ _
  · simp only [TimerQueue.postIn, h, roundsLeft_perm hadmits.perm, roundsLeft_cons]
    have honce := Timer.rounds_once_le now
      (t := ⟨queue.nextId, now + delay, none, task⟩) rfl
    omega

variable [AdvertProvider π]

/-- The radio manager takes a slot for the timer that it posts. -/
theorem workLeft_manageRadio_le (now : Nat) (s : Scheduler) (p : π) :
    (manageRadio now (s, p)).state.1.workLeft now ≤ s.workLeft now := by
  rcases manageRadio_cases now s p with ⟨-, radio, h⟩ | ⟨slot, rest, delay, radio, p', hqueue, h⟩
  · rw [h]
    exact Nat.le_refl _
  · rw [h]
    have hpost := roundsLeft_postIn_le now delay .manageRadio s.timers
    simp only [workLeft, hqueue, List.length_cons]
    omega

theorem workLeft_enqueue_le (slot now : Nat) (s : Scheduler) (p : π) :
    (enqueue slot now (s, p)).state.1.workLeft now ≤ s.workLeft now + 1 := by
  obtain ⟨queue, hlength, h | ⟨-, h⟩⟩ := enqueue_cases slot now s p
  · rw [h]
    simp only [workLeft]
    omega
  · rw [h]
    refine Nat.le_trans (workLeft_manageRadio_le now _ p) ?_
    simp only [workLeft]
    omega

end Scheduler

namespace Engine

/-! ## On air -/

theorem Beaconing.workLeft_fireOne_lt {e : Engine} (hbeaconing : e.Beaconing) {now : Nat}
    (hfired : (Engine.fireOne now e).value ≠ none) :
    (Engine.fireOne now e).state.scheduler.workLeft now < e.scheduler.workLeft now := by
  rcases TimerQueue.popDue_cases now e.scheduler.timers with
    ⟨-, h⟩ | ⟨t, timers, hfires, hdue, -, h⟩
  · rw [fireOne_of_none h] at hfired
    exact absurd rfl hfired
  · rw [(fireOne_of_some h).2]
    have hleft := Scheduler.roundsLeft_of_fires hfires now
    cases hbeaconing.coherent.onAir t hfires.mem with
    | @enqueue id deadline period slot hpositive =>
        have hrepeated : Timer.rounds now ⟨id, deadline + period, some period, .enqueue slot⟩ + 2 =
            Timer.rounds now ⟨id, deadline, some period, .enqueue slot⟩ :=
          Timer.rounds_repeated rfl hpositive hdue
        refine Nat.lt_of_le_of_lt (Scheduler.workLeft_enqueue_le slot now _ e.state) ?_
        change _ = _ + (Timer.rounds now ⟨id, deadline + period, some period, .enqueue slot⟩ + 0)
          at hleft
        simp only [Scheduler.workLeft]
        omega
    | @manageRadio id deadline =>
        refine Nat.lt_of_le_of_lt (Scheduler.workLeft_manageRadio_le now _ e.state) ?_
        have hround : Timer.rounds now ⟨id, deadline, none, .manageRadio⟩ = 1 := by
          rw [Timer.rounds, if_neg (Nat.not_lt.mpr hdue)]
        rw [hround] at hleft
        change _ = _ + 0 at hleft
        simp only [Scheduler.workLeft]
        omega

theorem Beaconing.ends {e : Engine} (hbeaconing : e.Beaconing) (now : Nat) :
    Act.Ends (Engine.fireOne now) e := by
  refine Act.ends_of_measure (P := Beaconing) (fun e => e.scheduler.workLeft now) ?_ hbeaconing
  intro e task hbeaconing hfired
  exact ⟨hbeaconing.fireOne now, hbeaconing.workLeft_fireOne_lt (by simp [hfired])⟩

theorem Quiet.ends {e : Engine} (hquiet : e.Quiet) (now : Nat) :
    Act.Ends (Engine.fireOne now) e := by
  apply Act.Ends.stop
  rw [hquiet.fireOne]

/-! ## Waiting -/

theorem Waiting.ends_of_lt {e : Engine} {t : Timer} (hwaiting : e.Waiting t) {now : Nat}
    (hearly : now < t.deadline) : Act.Ends (Engine.fireOne now) e := by
  apply Act.Ends.stop
  rw [hwaiting.fireOne_of_lt hearly]

theorem Silent.of_setup_eq {e e' : Engine} (hsilent : e.Silent)
    (h : e'.state.setup = e.state.setup) : e'.Silent := by
  intro i
  rw [State.interval?_eq_of_setup_eq h i]
  exact hsilent i

/-- A wait that is over with nothing to broadcast: the engine waits again, in configuration mode,
if the radio accepts the advert, and is quiet otherwise. -/
theorem Waiting.fireOne_of_silent {e : Engine} {t : Timer} (hwaiting : e.Waiting t) {now : Nat}
    (hdue : t.deadline ≤ now) (hsilent : e.Silent) :
    (Engine.fireOne now e).state.scheduler.radio.verdict = e.scheduler.radio.verdict ∧
      (((¬∃ scan payload, configAdvert e.state = .ok (scan, payload) ∧
            Accepts (e.scheduler.radio.decided + 1) scan payload e.scheduler.radio) ∧
          (Engine.fireOne now e).state.Quiet) ∨
        ((∃ scan payload, configAdvert e.state = .ok (scan, payload) ∧
            Accepts (e.scheduler.radio.decided + 1) scan payload e.scheduler.radio) ∧
          (Engine.fireOne now e).state.scheduler.radio.decided = e.scheduler.radio.decided + 3 ∧
          ∃ u, (Engine.fireOne now e).state.Waiting u ∧
            u.deadline = now + e.state.config.configTimeout.toNat * 1000)) := by
  obtain ⟨q, hquiet, hstate, hradio, -, hfired⟩ := hwaiting.fireOne_of_le hdue
  have hcases := (InPhase.quiet hquiet).startBeaconOrConfig_of_silent (by rwa [Silent, hstate]) now
  rw [hstate, hradio] at hcases
  rw [hfired]
  obtain ⟨hverdict, ⟨hrefused, hquiet, -⟩ | ⟨haccepted, hdecided, u, hu, hdeadline⟩⟩ := hcases
  · exact ⟨hverdict, .inl ⟨hrefused, hquiet⟩⟩
  · exact ⟨hverdict, .inr ⟨haccepted, hdecided, u, .inl hu, hdeadline⟩⟩

theorem Waiting.ends_of_not_silent {e : Engine} {t : Timer} (hwaiting : e.Waiting t) {now : Nat}
    (hdue : t.deadline ≤ now) (hloud : ¬e.Silent) : Act.Ends (Engine.fireOne now) e := by
  obtain ⟨q, hquiet, hstate, -, hsome, hfired⟩ := hwaiting.fireOne_of_le hdue
  obtain ⟨task, htask⟩ := Option.ne_none_iff_exists'.mp hsome
  obtain ⟨hvalue, hbeaconing⟩ :=
    (InPhase.quiet hquiet).startBeacon_of_not_silent (by rwa [Silent, hstate]) now
  refine .more htask ?_
  rw [hfired, startBeaconOrConfig_state, hvalue]
  exact hbeaconing.ends now

/-- With nothing to broadcast polling ends if it does so after going back to configuration mode. -/
theorem Waiting.ends_of_again {e : Engine} {t : Timer} (hwaiting : e.Waiting t) {now : Nat}
    (hdue : t.deadline ≤ now) (hsilent : e.Silent)
    (hagain : ∀ scan payload u, configAdvert e.state = .ok (scan, payload) →
      Accepts (e.scheduler.radio.decided + 1) scan payload e.scheduler.radio →
      (Engine.fireOne now e).state.Waiting u →
      u.deadline = now + e.state.config.configTimeout.toNat * 1000 →
      (Engine.fireOne now e).state.scheduler.radio.decided = e.scheduler.radio.decided + 3 →
      Act.Ends (Engine.fireOne now) (Engine.fireOne now e).state) :
    Act.Ends (Engine.fireOne now) e := by
  obtain ⟨-, -, -, -, hsome, -⟩ := hwaiting.fireOne_of_le hdue
  obtain ⟨task, htask⟩ := Option.ne_none_iff_exists'.mp hsome
  refine .more htask ?_
  obtain ⟨-, ⟨-, hquiet⟩ | ⟨⟨scan, payload, hadvert, haccepted⟩, hdecided, u, hu, hdeadline⟩⟩ :=
    hwaiting.fireOne_of_silent hdue hsilent
  · exact hquiet.ends now
  · exact hagain scan payload u hadvert haccepted hu hdeadline hdecided

/-- Waiting ends once the radio refuses the configuration advert, however late that is. -/
theorem Waiting.ends_of_refused {now : Nat} {scan payload : Bytes} {rounds : Nat} {e : Engine}
    {t : Timer} (hwaiting : e.Waiting t) (hdue : t.deadline ≤ now) (hsilent : e.Silent)
    (hadvert : configAdvert e.state = .ok (scan, payload))
    (hrefused : ¬Accepts (e.scheduler.radio.decided + 3 * rounds + 1) scan payload
      e.scheduler.radio) : Act.Ends (Engine.fireOne now) e := by
  induction rounds generalizing e t with
  | zero =>
      refine hwaiting.ends_of_again hdue hsilent ?_
      intro scan' payload' u hadvert' haccepted
      rw [hadvert] at hadvert'
      cases hadvert'
      exact absurd haccepted hrefused
  | succ rounds ih =>
      refine hwaiting.ends_of_again hdue hsilent ?_
      intro scan' payload' u _ _ hu _ hdecided
      have hsetup : (Engine.fireOne now e).state.state.setup = e.state.setup :=
        congrArg Prod.fst (marked_fireOne now e)
      obtain ⟨hverdict, -⟩ := hwaiting.fireOne_of_silent hdue hsilent
      by_cases hearly : now < u.deadline
      · exact hu.ends_of_lt hearly
      · refine ih hu (Nat.not_lt.mp hearly) (hsilent.of_setup_eq hsetup)
          ((configAdvert_eq_of_setup_eq hsetup).trans hadvert) ?_
        rw [accepts_congr hverdict, hdecided]
        rwa [show e.scheduler.radio.decided + 3 + 3 * rounds + 1 =
          e.scheduler.radio.decided + 3 * (rounds + 1) + 1 by omega]

/-- Where polling goes on for ever: a wait is over, nothing is to be broadcast, the wait in
configuration mode takes no time and the radio accepts the configuration advert again and again. -/
structure Spins (now : Nat) (e : Engine) : Prop where
  due : ∃ t ∈ e.scheduler.timers.pending, t.deadline ≤ now ∧
    (t.task = .configTimeout ∨ t.task = .resumeBeacon)
  silent : e.Silent
  timeout : e.state.config.configTimeout = 0
  accepted : ∃ scan payload, configAdvert e.state = .ok (scan, payload) ∧
    ∀ rounds, Accepts (e.scheduler.radio.decided + 3 * rounds + 1) scan payload e.scheduler.radio

theorem InPhase.waiting_of_due {e : Engine} (hphase : e.InPhase) {t : Timer}
    (hpending : t ∈ e.scheduler.timers.pending)
    (htask : t.task = .configTimeout ∨ t.task = .resumeBeacon) : e.Waiting t := by
  cases hphase with
  | quiet h =>
      rw [h.pending] at hpending
      cases hpending
  | configuring h =>
      rw [h.pending, List.mem_singleton] at hpending
      subst hpending
      exact .inl h
  | pausing h =>
      rw [h.pending, List.mem_singleton] at hpending
      subst hpending
      exact .inr h
  | beaconing h => cases h.coherent.onAir t hpending <;> simp at htask

theorem Waiting.ends {e : Engine} {t : Timer} (hwaiting : e.Waiting t) {now : Nat}
    (hspins : ¬e.Spins now) : Act.Ends (Engine.fireOne now) e := by
  by_cases hearly : now < t.deadline
  · exact hwaiting.ends_of_lt hearly
  have hdue := Nat.not_lt.mp hearly
  by_cases hsilent : e.Silent
  · cases hadvert : configAdvert e.state with
    | error fault =>
        refine hwaiting.ends_of_again hdue hsilent ?_
        intro scan payload u hok
        simp [hadvert] at hok
    | ok advert =>
        by_cases htimeout : e.state.config.configTimeout = 0
        · have hrefused : ∃ rounds, ¬Accepts (e.scheduler.radio.decided + 3 * rounds + 1) advert.1
              advert.2 e.scheduler.radio := by
            refine not_forall.mp fun haccepted => hspins ?_
            refine ⟨⟨t, by rw [hwaiting.pending]; exact .head _, hdue, ?_⟩, hsilent, htimeout,
              advert.1, advert.2, hadvert, haccepted⟩
            exact hwaiting.elim (fun h => .inl h.task) (fun h => .inr h.task)
          obtain ⟨rounds, hrefused⟩ := hrefused
          exact hwaiting.ends_of_refused hdue hsilent hadvert hrefused
        · refine hwaiting.ends_of_again hdue hsilent ?_
          intro scan payload u _ _ hu hdeadline _
          have hpositive : 0 < e.state.config.configTimeout.toNat :=
            Nat.pos_of_ne_zero fun hzero => htimeout (UInt32.toNat_inj.mp hzero)
          exact hu.ends_of_lt (by omega)
  · exact hwaiting.ends_of_not_silent hdue hsilent

/-- Polling comes to an end unless the engine spins. -/
theorem InPhase.ends {e : Engine} (hphase : e.InPhase) {now : Nat} (hspins : ¬e.Spins now) :
    Act.Ends (Engine.fireOne now) e := by
  cases hphase with
  | quiet h => exact h.ends now
  | configuring h => exact Waiting.ends (.inl h) hspins
  | pausing h => exact Waiting.ends (.inr h) hspins
  | beaconing h => exact h.ends now

/-- Each round of an engine that spins leaves one that spins. -/
theorem Spins.not_ends {e : Engine} {now : Nat} (hphase : e.InPhase) (hspins : e.Spins now) :
    ¬Act.Ends (Engine.fireOne now) e := by
  refine Act.not_ends_of_invariant (P := fun e => e.InPhase ∧ e.Spins now) ?_ ⟨hphase, hspins⟩
  rintro e ⟨hphase, hspins⟩
  obtain ⟨t, hpending, hdue, htask⟩ := hspins.due
  obtain ⟨scan, payload, hadvert, haccepted⟩ := hspins.accepted
  have hwaiting := hphase.waiting_of_due hpending htask
  obtain ⟨-, -, -, -, hsome, -⟩ := hwaiting.fireOne_of_le hdue
  refine ⟨hsome, ?_⟩
  have hsetup : (Engine.fireOne now e).state.state.setup = e.state.setup :=
    congrArg Prod.fst (marked_fireOne now e)
  obtain ⟨hverdict, ⟨hrefused, -⟩ | ⟨-, hdecided, u, hu, hdeadline⟩⟩ :=
    hwaiting.fireOne_of_silent hdue hspins.silent
  · exact absurd ⟨scan, payload, hadvert, haccepted 0⟩ hrefused
  · have hconfiguring : (Engine.fireOne now e).state.InPhase := hu.elim .configuring .pausing
    refine ⟨hconfiguring, ?_, hspins.silent.of_setup_eq hsetup, ?_, scan, payload, ?_, ?_⟩
    · refine ⟨u, by rw [hu.pending]; exact .head _, ?_, ?_⟩
      · rw [hdeadline, hspins.timeout]
        exact Nat.le_refl _
      · exact hu.elim (fun h => .inl h.task) (fun h => .inr h.task)
    · exact (congrArg (fun setup => setup.config.configTimeout) hsetup).trans hspins.timeout
    · exact (configAdvert_eq_of_setup_eq hsetup).trans hadvert
    · intro rounds
      rw [accepts_congr hverdict, hdecided]
      have hnext := haccepted (rounds + 1)
      rwa [show e.scheduler.radio.decided + 3 * (rounds + 1) + 1 =
        e.scheduler.radio.decided + 3 + 3 * rounds + 1 by omega] at hnext

/-- With nothing to broadcast, no time to wait and a radio that takes every advert, entering
configuration mode makes the engine spin. -/
theorem InPhase.spins_of_startConfig {e : Engine} (hphase : e.InPhase) {scan payload : Bytes}
    (hadvert : configAdvert e.state = .ok (scan, payload)) (hsilent : e.Silent)
    (htimeout : e.state.config.configTimeout = 0)
    (haccepted : ∀ n, Accepts n scan payload e.scheduler.radio) (now : Nat) :
    (Engine.startConfig now e).state.Spins now := by
  have hsetup : (Engine.startConfig now e).state.state.setup = e.state.setup :=
    congrArg Prod.fst (marked_startConfig now e)
  obtain ⟨hverdict, ⟨hrefused, -⟩ | ⟨-, -, -, t, hentered, hdeadline⟩⟩ :=
    hphase.startConfig_cases hadvert now
  · exact absurd (haccepted _) hrefused
  · refine ⟨⟨t, ?_, ?_, .inl hentered.task⟩, hsilent.of_setup_eq hsetup, ?_, scan, payload, ?_, ?_⟩
    · rw [hentered.pending]
      exact .head _
    · rw [hdeadline, htimeout]
      exact Nat.le_refl _
    · exact (congrArg (fun setup => setup.config.configTimeout) hsetup).trans htimeout
    · exact (configAdvert_eq_of_setup_eq hsetup).trans hadvert
    · intro rounds
      rw [accepts_congr hverdict]
      exact haccepted _

/-- A poll that comes to an end leaves no timer that is due. -/
theorem lt_nextDeadline_of_ends {e : Engine} {now deadline : Nat}
    (hends : Act.Ends (Engine.fireOne now) e)
    (hnext : (Engine.poll now e).state.nextDeadline? = some deadline) : now < deadline := by
  obtain ⟨last, -, hnone, hlast⟩ :=
    Act.gather_last (P := fun _ => True) (fun _ _ => trivial) hends trivial
  have hpoll :
      (Engine.poll now e).state.nextDeadline? = (Engine.fireOne now last).state.nextDeadline? := by
    rw [← hlast]
    rfl
  rw [hpoll] at hnext
  rcases TimerQueue.popDue_cases now last.scheduler.timers with
    ⟨hearly, h⟩ | ⟨t, timers, -, -, -, h⟩
  · rw [fireOne_of_none h] at hnext
    obtain ⟨⟨t, ht, rfl⟩, -⟩ := TimerQueue.nextDeadline?_eq_some_iff.mp hnext
    exact hearly t ht
  · rw [(fireOne_of_some h).1] at hnone
    cases hnone

/-- Nothing happens in a poll but that the only timer that is due fires. -/
theorem nextDeadline?_poll_of_once {e : Engine} {now : Nat} {task : Task}
    (hfirst : (fireOne now e).value = some task)
    (hsecond : (fireOne now (fireOne now e).state).value = none) :
    (Engine.poll now e).state.nextDeadline? =
      (fireOne now (fireOne now e).state).state.nextDeadline? := by
  have hgather : (Engine.poll now e).state.nextDeadline? =
      (Act.gather (fireOne now) e).state.nextDeadline? := rfl
  rw [hgather, Act.gather_of_some hfirst (.stop hsecond), Act.gather_of_none hsecond]

end Engine

namespace Device

theorem Reachable.inPhase {config : Config} {store : Store} {d : Device}
    (hreach : Reachable config store d) : d.1.InPhase := by
  apply hreach.invariant (P := fun d => d.1.InPhase)
  · intro store d hbooted
    exact hbooted.leaves.phase
  · intro d request hphase
    exact (Entry.leaves (x := ⟨d, request⟩) hphase).phase

/-- Polling a device that can be reached comes to an end exactly when the device does not spin, and
then leaves nothing to be done at the time of the poll. -/
theorem poll_ends_iff_not_spins {config : Config} {store : Store} {d : Device}
    (hreach : Reachable config store d) (now : Nat) :
    (Act.Ends (Engine.fireOne now) d.1 ↔ ¬d.1.Spins now) ∧
      (Act.Ends (Engine.fireOne now) d.1 → ∀ deadline,
        (Engine.poll now d.1).state.nextDeadline? = some deadline → now < deadline) := by
  refine ⟨⟨fun hends hspins => hspins.not_ends hreach.inPhase hends, hreach.inPhase.ends⟩, ?_⟩
  intro hends deadline hnext
  exact Engine.lt_nextDeadline_of_ends hends hnext

/-- What the first two timers of a poll do when the time for configuration mode is over, when the next
one is due, and for how many seconds that mode lasts. -/
def timedOut (start : Device) : Option Task × Option Task × Option Nat × UInt32 :=
  let first := Engine.fireOne 60000 (start.configured 0).1
  let second := Engine.fireOne 60000 first.state
  (first.value, second.value, second.state.nextDeadline?,
    (start.configured 0).1.state.config.configTimeout)

/-- A poll that ends configuration mode comes to an end, with a slot on air. -/
theorem poll_ends_at_timeout :
    ∃ (store : Store) (start : Device), Reachable Config.standard store (start.configured 0) ∧
      (Engine.fireOne 60000 (start.configured 0).1).value = some .configTimeout ∧
      Act.Ends (Engine.fireOne 60000) (start.configured 0).1 ∧
      (Engine.poll 60000 (start.configured 0).1).state.nextDeadline? = some 60100 ∧
      60000 < 60100 := by
  obtain ⟨start, hbooted, htimedOut⟩ :
      ∃ start, Booted Config.standard ⟨.memory none, fun _ _ => none, 0⟩ start ∧
        start.timedOut = (some .configTimeout, none, some 60100, 60) :=
    exists_booted_of_eq (.idle 100 10240 fun _ _ => none) (some (Octets.zero 32)) 0 timedOut
      (by decide +kernel)
  simp only [timedOut, Prod.mk.injEq] at htimedOut
  obtain ⟨hfirst, hsecond, hnext, htimeout⟩ := htimedOut
  have hreach : Reachable Config.standard _ (start.configured 0) :=
    (Reachable.boot hbooted).serve (.command .startConfig 0)
  obtain ⟨hiff, hlater⟩ := poll_ends_iff_not_spins hreach 60000
  have hends : Act.Ends (Engine.fireOne 60000) (start.configured 0).1 := by
    apply hiff.mpr
    intro hspins
    rw [hspins.timeout] at htimeout
    exact absurd htimeout (by decide)
  have hpoll : (Engine.poll 60000 (start.configured 0).1).state.nextDeadline? = some 60100 :=
    (Engine.nextDeadline?_poll_of_once hfirst hsecond).trans hnext
  exact ⟨_, start, hreach, hfirst, hends, hpoll, hlater hends _ hpoll⟩

/-- Slots that send nothing, and no time for configuration mode. -/
def restless : Config :=
  { Config.standard with slotIntervals := .all 0, configTimeout := 0 }

/-- A restless device whose radio refuses nothing is never done with a poll. -/
theorem not_always_ends :
    ¬∀ (config : Config) (store : Store) (d : Device) (now : Nat), config.flaw? = none →
      Reachable config store d → Act.Ends (Engine.fireOne now) d.1 := by
  intro halways
  have hflaw : restless.flaw? = none := by decide +kernel
  obtain ⟨d, hbooted, hradio, slots, identity, rng, hslots, hsetup⟩ :=
    exists_fresh hflaw (Radio.idle 100 10240 fun _ _ => none)
  have hverdict : d.1.scheduler.radio.verdict = fun _ _ => none := congrArg Radio.verdict hradio
  obtain ⟨scan, payload, hadvert⟩ := Engine.configAdvert_standard (s := d.1.state)
    (congrArg (fun setup => setup.config.configInterval) hsetup)
    (congrArg (fun setup => setup.config.configUrl) hsetup)
    (congrArg (fun setup => setup.config.deviceName) hsetup)
    (congrArg (fun setup => setup.settings.advLevels) hsetup)
  have htimeout : d.1.state.config.configTimeout = 0 :=
    congrArg (fun setup => setup.config.configTimeout) hsetup
  have hsilent : d.1.Silent := by
    intro i
    obtain ⟨-, hinterval, -⟩ := Slots.factorySlot_eq_ok (Slots.ofConfig_eq_ok hslots i)
    refine (State.interval?_eq_of_setup_eq hsetup i).trans ?_
    have hzero : (slots.table.value i).isBroadcast = false := by
      rw [Slot.isBroadcast, hinterval, restless, PerSlot.value_all]
      simp
    change ((slots.table[i.val]?).filter Slot.isBroadcast).map Slot.interval = none
    rw [PerSlot.getElem?_eq_value, Option.filter_some, hzero]
    rfl
  have hspins : (Engine.startConfig 0 d.1).state.Spins 0 := by
    refine hbooted.leaves.phase.spins_of_startConfig hadvert hsilent htimeout ?_ 0
    intro n
    rw [Engine.accepts_iff hadvert, hverdict]
    exact ⟨rfl, rfl⟩
  have hreach : Reachable restless _ (Device.serve (.command .startConfig 0) d).state :=
    (Reachable.boot hbooted).serve (.command .startConfig 0)
  exact (poll_ends_iff_not_spins hreach 0).1.mp (halways _ _ _ 0 hflaw hreach) hspins

end Device

end Beacon

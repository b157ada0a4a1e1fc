import Beacon.Proofs.Ownership
import Mathlib.Data.List.Induction

/-!
# Runs of a timer queue

A queue of timers is asked one thing after the other.  What it granted makes up a
ledger: the timers that were posted, the ids of those that fired, again and again
perhaps, and of those that were cancelled.  The ledger alone says which timers are
alive and when each is due next, with no regard to the queue, and as long as the
ids do not come round the queue holds just these timers, in whatever places.
-/

namespace Beacon

/-! ## What is left of a timer -/

/-- What is left of a timer after it has fired so many times. -/
def Timer.after (fires : Nat) (t : Timer) : Option Timer :=
  match t.period with
  | none => if fires = 0 then some t else none
  | some period => some { t with deadline := t.deadline + fires * period }

namespace Timer

theorem id_of_after {t u : Timer} {n : Nat} (h : u.after n = some t) : t.id = u.id := by
  unfold after at h
  split at h
  · split at h
    next =>
      cases h
      rfl
    next => cases h
  · cases h
    rfl

theorem period_of_after {t u : Timer} {n : Nat} (h : u.after n = some t) : t.period = u.period := by
  unfold after at h
  split at h
  · split at h
    next =>
      cases h
      rfl
    next => cases h
  · cases h
    rfl

theorem after_zero (t : Timer) : t.after 0 = some t := by
  unfold after
  split
  next => rfl
  next => rw [Nat.zero_mul, Nat.add_zero]

theorem after_once {t : Timer} (hperiod : t.period = none) (n : Nat) :
    t.after n = if n = 0 then some t else none := by
  rw [after, hperiod]

theorem after_repeated {t : Timer} {period : Nat} (hperiod : t.period = some period) (n : Nat) :
    t.after n = some { t with deadline := t.deadline + n * period } := by
  rw [after, hperiod]

/-- Firing once more is firing what is left. -/
theorem after_succ {t u : Timer} {n : Nat} (h : u.after n = some t) :
    u.after (n + 1) = t.again := by
  cases hperiod : u.period with
  | none =>
      rw [after_once hperiod] at h ⊢
      rw [if_neg (Nat.succ_ne_zero n)]
      split at h
      next =>
        cases h
        rw [again, hperiod, Option.map_none]
      next => cases h
  | some period =>
      rw [after_repeated hperiod] at h ⊢
      cases h
      simp only [again, hperiod, Option.map_some, Nat.succ_mul, Nat.add_assoc]

theorem before_again {t u : Timer} (hperiod : ∀ period ∈ t.period, 0 < period)
    (hagain : t.again = some u) : t.before u := by
  unfold again at hagain
  cases h : t.period with
  | none =>
      rw [h] at hagain
      cases hagain
  | some period =>
      rw [h] at hagain
      cases hagain
      have hpositive := hperiod period h
      exact before_iff.mpr (.inl (Nat.lt_add_of_pos_right hpositive))

end Timer

theorem TimerQueue.mem_remove {queue : TimerQueue} (hnodup : queue.ids.Nodup) {id : TimerId}
    {t : Timer} : t ∈ (queue.remove id).pending ↔ t ∈ queue.pending ∧ t.id ≠ id := by
  by_cases hid : t.id = id
  · have hgone : t ∉ (queue.remove id).pending := by
      intro hmem
      have hids : t.id ∈ (queue.remove id).ids := List.mem_map_of_mem hmem
      rw [ids_remove, hid] at hids
      exact hnodup.not_mem_erase hids
    exact iff_of_false hgone fun h => h.2 hid
  · rw [pending_remove, List.mem_eraseP_of_neg (by simpa using hid), and_iff_left hid]

/-! ## Runs -/

/-- One thing asked of a timer queue. -/
inductive TimerCall where
  | postIn (now delay : Nat) (task : Task)
  | postEvery (now period : Nat) (task : Task)
  | cancel (id : TimerId)
  | popDue (now : Nat)

inductive TimerAnswer where
  | posted (id : Option TimerId)
  | cancelled (found : Bool)
  | fired (timer : Option (TimerId × Task))

def TimerQueue.serve (call : TimerCall) : Act TimerQueue TimerAnswer := do
  match call with
  | .postIn now delay task => return .posted (← postIn now delay task)
  | .postEvery now period task => return .posted (← postEvery now period task)
  | .cancel id => return .cancelled (← cancel id)
  | .popDue now => return .fired (← popDue now)

def TimerCall.now? : TimerCall → Option Nat
  | postIn now _ _ => some now
  | postEvery now _ _ => some now
  | cancel _ => none
  | popDue now => some now

structure TimerEntry where
  before : TimerQueue
  call : TimerCall

namespace TimerEntry

def answer (x : TimerEntry) : TimerAnswer :=
  (TimerQueue.serve x.call x.before).value

def after (x : TimerEntry) : TimerQueue :=
  (TimerQueue.serve x.call x.before).state

end TimerEntry

abbrev TimerHistory := List TimerEntry

/-- What a queue has been asked since it was in the given state, oldest first. -/
inductive TimerRun (start : TimerQueue) : TimerHistory → TimerQueue → Prop
  | start : TimerRun start [] start
  | serve {history : TimerHistory} {queue : TimerQueue} (call : TimerCall) :
      TimerRun start history queue →
      TimerRun start (history ++ [⟨queue, call⟩]) (TimerQueue.serve call queue).state

namespace TimerRun

variable {start middle queue : TimerQueue} {history later : TimerHistory} {x : TimerEntry}

theorem last (hrun : TimerRun start (history ++ [x]) queue) :
    TimerRun start history x.before ∧ queue = x.after := by
  generalize hwhole : history ++ [x] = whole at hrun
  cases hrun with
  | start => simp at hwhole
  | serve call hrun =>
      obtain ⟨rfl, hx⟩ := List.append_inj' hwhole rfl
      cases hx
      exact ⟨hrun, rfl⟩

/-- A run stops before every call that it makes. -/
theorem upTo (hrun : TimerRun start (history ++ x :: later) queue) :
    TimerRun start history x.before ∧ TimerRun start (history ++ [x]) x.after := by
  induction later using List.reverseRecOn generalizing queue with
  | nil =>
      obtain ⟨hbefore, rfl⟩ := hrun.last
      exact ⟨hbefore, hrun⟩
  | append_singleton later y ih =>
      rw [← List.cons_append, ← List.append_assoc] at hrun
      exact ih hrun.last.1

theorem exists_middle (hrun : TimerRun start (history ++ later) queue) :
    ∃ queue', TimerRun start history queue' := by
  cases later with
  | nil =>
      rw [List.append_nil] at hrun
      exact ⟨queue, hrun⟩
  | cons x later => exact ⟨x.before, hrun.upTo.1⟩

theorem append (hrun : TimerRun start history middle) (hlater : TimerRun middle later queue) :
    TimerRun start (history ++ later) queue := by
  induction hlater with
  | start => rwa [List.append_nil]
  | serve call _ ih =>
      rw [← List.append_assoc]
      exact ih.serve call

end TimerRun

/-- What a queue is asked when it is asked so many calls one after the other. -/
def TimerHistory.of : TimerQueue → List TimerCall → TimerHistory
  | _, [] => []
  | queue, call :: rest => ⟨queue, call⟩ :: of (TimerQueue.serve call queue).state rest

theorem TimerRun.of (queue : TimerQueue) (calls : List TimerCall) :
    ∃ queue', TimerRun queue (.of queue calls) queue' := by
  induction calls generalizing queue with
  | nil => exact ⟨queue, .start⟩
  | cons call rest ih =>
      obtain ⟨queue', hrest⟩ := ih (TimerQueue.serve call queue).state
      exact ⟨queue', (TimerRun.start.serve call).append hrest⟩

/-! ## What is granted -/

/-- What a queue has granted. -/
inductive TimerDeed where
  | posted (t : Timer)
  | cancelled (id : TimerId)
  | fired (id : TimerId)
  deriving DecidableEq

namespace TimerDeed

def id : TimerDeed → TimerId
  | posted t => t.id
  | cancelled id => id
  | fired id => id

def timer? : TimerDeed → Option Timer
  | posted t => some t
  | cancelled _ => none
  | fired _ => none

end TimerDeed

/-- What comes of a call: a post asks for a timer, and the answer tells its id. -/
def TimerEntry.deed? (x : TimerEntry) : Option TimerDeed :=
  match x.call, x.answer with
  | .postIn now delay task, .posted (some id) => some (.posted ⟨id, now + delay, none, task⟩)
  | .postEvery now period task, .posted (some id) =>
    some (.posted ⟨id, now + period, some (max period 1), task⟩)
  | .cancel id, .cancelled true => some (.cancelled id)
  | .popDue _, .fired (some (id, _)) => some (.fired id)
  | _, _ => none

/-- What a call can do to the queue, and what it grants. -/
inductive TimerEntry.Effect (x : TimerEntry) : Prop
  | nothing : x.deed? = none → x.after = x.before → Effect x
  | posted (t : Timer) : x.deed? = some (.posted t) → t.id = x.before.nextId →
      (∀ period ∈ t.period, 0 < period) → (∃ now ≤ t.deadline, x.call.now? = some now) →
      x.before.Admits t x.after → Effect x
  | cancelled (id : TimerId) : x.deed? = some (.cancelled id) → x.before.isPending id →
      x.after = x.before.remove id → Effect x
  | fired (t : Timer) (now : Nat) : x.deed? = some (.fired t.id) → x.call = .popDue now →
      t.deadline ≤ now → (∀ u ∈ x.before.pending, ¬u.before t) → x.before.Fires t x.after → Effect x

/-- A post is taken if there is room, and then its timer has the next id. -/
theorem TimerEntry.effect_of_insert {x : TimerEntry} (deadline : Nat) (period : Option Nat)
    (task : Task) (hperiod : ∀ p ∈ period, 0 < p) (hnow : ∃ now ≤ deadline, x.call.now? = some now)
    (hanswer : x.answer = .posted (TimerQueue.insert deadline period task x.before).value)
    (hafter : x.after = (TimerQueue.insert deadline period task x.before).state)
    (hdeed : ∀ id?, x.answer = .posted id? →
      x.deed? = id?.map fun id => .posted ⟨id, deadline, period, task⟩) : x.Effect := by
  rcases TimerQueue.insert_cases deadline period task x.before with ⟨-, h⟩ | ⟨-, hadmits, h⟩
  · rw [h] at hanswer hafter
    exact .nothing (hdeed none hanswer) hafter
  · rw [h] at hanswer hafter
    exact .posted _ (hdeed (some _) hanswer) rfl hperiod hnow (hafter ▸ hadmits)

theorem TimerEntry.effect (x : TimerEntry) : x.Effect := by
  obtain ⟨queue, call⟩ := x
  cases call with
  | postIn now delay task =>
      have hserve := Act.bind_pure_apply (TimerQueue.postIn now delay task) TimerAnswer.posted queue
      apply effect_of_insert (now + delay) none task
      · simp
      · exact ⟨now, Nat.le_add_right now delay, rfl⟩
      · exact congrArg Done.value hserve
      · exact congrArg Done.state hserve
      · intro id? hanswer
        cases id? <;> rw [deed?, hanswer] <;> rfl
  | postEvery now period task =>
      have hserve :=
        Act.bind_pure_apply (TimerQueue.postEvery now period task) TimerAnswer.posted queue
      apply effect_of_insert (now + period) (some (max period 1)) task
      · rintro p ⟨⟩
        exact Nat.lt_of_lt_of_le Nat.one_pos (Nat.le_max_right period 1)
      · exact ⟨now, Nat.le_add_right now period, rfl⟩
      · exact congrArg Done.value hserve
      · exact congrArg Done.state hserve
      · intro id? hanswer
        cases id? <;> rw [deed?, hanswer] <;> rfl
  | cancel id =>
      have hserve := Act.bind_pure_apply (TimerQueue.cancel id) TimerAnswer.cancelled queue
      have hanswer : answer ⟨queue, .cancel id⟩ = .cancelled (queue.isPending id) :=
        congrArg Done.value hserve
      have hafter : after ⟨queue, .cancel id⟩ = queue.remove id := congrArg Done.state hserve
      cases hpending : queue.isPending id with
      | true =>
          rw [hpending] at hanswer
          exact .cancelled id (by rw [deed?, hanswer]) hpending hafter
      | false =>
          rw [hpending] at hanswer
          have hkept : queue.remove id = queue := TimerQueue.remove_of_not_isPending hpending
          exact .nothing (by rw [deed?, hanswer]) (hafter.trans hkept)
  | popDue now =>
      have hserve := Act.bind_pure_apply (TimerQueue.popDue now) TimerAnswer.fired queue
      have hanswer : answer ⟨queue, .popDue now⟩ = .fired (TimerQueue.popDue now queue).value :=
        congrArg Done.value hserve
      have hafter : after ⟨queue, .popDue now⟩ = (TimerQueue.popDue now queue).state :=
        congrArg Done.state hserve
      rcases TimerQueue.popDue_cases now queue with ⟨-, h⟩ | ⟨t, timers, hfires, hdue, hfirst, h⟩
      · rw [h] at hanswer hafter
        exact .nothing (by rw [deed?, hanswer]) hafter
      · rw [h] at hanswer hafter
        exact .fired t now (by rw [deed?, hanswer]) rfl hdue hfirst (hafter ▸ hfires)

end Beacon

import Beacon.Proofs.Broadcasts
import Mathlib.Data.List.Nodup

/-!
# Timers and their handles

Every pending timer is named by one handle and every handle names a pending
timer: a slot's handle its repeating timer, and the radio manager, configuration
mode and the pause after a connection theirs.  A handle is an id, so this can only
hold as long as ids do not come round; every post but that of the pause leaves a
line in the log, so that the posts can be counted.
-/

namespace Beacon

/-- What a handle says of the timer that it names. -/
structure Ticket where
  id : TimerId
  task : Task
  repeats : Bool
  deriving DecidableEq

/-- The ticket of a handle, if it names a timer. -/
def Ticket.held (handle : Option TimerId) (task : Task) (repeats : Bool) : List Ticket :=
  handle.toList.map (⟨·, task, repeats⟩)

theorem Ticket.length_held_le (handle : Option TimerId) (task : Task) (repeats : Bool) :
    (held handle task repeats).length ≤ 1 := by
  cases handle with
  | none => exact Nat.zero_le 1
  | some id => exact Nat.le_refl 1

def Timer.ticket (t : Timer) : Ticket :=
  ⟨t.id, t.task, t.period.isSome⟩

/-! ## Posts -/

def Output.reportsPost : Output → Bool
  | .notice n => n.reportsPost
  | _ => false

/-- Nothing about the turn of a slot and nothing about timers. -/
def Output.isUntimed : Output → Bool
  | .notice n => n.isAside
  | _ => true

namespace Transcript

def posts (transcript : Transcript) : Nat :=
  transcript.countP Output.reportsPost

/-- No post was dropped for want of room. -/
def Dropless (transcript : Transcript) : Prop :=
  ∀ task, .notice (.timersFull task) ∉ transcript

def Untimed (transcript : Transcript) : Prop :=
  ∀ output ∈ transcript, output.isUntimed

theorem posts_append (a b : Transcript) : posts (a ++ b) = posts a + posts b :=
  List.countP_append

theorem Dropless.append {a b : Transcript} (ha : a.Dropless) (hb : b.Dropless) :
    Dropless (a ++ b) := by
  intro task hmem
  cases List.mem_append.mp hmem with
  | inl hmem => exact ha task hmem
  | inr hmem => exact hb task hmem

theorem Untimed.append {a b : Transcript} (ha : a.Untimed) (hb : b.Untimed) : Untimed (a ++ b) := by
  intro output hmem
  cases List.mem_append.mp hmem with
  | inl hmem => exact ha output hmem
  | inr hmem => exact hb output hmem

theorem untimed_nil : Untimed [] := by
  intro output hmem
  cases hmem

theorem untimed_singleton {output : Output} (h : output.isUntimed) : Untimed [output] := by
  intro other hmem
  rwa [List.mem_singleton.mp hmem]

theorem Untimed.posts_eq_zero {transcript : Transcript} (h : transcript.Untimed) :
    transcript.posts = 0 := by
  apply List.countP_eq_zero.mpr
  intro output hmem
  have huntimed := h output hmem
  cases output with
  | notice n => cases n <;> first | exact Bool.false_ne_true | cases huntimed
  | event event => exact Bool.false_ne_true
  | radio call fault => exact Bool.false_ne_true
  | store call fault => exact Bool.false_ne_true

theorem Untimed.dropless {transcript : Transcript} (h : transcript.Untimed) :
    transcript.Dropless := by
  intro task hmem
  cases h _ hmem

theorem Plain.untimed {transcript : Transcript} (h : transcript.Plain) : transcript.Untimed := by
  intro output hmem
  have hplain := h output hmem
  cases output with
  | notice n => exact hplain
  | event event => rfl
  | radio call fault => rfl
  | store call fault => rfl

/-- With fewer ids given out than there are, no post was dropped and the property holds of their
number. -/
def Balances (P : Nat → Prop) (n : Nat) (transcript : Transcript) : Prop :=
  n + transcript.posts < UInt32.size → transcript.Dropless ∧ P (n + transcript.posts)

theorem Untimed.balances {P : Nat → Prop} {n : Nat} {transcript : Transcript}
    (h : transcript.Untimed) (hP : P n) : Balances P n transcript := by
  intro _
  rw [h.posts_eq_zero]
  exact ⟨h.dropless, hP⟩

theorem Balances.imp {P Q : Nat → Prop} {n : Nat} {transcript : Transcript}
    (h : Balances P n transcript) (hPQ : ∀ m, P m → Q m) : Balances Q n transcript := by
  intro hfew
  exact (h hfew).imp_right (hPQ _)

/-- A post is told of in the log. -/
theorem balances_post {P : Nat → Prop} {n : Nat} {notice : Notice} (hnotice : notice.reportsPost)
    (hP : P (n + 1)) : Balances P n [.notice notice] := by
  intro _
  have hposts : posts [.notice notice] = 1 := by
    simp [posts, Output.reportsPost, hnotice]
  rw [hposts]
  refine ⟨fun task hmem => ?_, hP⟩
  cases List.mem_singleton.mp hmem
  cases hnotice

/-- As long as there are ids left, what is put out before is taken into account. -/
theorem Balances.of_fewer {P : Nat → Prop} {n : Nat} {transcript : Transcript}
    (h : n < UInt32.size → Balances P n transcript) : Balances P n transcript := by
  intro hfew
  have hbefore : n < UInt32.size := Nat.lt_of_le_of_lt (Nat.le_add_right _ _) hfew
  exact h hbefore hfew

theorem Balances.append {P Q : Nat → Prop} {n : Nat} {a b : Transcript} (ha : Balances P n a)
    (hb : ∀ m, P m → Balances Q m b) : Balances Q n (a ++ b) := by
  intro hfew
  rw [posts_append, ← Nat.add_assoc] at hfew ⊢
  obtain ⟨hdropless, hP⟩ := ha (by omega)
  obtain ⟨hdropless', hQ⟩ := hb _ hP hfew
  exact ⟨hdropless.append hdropless', hQ⟩

end Transcript

open Transcript

theorem Addressing.untimed_outputs (addressing : Addressing) : Untimed addressing.outputs := by
  match addressing with
  | none => exact untimed_nil
  | some (address, none) => exact untimed_singleton rfl
  | some (address, some fault) =>
      exact Untimed.append (a := [.radio (.address address) (some fault)]) (untimed_singleton rfl)
        (untimed_singleton rfl)

theorem PreparedAdvert.balances_outputs {P : Nat → Prop} {n : Nat} (advert : PreparedAdvert)
    (slot : Nat) (fault : Option RadioFault) (hP : P (n + 1)) :
    Balances P n (advert.outputs slot fault) := by
  have hcalls : Untimed [.radio (.txPower advert.radioTx) none,
      .radio (.connectable advert.connectable) none, .radio (.start advert.payload) fault] := by
    intro output hmem
    simp only [List.mem_cons, List.not_mem_nil, or_false] at hmem
    rcases hmem with rfl | rfl | rfl <;> rfl
  apply (hcalls.balances (P := fun m => m = n) rfl).append
  rintro m rfl
  exact balances_post (by cases fault <;> rfl) hP

theorem Radio.untimed_quiet (radio : Radio) : Untimed (quiet radio).output := by
  simp only [quiet, Act.bind_apply, Act.get_apply, Done.after_nil]
  split
  · exact untimed_singleton rfl
  · exact untimed_nil

/-! ## Ids -/

namespace TimerQueue

/-- The queue has given out `n` ids, and no two pending timers have the same. -/
structure Issued (n : Nat) (queue : TimerQueue) : Prop where
  next : queue.nextId = UInt32.ofNat n
  before : ∀ id ∈ queue.ids, id.toNat < n
  nodup : queue.ids.Nodup

theorem Issued.of_subperm {n : Nat} {queue other : TimerQueue} (h : queue.Issued n)
    (hnext : other.nextId = queue.nextId) (hids : other.ids.Subperm queue.ids) :
    other.Issued n where
  next := hnext.trans h.next
  before id hmem := h.before id (hids.subset hmem)
  nodup := by
    obtain ⟨ids, hperm, hsublist⟩ := hids
    exact hperm.nodup_iff.mp (hsublist.nodup h.nodup)

/-- With fewer ids given out than there are, the next is new. -/
theorem Issued.admits {n : Nat} {queue timers : TimerQueue} {t : Timer} (h : queue.Issued n)
    (hfew : n < UInt32.size) (hadmits : queue.Admits t timers) (hid : t.id = queue.nextId) :
    timers.Issued (n + 1) := by
  have hnew : t.id.toNat = n := by
    rw [hid, h.next]
    exact Nat.mod_eq_of_lt hfew
  have hperm : timers.ids.Perm (t.id :: queue.ids) := hadmits.perm.map Timer.id
  constructor
  · rw [hadmits.next, h.next]
    apply UInt32.toNat.inj
    simp
  · intro id hmem
    cases List.mem_cons.mp (hperm.mem_iff.mp hmem) with
    | inl heq =>
        rw [heq, hnew]
        exact Nat.lt_succ_self n
    | inr hmem => exact Nat.lt_succ_of_lt (h.before id hmem)
  · apply hperm.nodup_iff.mpr
    refine List.nodup_cons.mpr ⟨fun hmem => ?_, h.nodup⟩
    have hless := h.before _ hmem
    rw [hnew] at hless
    exact Nat.lt_irrefl n hless

theorem Issued.popDue {n : Nat} {queue : TimerQueue} (h : queue.Issued n) (now : Nat) :
    (popDue now queue).state.Issued n := by
  rcases popDue_cases now queue with ⟨-, hpop⟩ | ⟨t, timers, hfires, -, -, hpop⟩
  · rw [hpop]
    exact h
  · rw [hpop]
    exact h.of_subperm hfires.next hfires.ids_subperm

/-- A timer that fires stays pending or was one to fire once. -/
theorem popDue_tickets {now : Nat} {queue : TimerQueue} {id : TimerId} {task : Task}
    (hfired : (popDue now queue).value = some (id, task)) :
    (((popDue now queue).state.pending.map Timer.ticket).Perm (queue.pending.map Timer.ticket) ∧
        ⟨id, task, true⟩ ∈ queue.pending.map Timer.ticket) ∨
      (queue.pending.map Timer.ticket).Perm
        (⟨id, task, false⟩ :: (popDue now queue).state.pending.map Timer.ticket) := by
  rcases popDue_cases now queue with ⟨-, hpop⟩ | ⟨t, timers, hfires, -, -, hpop⟩
  · rw [hpop] at hfired
    cases hfired
  rw [hpop] at hfired ⊢
  obtain ⟨tid, deadline, period, todo⟩ := t
  cases hfired
  cases period with
  | none => exact .inr ((hfires.perm_of_once rfl).map Timer.ticket)
  | some period =>
      refine .inl ⟨?_, List.mem_map_of_mem hfires.mem⟩
      rw [hfires.map_of_again rfl rfl]

theorem nextId_cancel? (handle : Option TimerId) (queue : TimerQueue) :
    (queue.cancel? handle).nextId = queue.nextId := by
  cases handle with
  | none => rfl
  | some id => exact nextId_remove id queue

theorem nextId_foldl_cancel? (handles : List (Option TimerId)) (queue : TimerQueue) :
    (handles.foldl (fun q handle => q.cancel? handle) queue).nextId = queue.nextId := by
  induction handles generalizing queue with
  | nil => rfl
  | cons handle rest ih => exact (ih _).trans (nextId_cancel? handle queue)

/-- Where no two timers have the same id, cancelling takes away the timer that the handle is for. -/
theorem tickets_cancel?_perm {queue : TimerQueue} (hnodup : queue.ids.Nodup)
    {handle : Option TimerId} {task : Task} {repeats : Bool} {others : List Ticket}
    (h : (queue.pending.map Timer.ticket).Perm (Ticket.held handle task repeats ++ others)) :
    ((queue.cancel? handle).pending.map Timer.ticket).Perm others := by
  cases handle with
  | none => exact h
  | some id =>
      have hmem : (⟨id, task, repeats⟩ : Ticket) ∈ queue.pending.map Timer.ticket :=
        h.mem_iff.mpr List.mem_cons_self
      obtain ⟨t, ht, hticket⟩ := List.mem_map.mp hmem
      have hid : t.id = id := congrArg Ticket.id hticket
      obtain ⟨u, before, after, -, hu, hsplit, herase⟩ :=
        List.exists_of_eraseP (p := (·.id = id)) ht (decide_eq_true hid)
      have hsame : u = t := by
        apply List.inj_on_of_nodup_map hnodup _ ht
        · rw [hid]
          exact of_decide_eq_true hu
        · rw [hsplit]
          simp
      have hperm : (queue.pending.map Timer.ticket).Perm
          (⟨id, task, repeats⟩ :: (queue.cancel? (some id)).pending.map Timer.ticket) := by
        rw [cancel?, pending_remove, herase, hsplit, hsame, ← hticket, ← List.map_cons]
        exact List.perm_middle.map _
      exact (hperm.symm.trans h).cons_inv

end TimerQueue

/-! ## The scheduler -/

namespace Scheduler

variable {n now : Nat} {rest : List Ticket} {s : Scheduler}

def slotTickets (s : Scheduler) : List Ticket :=
  SlotIndex.all.flatMap fun i => Ticket.held (s.slotTimers.value i) (.enqueue i) true

def tickets (s : Scheduler) : List Ticket :=
  s.slotTickets ++ Ticket.held s.manager .manageRadio false

theorem slotTickets_eq (s : Scheduler) :
    s.slotTickets = Ticket.held (s.slotTimers.value 0) (.enqueue 0) true ++
      (Ticket.held (s.slotTimers.value 1) (.enqueue 1) true ++
        Ticket.held (s.slotTimers.value 2) (.enqueue 2) true) := by
  simp [slotTickets, SlotIndex.all, SlotIndex.first, SlotIndex.second, SlotIndex.third]

/-- Putting a handle into the table adds its ticket to those of the table without it. -/
theorem slotTickets_put_perm (s : Scheduler) (slot : SlotIndex) (handle : Option TimerId) :
    { s with slotTimers := s.slotTimers.put slot handle }.slotTickets.Perm
      (Ticket.held handle (.enqueue slot) true ++
        { s with slotTimers := s.slotTimers.put slot none }.slotTickets) := by
  simp only [slotTickets_eq, PerSlot.value_put]
  match slot with
  | 0 => exact .refl _
  | 1 => exact List.perm_append_comm_assoc ..
  | 2 =>
      change (_ ++ (_ ++ Ticket.held handle _ _)).Perm (Ticket.held handle _ _ ++ (_ ++ (_ ++ [])))
      rw [List.append_nil, ← List.append_assoc]
      exact List.perm_append_comm

theorem mem_held {ticket : Ticket} {handle : Option TimerId} {task : Task} {repeats : Bool} :
    ticket ∈ Ticket.held handle task repeats ↔
      handle = some ticket.id ∧ ticket.task = task ∧ ticket.repeats = repeats := by
  cases handle with
  | none => simp [Ticket.held]
  | some id =>
      obtain ⟨id', task', repeats'⟩ := ticket
      simp [Ticket.held, eq_comm]

/-- A ticket of the scheduler is that of a slot, for a repeating timer, or the manager's. -/
theorem mem_tickets {ticket : Ticket} :
    ticket ∈ s.tickets ↔
      (∃ i, s.slotTimers.value i = some ticket.id ∧ ticket.task = .enqueue i ∧
        ticket.repeats = true) ∨
      (s.manager = some ticket.id ∧ ticket.task = .manageRadio ∧ ticket.repeats = false) := by
  simp only [tickets, slotTickets, List.mem_append, List.mem_flatMap, mem_held, SlotIndex.mem_all,
    true_and]

theorem length_slotTickets_le (s : Scheduler) : s.slotTickets.length ≤ 3 := by
  have h0 := Ticket.length_held_le (s.slotTimers.value 0) (.enqueue 0) true
  have h1 := Ticket.length_held_le (s.slotTimers.value 1) (.enqueue 1) true
  have h2 := Ticket.length_held_le (s.slotTimers.value 2) (.enqueue 2) true
  rw [slotTickets_eq, List.length_append, List.length_append]
  omega

theorem put_self {slot : SlotIndex} {handle : Option TimerId}
    (h : s.slotTimers.value slot = handle) :
    { s with slotTimers := s.slotTimers.put slot handle } = s := by
  rw [← h]
  simp [PerSlot.put, PerSlot.value]

theorem length_slotTickets_of_free {slot : SlotIndex} (hfree : s.slotTimers.value slot = none) :
    s.slotTickets.length ≤ 2 := by
  have hall := length_slotTickets_le { s with slotTimers := s.slotTimers.put slot (some 0) }
  rw [(s.slotTickets_put_perm slot (some 0)).length_eq, put_self hfree, List.length_append] at hall
  have hone : (Ticket.held (some 0) (.enqueue slot) true).length = 1 := rfl
  omega

/-- The pending timers are those that the handles of the scheduler and some others name, after `n`
posts. -/
structure Accounts (rest : List Ticket) (n : Nat) (s : Scheduler) : Prop where
  issued : s.timers.Issued n
  matched : (s.timers.pending.map Timer.ticket).Perm (s.tickets ++ rest)

namespace Accounts

theorem length_eq (h : s.Accounts rest n) :
    s.timers.pending.length =
      s.slotTickets.length + (Ticket.held s.manager .manageRadio false).length +
      rest.length := by
  have hlength := h.matched.length_eq
  rwa [List.length_map, List.length_append, tickets, List.length_append] at hlength

theorem of_eq {t : Scheduler} (h : s.Accounts rest n) (htimers : t.timers = s.timers)
    (hslots : t.slotTimers = s.slotTimers) (hmanager : t.manager = s.manager) :
    t.Accounts rest n := by
  have htickets : t.tickets = s.tickets := by
    rw [tickets, slotTickets, hslots, hmanager]
    rfl
  exact ⟨htimers ▸ h.issued, by rw [htimers, htickets]; exact h.matched⟩

theorem arm (h : s.Accounts rest n) {slot : SlotIndex} (hfree : s.slotTimers.value slot = none)
    (hrest : rest.length ≤ 2) (hfew : n < UInt32.size) (interval : UInt16) (now : Nat) :
    (arm slot interval now s).output = [] ∧
      (Scheduler.arm slot interval now s).state.Accounts rest (n + 1) := by
  have hslots := length_slotTickets_of_free hfree
  have hmanager := Ticket.length_held_le s.manager .manageRadio false
  have hroom : s.timers.pending.length < TimerQueue.capacity := by
    rw [h.length_eq, TimerQueue.capacity]
    omega
  let deadline := now + interval.toNat
  let period := some (max interval.toNat 1)
  have harm : Scheduler.arm slot interval now s =
      ⟨(), { s with
        timers := s.timers.posted deadline period (.enqueue slot)
        slotTimers := s.slotTimers.put slot (some s.timers.nextId) }, []⟩ := by
    simp only [Scheduler.arm, onTimers, TimerQueue.postEvery, Act.bind_apply, Act.within_apply,
      TimerQueue.insert_of_room hroom, Act.modify_apply]
    rfl
  rw [harm]
  have hadmits := TimerQueue.admits_posted hroom deadline period (.enqueue slot)
  refine ⟨rfl, h.issued.admits hfew hadmits rfl, ?_⟩
  have hput := s.slotTickets_put_perm slot (some s.timers.nextId)
  rw [put_self hfree] at hput
  refine (hadmits.perm.map Timer.ticket).trans ((h.matched.cons _).trans ?_)
  simp only [tickets, List.append_assoc]
  exact (hput.symm.append_right _)

theorem disarmSlot (h : s.Accounts rest n) (slot : SlotIndex) :
    (s.disarmSlot slot).Accounts rest n := by
  have hput := s.slotTickets_put_perm slot (s.slotTimers.value slot)
  rw [put_self rfl] at hput
  constructor
  · apply h.issued.of_subperm (TimerQueue.nextId_cancel? _ _)
    exact ((TimerQueue.pending_cancel?_sublist _ _).map Timer.id).subperm
  · apply TimerQueue.tickets_cancel?_perm h.issued.nodup
    refine h.matched.trans ?_
    simp only [tickets, List.append_assoc]
    have hboth := hput.append_right (Ticket.held s.manager .manageRadio false ++ rest)
    rwa [List.append_assoc] at hboth

/-- Arming a free slot takes one post, of which the log tells. -/
theorem balances_arm (h : s.Accounts rest n) {slot : SlotIndex}
    (hfree : s.slotTimers.value slot = none) (hrest : rest.length ≤ 2) (interval : UInt16)
    (now : Nat) {notice : Notice} (hnotice : notice.reportsPost) :
    Balances (fun m => (Scheduler.arm slot interval now s).state.Accounts rest m) n
      ((Scheduler.arm slot interval now s).output ++ [.notice notice]) := by
  apply Balances.of_fewer
  intro hfew
  obtain ⟨hquiet, harmed⟩ := h.arm hfree hrest hfew interval now
  rw [hquiet, List.nil_append]
  exact balances_post hnotice harmed

theorem armAll (h : s.Accounts rest n) (p : State) (now : Nat) (hrest : rest.length ≤ 2)
    {slots : List SlotIndex} (hslots : slots.Nodup)
    (hfree : ∀ slot ∈ slots, s.slotTimers.value slot = none) :
    Balances (fun m => (armAll p now slots s).state.Accounts rest m) n
      (Scheduler.armAll p now slots s).output := by
  induction slots generalizing s n with
  | nil => exact untimed_nil.balances h
  | cons slot others ih =>
      obtain ⟨hslot, hothers⟩ := List.nodup_cons.mp hslots
      rw [Scheduler.armAll]
      cases AdvertProvider.interval? p slot.val with
      | none => exact ih h hothers fun other hother => hfree other (.tail _ hother)
      | some interval =>
          let queued : Scheduler := { s with queue := s.queue ++ [slot.val] }
          have hqueued : queued.Accounts rest n := h.of_eq rfl rfl rfl
          have hreport : (Notice.slotArmed slot interval).reportsPost := rfl
          have hone := hqueued.balances_arm (hfree slot (.head _)) hrest interval now hreport
          have hstill : ∀ other ∈ others,
              (Scheduler.arm slot interval now queued).state.slotTimers.value other = none := by
            intro other hother
            have hne : slot ≠ other := fun heq => hslot (heq ▸ hother)
            rw [arm_state]
            exact (PerSlot.value_put_of_ne hne _ _).trans (hfree other (.tail _ hother))
          have hboth := hone.append fun m harmed => ih harmed hothers hstill
          simpa [Scheduler.armAll] using hboth

theorem rearm {p : State} (h : s.Accounts rest n) (hrest : rest.length ≤ 2) (slot : Nat) :
    Balances (fun m => (rearm p slot now s).state.Accounts rest m) n
      (Scheduler.rearm p slot now s).output := by
  unfold Scheduler.rearm
  split
  next hslot =>
    let i : SlotIndex := ⟨slot, hslot⟩
    have hdisarmed := h.disarmSlot i
    have hfree : (s.disarmSlot i).slotTimers.value i = none := PerSlot.value_put_self i none _
    simp only [Act.bind_apply, Act.get_apply, Done.after_nil]
    cases s.running with
    | false => exact untimed_nil.balances h
    | true =>
        rw [if_pos rfl]
        cases AdvertProvider.interval? p slot with
        | none => exact (untimed_singleton rfl).balances hdisarmed
        | some interval => exact hdisarmed.balances_arm hfree hrest interval now rfl
  next => exact untimed_nil.balances h

theorem handOver (h : s.Accounts rest n) (hfree : s.manager = none) (queue : List Nat) :
    (s.handOver queue).Accounts rest n :=
  h.of_eq rfl rfl hfree.symm

/-- However the turn ends, the log tells of it. -/
theorem balances_broadcast {P : Nat → Prop} {slot : Nat} (x : Scheduler × State) (hP : P (n + 1)) :
    Balances P n (broadcast slot now x).output := by
  have hprepare := (State.asides_prepare slot now x.2).plain.untimed
  cases hvalue : (State.prepare slot now x.2).value with
  | none =>
      rw [(broadcast_of_none hvalue).1]
      apply (hprepare.balances (P := fun m => m = n) rfl).append
      rintro m rfl
      exact balances_post rfl hP
  | some advert =>
      obtain ⟨addressing, fault, -, houtput, -⟩ := broadcast_of_some hvalue
      rw [houtput]
      apply (hprepare.balances (P := fun m => m = n) rfl).append
      rintro m rfl
      apply (addressing.untimed_outputs.balances (P := fun k => k = m) rfl).append
      rintro k rfl
      exact advert.balances_outputs slot fault hP

/-- The radio manager, when nobody has the radio, posts itself anew with every turn. -/
theorem manageRadio {p : State} (h : s.Accounts rest n) (hfree : s.manager = none)
    (hrest : rest.length ≤ 2) :
    Balances (fun m => (manageRadio now (s, p)).state.1.Accounts rest m) n
      (Scheduler.manageRadio now (s, p)).output := by
  cases hqueue : s.queue with
  | nil =>
      rw [manageRadio_eq_of_nil hqueue]
      exact (Radio.untimed_quiet s.radio).balances (h.handOver hfree [])
  | cons slot queue =>
      obtain ⟨delay, hmanage⟩ := manageRadio_eq_of_cons hqueue now p
      have htaken := h.handOver hfree queue
      rw [hmanage]
      apply Balances.of_fewer
      intro hfew
      have hslots := length_slotTickets_le s
      have hroom : s.timers.pending.length < TimerQueue.capacity := by
        rw [h.length_eq, hfree, TimerQueue.capacity]
        change _ + 0 + _ < 6
        omega
      have hpost : TimerQueue.postIn now delay .manageRadio s.timers =
          ⟨some s.timers.nextId, s.timers.posted (now + delay) none .manageRadio, []⟩ :=
        TimerQueue.insert_of_room hroom _ _ _
      rw [hpost, List.append_nil]
      apply ((Radio.untimed_quiet s.radio).balances (P := fun m => m = n) rfl).append
      rintro m rfl
      apply balances_broadcast
      have hadmits := TimerQueue.admits_posted hroom (now + delay) none .manageRadio
      refine ⟨h.issued.admits hfew hadmits rfl, ?_⟩
      have hmatched := h.matched
      rw [tickets, hfree] at hmatched
      apply (hadmits.perm.map Timer.ticket).trans
      apply (hmatched.cons _).trans
      change (_ :: (s.slotTickets ++ [] ++ rest)).Perm ((s.slotTickets ++ [_]) ++ rest)
      rw [List.append_nil, List.append_assoc]
      exact List.perm_middle.symm

theorem offer (h : s.Accounts rest n) (slot : Nat) : (offer slot s).state.Accounts rest n := by
  obtain ⟨queue, hoffer, -⟩ := offer_cases slot s
  rw [hoffer]
  exact h.of_eq rfl rfl rfl

/-- The timer of a slot that fires stays what its handle names. -/
theorem popDue_enqueue (h : s.Accounts [] n) {id : TimerId} {slot : Nat}
    (hfired : (TimerQueue.popDue now s.timers).value = some (id, .enqueue slot)) :
    { s with timers := (TimerQueue.popDue now s.timers).state }.Accounts [] n := by
  have hissued := h.issued.popDue now
  cases TimerQueue.popDue_tickets hfired with
  | inl hrepeats => exact ⟨hissued, hrepeats.1.trans h.matched⟩
  | inr honce =>
      have hmem := h.matched.mem_iff.mp (honce.mem_iff.mpr List.mem_cons_self)
      rw [List.append_nil] at hmem
      rcases mem_tickets.mp hmem with ⟨i, -, -, hrepeats⟩ | ⟨-, htask, -⟩
      · cases hrepeats
      · cases htask

/-- The timer of the radio manager that fires is the one that its handle names. -/
theorem popDue_manageRadio (h : s.Accounts [] n) {id : TimerId}
    (hfired : (TimerQueue.popDue now s.timers).value = some (id, .manageRadio)) :
    { s with timers := (TimerQueue.popDue now s.timers).state, manager := none }.Accounts [] n := by
  have hissued := h.issued.popDue now
  have hmatched := h.matched
  rw [List.append_nil] at hmatched
  cases TimerQueue.popDue_tickets hfired with
  | inl hrepeats =>
      rcases mem_tickets.mp (hmatched.mem_iff.mp hrepeats.2) with ⟨i, -, htask, -⟩ | ⟨-, -, honce⟩
      · cases htask
      · cases honce
  | inr honce =>
      have hmem := hmatched.mem_iff.mp (honce.mem_iff.mpr List.mem_cons_self)
      rcases mem_tickets.mp hmem with ⟨i, -, htask, -⟩ | ⟨hmanager, -, -⟩
      · cases htask
      have hcons := honce.symm.trans hmatched
      rw [tickets, hmanager] at hcons
      refine ⟨hissued, ?_⟩
      change (_ : List Ticket).Perm (s.slotTickets ++ [] ++ [])
      rw [List.append_nil, List.append_nil]
      exact (hcons.trans List.perm_append_comm).cons_inv

end Accounts

end Scheduler

theorem Scheduler.untimed_offer (slot : Nat) (s : Scheduler) : Untimed (offer slot s).output := by
  simp only [offer, Act.bind_apply, Act.get_apply, Done.after_nil]
  split
  · exact untimed_nil
  · split
    · exact untimed_nil
    · exact untimed_singleton rfl

theorem Scheduler.nextId_stop (s : Scheduler) :
    (stop s).state.timers.nextId = s.timers.nextId := by
  rw [stop_state]
  simp only [disarm, ← Vector.foldl_toList]
  exact (TimerQueue.nextId_cancel? _ _).trans (TimerQueue.nextId_foldl_cancel? _ _)

/-! ## The engine -/

namespace Engine

variable {α : Type} {n now : Nat} {e : Engine}

/-- The timers that the handles of the modes name. -/
def modeTickets (e : Engine) : List Ticket :=
  Ticket.held e.configTimer .configTimeout false ++ Ticket.held e.resumeTimer .resumeBeacon false

def tickets (e : Engine) : List Ticket :=
  e.scheduler.tickets ++ e.modeTickets

def Accounts (n : Nat) (e : Engine) : Prop :=
  e.scheduler.Accounts e.modeTickets n

theorem length_modeTickets_le (e : Engine) : e.modeTickets.length ≤ 2 := by
  have hconfig := Ticket.length_held_le e.configTimer .configTimeout false
  have hresume := Ticket.length_held_le e.resumeTimer .resumeBeacon false
  rw [modeTickets, List.length_append]
  omega

theorem Quiet.accounts (hquiet : e.Quiet) (hnext : e.scheduler.timers.nextId = UInt32.ofNat n) :
    e.Accounts n := by
  constructor
  · constructor
    · exact hnext
    · simp [TimerQueue.ids, hquiet.pending]
    · simp [TimerQueue.ids, hquiet.pending]
  · rw [modeTickets, Scheduler.tickets, Scheduler.slotTickets_eq, hquiet.pending,
      hquiet.configTimer, hquiet.resumeTimer, hquiet.atRest.slotTimers, hquiet.atRest.manager]
    simp only [PerSlot.value_all]
    exact .refl _

theorem Beaconing.modeTickets_eq (hbeaconing : e.Beaconing) : e.modeTickets = [] := by
  rw [modeTickets, hbeaconing.configTimer, hbeaconing.resumeTimer]
  rfl

theorem Accounts.next (h : e.Accounts n) : e.scheduler.timers.nextId = UInt32.ofNat n :=
  h.issued.next

theorem nextId_leaveMode (e : Engine) :
    (leaveMode e).state.scheduler.timers.nextId = e.scheduler.timers.nextId := by
  apply (Scheduler.nextId_stop _).trans
  exact (TimerQueue.nextId_cancel? _ _).trans (TimerQueue.nextId_cancel? _ _)

theorem Quiet.hushed (hquiet : e.Quiet) : (onScheduler Scheduler.stop e).state.Quiet where
  atRest := Scheduler.atRest_stop _
  pending := by
    apply TimerQueue.pending_eq_nil_of_ids
    apply Scheduler.ids_stop_perm
    simp [TimerQueue.ids, hquiet.pending, hquiet.atRest.handles_eq]
  configTimer := hquiet.configTimer
  resumeTimer := hquiet.resumeTimer

/-- A quiet engine that posts a timer has that alone to wait for. -/
theorem Quiet.accounts_posted (hquiet : e.Quiet) (h : e.Accounts n) (hfew : n < UInt32.size)
    {deadline : Nat} {task : Task} {posted : Engine} (hrest : posted.scheduler.AtRest)
    (htimers : posted.scheduler.timers = e.scheduler.timers.posted deadline none task)
    (htickets : posted.modeTickets = [⟨e.scheduler.timers.nextId, task, false⟩]) :
    posted.Accounts (n + 1) := by
  constructor
  · rw [htimers]
    exact h.issued.admits hfew (TimerQueue.admits_posted hquiet.room deadline none task) rfl
  · rw [htimers, htickets, hquiet.pending_posted, Scheduler.tickets, Scheduler.slotTickets_eq,
      hrest.slotTimers, hrest.manager]
    simp only [PerSlot.value_all]
    exact .refl _

theorem untimed_configCalls (state : State) (payload : Bytes) (fault : Option RadioFault) :
    Untimed (configCalls state payload fault) := by
  intro output hmem
  simp only [configCalls, List.mem_cons, List.not_mem_nil, or_false] at hmem
  rcases hmem with rfl | rfl | rfl | rfl <;> rfl

/-- Configuration mode takes one post. -/
theorem Quiet.balances_enterConfig (hquiet : e.Quiet) (h : e.Accounts n) (scan payload : Bytes) :
    Balances (fun m => (enterConfig scan payload now e).state.Accounts m) n
      (enterConfig scan payload now e).output := by
  have hloaded (fault : Option RadioFault) : Untimed [.radio (.scanResponse scan) fault] :=
    untimed_singleton rfl
  have houtcome := hquiet.enterConfig_outcome scan payload now
  generalize enterConfig scan payload now e = done at houtcome ⊢
  have hkept (radio : Radio) : { e with scheduler.radio := radio }.Accounts n :=
    Scheduler.Accounts.of_eq h rfl rfl rfl
  cases houtcome with
  | unscanned radio fault => exact (hloaded _).balances (hkept radio)
  | refused radio fault =>
      exact ((hloaded none).append (untimed_configCalls _ _ _)).balances (hkept radio)
  | entered radio hreports =>
      have hcalls := (hloaded none).append (untimed_configCalls e.state payload none)
      apply (hcalls.balances (P := fun m => m = n) rfl).append
      rintro m rfl
      apply Balances.of_fewer
      intro hfew
      have hdone : { e.timed radio now with mode := .config }.Accounts (m + 1) := by
        apply hquiet.accounts_posted h hfew
        · exact ⟨hquiet.atRest.slotTimers, hquiet.atRest.manager, hquiet.atRest.queue,
            hquiet.atRest.running⟩
        · rfl
        · change [_] ++ Ticket.held e.resumeTimer _ _ = _
          rw [hquiet.resumeTimer]
          rfl
      apply (balances_post (P := fun k => k = m + 1) rfl rfl).append
      rintro k rfl
      exact hreports.untimed.balances hdone

theorem untimed_clearScanResponse (e : Engine) : Untimed (clearScanResponse e).output := by
  obtain ⟨fault, report, hreport, hclear⟩ := clearScanResponse_eq e
  have hcall : Untimed [.radio (.scanResponse []) fault] := untimed_singleton rfl
  rw [hclear]
  exact hcall.append hreport.untimed

/-- Coming on air takes one post for every slot that is armed. -/
theorem Quiet.balances_raise (hquiet : e.Quiet) (h : e.Accounts n) :
    Balances (fun m => (raise now e).state.Accounts m) n (raise now e).output := by
  have hcleared : (Engine.cleared e).Quiet := hquiet.cleared.hushed
  have hnext : (Engine.cleared e).scheduler.timers.nextId = UInt32.ofNat n := by
    apply (Scheduler.nextId_stop _).trans
    rw [clearScanResponse_state]
    exact h.next
  have hhastened : (Engine.cleared e).scheduler.hasten.Accounts (Engine.cleared e).modeTickets n :=
    Scheduler.Accounts.of_eq (hcleared.accounts hnext) rfl rfl rfl
  have hfree : ∀ slot ∈ SlotIndex.all,
      (Engine.cleared e).scheduler.hasten.slotTimers.value slot = none := by
    intro slot _
    change (Engine.cleared e).scheduler.slotTimers.value slot = none
    rw [hcleared.atRest.slotTimers, PerSlot.value_all]
  have harmed := hhastened.armAll (Engine.cleared e).state now
    (Engine.cleared e).length_modeTickets_le (by decide : SlotIndex.all.Nodup) hfree
  have hinterval : Untimed
      [.radio (.interval (Engine.cleared e).scheduler.radio.minInterval) none] :=
    untimed_singleton rfl
  rw [raise_apply]
  apply ((untimed_clearScanResponse e).balances (P := fun m => m = n) rfl).append
  rintro m rfl
  apply ((Radio.untimed_quiet _).balances (P := fun k => k = m) rfl).append
  rintro k rfl
  apply (hinterval.balances (P := fun l => l = k) rfl).append
  rintro l rfl
  exact harmed.imp fun k hk => Scheduler.Accounts.of_eq hk rfl rfl rfl

theorem Move.balances {action : Act Engine α} (hmove : Move now e action) (h : e.Accounts n) :
    Balances (fun m => (action e).state.Accounts m) n (action e).output := by
  cases hmove with
  | @note notice hnotice =>
      have hreport : Untimed [.notice notice] := untimed_singleton hnotice
      exact hreport.balances h
  | emit event => exact (untimed_singleton rfl).balances h
  | drain =>
      have hevents : Untimed (onState State.drainEvents e).output := by
        intro output hmem
        obtain ⟨event, -, rfl⟩ := List.mem_map.mp hmem
        rfl
      exact hevents.balances h
  | turnTo mode =>
      obtain ⟨reports, hreports, hmode⟩ := setMode_eq mode e
      rw [hmode]
      exact hreports.untimed.balances h
  | leave hphase =>
      have haccounts := hphase.leaveMode.accounts ((nextId_leaveMode e).trans h.next)
      exact (Radio.untimed_quiet _).balances haccounts
  | hush hquiet =>
      have haccounts := hquiet.hushed.accounts ((Scheduler.nextId_stop _).trans h.next)
      exact (Radio.untimed_quiet _).balances haccounts
  | clear hquiet =>
      have haccounts := hquiet.cleared.accounts (n := n) (by rw [clearScanResponse_state, h.next])
      exact (untimed_clearScanResponse e).balances haccounts
  | configure hquiet _ => exact hquiet.balances_enterConfig h _ _
  | raise hquiet _ => exact hquiet.balances_raise h
  | manage _ hfree => exact Scheduler.Accounts.manageRadio h hfree e.length_modeTickets_le
  | @ring id slot hbeaconing hfired =>
      have hslots : e.scheduler.Accounts [] n := hbeaconing.modeTickets_eq ▸ h
      have hoffered := (hslots.popDue_enqueue hfired).offer slot
      rw [← hbeaconing.modeTickets_eq] at hoffered
      exact (Scheduler.untimed_offer slot _).balances hoffered
  | release hbeaconing hfired =>
      have hslots : e.scheduler.Accounts [] n := hbeaconing.modeTickets_eq ▸ h
      have hreleased := hslots.popDue_manageRadio hfired
      rw [← hbeaconing.modeTickets_eq] at hreleased
      exact untimed_nil.balances hreleased
  | wake hwaiting hdue =>
      have hnext := (nextId_leaveMode (e.woken now)).trans (h.issued.popDue now).next
      have haccounts := (hwaiting.quiet_wake hdue).accounts hnext
      rw [wake_apply] at haccounts ⊢
      exact (Radio.untimed_quiet _).balances haccounts
  | rearm slot _ => exact Scheduler.Accounts.rearm h e.length_modeTickets_le slot

theorem Path.balances {e' : Engine} {out : Transcript} (hpath : Path now e out e')
    (h : e.Accounts n) : Balances (fun m => e'.Accounts m) n out := by
  induction hpath generalizing n with
  | refl e => exact untimed_nil.balances h
  | step hmove _ ih => exact (hmove.balances h).append fun m hm => ih hm

/-- The pause after a connection takes one post. -/
theorem Quiet.accounts_awaitResume (hquiet : e.Quiet) (h : e.Accounts n) (hfew : n < UInt32.size)
    (now : Nat) :
    Untimed (awaitResume now e).output ∧ (awaitResume now e).state.Accounts (n + 1) := by
  let delay := e.state.config.resumeDelay.toNat
  let waiting : Engine := { e with
    scheduler.timers := e.scheduler.timers.posted (now + delay) none .resumeBeacon
    resumeTimer := some e.scheduler.timers.nextId }
  obtain ⟨reports, hreports, hmode⟩ := setMode_eq .idle waiting
  have hawait : awaitResume now e = ⟨(), { waiting with mode := .idle }, reports⟩ := by
    rw [← hmode]
    simp only [awaitResume, Act.bind_apply, Act.get_apply, hquiet.onTimers_postIn,
      Act.modify_apply, Done.after_nil]
    rfl
  rw [hawait]
  refine ⟨hreports.untimed, ?_⟩
  apply hquiet.accounts_posted h hfew
  · exact ⟨hquiet.atRest.slotTimers, hquiet.atRest.manager, hquiet.atRest.queue,
      hquiet.atRest.running⟩
  · rfl
  · change Ticket.held e.configTimer _ _ ++ [_] = _
    rw [hquiet.configTimer]
    rfl

/-- The situation that a timer is for. -/
def Expects (e : Engine) : Task → Prop
  | .enqueue _ => e.scheduler.running = true ∧ e.mode = .beacon
  | .manageRadio => e.scheduler.running = true ∧ e.mode = .beacon
  | .configTimeout => e.mode = .config
  | .resumeBeacon => e.mode = .idle

theorem InPhase.expects (hphase : e.InPhase) {t : Timer} (ht : t ∈ e.scheduler.timers.pending) :
    e.Expects t.task := by
  cases hphase with
  | quiet h =>
      rw [h.pending] at ht
      cases ht
  | configuring h =>
      rw [h.pending, List.mem_singleton] at ht
      rw [ht, h.task]
      exact h.mode
  | pausing h =>
      rw [h.pending, List.mem_singleton] at ht
      rw [ht, h.task]
      exact h.mode
  | beaconing h =>
      cases h.coherent.onAir t ht with
      | enqueue _ => exact ⟨h.running, h.mode⟩
      | manageRadio => exact ⟨h.running, h.mode⟩

theorem Quiet.poll_eq (hquiet : e.Quiet) (hevents : e.state.pendingEvents = []) :
    Engine.poll now e = ⟨(), e, []⟩ := by
  have hfire := hquiet.fireOne now
  have hnone : (Engine.fireOne now e).value = none := by rw [hfire]
  have hdrain : onState State.drainEvents e = ⟨(), e, []⟩ := by
    have hsame : { e.state with pendingEvents := [] } = e.state := by rw [← hevents]
    simp only [onState, Act.within_apply, State.drainEvents, hsame, hevents, List.map_nil]
  simp only [Engine.poll, Act.bind_apply, Act.gather_of_none hnone, hfire, hdrain, Done.after_nil]

theorem length_tickets_le (e : Engine) : e.tickets.length ≤ TimerQueue.capacity := by
  have hslots := e.scheduler.length_slotTickets_le
  have hmanager := Ticket.length_held_le e.scheduler.manager .manageRadio false
  have hmodes := e.length_modeTickets_le
  rw [tickets, Scheduler.tickets, List.length_append, List.length_append, TimerQueue.capacity]
  omega

end Engine

/-! ## Runs -/

/-- How many timers a request has posted: the log tells of every post but that of the pause. -/
def Entry.posts (x : Entry) : Nat :=
  x.output.posts + x.pauses.toNat

def History.posts : History → Nat
  | [] => 0
  | x :: rest => x.posts + History.posts rest

theorem History.posts_append (a b : History) : posts (a ++ b) = posts a + posts b := by
  induction a with
  | nil => exact (Nat.zero_add _).symm
  | cons x rest ih => rw [List.cons_append, posts, posts, ih, Nat.add_assoc]

/-- As long as there are ids left, a request drops no post and keeps the accounts. -/
theorem Entry.accounts {x : Entry} {n : Nat} (hphase : x.before.1.InPhase)
    (h : x.before.1.Accounts n) (hfew : n + x.posts < UInt32.size) :
    x.output.Dropless ∧ x.after.1.Accounts (n + x.posts) := by
  cases x.route hphase with
  | served opening dirty hstays _ houtput hopening hpath =>
      rw [posts, hstays, houtput] at hfew ⊢
      have hanswered : { x.before.1 with state := x.answered, paramsDirty := dirty }.Accounts n := h
      have hboth := (hopening.untimed.balances (P := fun m => m = n) rfl).append
        (Q := fun m => x.after.1.Accounts m) fun m hm => hpath.balances (hm ▸ hanswered)
      exact hboth hfew
  | kept clock clockDirty dirty hstays hplain hafter hanswered =>
      rw [posts, hstays, hplain.untimed.posts_eq_zero, hafter]
      exact ⟨hplain.untimed.dropless, h⟩
  | @paused now e clock clockDirty dirty opening hrequest hmode he houtput hopening hafter =>
      have hpauses : x.pauses = true := by rw [pauses, hrequest, hmode]
      have hquiet := hphase.quiet_of_connected hmode
      have hsame : e.Quiet ∧ e.Accounts n := by
        rw [he]
        exact ⟨⟨hquiet.atRest, hquiet.pending, hquiet.configTimer, hquiet.resumeTimer⟩, h⟩
      have hroom : n < UInt32.size := by
        rw [posts, hpauses, Bool.toNat_true] at hfew
        omega
      obtain ⟨huntimed, haccounts⟩ := hsame.1.accounts_awaitResume hsame.2 hroom now
      have hwhole := hopening.untimed.append huntimed
      rw [posts, hpauses, houtput, hafter, hwhole.posts_eq_zero]
      exact ⟨hwhole.dropless, haccounts⟩

namespace Device

variable {config : Config} {store : Store} {start d : Device} {history : History}

theorem Booted.accounts (hbooted : Booted config store d) : d.1.Accounts 0 := by
  apply hbooted.quiet.accounts
  obtain ⟨radio, state, dirty, h⟩ := hbooted.exists_radio
  rw [h]
  rfl

theorem accounts_of_run (hbooted : Booted config store start) (hrun : Run start history d)
    (hfew : history.posts < UInt32.size) :
    (∀ x ∈ history, x.output.Dropless) ∧ d.1.Accounts history.posts := by
  induction hrun with
  | start => exact ⟨fun x hmem => (nomatch hmem), hbooted.accounts⟩
  | @serve history d request hrun ih =>
      have hone : History.posts [⟨d, request⟩] = Entry.posts ⟨d, request⟩ := Nat.add_zero _
      rw [History.posts_append, hone] at hfew ⊢
      obtain ⟨hdropless, haccounts⟩ := ih (Nat.lt_of_le_of_lt (Nat.le_add_right _ _) hfew)
      have hphase := (Reachable.of_run (.boot hbooted) hrun).inPhase
      obtain ⟨hserved, hkept⟩ := Entry.accounts (x := ⟨d, request⟩) hphase haccounts hfew
      refine ⟨fun x hmem => ?_, hkept⟩
      cases List.mem_append.mp hmem with
      | inl hmem => exact hdropless x hmem
      | inr hmem =>
          rw [List.mem_singleton.mp hmem]
          exact hserved

/-- As long as not all ids have been given out, the pending timers of a device are those that its
handles name, one for each; no post was dropped; every timer waits in the situation that it is for;
and during a connection nothing is pending and polling does nothing. -/
theorem timers_match_handles (hbooted : Booted config store start) (hrun : Run start history d)
    (hfew : history.posts < UInt32.size) :
    d.1.scheduler.timers.nextId.toNat = history.posts ∧
      d.1.scheduler.timers.ids.Nodup ∧
      (d.1.scheduler.timers.pending.map Timer.ticket).Perm d.1.tickets ∧
      d.1.scheduler.timers.pending.length ≤ 6 ∧
      (∀ x ∈ history, x.output.Dropless) ∧
      (∀ t ∈ d.1.scheduler.timers.pending, d.1.Expects t.task) ∧
      (d.1.mode = .connected →
        d.1.scheduler.timers.pending = [] ∧ ∀ now, Engine.poll now d.1 = ⟨(), d.1, []⟩) := by
  obtain ⟨hdropless, haccounts⟩ := accounts_of_run hbooted hrun hfew
  have hreach := Reachable.of_run (.boot hbooted) hrun
  have hphase := hreach.inPhase
  refine ⟨?_, haccounts.issued.nodup, haccounts.matched, ?_, hdropless,
    fun t ht => hphase.expects ht, fun hmode => ?_⟩
  · rw [haccounts.issued.next]
    exact Nat.mod_eq_of_lt hfew
  · have hlength := haccounts.matched.length_eq
    rw [List.length_map] at hlength
    rw [hlength]
    exact d.1.length_tickets_le
  · have hquiet := hphase.quiet_of_connected hmode
    exact ⟨hquiet.pending, fun now => hquiet.poll_eq hreach.pendingEvents⟩

/-- A device that comes on air, is connected to and is left again. -/
def visited (start : Device) : History :=
  let onAir := (serve (.command .startBeacon 0) start).state
  let connected := (serve (.radioEvent .connected 50) onAir).state
  [⟨start, .command .startBeacon 0⟩, ⟨onAir, .radioEvent .connected 50⟩,
    ⟨connected, .radioEvent .disconnected 60⟩]

theorem run_visited (start : Device) : ∃ d, Run start (visited start) d := by
  have hbeaconing := (Run.start : Run start [] start).serve (.command .startBeacon 0)
  have hconnected := hbeaconing.serve (.radioEvent .connected 50)
  exact ⟨_, hconnected.serve (.radioEvent .disconnected 60)⟩

/-- After the connection the timer that is pending is that of the pause. -/
theorem timers_match_handles_visited :
    ∃ start d, Booted Config.standard ⟨.memory none, fun _ _ => none, 0⟩ start ∧
      Run start (visited start) d ∧ (visited start).posts = 3 ∧
      (d.1.scheduler.timers.pending.map Timer.ticket).Perm d.1.tickets := by
  obtain ⟨start, hbooted, hposts⟩ :
      ∃ start, Booted Config.standard ⟨.memory none, fun _ _ => none, 0⟩ start ∧
        (visited start).posts = 3 :=
    exists_booted_of_eq (.idle 100 10240 fun _ _ => none) (some (Octets.zero 32)) 0
      (fun start => (visited start).posts) (by decide +kernel)
  obtain ⟨d, hrun⟩ := run_visited start
  have hmatch := timers_match_handles hbooted hrun (hposts ▸ (by decide : 3 < UInt32.size))
  exact ⟨start, d, hbooted, hrun, hposts, hmatch.2.2.1⟩

end Device

end Beacon

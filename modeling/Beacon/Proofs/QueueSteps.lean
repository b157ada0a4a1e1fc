import Beacon.Proofs.Queueing

/-!
# Steps of the queue for the radio

What each step does to the slots that wait is what the line tells that its log
makes.  A start arms the slots and lets the first of them have the radio at once;
the radio manager takes the slot that has waited longest.

Whenever slots wait the radio manager has a timer: it posts one with every turn,
and a slot that is put into the queue while nobody has the radio has its turn at
once.
-/

namespace Beacon

open Transcript Lineup

namespace Scheduler

variable {now : Nat} {s : Scheduler}

/-- Somebody has the radio while slots wait for it. -/
def Served (s : Scheduler) : Prop :=
  s.queue ≠ [] → s.manager ≠ none

theorem AtRest.served (hrest : s.AtRest) : s.Served := by
  intro h
  exact absurd hrest.queue h

theorem lineup_insert (deadline : Nat) (period : Option Nat) (task : Task) (queue : TimerQueue) :
    lineup (TimerQueue.insert deadline period task queue).output = [] := by
  rcases TimerQueue.insert_cases deadline period task queue with ⟨-, h⟩ | ⟨-, -, h⟩
  · rw [h]
    rfl
  · rw [h]
    rfl

theorem lineup_broadcast (slot now : Nat) (x : Scheduler × State) :
    lineup (broadcast slot now x).output = [.taken slot] := by
  have hprepare := (State.asides_prepare slot now x.2).plain.untimed.lineup_eq_nil
  cases hvalue : (State.prepare slot now x.2).value with
  | none =>
      rw [(broadcast_of_none hvalue).1, lineup_append, hprepare]
      rfl
  | some advert =>
      obtain ⟨addressing, fault, -, houtput, -⟩ := broadcast_of_some hvalue
      rw [houtput, lineup_append, lineup_append, hprepare,
        addressing.untimed_outputs.lineup_eq_nil]
      cases fault <;> rfl

theorem lineup_giveTurn (slot now : Nat) (x : Scheduler × State) :
    lineup (giveTurn slot now x).output = [.taken slot] := by
  simp only [giveTurn, Act.bind_apply, Act.onFst_apply, Act.get_apply, Act.modify_apply,
    Done.output_after, Done.after_nil, List.append_nil, lineup_append, lineup_broadcast]
  have hquiet := (Radio.untimed_quiet x.1.radio).lineup_eq_nil
  have hpost (timers : TimerQueue) (delay : Nat) :
      lineup (TimerQueue.postIn now delay .manageRadio timers).output = [] := lineup_insert ..
  simp only [onRadio, onTimers, Act.within_apply, hquiet, hpost, List.nil_append, List.append_nil]

/-- The radio manager takes the slot that has waited longest. -/
theorem moves_manageRadio (now : Nat) (s : Scheduler) (p : State) :
    Moves s.queue (lineup (manageRadio now (s, p)).output)
      (manageRadio now (s, p)).state.1.queue := by
  rcases manageRadio_cases now s p with
    ⟨hqueue, radio, h⟩ | ⟨slot, rest, delay, radio, p', hqueue, h⟩
  · have hline : lineup (manageRadio now (s, p)).output = [] := by
      rw [manageRadio_of_nil hqueue]
      exact (Radio.untimed_quiet s.radio).lineup_eq_nil
    rw [hline, h]
    exact .done s.queue
  · have hline : lineup (manageRadio now (s, p)).output = [.taken slot] := by
      rw [manageRadio_of_cons hqueue, lineup_giveTurn]
    rw [hline, h, hqueue]
    exact .take (.done rest)

theorem length_slotHandles_le (s : Scheduler) : s.slotHandles.length ≤ 3 := by
  have hfilter : s.slotHandles = s.slotTimers.toList.filterMap id :=
    (List.filterMap_eq_flatMap_toList id s.slotTimers.toList).symm
  rw [hfilter]
  exact Nat.le_trans (List.length_filterMap_le id _) (Nat.le_of_eq s.slotTimers.length_toList)

/-- With at most the timers of the slots pending there is room for that of the radio manager. -/
theorem served_manageRadio {p : State} (hcoh : (manageRadio now (s, p)).state.1.Coherent) :
    (manageRadio now (s, p)).state.1.Served := by
  rcases manageRadio_cases now s p with ⟨hqueue, radio, h⟩ | ⟨slot, rest, delay, radio, p', -, h⟩
  · rw [h]
    exact fun hne => absurd hqueue hne
  · rw [h] at hcoh ⊢
    intro _
    rcases TimerQueue.insert_cases (now + delay) none .manageRadio s.timers with
      ⟨hfull, hinsert⟩ | ⟨-, -, hinsert⟩
    · simp only [TimerQueue.postIn, hinsert] at hcoh
      have hlength := hcoh.owned.length_eq
      have hslots : s.slotHandles.length ≤ 3 := s.length_slotHandles_le
      simp only [TimerQueue.ids, handles, List.length_map, List.length_append, Option.toList_none,
        List.length_nil] at hlength
      change 6 ≤ _ at hfull
      change _ = s.slotHandles.length + 0 at hlength
      omega
    · simp only [TimerQueue.postIn, hinsert]
      exact Option.some_ne_none _

theorem offer_of_mem {slot : Nat} (h : slot ∈ s.queue) : offer slot s = ⟨(), s, []⟩ := by
  simp only [offer, Act.bind_apply, Act.get_apply, Done.after_nil, h, if_true]
  rfl

theorem offer_of_room {slot : Nat} (h : slot ∉ s.queue) (hroom : s.queue.length < 3) :
    offer slot s = ⟨(), { s with queue := s.queue ++ [slot] }, []⟩ := by
  simp only [offer, Act.bind_apply, Act.get_apply, Done.after_nil, h, hroom, if_true, if_false]
  rfl

theorem lineup_arm (slot : SlotIndex) (interval : UInt16) (now : Nat) (s : Scheduler) :
    lineup (arm slot interval now s).output = [] := by
  simp only [arm, Act.bind_apply, Act.modify_apply, Done.output_after, List.append_nil]
  exact lineup_insert ..

/-- The slots that are armed join the queue. -/
theorem moves_armAll (p : State) (now : Nat) {slots : List SlotIndex} (hslots : slots.Nodup)
    (hfree : ∀ slot ∈ slots, slot.val ∉ s.queue) :
    Moves s.queue (lineup (armAll p now slots s).output) (armAll p now slots s).state.queue := by
  induction slots generalizing s with
  | nil => exact .done s.queue
  | cons slot rest ih =>
      obtain ⟨hslot, hrest⟩ := List.nodup_cons.mp hslots
      obtain ⟨hfirst, hothers⟩ := List.forall_mem_cons.mp hfree
      rw [armAll]
      cases AdvertProvider.interval? p slot.val with
      | none => exact ih hrest hothers
      | some interval =>
          let queued : Scheduler := { s with queue := s.queue ++ [slot.val] }
          have hline : lineup (arm slot interval now queued).output = [] := lineup_arm ..
          have hjoined : ∀ other ∈ rest, other.val ∉ queued.queue := by
            intro other hother hmem
            cases List.mem_append.mp hmem with
            | inl hmem => exact hothers other hother hmem
            | inr hmem =>
                have heq : other = slot := Fin.ext (List.mem_singleton.mp hmem)
                exact hslot (heq ▸ hother)
          have hmoves := ih (s := (arm slot interval now queued).state) hrest hjoined
          simp only [Act.bind_apply, Act.modify_apply, Act.note_apply, Done.after_after,
            Done.output_after, Done.state_after, lineup_append]
          rw [hline]
          exact .join hfirst slot.isLt hmoves

theorem lineup_rearm (p : State) (slot now : Nat) (s : Scheduler) :
    lineup (rearm p slot now s).output = [] := by
  unfold rearm
  split
  next hlt =>
    simp only [Act.bind_apply, Act.get_apply, Done.after_nil]
    split
    · simp only [Act.bind_apply, Act.modify_apply, Done.after_nil]
      cases AdvertProvider.interval? p slot with
      | none => rfl
      | some interval =>
          simp only [Act.bind_apply, Act.note_apply, Done.output_after, lineup_append, lineup_arm]
          rfl
    · rfl
  next => rfl

/-- A slot that is armed anew keeps its place in the queue. -/
theorem rearm_keeps (p : State) (slot now : Nat) (s : Scheduler) :
    (rearm p slot now s).state.queue = s.queue ∧
      (rearm p slot now s).state.manager = s.manager := by
  rcases rearm_cases p slot now s with h | ⟨i, -, h | ⟨interval, h⟩⟩
  · rw [h]
    exact ⟨rfl, rfl⟩
  · rw [h]
    exact ⟨rfl, rfl⟩
  · rw [h]
    exact ⟨rfl, rfl⟩

end Scheduler

/-! ## The engine -/

namespace Engine

variable {α β : Type} {now : Nat} {e : Engine}

/-- What the action does to the slots that wait is what its log tells. -/
def Lines (action : Act Engine α) (e : Engine) : Prop :=
  Moves e.scheduler.queue (lineup (action e).output) (action e).state.scheduler.queue

theorem Lines.bind {action : Act Engine α} {next : α → Act Engine β} (hfirst : Lines action e)
    (hnext : Lines (next (action e).value) (action e).state) : Lines (action >>= next) e := by
  rw [Lines, Act.bind_apply, Done.output_after, lineup_append]
  exact Moves.append hfirst hnext

theorem Lines.congr {action other : Act Engine α} (h : Lines other e)
    (heq : action e = other e) : Lines action e := by
  rwa [Lines, heq]

theorem lines_of_idle {action : Act Engine α} (hline : lineup (action e).output = [])
    (hqueue : (action e).state.scheduler.queue = e.scheduler.queue) : Lines action e := by
  rw [Lines, hline, hqueue]
  exact .done _

theorem lines_pure (a : α) (e : Engine) : Lines (pure a) e :=
  lines_of_idle rfl rfl

theorem lines_note {notice : Notice} (h : notice.isAside) (e : Engine) :
    Lines (Act.note notice) e := by
  have huntimed : Untimed [.notice notice] := untimed_singleton h
  exact lines_of_idle huntimed.lineup_eq_nil rfl

theorem lineup_drainEvents (e : Engine) : lineup (onState State.drainEvents e).output = [] := by
  apply Untimed.lineup_eq_nil
  intro output hmem
  obtain ⟨event, -, rfl⟩ := List.mem_map.mp hmem
  rfl

theorem lines_drainEvents (e : Engine) : Lines (onState State.drainEvents) e :=
  lines_of_idle (lineup_drainEvents e) rfl

theorem lines_setMode (mode : Mode) (e : Engine) : Lines (setMode mode) e := by
  obtain ⟨reports, hreports, h⟩ := setMode_eq mode e
  apply lines_of_idle
  · rw [h]
    exact hreports.untimed.lineup_eq_nil
  · rw [h]

theorem lines_clearScanResponse (e : Engine) : Lines clearScanResponse e := by
  apply lines_of_idle (untimed_clearScanResponse e).lineup_eq_nil
  rw [clearScanResponse_state]

theorem lines_manageRadio (now : Nat) (e : Engine) : Lines (onAir (Scheduler.manageRadio now)) e :=
  Scheduler.moves_manageRadio now e.scheduler e.state

theorem lines_manageIfFree (now : Nat) (e : Engine) : Lines (manageIfFree now) e := by
  simp only [Lines, manageIfFree, Act.bind_apply, Act.get_apply, Done.after_nil]
  split
  · exact lines_manageRadio now e
  · exact lines_pure _ e

/-- Where nobody waits, a stop makes nobody wait. -/
theorem lines_hush (hqueue : e.scheduler.queue = []) : Lines (onScheduler Scheduler.stop) e := by
  have hline := (Radio.untimed_quiet e.scheduler.radio).lineup_eq_nil
  exact lines_of_idle hline hqueue.symm

theorem lines_comeOnAir (hqueue : e.scheduler.queue = []) :
    Lines (onAir (Scheduler.comeOnAir now)) e := by
  have harmed := Scheduler.moves_armAll e.state now (by decide : SlotIndex.all.Nodup)
    (s := e.scheduler.hasten) fun slot _ hmem => by
      have hmem : slot.val ∈ e.scheduler.queue := hmem
      rw [hqueue] at hmem
      cases hmem
  simp only [Lines, onAir, Act.within_apply, Scheduler.comeOnAir_apply]
  exact harmed

theorem Quiet.lines_enterBeacon (hquiet : e.Quiet) (now : Nat) : Lines (enterBeacon now) e := by
  by_cases hsilent : e.Silent
  · apply Lines.congr ?_ (enterBeacon_eq_of_silent hsilent now)
    apply Lines.bind (lines_hush hquiet.atRest.queue)
    apply Lines.bind (lines_note rfl _)
    exact Lines.bind (lines_setMode .idle _) (lines_pure _ _)
  · apply Lines.congr ?_ (enterBeacon_eq_of_not_silent hsilent now)
    apply Lines.bind (lines_hush hquiet.atRest.queue)
    apply Lines.bind (lines_comeOnAir rfl)
    apply Lines.bind (lines_manageRadio now _)
    apply Lines.bind (lines_setMode .beacon _)
    exact Lines.bind (lines_drainEvents _) (lines_pure _ _)

theorem Quiet.lines_clear_enterBeacon (hquiet : e.Quiet) (now : Nat) :
    Lines (clearScanResponse >>= fun _ => enterBeacon now) e := by
  apply Lines.bind (lines_clearScanResponse e)
  exact hquiet.cleared.lines_enterBeacon now

theorem Quiet.lines_enterConfig (hquiet : e.Quiet) (scan payload : Bytes) (now : Nat) :
    Lines (enterConfig scan payload now) e := by
  have houtcome := hquiet.enterConfig_outcome scan payload now
  rw [Lines]
  generalize enterConfig scan payload now e = done at houtcome ⊢
  cases houtcome with
  | unscanned radio fault => exact .done _
  | refused radio fault => exact .done _
  | @entered radio reports hreports =>
      have hline : lineup (.radio (.scanResponse scan) none ::
          configCalls e.state payload none ++
            (.notice (.configMode e.state.config.configTimeout.toNat) :: reports)) =
          lineup reports := rfl
      rw [hline, hreports.untimed.lineup_eq_nil]
      exact .done _

/-! ## Starts and stops -/

/-- What follows once a mode has been left begins with an empty queue. -/
theorem moves_after_leaveMode {action : Act Engine α}
    (h : Lines action (leaveMode e).state) :
    Moves [] (lineup ((leaveMode e).output ++ (action (leaveMode e).state).output))
      (action (leaveMode e).state).state.scheduler.queue := by
  have hleft : lineup (leaveMode e).output = [] :=
    (Radio.untimed_quiet e.scheduler.radio).lineup_eq_nil
  rw [lineup_append, hleft]
  exact h

theorem InPhase.moves_startBeacon (hphase : e.InPhase) (now : Nat) :
    Moves [] (lineup (Engine.startBeacon now e).output)
      (Engine.startBeacon now e).state.scheduler.queue := by
  have hlines := hphase.leaveMode.lines_clear_enterBeacon now
  exact moves_after_leaveMode hlines

theorem moves_stop (e : Engine) :
    Moves [] (lineup (stop e).output) (stop e).state.scheduler.queue :=
  moves_after_leaveMode (lines_setMode .idle _)

theorem InPhase.moves_startConfig (hphase : e.InPhase) {scan payload : Bytes}
    (hadvert : configAdvert e.state = .ok (scan, payload)) (now : Nat) :
    Moves [] (lineup (Engine.startConfig now e).output)
      (Engine.startConfig now e).state.scheduler.queue := by
  rw [startConfig_of_advert hadvert]
  exact moves_after_leaveMode (hphase.leaveMode.lines_enterConfig scan payload now)

/-- A start of configuration mode while nobody waits makes nobody wait. -/
theorem InPhase.lines_startConfig (hphase : e.InPhase) (hqueue : e.scheduler.queue = [])
    (now : Nat) : Lines (Engine.startConfig now) e := by
  cases hadvert : configAdvert e.state with
  | error fault => exact Lines.congr (lines_pure _ e) (startConfig_of_error hadvert now)
  | ok advert =>
      obtain ⟨scan, payload⟩ := advert
      rw [Lines, hqueue]
      exact hphase.moves_startConfig hadvert now

/-- Whoever waits after a start has found the radio taken. -/
theorem Quiet.served_enterBeacon (hquiet : e.Quiet) (now : Nat) :
    (enterBeacon now e).state.scheduler.Served := by
  by_cases hsilent : e.Silent
  · exact (hquiet.enterBeacon_of_silent hsilent now).2.1.atRest.served
  · have hcoh := (hquiet.enterBeacon_of_not_silent hsilent now).2.coherent
    obtain ⟨i, hi⟩ := not_forall.mp hsilent
    have hi : AdvertProvider.interval? e.state i.val ≠ none := hi
    obtain ⟨-, armed, -, -, hvalue, hstate⟩ := Scheduler.start_of_interval hi now e.scheduler
    have hscheduler : (enterBeacon now e).state.scheduler =
        (Scheduler.manageRadio now ({ armed with running := true }, e.state)).state.1 := by
      simp only [enterBeacon, onAir, Act.bind_apply, Act.within_apply, hvalue, hstate,
        Done.state_after, setMode_state]
      rfl
    rw [hscheduler] at hcoh ⊢
    exact Scheduler.served_manageRadio hcoh

theorem InPhase.served_startBeacon (hphase : e.InPhase) (now : Nat) :
    (Engine.startBeacon now e).state.scheduler.Served := by
  obtain ⟨calls, hstart⟩ := startBeacon_eq now e
  rw [hstart]
  exact hphase.cleared.served_enterBeacon now

theorem InPhase.served_startBeaconOrConfig (hphase : e.InPhase) (now : Nat) :
    (Engine.startBeaconOrConfig now e).state.scheduler.Served := by
  by_cases hsilent : e.Silent
  · rcases (hphase.startBeaconOrConfig_of_silent hsilent now).2 with
      ⟨-, hquiet, -⟩ | ⟨-, -, t, hconfiguring, -⟩
    · exact hquiet.atRest.served
    · exact hconfiguring.atRest.served
  · rw [startBeaconOrConfig_state, (hphase.startBeacon_of_not_silent hsilent now).1]
    exact hphase.served_startBeacon now

theorem InPhase.served_startConfig (hphase : e.InPhase) (hserved : e.scheduler.Served)
    (now : Nat) : (Engine.startConfig now e).state.scheduler.Served := by
  cases hadvert : configAdvert e.state with
  | error fault =>
      rw [startConfig_of_error hadvert]
      exact hserved
  | ok advert =>
      obtain ⟨scan, payload⟩ := advert
      rcases (hphase.startConfig_cases hadvert now).2 with
        ⟨-, -, hquiet, -⟩ | ⟨-, -, -, t, hconfiguring, -⟩
      · exact hquiet.atRest.served
      · exact hconfiguring.atRest.served

/-- A wait that is over makes those wait that a start arms, or nobody. -/
theorem Quiet.lines_resume (hquiet : e.Quiet) (now : Nat) : Lines (resume now) e := by
  rw [resume, ← bind_assoc]
  apply Lines.bind (hquiet.lines_clear_enterBeacon now)
  have hcleared := hquiet.cleared
  simp only [Act.bind_apply, Done.value_after, Done.state_after]
  by_cases hsilent : (clearScanResponse e).state.Silent
  · obtain ⟨hvalue, hentered, -⟩ := hcleared.enterBeacon_of_silent hsilent now
    rw [hvalue]
    apply Lines.bind (lines_note rfl _)
    apply Lines.bind ((InPhase.quiet hentered).lines_startConfig hentered.atRest.queue now)
    cases (startConfig now (enterBeacon now (clearScanResponse e).state).state).value with
    | ok _ => exact lines_pure _ _
    | error fault => exact lines_note rfl _
  · rw [(hcleared.enterBeacon_of_not_silent hsilent now).1]
    exact lines_pure _ _

end Engine

end Beacon

import Beacon.Proofs.Hearing

/-!
# Rounds of the slots

Seen from the state, an engine does one thing after the other of three kinds.  It
puts out something that has to do neither with slots nor with the device address,
and at most has events told; or the slot whose turn it is has nothing to send; or
it sends what it has.  Whatever holds along all three holds of every path.
-/

namespace Beacon

variable {α : Type} {now : Nat}

/-! ## Transcripts without a turn -/

namespace Output

/-- It neither ends the turn of a slot nor asks for a device address. -/
def isStill : Output → Bool
  | .notice n => !n.endsTurn
  | .radio (.address _) _ => false
  | _ => true

theorem isStill_of_isPlain {output : Output} (h : output.isPlain) : output.isStill := by
  have hends := endsTurn_of_isPlain h
  cases output with
  | notice n =>
      rw [isStill, show n.endsTurn = false from hends]
      rfl
  | event event => rfl
  | radio call fault => cases h
  | store call fault => rfl

theorem endsTurn_of_isStill {output : Output} (h : output.isStill) : output.endsTurn = false := by
  cases output with
  | notice n => simpa [isStill, endsTurn] using h
  | event event => rfl
  | radio call fault => rfl
  | store call fault => rfl

end Output

namespace Transcript

def Still (transcript : Transcript) : Prop :=
  ∀ output ∈ transcript, output.isStill

theorem still_nil : Still [] := by
  intro output hmem
  cases hmem

theorem still_cons {output : Output} {rest : Transcript} (houtput : output.isStill)
    (hrest : rest.Still) : Still (output :: rest) := by
  intro other hmem
  cases List.mem_cons.mp hmem with
  | inl heq => exact heq ▸ houtput
  | inr hmem => exact hrest other hmem

theorem Still.append {a b : Transcript} (ha : a.Still) (hb : b.Still) : Still (a ++ b) := by
  intro output hmem
  cases List.mem_append.mp hmem with
  | inl hmem => exact ha output hmem
  | inr hmem => exact hb output hmem

theorem Plain.still {transcript : Transcript} (h : transcript.Plain) : transcript.Still := by
  intro output hmem
  exact Output.isStill_of_isPlain (h output hmem)

theorem Mute.still {transcript : Transcript} (hmute : transcript.Mute)
    (hturnless : transcript.Turnless) : transcript.Still := by
  intro output hmem
  have hcall := hmute output hmem
  have hends := hturnless output hmem
  cases output with
  | notice n =>
      rw [Output.isStill, show n.endsTurn = false from hends]
      rfl
  | event event => rfl
  | radio call fault => cases hcall
  | store call fault => rfl

theorem Still.turnless {transcript : Transcript} (h : transcript.Still) : transcript.Turnless := by
  intro output hmem
  exact Output.endsTurn_of_isStill (h output hmem)

end Transcript

open Transcript

namespace Radio

theorem still_quiet (radio : Radio) : Still (quiet radio).output := by
  simp only [quiet, Act.bind_apply, Act.get_apply, Done.after_nil]
  split
  · exact still_cons rfl still_nil
  · exact still_nil

end Radio

/-! ## Rounds -/

namespace State

/-- One thing after the other: nothing about slots, a slot with nothing to send, or one that
sends. -/
inductive Rounds (now : Nat) : State → Transcript → State → Prop
  | refl (s : State) : Rounds now s [] s
  | still {s t u : State} {out rest : Transcript} :
      out.Still → t.hush = s.hush → Rounds now t rest u → Rounds now s (out ++ rest) u
  | silent {s u : State} (slot : Nat) {rest : Transcript} :
      (State.prepare slot now s).value = none → Rounds now (State.prepare slot now s).state rest u →
      Rounds now s ((State.prepare slot now s).output ++ .notice (.slotSilent slot) :: rest) u
  | turn {s u : State} (slot : Nat) (addressing : Addressing) (fault : Option RadioFault)
      {advert : PreparedAdvert} {rest : Transcript} :
      (State.prepare slot now s).value = some advert →
      addressing.map Prod.fst = advert.newAddress →
      Rounds now
        (if fault.isSome then (State.prepare slot now s).state
          else (State.prepare slot now s).state.countAdvert) rest u →
      Rounds now s ((State.prepare slot now s).output ++
        (addressing.outputs ++ (advert.outputs slot fault ++ rest))) u

variable {s t u : State} {a b : Transcript}

theorem Rounds.of_still (hstill : a.Still) (hstate : t.hush = s.hush) : Rounds now s a t := by
  have hrounds : Rounds now s (a ++ []) t := .still hstill hstate (.refl t)
  rwa [List.append_nil] at hrounds

theorem Rounds.trans (h : Rounds now s a t) (h' : Rounds now t b u) : Rounds now s (a ++ b) u := by
  induction h with
  | refl s => exact h'
  | still hstill hstate _ ih =>
      rw [List.append_assoc]
      exact .still hstill hstate (ih h')
  | silent slot hnone _ ih =>
      rw [List.append_assoc, List.cons_append]
      exact .silent slot hnone (ih h')
  | turn slot addressing fault hadvert haddress _ ih =>
      simp only [List.append_assoc]
      exact .turn slot addressing fault hadvert haddress (ih h')

end State

open State

namespace Scheduler

theorem rounds_broadcast (slot now : Nat) (x : Scheduler × State) :
    Rounds now x.2 (broadcast slot now x).output (broadcast slot now x).state.2 := by
  cases hvalue : (State.prepare slot now x.2).value with
  | none =>
      obtain ⟨hout, hstate⟩ := broadcast_of_none hvalue
      rw [hout, hstate]
      exact .silent slot hvalue (.refl _)
  | some advert =>
      obtain ⟨addressing, fault, haddress, hout, hstate⟩ := broadcast_of_some hvalue
      have hrounds := Rounds.turn slot addressing fault hvalue haddress (.refl _)
      rw [List.append_nil, ← hstate] at hrounds
      rwa [hout]

theorem rounds_manageRadio (now : Nat) (s : Scheduler) (p : State) :
    Rounds now p (manageRadio now (s, p)).output (manageRadio now (s, p)).state.2 := by
  cases hqueue : s.queue with
  | nil =>
      rw [manageRadio_eq_of_nil hqueue]
      exact .of_still (Radio.still_quiet s.radio) rfl
  | cons slot rest =>
      obtain ⟨delay, h⟩ := manageRadio_eq_of_cons hqueue now p
      have hposted : Still (TimerQueue.postIn now delay .manageRadio s.timers).output :=
        Mute.still (TimerQueue.mute_insert _ _ _ _)
          ((TimerQueue.inner_postIn now delay .manageRadio).turnless s.timers)
      have hbroadcast := rounds_broadcast slot now (s.handOver rest, p)
      rw [h]
      exact .still (Radio.still_quiet s.radio) rfl (hbroadcast.trans (.of_still hposted rfl))

end Scheduler

namespace Engine

theorem still_clearScanResponse (e : Engine) : Still (clearScanResponse e).output := by
  obtain ⟨fault, report, hreport, h⟩ := clearScanResponse_eq e
  rw [h]
  exact still_cons rfl hreport.still

theorem still_configCalls (p : State) (payload : Bytes) (fault : Option RadioFault) :
    Still (configCalls p payload fault) :=
  still_cons rfl (still_cons rfl (still_cons rfl (still_cons rfl still_nil)))

theorem Quiet.still_enterConfig {e : Engine} (hquiet : e.Quiet) (scan payload : Bytes) :
    Still (enterConfig scan payload now e).output := by
  have houtcome := hquiet.enterConfig_outcome scan payload now
  generalize enterConfig scan payload now e = done at houtcome
  cases houtcome with
  | unscanned radio fault => exact still_cons rfl still_nil
  | refused radio fault => exact still_cons rfl (still_configCalls _ _ _)
  | entered radio hreports =>
      exact still_cons rfl ((still_configCalls _ _ _).append (still_cons rfl hreports.still))

theorem still_raise (now : Nat) (e : Engine) : Still (raise now e).output := by
  have harmed : Still (Scheduler.armAll e.cleared.state now SlotIndex.all
      e.cleared.scheduler.hasten).output :=
    ((Scheduler.spares_armAll _ now _).mute _).still ((Scheduler.inner_armAll _ now _).turnless _)
  rw [raise_apply]
  exact (still_clearScanResponse e).append ((Radio.still_quiet _).append (still_cons rfl harmed))

theorem Move.rounds {e : Engine} {action : Act Engine α} (hmove : Move now e action) :
    Rounds now e.state (action e).output (action e).state.state := by
  cases hmove with
  | @note notice hnotice =>
      have hplain : Plain [.notice notice] := plain_singleton hnotice
      exact .of_still hplain.still rfl
  | emit event => exact .of_still (still_cons rfl still_nil) rfl
  | drain => exact .of_still ((mute_drainEvents e).still (turnless_drainEvents e)) rfl
  | turnTo mode =>
      obtain ⟨reports, hreports, h⟩ := setMode_eq mode e
      rw [h]
      exact .of_still hreports.still rfl
  | leave _ => exact .of_still (Radio.still_quiet _) rfl
  | hush _ => exact .of_still (Radio.still_quiet _) rfl
  | clear _ =>
      apply Rounds.of_still (still_clearScanResponse e)
      rw [clearScanResponse_state]
  | @configure scan payload hquiet _ =>
      apply Rounds.of_still (hquiet.still_enterConfig scan payload)
      exact congrArg (fun held => held.1.hush) (held_enterConfig scan payload now e)
  | raise _ _ =>
      apply Rounds.of_still (still_raise now e)
      have hsame : (clearScanResponse e).state.state = e.state := by rw [clearScanResponse_state]
      rw [raise_apply]
      exact congrArg State.hush hsame
  | manage _ _ => exact Scheduler.rounds_manageRadio now e.scheduler e.state
  | @ring id slot _ _ =>
      exact .of_still
        (((Scheduler.spares_offer slot).mute _).still ((Scheduler.inner_offer slot).turnless _)) rfl
  | release _ _ => exact .of_still still_nil rfl
  | wake _ _ => exact .of_still (Radio.still_quiet _) rfl
  | rearm slot _ =>
      exact .of_still (((Scheduler.spares_rearm e.state slot now).mute _).still
        ((Scheduler.inner_rearm e.state slot now).turnless e.scheduler)) rfl

theorem Path.rounds {e e' : Engine} {out : Transcript} (hpath : Path now e out e') :
    Rounds now e.state out e'.state := by
  induction hpath with
  | refl e => exact .refl _
  | step hmove _ ih => exact hmove.rounds.trans ih

end Engine

/-! ## Turns along the rounds -/

namespace State

variable {s t : State} {out : Transcript}

/-- Rounds are what the turns that they tell of lead to. -/
theorem Rounds.replays (h : Rounds now s out t) (started : Option Bytes) :
    Replays s.hush ((out.turns started).map fun turn => .took turn now) t.hush := by
  induction h generalizing started with
  | refl s => exact Replays.refl _
  | still hstill hstate _ ih =>
      rw [Transcript.turns_append, hstill.turnless.turns_eq_nil, ← hstate]
      exact ih _
  | @silent s u slot rest hnone _ ih =>
      have haside := State.asides_prepare slot now s
      have hfirst := Replays.single (Moment.faithful_hush (faithful_silent slot now s))
      rw [Moment.after_hush, perform_silent] at hfirst
      rw [Transcript.turns_append, haside.turnless.turns_eq_nil]
      exact hfirst.trans (ih _)
  | @turn s u slot addressing fault advert rest hadvert _ _ ih =>
      obtain ⟨later, hturns⟩ := Transcript.turns_round (State.asides_prepare slot now s) slot
        addressing advert fault rest started
      have hfirst := Replays.single (Moment.faithful_hush (faithful_sent hadvert fault))
      rw [Moment.after_hush, perform_sent] at hfirst
      rw [hturns]
      exact hfirst.trans (ih later)

end State

/-! ## Requests -/

namespace Entry

theorem still_awaitResume (now : Nat) (e : Engine) : Still (Engine.awaitResume now e).output := by
  have hmute := (Engine.spares_awaitResume now).mute e
  exact hmute.still (Engine.turnless_awaitResume now e)

/-- Once a central has been answered slots take their turns, and then the clock is saved or the host
has measured something. -/
theorem rounds {x : Entry} (hphase : x.before.1.InPhase) :
    ∃ t clock clockDirty, Rounds x.request.time x.answered x.output t ∧
      x.after.1.state =
        { t with clock, clockDirty, telemetry := x.request.measured t.telemetry } := by
  cases x.route hphase with
  | served opening dirty _ hmeasured houtput hopening hpath =>
      refine ⟨x.after.1.state, x.after.1.state.clock, x.after.1.state.clockDirty, ?_, ?_⟩
      · rw [houtput]
        exact .still hopening.still rfl hpath.rounds
      · rw [hmeasured]
        rfl
  | kept clock clockDirty dirty _ hplain hafter hanswered =>
      refine ⟨x.answered, clock, clockDirty, .of_still hplain.still rfl, ?_⟩
      rw [hafter, hanswered]
  | @paused now e clock clockDirty dirty opening hrequest _ he houtput hopening hafter =>
      have hanswered : x.answered = x.before.1.state := by rw [answered, hrequest]
      refine ⟨x.answered, clock, clockDirty, ?_, ?_⟩
      · rw [houtput]
        exact .of_still (hopening.still.append (still_awaitResume now e)) rfl
      · have hheld := congrArg Prod.fst (Engine.held_awaitResume now e)
        rw [hafter, hanswered, hrequest]
        exact hheld.trans (congrArg Engine.state he)

end Entry

/-! ## Starts -/

/-- A boot has measured and counted nothing yet, and no address waits. -/
theorem Device.Booted.newborn {config : Config} {store : Store} {d : Device}
    (hbooted : Booted config store d) :
    d.1.state.telemetry = .initial ∧ d.1.state.pendingAddress = none := by
  obtain ⟨radio, slots, identity, rng, now, -, -, rfl⟩ := hbooted.exists_state
  have hadopted (loaded : Except StoreFault (Option Params)) (s : State) :
      (adopted loaded s).telemetry = s.telemetry ∧
        (adopted loaded s).pendingAddress = s.pendingAddress := by
    cases loaded with
    | error fault => exact ⟨rfl, rfl⟩
    | ok stored => cases stored <;> exact ⟨rfl, rfl⟩
  have hfactory := hadopted (Store.load store).value
    (.factory config slots identity rng radio.minInterval radio.maxInterval)
  rcases persist_cases now (Engine.ofState radio (adopted (Store.load store).value
    (.factory config slots identity rng radio.minInterval radio.maxInterval)),
    (Store.load store).state) with ⟨-, -, h⟩ | ⟨-, -, h⟩
  · rw [h]
    exact hfactory
  · rw [h]
    exact hfactory

end Beacon

import Beacon.Proofs.Hearing
import Beacon.Proofs.Inheritance

/-!
# The radio in tune

One radio is set up from three places: for configuration mode, on coming on air
and for every slot that has its turn.  Whatever is started, the radio is not
advertising just then and is set as it should be for that advert, even where the
stack has refused some of the calls before.
-/

namespace Beacon

variable {α : Type} {now : Nat}

/-! ## Starts -/

namespace Transcript

/-- No scan response was refused. -/
def ScansTaken (transcript : Transcript) : Prop :=
  ∀ scan fault, .radio (.scanResponse scan) (some fault) ∉ transcript

def Startless (transcript : Transcript) : Prop :=
  ∀ payload fault, .radio (.start payload) fault ∉ transcript

theorem ScansTaken.left {a b : Transcript} (h : ScansTaken (a ++ b)) : a.ScansTaken := by
  intro scan fault hmem
  exact h scan fault (List.mem_append_left _ hmem)

theorem ScansTaken.right {a b : Transcript} (h : ScansTaken (a ++ b)) : b.ScansTaken := by
  intro scan fault hmem
  exact h scan fault (List.mem_append_right _ hmem)

theorem Mute.startless {transcript : Transcript} (h : transcript.Mute) : transcript.Startless := by
  intro payload fault hmem
  cases h _ hmem

theorem Startless.append {a b : Transcript} (ha : a.Startless) (hb : b.Startless) :
    Startless (a ++ b) := by
  intro payload fault hmem
  cases List.mem_append.mp hmem with
  | inl hmem => exact ha payload fault hmem
  | inr hmem => exact hb payload fault hmem

end Transcript

open Transcript

/-- How the radio is set when a payload is started, given all that was put out before and what
comes right after. -/
inductive InTune (p : State) (past : Transcript) (radio : Radio) (payload : Bytes)
    (fault : Option RadioFault) (rest : Transcript) : Prop
  /-- The turn of a slot, which the report tells. -/
  | slot (slot : Nat) :
      rest.head? = some (.notice (.onStart slot fault)) →
      (p.slots.slot? slot).map Slot.radioTx = some radio.txPower →
      radio.connectable = p.remainConnectable → radio.interval = radio.minInterval →
      (past.ScansTaken → radio.scanResponse = []) → InTune p past radio payload fault rest
  | config :
      Engine.configAdvert p = .ok (radio.scanResponse, payload) →
      radio.txPower = p.radioLevels.top → radio.connectable = true →
      radio.interval = p.config.configInterval → InTune p past radio payload fault rest

theorem InTune.extend {p : State} {past : Transcript} {radio : Radio} {payload : Bytes}
    {fault : Option RadioFault} {rest : Transcript} (h : InTune p past radio payload fault rest)
    (later : Transcript) : InTune p past radio payload fault (rest ++ later) := by
  cases h with
  | slot slot hreport hpower hconnectable hinterval hscan =>
      apply InTune.slot slot ?_ hpower hconnectable hinterval hscan
      rw [List.head?_append, hreport]
      rfl
  | config hadvert hpower hconnectable hinterval =>
      exact .config hadvert hpower hconnectable hinterval

theorem InTune.congr {p q : State} (hsetup : q.setup = p.setup) {past : Transcript} {radio : Radio}
    {payload : Bytes} {fault : Option RadioFault} {rest : Transcript}
    (h : InTune q past radio payload fault rest) : InTune p past radio payload fault rest := by
  cases h with
  | slot slot hreport hpower hconnectable hinterval hscan =>
      rw [State.radioTx_of_setup_eq hsetup] at hpower
      rw [show q.remainConnectable = p.remainConnectable from
        congrArg (fun setup => setup.settings.remainConnectable) hsetup] at hconnectable
      exact .slot slot hreport hpower hconnectable hinterval hscan
  | config hadvert hpower hconnectable hinterval =>
      rw [Engine.configAdvert_eq_of_setup_eq hsetup] at hadvert
      rw [show q.radioLevels = p.radioLevels from
        congrArg (fun setup => setup.settings.radioLevels) hsetup] at hpower
      rw [show q.config = p.config from congrArg Setup.config hsetup] at hinterval
      exact .config hadvert hpower hconnectable hinterval

/-- Whatever is started, the radio is not advertising then, and in tune. -/
def Disciplined (p : State) (past : Transcript) (radio : Radio) (out : Transcript) : Prop :=
  ∀ before payload fault rest, out = before ++ .radio (.start payload) fault :: rest →
    (radio.heard before).advertising = false ∧
      InTune p (past ++ before) (radio.heard before) payload fault rest

namespace Disciplined

variable {p : State} {past : Transcript} {radio : Radio}

theorem of_startless {out : Transcript} (h : out.Startless) : Disciplined p past radio out := by
  rintro before payload fault rest rfl
  exact absurd (List.mem_append_right before List.mem_cons_self) (h payload fault)

theorem congr {q : State} (hsetup : q.setup = p.setup) {out : Transcript}
    (h : Disciplined q past radio out) : Disciplined p past radio out := by
  intro before payload fault rest hout
  exact (h before payload fault rest hout).imp_right fun htune => htune.congr hsetup

theorem append {a b : Transcript} (ha : Disciplined p past radio a)
    (hb : Disciplined p (past ++ a) (radio.heard a) b) : Disciplined p past radio (a ++ b) := by
  intro before payload fault rest hout
  rcases List.append_eq_append_iff.mp hout with ⟨later, hbefore, hlater⟩ | ⟨mid, ha', hmid⟩
  · have hstart := hb later payload fault rest hlater
    rwa [← Radio.heard_append, ← hbefore, List.append_assoc, ← hbefore] at hstart
  · cases mid with
    | nil =>
        rw [List.append_nil] at ha'
        have hstart := hb [] payload fault rest hmid.symm
        rwa [List.append_nil, ha'] at hstart
    | cons output mid =>
        rw [List.cons_append] at hmid
        obtain ⟨hhead, htail⟩ := List.cons.inj hmid
        rw [← hhead] at ha'
        rw [htail]
        exact (ha before payload fault mid ha').imp_right fun htune => htune.extend b

/-- One start, with nothing but reports after it. -/
theorem start {payload : Bytes} {fault : Option RadioFault} {rest : Transcript}
    (hrest : rest.Startless) (hoff : radio.advertising = false)
    (htune : InTune p past radio payload fault rest) :
    Disciplined p past radio (.radio (.start payload) fault :: rest) := by
  intro before payload' fault' rest' hout
  cases before with
  | nil =>
      cases hout
      rw [List.append_nil]
      exact ⟨hoff, htune⟩
  | cons output before =>
      have htail := (List.cons.inj hout).2
      exact absurd (htail ▸ List.mem_append_right before List.mem_cons_self) (hrest payload' fault')

end Disciplined

/-! ## What is set for a whole mode -/

/-- The settings that a turn leaves alone. -/
structure Dial where
  interval : UInt16
  minInterval : UInt16
  scanResponse : Bytes

def Radio.dial (radio : Radio) : Dial :=
  ⟨radio.interval, radio.minInterval, radio.scanResponse⟩

/-- The interval or the scan response is set. -/
def Output.dials : Output → Bool
  | .radio (.interval _) _ => true
  | .radio (.scanResponse _) _ => true
  | _ => false

theorem Radio.dial_heard {transcript : Transcript} (h : ∀ output ∈ transcript, output.dials = false)
    (radio : Radio) : (radio.heard transcript).dial = radio.dial := by
  induction transcript generalizing radio with
  | nil => rfl
  | cons output rest ih =>
      have hfirst : (radio.hear output).dial = radio.dial := by
        have hdials := h output List.mem_cons_self
        cases output with
        | radio call fault =>
            cases call <;> first
              | (cases fault <;> rfl)
              | cases hdials
        | notice notice => rfl
        | event event => rfl
        | store call fault => rfl
      rw [Radio.heard, List.foldl_cons, ← hfirst]
      exact ih (fun other hmem => h other (List.mem_cons_of_mem _ hmem)) _

/-- A radio that is off air stays so until something is started. -/
theorem Radio.advertising_heard {transcript : Transcript} (h : transcript.Startless) {radio : Radio}
    (hoff : radio.advertising = false) : (radio.heard transcript).advertising = false := by
  induction transcript generalizing radio with
  | nil => exact hoff
  | cons output rest ih =>
      have hfirst : (radio.hear output).advertising = false := by
        cases output with
        | radio call fault =>
            cases call <;> first
              | exact absurd List.mem_cons_self (h _ _)
              | (cases fault <;> first | exact hoff | rfl)
        | notice notice => exact hoff
        | event event => exact hoff
        | store call fault => exact hoff
      rw [Radio.heard, List.foldl_cons]
      exact ih (fun payload fault hmem => h payload fault (List.mem_cons_of_mem _ hmem)) hfirst

theorem Radio.advertising_quiet (radio : Radio) : (quiet radio).state.advertising = false := by
  simp only [quiet, Act.bind_apply, Act.get_apply, Done.after_nil]
  split
  next => rfl
  next hoff => exact Bool.eq_false_iff.mpr hoff

theorem Radio.scanResponse_quiet (radio : Radio) :
    (quiet radio).state.scanResponse = radio.scanResponse := by
  simp only [quiet, Act.bind_apply, Act.get_apply, Done.after_nil]
  split <;> rfl

/-- If anything, the radio is told to stop. -/
theorem Radio.mem_quiet {radio : Radio} {output : Output} (h : output ∈ (quiet radio).output) :
    output = .radio .stop none := by
  simp only [quiet, Act.bind_apply, Act.get_apply, Done.after_nil] at h
  split at h
  · exact List.mem_singleton.mp h
  · cases h

theorem Radio.startless_quiet (radio : Radio) : Startless (quiet radio).output := by
  intro payload fault hmem
  cases mem_quiet hmem

/-! ## Turns -/

theorem Transcript.Mute.undialed {transcript : Transcript} (h : transcript.Mute) :
    ∀ output ∈ transcript, output.dials = false := by
  intro output hmem
  have hmute := h output hmem
  cases output with
  | radio call fault => cases hmute
  | notice notice => rfl
  | event event => rfl
  | store call fault => rfl

namespace Scheduler

/-- All that the turn of a slot asks of the radio before the payload is started. -/
def preparations (addressing : Addressing) (advert : PreparedAdvert) : Transcript :=
  addressing.outputs ++
    [.radio (.txPower advert.radioTx) none, .radio (.connectable advert.connectable) none]

theorem startless_preparations (addressing : Addressing) (advert : PreparedAdvert) :
    Startless (preparations addressing advert) := by
  intro payload fault
  match addressing with
  | none => simp [preparations, Addressing.outputs]
  | some (address, none) => simp [preparations, Addressing.outputs]
  | some (address, some fault) => simp [preparations, Addressing.outputs]

theorem undialed_preparations (addressing : Addressing) (advert : PreparedAdvert) :
    ∀ output ∈ preparations addressing advert, output.dials = false := by
  match addressing with
  | none => simp [preparations, Addressing.outputs, Output.dials]
  | some (address, none) => simp [preparations, Addressing.outputs, Output.dials]
  | some (address, some fault) => simp [preparations, Addressing.outputs, Output.dials]

theorem broadcast_output_of_some {slot : Nat} {x : Scheduler × State} {advert : PreparedAdvert}
    (h : (State.prepare slot now x.2).value = some advert) :
    ∃ (addressing : Addressing) (fault : Option RadioFault),
      (broadcast slot now x).output =
        (State.prepare slot now x.2).output ++ preparations addressing advert ++
          .radio (.start advert.payload) fault :: [.notice (.onStart slot fault)] := by
  obtain ⟨addressing, fault, -, houtput, -⟩ := broadcast_of_some h
  refine ⟨addressing, fault, ?_⟩
  simp only [houtput, preparations, PreparedAdvert.outputs, List.append_assoc, List.cons_append,
    List.nil_append]

/-- The last two requests are the ones that count. -/
theorem heard_preparations (radio : Radio) (addressing : Addressing) (advert : PreparedAdvert) :
    radio.heard (preparations addressing advert) =
      Radio.apply (.connectable advert.connectable)
        (Radio.apply (.txPower advert.radioTx) (radio.heard addressing.outputs)) := by
  rw [preparations, Radio.heard_append]
  rfl

/-- Up to the start of its payload a slot leaves the interval and the scan response alone. -/
theorem undialed_prelude (slot now : Nat) (s : State) (addressing : Addressing)
    (advert : PreparedAdvert) :
    ∀ output ∈ (State.prepare slot now s).output ++ preparations addressing advert,
      output.dials = false := by
  intro output hmem
  cases List.mem_append.mp hmem with
  | inl hmem => exact (State.asides_prepare slot now s).plain.mute.undialed output hmem
  | inr hmem => exact undialed_preparations addressing advert output hmem

theorem undialed_broadcast (slot now : Nat) (x : Scheduler × State) :
    ∀ output ∈ (broadcast slot now x).output, output.dials = false := by
  cases hvalue : (State.prepare slot now x.2).value with
  | none =>
      have hprepare := (State.asides_prepare slot now x.2).plain.mute
      have hsilent : Mute [.notice (.slotSilent slot)] := mute_singleton rfl
      rw [(broadcast_of_none hvalue).1]
      exact (hprepare.append hsilent).undialed
  | some advert =>
      obtain ⟨addressing, fault, hout⟩ := broadcast_output_of_some hvalue
      rw [hout]
      intro output hmem
      rcases List.mem_append.mp hmem with hmem | hmem
      · exact undialed_prelude slot now x.2 addressing advert output hmem
      · simp only [List.mem_cons, List.not_mem_nil, or_false] at hmem
        rcases hmem with rfl | rfl <;> rfl

/-- The turn of a slot starts its payload, if anything, with the power and the flag it is to
have. -/
theorem disciplined_broadcast {slot : Nat} {x : Scheduler × State} {past : Transcript}
    (hoff : x.1.radio.advertising = false) (hinterval : x.1.radio.interval = x.1.radio.minInterval)
    (hscan : past.ScansTaken → x.1.radio.scanResponse = []) :
    Disciplined x.2 past x.1.radio (broadcast slot now x).output := by
  have hprepare := (State.asides_prepare slot now x.2).plain.mute
  cases hvalue : (State.prepare slot now x.2).value with
  | none =>
      have hsilent : Mute [.notice (.slotSilent slot)] := mute_singleton rfl
      rw [(broadcast_of_none hvalue).1]
      exact .of_startless (hprepare.append hsilent).startless
  | some advert =>
      obtain ⟨addressing, fault, hout⟩ := broadcast_output_of_some hvalue
      obtain ⟨frame, held, -, -, hslot, hpower, hconnectable, -, -⟩ :=
        State.prepare_eq_of_some hvalue
      have hsetup : (State.liveFrame slot now x.2).state.setup = x.2.setup :=
        State.setup_liveFrame slot now x.2
      let settings : Transcript :=
        (State.prepare slot now x.2).output ++ preparations addressing advert
      have hstartless : settings.Startless :=
        hprepare.startless.append (startless_preparations addressing advert)
      have hdial : (x.1.radio.heard settings).dial = x.1.radio.dial :=
        Radio.dial_heard (undialed_prelude slot now x.2 addressing advert) x.1.radio
      have hset : x.1.radio.heard settings =
          Radio.apply (.connectable advert.connectable) (Radio.apply (.txPower advert.radioTx)
            ((x.1.radio.heard (State.prepare slot now x.2).output).heard addressing.outputs)) := by
        rw [Radio.heard_append, heard_preparations]
      have hreport : Mute [.notice (.onStart slot fault)] := mute_singleton rfl
      rw [hout]
      apply Disciplined.append (.of_startless hstartless)
      apply Disciplined.start hreport.startless (Radio.advertising_heard hstartless hoff)
      apply InTune.slot slot rfl
      · rw [hset]
        have hpowers := State.radioTx_of_setup_eq hsetup slot
        rw [hslot, Option.map_some, ← hpower] at hpowers
        exact hpowers.symm
      · rw [hset]
        exact hconnectable.trans
          (congrArg (fun setup => setup.settings.remainConnectable) hsetup)
      · exact (congrArg Dial.interval hdial).trans
          (hinterval.trans (congrArg Dial.minInterval hdial).symm)
      · intro htaken
        exact (congrArg Dial.scanResponse hdial).trans (hscan htaken.left)

end Scheduler

namespace Engine

variable {past : Transcript}

/-- The radio is off air unless somebody has it, and set for the slots while they take turns. -/
structure Tuned (past : Transcript) (e : Engine) : Prop where
  offAir : e.scheduler.running = false → e.configTimer = none → e.radio.advertising = false
  interval : e.scheduler.running = true → e.radio.interval = e.radio.minInterval
  scanResponse : e.scheduler.running = true → past.ScansTaken → e.radio.scanResponse = []

theorem Tuned.of_offAir {e : Engine} (hrunning : e.scheduler.running = false)
    (hoff : e.radio.advertising = false) : e.Tuned past where
  offAir _ _ := hoff
  interval hon := by
    rw [hrunning] at hon
    cases hon
  scanResponse hon := by
    rw [hrunning] at hon
    cases hon

/-- Nothing that the radio hears. -/
theorem Tuned.of_mute {e e' : Engine} (h : e.Tuned past) {out : Transcript} (hmute : out.Mute)
    (hheard : e'.radio = e.radio.heard out) (hrunning : e'.scheduler.running = e.scheduler.running)
    (htimer : e'.configTimer = e.configTimer) :
    Disciplined e.state past e.radio out ∧ e'.Tuned (past ++ out) := by
  rw [hmute.heard_eq] at hheard
  refine ⟨.of_startless hmute.startless, ?_⟩
  constructor
  · intro hoff hfree
    rw [hheard]
    exact h.offAir (hrunning ▸ hoff) (htimer ▸ hfree)
  · intro hon
    rw [hheard]
    exact h.interval (hrunning ▸ hon)
  · intro hon htaken
    rw [hheard]
    exact h.scanResponse (hrunning ▸ hon) htaken.left

theorem startless_clearScanResponse (e : Engine) : Startless (clearScanResponse e).output := by
  obtain ⟨fault, report, hreport, hclear⟩ := clearScanResponse_eq e
  rw [hclear]
  intro payload fault' hmem
  cases List.mem_cons.mp hmem with
  | inl heq => cases heq
  | inr hmem => exact hreport.mute.startless payload fault' hmem

theorem scanResponse_clear {e : Engine} (htaken : ScansTaken (clearScanResponse e).output) :
    (clearScanResponse e).state.radio.scanResponse = [] := by
  rw [heeds_clearScanResponse e]
  obtain ⟨fault, report, hreport, hclear⟩ := clearScanResponse_eq e
  rw [hclear] at htaken ⊢
  cases fault with
  | some fault => exact absurd List.mem_cons_self (htaken [] fault)
  | none =>
      change (Radio.heard report (e.radio.hear (.radio (.scanResponse []) none))).scanResponse = []
      rw [hreport.mute.heard_eq]
      rfl

theorem Quiet.tuned_clear {e : Engine} (hquiet : e.Quiet) (h : e.Tuned past) :
    Disciplined e.state past e.radio (clearScanResponse e).output ∧
      (clearScanResponse e).state.Tuned (past ++ (clearScanResponse e).output) := by
  have hstartless := startless_clearScanResponse e
  have hoff := h.offAir hquiet.atRest.running hquiet.configTimer
  refine ⟨.of_startless hstartless, .of_offAir hquiet.cleared.atRest.running ?_⟩
  rw [heeds_clearScanResponse e]
  exact Radio.advertising_heard hstartless hoff

/-- The configuration payload is started by a radio that is off air and set for it. -/
theorem disciplined_configCalls {e : Engine} {scan payload : Bytes}
    (hadvert : configAdvert e.state = .ok (scan, payload)) (hoff : e.radio.advertising = false)
    (fault : Option RadioFault) :
    Disciplined e.state past e.radio
      (.radio (.scanResponse scan) none :: configCalls e.state payload fault) := by
  let settings : Transcript := [.radio (.scanResponse scan) none,
    .radio (.txPower e.state.radioLevels.top) none,
    .radio (.interval e.state.config.configInterval) none, .radio (.connectable true) none]
  have hstartless : settings.Startless := by
    intro payload fault hmem
    simp [settings] at hmem
  apply Disciplined.append (a := settings) (.of_startless hstartless)
  apply Disciplined.start mute_nil.startless (Radio.advertising_heard hstartless hoff)
  exact .config hadvert rfl rfl rfl

theorem Quiet.tuned_configure {e : Engine} (hquiet : e.Quiet) (h : e.Tuned past)
    {scan payload : Bytes} (hadvert : configAdvert e.state = .ok (scan, payload)) :
    Disciplined e.state past e.radio (enterConfig scan payload now e).output ∧
      (enterConfig scan payload now e).state.Tuned
        (past ++ (enterConfig scan payload now e).output) := by
  have hoff := h.offAir hquiet.atRest.running hquiet.configTimer
  have hheard := heeds_enterConfig scan payload now e
  have houtcome := hquiet.enterConfig_outcome scan payload now
  generalize enterConfig scan payload now e = done at hheard houtcome ⊢
  cases houtcome with
  | unscanned radio fault =>
      have hstartless : Startless [.radio (.scanResponse scan) (some fault)] := by
        intro payload fault hmem
        simp at hmem
      refine ⟨.of_startless hstartless, .of_offAir hquiet.atRest.running ?_⟩
      rw [hheard]
      exact Radio.advertising_heard hstartless hoff
  | refused radio fault =>
      refine ⟨disciplined_configCalls hadvert hoff _, .of_offAir hquiet.atRest.running ?_⟩
      rw [hheard]
      exact hoff
  | entered radio hreports =>
      have hnotice : Mute [.notice (.configMode e.state.config.configTimeout.toNat)] :=
        mute_singleton rfl
      have hlate := (hnotice.append hreports.mute).startless
      refine ⟨(disciplined_configCalls hadvert hoff none).append (.of_startless hlate), ?_⟩
      constructor
      · intro _ hfree
        cases hfree
      · intro hon
        cases hquiet.atRest.running.symm.trans hon
      · intro hon
        cases hquiet.atRest.running.symm.trans hon

/-- Coming on air sets the interval and has the scan response cleared. -/
theorem tuned_raise (now : Nat) (e : Engine) :
    Disciplined e.state past e.radio (raise now e).output ∧
      (raise now e).state.Tuned (past ++ (raise now e).output) := by
  let told := e.cleared.scheduler.hasten
  have harmed := Scheduler.spares_armAll e.cleared.state now SlotIndex.all
  have hradio :
      (Scheduler.armAll e.cleared.state now SlotIndex.all told).state.radio = told.radio :=
    harmed.keeps told
  have hinterval : Startless [.radio (.interval e.cleared.scheduler.radio.minInterval) none] := by
    intro payload fault hmem
    simp at hmem
  have hlast := hinterval.append (harmed.mute told).startless
  have hstartless := (startless_clearScanResponse e).append
    ((Radio.startless_quiet (clearScanResponse e).state.scheduler.radio).append hlast)
  rw [raise_apply]
  refine ⟨.of_startless hstartless, ?_⟩
  constructor
  · intro hoff
    cases hoff
  · intro _
    change (Scheduler.armAll e.cleared.state now SlotIndex.all told).state.radio.interval =
      (Scheduler.armAll e.cleared.state now SlotIndex.all told).state.radio.minInterval
    rw [hradio]
    rfl
  · intro _ htaken
    change (Scheduler.armAll e.cleared.state now SlotIndex.all told).state.radio.scanResponse = []
    rw [hradio]
    exact (Radio.scanResponse_quiet _).trans (scanResponse_clear htaken.right.left)

theorem undialed_quiet (r : Radio) : ∀ output ∈ (Radio.quiet r).output, output.dials = false := by
  intro output hmem
  rw [Radio.mem_quiet hmem]
  rfl

/-- The radio manager leaves the interval and the scan response alone. -/
theorem undialed_manage (now : Nat) (e : Engine) :
    ∀ output ∈ (onAir (Scheduler.manageRadio now) e).output, output.dials = false := by
  cases hqueue : e.scheduler.queue with
  | nil =>
      have hmanage := Scheduler.manageRadio_eq_of_nil hqueue now e.state
      simp only [onAir, Act.within_apply, hmanage]
      exact undialed_quiet _
  | cons slot rest =>
      obtain ⟨delay, hmanage⟩ := Scheduler.manageRadio_eq_of_cons hqueue now e.state
      have hpost := TimerQueue.mute_insert (now + delay) none .manageRadio e.scheduler.timers
      simp only [onAir, Act.within_apply, hmanage]
      intro output hmem
      simp only [List.mem_append] at hmem
      rcases hmem with hmem | hmem | hmem
      · exact undialed_quiet _ output hmem
      · exact Scheduler.undialed_broadcast slot now _ output hmem
      · exact hpost.undialed output hmem

theorem disciplined_manage {e : Engine} (hrunning : e.scheduler.running = true)
    (h : e.Tuned past) :
    Disciplined e.state past e.radio (onAir (Scheduler.manageRadio now) e).output := by
  have hstop := Radio.startless_quiet e.scheduler.radio
  cases hqueue : e.scheduler.queue with
  | nil =>
      have hmanage := Scheduler.manageRadio_eq_of_nil hqueue now e.state
      simp only [onAir, Act.within_apply, hmanage]
      exact .of_startless hstop
  | cons slot rest =>
      obtain ⟨delay, hmanage⟩ := Scheduler.manageRadio_eq_of_cons hqueue now e.state
      have hoff : (Radio.quiet e.scheduler.radio).state =
          e.radio.heard (Radio.quiet e.scheduler.radio).output := Radio.heeds_quiet _
      have hdial := Radio.dial_heard (undialed_quiet e.scheduler.radio) e.radio
      rw [← hoff] at hdial
      have hturn : Disciplined e.state (past ++ (Radio.quiet e.scheduler.radio).output)
          (Radio.quiet e.scheduler.radio).state
          (Scheduler.broadcast slot now (e.scheduler.handOver rest, e.state)).output := by
        apply Scheduler.disciplined_broadcast (x := (e.scheduler.handOver rest, e.state))
        · exact Radio.advertising_quiet _
        · exact (congrArg Dial.interval hdial).trans
            ((h.interval hrunning).trans (congrArg Dial.minInterval hdial).symm)
        · intro htaken
          exact (congrArg Dial.scanResponse hdial).trans (h.scanResponse hrunning htaken.left)
      have hpost := TimerQueue.mute_insert (now + delay) none .manageRadio e.scheduler.timers
      simp only [onAir, Act.within_apply, hmanage]
      apply Disciplined.append (.of_startless hstop)
      rw [← hoff]
      exact hturn.append (.of_startless hpost.startless)

theorem tuned_manage {e : Engine} (hrunning : e.scheduler.running = true) (h : e.Tuned past) :
    Disciplined e.state past e.radio (onAir (Scheduler.manageRadio now) e).output ∧
      (onAir (Scheduler.manageRadio now) e).state.Tuned
        (past ++ (onAir (Scheduler.manageRadio now) e).output) := by
  have hheard := heeds_onAir (Scheduler.heeds_manageRadio now) e
  have hstill : (onAir (Scheduler.manageRadio now) e).state.scheduler.running = true :=
    (Scheduler.running_manageRadio now e.scheduler e.state).trans hrunning
  have hdial := Radio.dial_heard (undialed_manage now e) e.radio
  rw [← hheard] at hdial
  refine ⟨disciplined_manage hrunning h, ?_⟩
  constructor
  · intro hoff
    cases hoff.symm.trans hstill
  · intro _
    exact (congrArg Dial.interval hdial).trans
      ((h.interval hrunning).trans (congrArg Dial.minInterval hdial).symm)
  · intro _ htaken
    exact (congrArg Dial.scanResponse hdial).trans (h.scanResponse hrunning htaken.left)

theorem Move.tuned {e : Engine} {action : Act Engine α} (hmove : Move now e action)
    (h : e.Tuned past) :
    Disciplined e.state past e.radio (action e).output ∧
      (action e).state.Tuned (past ++ (action e).output) := by
  have hheard := hmove.heeds e
  cases hmove with
  | note _ => exact h.of_mute (mute_singleton rfl) hheard rfl rfl
  | emit event => exact h.of_mute (mute_singleton rfl) hheard rfl rfl
  | drain => exact h.of_mute (mute_drainEvents e) hheard rfl rfl
  | turnTo mode =>
      obtain ⟨reports, hreports, hmode⟩ := setMode_eq mode e
      rw [hmode] at hheard ⊢
      exact h.of_mute hreports.mute hheard rfl rfl
  | leave hphase =>
      exact ⟨.of_startless (Radio.startless_quiet _), .of_offAir rfl (Radio.advertising_quiet _)⟩
  | hush hquiet =>
      exact ⟨.of_startless (Radio.startless_quiet _), .of_offAir rfl (Radio.advertising_quiet _)⟩
  | clear hquiet => exact hquiet.tuned_clear h
  | configure hquiet hadvert => exact hquiet.tuned_configure h hadvert
  | raise _ _ => exact tuned_raise now e
  | manage hrunning _ => exact tuned_manage hrunning h
  | @ring id slot hbeaconing hfired =>
      exact h.of_mute ((Scheduler.spares_offer slot).mute _) hheard (running_offer slot _) rfl
  | release hbeaconing hfired => exact h.of_mute mute_nil hheard rfl rfl
  | wake hwaiting hdue =>
      exact ⟨.of_startless (Radio.startless_quiet _), .of_offAir rfl (Radio.advertising_quiet _)⟩
  | rearm slot _ =>
      exact h.of_mute ((Scheduler.spares_rearm e.state slot now).mute _) hheard
        (Scheduler.running_rearm e.state slot now e.scheduler) rfl

theorem Move.setup {e : Engine} {action : Act Engine α} (hmove : Move now e action) :
    (action e).state.state.setup = e.state.setup := by
  cases hmove with
  | note _ => rfl
  | emit event => rfl
  | drain => rfl
  | turnTo mode => rw [setMode_state]
  | leave _ => rfl
  | hush _ => rfl
  | clear _ => rw [clearScanResponse_state]
  | configure _ _ => exact congrArg (fun held => held.1.setup) (held_enterConfig _ _ now e)
  | raise _ _ =>
      have hsame : (clearScanResponse e).state.state = e.state := by rw [clearScanResponse_state]
      rw [raise_apply]
      exact congrArg State.setup hsame
  | manage _ _ => exact congrArg Prod.fst (marked_manageRadio now e)
  | ring _ _ => rfl
  | release _ _ => rfl
  | wake _ _ => rfl
  | rearm slot _ => rfl

theorem Path.tuned {e e' : Engine} {out : Transcript} (hpath : Path now e out e')
    (h : e.Tuned past) : Disciplined e.state past e.radio out ∧ e'.Tuned (past ++ out) := by
  induction hpath generalizing past with
  | refl e =>
      rw [List.append_nil]
      exact ⟨.of_startless mute_nil.startless, h⟩
  | step hmove _ ih =>
      obtain ⟨hfirst, htuned⟩ := hmove.tuned h
      obtain ⟨hrest, hlast⟩ := ih htuned
      rw [← List.append_assoc]
      rw [hmove.heeds] at hrest
      exact ⟨hfirst.append (hrest.congr hmove.setup), hlast⟩

theorem Path.setup_eq {e e' : Engine} {out : Transcript} (hpath : Path now e out e') :
    e'.state.setup = e.state.setup := by
  induction hpath with
  | refl e => rfl
  | step hmove _ ih => exact ih.trans hmove.setup

theorem Tuned.withState {e : Engine} (h : e.Tuned past) (state : State) (dirty : Bool) :
    { e with state, paramsDirty := dirty }.Tuned past :=
  ⟨h.offAir, h.interval, h.scanResponse⟩

theorem Tuned.later {e : Engine} (h : e.Tuned past) {out : Transcript} (hmute : out.Mute) :
    e.Tuned (past ++ out) := by
  have hmuted := h.of_mute hmute (hmute.heard_eq _).symm rfl rfl
  exact hmuted.2

theorem running_awaitResume (now : Nat) (e : Engine) :
    (awaitResume now e).state.scheduler.running = e.scheduler.running := by
  simp only [awaitResume, Act.bind_apply, Done.state_after, setMode_state]
  rfl

/-- Between operations an engine that is idle or connected has nothing on air. -/
theorem InPhase.offAir {e : Engine} (hphase : e.InPhase) (h : e.Tuned past)
    (hmode : e.mode = .idle ∨ e.mode = .connected) : e.radio.advertising = false := by
  cases hphase with
  | quiet hquiet => exact h.offAir hquiet.atRest.running hquiet.configTimer
  | pausing hpausing => exact h.offAir hpausing.atRest.running hpausing.configTimer
  | configuring hconfiguring =>
      rcases hmode with hmode | hmode <;> cases hconfiguring.mode.symm.trans hmode
  | beaconing hbeaconing =>
      rcases hmode with hmode | hmode <;> cases hbeaconing.mode.symm.trans hmode

end Engine

/-! ## Power levels -/

def PowerLevels.Ascending (levels : PowerLevels) : Prop :=
  ∀ i : Fin 3, levels.get i.castSucc < levels.get i.succ

/-- The last level is the highest. -/
theorem PowerLevels.Ascending.le_top {levels : PowerLevels} (h : levels.Ascending) (i : Fin 4) :
    levels[i] ≤ levels.top :=
  match i with
  | 0 => Int8.le_of_lt (Int8.lt_trans (h 0) (Int8.lt_trans (h 1) (h 2)))
  | 1 => Int8.le_of_lt (Int8.lt_trans (h 1) (h 2))
  | 2 => Int8.le_of_lt (h 2)
  | 3 => Int8.le_refl _

theorem Config.Sound.ascending {config : Config} (h : config.Sound) :
    config.radioLevels.Ascending
  | 0 => h.levels.1
  | 1 => h.levels.2.1
  | 2 => h.levels.2.2

namespace Entry

/-- After the central has been answered nothing changes the setup. -/
theorem setup_after {x : Entry} (hphase : x.before.1.InPhase) :
    x.after.1.state.setup = x.answered.setup := by
  cases x.route hphase with
  | served opening dirty _ _ _ _ hpath => exact hpath.setup_eq
  | kept clock clockDirty dirty _ _ hafter hanswered =>
      rw [hafter, hanswered]
      rfl
  | @paused now e clock clockDirty dirty opening hrequest _ he _ _ hafter =>
      have hanswered : x.answered = x.before.1.state := by rw [answered, hrequest]
      rw [hafter, hanswered]
      have hheld := congrArg (fun held => held.1.setup) (Engine.held_awaitResume now e)
      rw [he] at hheld ⊢
      exact hheld

/-- The power levels of the radio stay, or are those of the configuration again. -/
theorem radioLevels_answered (x : Entry) :
    x.answered.radioLevels = x.before.1.state.radioLevels ∨
      x.answered.radioLevels = x.before.1.state.config.radioLevels := by
  obtain ⟨d, request⟩ := x
  cases request with
  | read attr now =>
      exact .inl (congrArg Settings.radioLevels (Attribute.settings_read attr now d.1.state))
  | write attr offset data now =>
      have houtcome := Attribute.outcome_write attr offset data now d.1.state
      simp only [answered]
      generalize (attr.write offset data now d.1.state).value = value at houtcome
      generalize (attr.write offset data now d.1.state).state = t at houtcome ⊢
      cases houtcome with
      | edited f _ _ hsetup =>
          exact .inl (congrArg (fun setup => setup.settings.radioLevels) hsetup)
      | reset _ _ _ _ _ _ => exact .inr rfl
      | refused _ => exact .inl rfl
      | mistaken _ _ _ => exact .inl rfl
      | unlocked _ _ _ _ _ _ _ _ _ => exact .inl rfl
      | locks _ _ _ => exact .inl rfl
      | moved _ _ => exact .inl rfl
      | connectable _ _ => exact .inl rfl
      | spared _ _ => exact .inl rfl
  | poll now => exact .inl rfl
  | radioEvent event now => exact .inl rfl
  | command command now => exact .inl rfl
  | saveIfDirty now => exact .inl rfl

/-- What serving a request puts out, or what a poll has put out after some of its timers. -/
inductive Utters (x : Entry) : Transcript → Prop
  | whole : Utters x x.output
  | begun {now : Nat} (timers : Nat) :
      x.request = .poll now → Utters x (Engine.fireSome now timers x.before.1).output

variable {past : Transcript}

theorem disciplined {x : Entry} (hphase : x.before.1.InPhase) (h : x.before.1.Tuned past)
    {out : Transcript} (hutters : x.Utters out) :
    Disciplined x.answered past x.before.1.radio out := by
  cases hutters with
  | @begun now timers hpoll =>
      have hanswered : x.answered = x.before.1.state := by rw [answered, hpoll]
      rw [hanswered]
      exact ((hphase.takes_fireSome now timers).tuned h).1
  | whole =>
      cases x.route hphase with
      | served opening dirty _ _ houtput hopening hpath =>
          have htuned := (h.later hopening.mute).withState x.answered dirty
          rw [houtput]
          apply Disciplined.append (.of_startless hopening.mute.startless)
          rw [hopening.mute.heard_eq]
          exact (hpath.tuned htuned).1
      | kept clock clockDirty dirty _ hplain _ _ =>
          exact .of_startless hplain.mute.startless
      | @paused now e clock clockDirty dirty opening _ _ _ houtput hopening _ =>
          rw [houtput]
          exact .of_startless
            (hopening.mute.append ((Engine.spares_awaitResume now).mute e)).startless

theorem tuned_after {x : Entry} (hphase : x.before.1.InPhase) (h : x.before.1.Tuned past) :
    x.after.1.Tuned (past ++ x.output) := by
  cases x.route hphase with
  | served opening dirty _ _ houtput hopening hpath =>
      have htuned := (h.later hopening.mute).withState x.answered dirty
      rw [houtput, ← List.append_assoc]
      exact (hpath.tuned htuned).2
  | kept clock clockDirty dirty _ hplain hafter _ =>
      rw [hafter]
      exact (h.later hplain.mute).withState _ dirty
  | @paused now e clock clockDirty dirty opening _ hmode he houtput hopening hafter =>
      have hquiet := hphase.quiet_of_connected hmode
      have hoff := h.offAir hquiet.atRest.running hquiet.configTimer
      have hspared := Engine.spares_awaitResume now
      apply Engine.Tuned.of_offAir
      · rw [hafter, Engine.running_awaitResume, he]
        exact hquiet.atRest.running
      · rw [hafter, hspared.keeps e, he]
        exact hoff

end Entry

namespace Settings

theorem lasting_ascending : Lasting fun settings => settings.radioLevels.Ascending where
  factory hsound _ := hsound.ascending
  stored h _ := h
  served {_ _ d} request hreach hsound h := by
    have hafter := Entry.setup_after (x := ⟨d, request⟩) hreach.inPhase
    have hlevels : (Device.serve request d).state.1.state.radioLevels =
        (Entry.answered ⟨d, request⟩).radioLevels :=
      congrArg (fun setup => setup.settings.radioLevels) hafter
    change PowerLevels.Ascending (Device.serve request d).state.1.state.radioLevels
    rw [hlevels]
    rcases Entry.radioLevels_answered ⟨d, request⟩ with hsame | hconfig
    · rw [hsame]
      exact h
    · rw [hconfig]
      exact hsound.ascending

end Settings

/-! ## Runs -/

def Output.isStart : Output → Bool
  | .radio (.start _) _ => true
  | _ => false

theorem Output.eq_start_of_isStart {output : Output} (h : output.isStart) :
    ∃ payload fault, output = .radio (.start payload) fault := by
  cases output with
  | radio call fault =>
      cases call <;> first
        | exact ⟨_, _, rfl⟩
        | cases h
  | notice notice => cases h
  | event event => cases h
  | store call fault => cases h

namespace Device

variable {config : Config} {store : Store} {start d : Device} {history : History}

theorem tuned_of_run (hbooted : Booted config store start)
    (hidle : start.1.radio.advertising = false) (hrun : Run start history d) :
    d.1.Tuned history.transcript := by
  induction hrun with
  | start => exact .of_offAir hbooted.quiet.atRest.running hidle
  | @serve history d request hrun ih =>
      have hphase := (Reachable.of_run (.boot hbooted) hrun).inPhase
      have hafter := Entry.tuned_after (x := ⟨d, request⟩) hphase ih
      rw [History.transcript_concat]
      exact hafter

/-- With a radio that was off air at first, the radio is what it was told and did not refuse; it is
off air whenever the device is idle or connected; and nothing is ever started unless it is off air
and in tune.  If no other firmware has written to the store, the power in configuration mode is the
highest. -/
theorem radio_in_tune (hbooted : Booted config store start)
    (hidle : start.1.radio.advertising = false) (hrun : Run start history d) :
    (∀ request, (serve request d).state.1.radio = d.1.radio.heard (Entry.output ⟨d, request⟩)) ∧
      (d.1.mode = .idle ∨ d.1.mode = .connected → d.1.radio.advertising = false) ∧
      ∀ request out before payload fault rest, Entry.Utters ⟨d, request⟩ out →
        out = before ++ .radio (.start payload) fault :: rest →
        (d.1.radio.heard before).advertising = false ∧
          InTune (Entry.answered ⟨d, request⟩) (history.transcript ++ before)
            (d.1.radio.heard before) payload fault rest ∧
          (store.medium.Inherited →
            ∀ i : Fin 4, (Entry.answered ⟨d, request⟩).radioLevels[i] ≤
              (Entry.answered ⟨d, request⟩).radioLevels.top) := by
  have hreach := Reachable.of_run (.boot hbooted) hrun
  have hphase := hreach.inPhase
  have htuned := tuned_of_run hbooted hidle hrun
  refine ⟨fun request => Entry.heard_eq (x := ⟨d, request⟩) hphase, hphase.offAir htuned, ?_⟩
  intro request out before payload fault rest hutters hout
  have hdisciplined := Entry.disciplined (x := ⟨d, request⟩) hphase htuned hutters
  obtain ⟨hoff, htune⟩ := hdisciplined before payload fault rest hout
  refine ⟨hoff, htune, fun hstore => ?_⟩
  have hholds := hreach.holds Settings.lasting_ascending (hstore.carries Settings.lasting_ascending)
  have hlevels : (Entry.answered ⟨d, request⟩).radioLevels.Ascending := by
    rcases Entry.radioLevels_answered ⟨d, request⟩ with hsame | hconfig
    · rw [hsame]
      exact hholds.settings
    · rw [hconfig]
      exact hholds.sound.ascending
  exact hlevels.le_top

/-- A device that comes on air starts something. -/
theorem radio_in_tune_on_air :
    ∃ start before payload fault rest,
      Booted Config.standard ⟨.memory none, fun _ _ => none, 0⟩ start ∧
      Entry.output ⟨start, .command .startBeacon 0⟩ =
        before ++ .radio (.start payload) fault :: rest ∧
      InTune start.1.state before (start.1.radio.heard before) payload fault rest := by
  obtain ⟨start, hbooted, hstart⟩ :
      ∃ start, Booted Config.standard ⟨.memory none, fun _ _ => none, 0⟩ start ∧
        (start.1.radio.advertising,
          (Entry.output ⟨start, .command .startBeacon 0⟩).any Output.isStart) = (false, true) :=
    exists_booted_of_eq (.idle 100 10240 fun _ _ => none) (some (Octets.zero 32)) 0
      (fun start => (start.1.radio.advertising,
        (Entry.output ⟨start, .command .startBeacon 0⟩).any Output.isStart)) (by decide +kernel)
  obtain ⟨hidle, hany⟩ := Prod.mk.inj hstart
  obtain ⟨output, hmem, houtput⟩ := List.any_eq_true.mp hany
  obtain ⟨payload, fault, rfl⟩ := Output.eq_start_of_isStart houtput
  obtain ⟨before, rest, hsplit⟩ := List.append_of_mem hmem
  have htune := (radio_in_tune hbooted hidle .start).2.2 (.command .startBeacon 0) _ _ _ _ _ .whole
    hsplit
  exact ⟨start, before, payload, fault, rest, hbooted, hsplit, htune.2.1⟩

end Device

end Beacon

import Beacon.Proofs.Broadcasts

/-!
# What the radio hears

The settings of the radio and whether it advertises can be read off the calls that
were put out: a radio that was told nothing else is what it was before, with every
call that was not refused taking effect in turn.  Every action of the beacon is one
that the radio follows in this way.
-/

namespace Beacon

variable {σ τ α β : Type}

/-- The stack may refuse the call. -/
def RadioCall.isAsked : RadioCall → Bool
  | .start _ => true
  | .scanResponse _ => true
  | .address _ => true
  | _ => false

namespace Radio

def counted (call : RadioCall) (radio : Radio) : Radio :=
  if call.isAsked then { radio with decided := radio.decided + 1 } else radio

def hear (radio : Radio) : Output → Radio
  | .radio call none => apply call (radio.counted call)
  | .radio call (some _) => radio.counted call
  | _ => radio

def heard (transcript : Transcript) (radio : Radio) : Radio :=
  transcript.foldl hear radio

theorem heard_append (a b : Transcript) (radio : Radio) :
    heard (a ++ b) radio = heard b (heard a radio) :=
  List.foldl_append

end Radio

/-! ## Transcripts without a call -/

def Output.isCall : Output → Bool
  | .radio _ _ => true
  | _ => false

namespace Transcript

/-- Nothing was asked or told of the radio. -/
def Mute (transcript : Transcript) : Prop :=
  ∀ output ∈ transcript, output.isCall = false

theorem mute_nil : Mute [] := by
  intro output hmem
  cases hmem

theorem mute_singleton {output : Output} (h : output.isCall = false) : Mute [output] := by
  intro other hmem
  rwa [List.mem_singleton.mp hmem]

theorem Plain.mute {transcript : Transcript} (h : transcript.Plain) : transcript.Mute := by
  intro output hmem
  have hplain := h output hmem
  cases output with
  | radio call fault => cases hplain
  | notice notice => rfl
  | event event => rfl
  | store call fault => rfl

theorem Mute.append {a b : Transcript} (ha : a.Mute) (hb : b.Mute) : Mute (a ++ b) := by
  intro output hmem
  cases List.mem_append.mp hmem with
  | inl hmem => exact ha output hmem
  | inr hmem => exact hb output hmem

theorem Mute.heard_eq {transcript : Transcript} (h : transcript.Mute) (radio : Radio) :
    radio.heard transcript = radio := by
  induction transcript with
  | nil => rfl
  | cons output rest ih =>
      have hfirst : radio.hear output = radio := by
        cases output with
        | radio call fault => cases h _ List.mem_cons_self
        | notice notice => rfl
        | event event => rfl
        | store call fault => rfl
      rw [Radio.heard, List.foldl_cons, hfirst]
      exact ih fun other hmem => h other (List.mem_cons_of_mem _ hmem)

end Transcript

open Transcript

/-! ## Actions that the radio follows -/

namespace Act

/-- After the action the radio is what it makes of all that the action put out. -/
def Heeds (view : σ → Radio) (action : Act σ α) : Prop :=
  ∀ s, view (action s).state = (view s).heard (action s).output

theorem Heeds.bind {view : σ → Radio} {action : Act σ α} {next : α → Act σ β}
    (hfirst : Heeds view action) (hnext : ∀ a, Heeds view (next a)) :
    Heeds view (action >>= next) := by
  intro s
  rw [bind_apply, Done.state_after, Done.output_after, Radio.heard_append, ← hfirst s]
  exact hnext _ _

/-- The radio has no part in the action. -/
structure Spares (view : σ → Radio) (action : Act σ α) : Prop where
  keeps : Keeps view action
  mute : ∀ s, Mute (action s).output

theorem Spares.heeds {view : σ → Radio} {action : Act σ α} (h : Spares view action) :
    Heeds view action := by
  intro s
  rw [(h.mute s).heard_eq]
  exact h.keeps s

theorem Spares.bind {view : σ → Radio} {action : Act σ α} {next : α → Act σ β}
    (hfirst : Spares view action) (hnext : ∀ a, Spares view (next a)) :
    Spares view (action >>= next) where
  keeps := hfirst.keeps.bind fun a => (hnext a).keeps
  mute s := (hfirst.mute s).append ((hnext _).mute _)

theorem spares_get_bind {view : σ → Radio} {next : σ → Act σ α} (h : ∀ s, Spares view (next s)) :
    Spares view (get >>= next) where
  keeps s := (h s).keeps s
  mute s := (h s).mute s

/-- Nothing is put out and the radio is left alone. -/
theorem spares_of_still {view : σ → Radio} {action : Act σ α} (hkeeps : Keeps view action)
    (houtput : ∀ s, (action s).output = []) : Spares view action where
  keeps := hkeeps
  mute s := by
    rw [houtput s]
    exact mute_nil

theorem spares_pure (view : σ → Radio) (a : α) : Spares view (pure a : Act σ α) :=
  spares_of_still (fun _ => rfl) fun _ => rfl

theorem spares_note (view : σ → Radio) (notice : Notice) :
    Spares view (note notice : Act σ Unit) := by
  constructor
  · intro s
    rfl
  · intro s
    exact mute_singleton rfl

theorem heeds_pure (view : σ → Radio) (a : α) : Heeds view (pure a : Act σ α) :=
  (spares_pure view a).heeds

theorem heeds_note (view : σ → Radio) (notice : Notice) :
    Heeds view (note notice : Act σ Unit) :=
  (spares_note view notice).heeds

/-- An action that first looks at the state. -/
theorem heeds_get_bind {view : σ → Radio} {next : σ → Act σ α}
    (hnext : ∀ s, view (next s s).state = (view s).heard (next s s).output) :
    Heeds view (get >>= next) :=
  hnext

theorem Heeds.within {view : σ → Radio} {action : Act σ α} (h : Heeds view action)
    {get : τ → σ} {set : τ → σ → τ} {wider : τ → Radio} (hget : ∀ t, wider t = view (get t))
    (hset : ∀ t s, wider (set t s) = view s) : Heeds wider (action.within get set) := by
  intro t
  rw [within_apply, hset, hget]
  exact h (get t)

end Act

open Act

namespace Radio

theorem heeds_tell {call : RadioCall} (h : call.isAsked = false) : Heeds id (tell call) := by
  intro radio
  rw [tell_apply]
  simp only [heard, List.foldl_cons, List.foldl_nil, hear, counted, h, id]
  rfl

theorem heeds_ask {call : RadioCall} (h : call.isAsked = true) : Heeds id (ask call) := by
  intro radio
  cases hrefusal : radio.refusal? radio.decided call with
  | none =>
      rw [ask_of_no_refusal hrefusal]
      simp only [heard, List.foldl_cons, List.foldl_nil, hear, counted, h, id, if_true]
  | some fault =>
      rw [ask_of_refusal hrefusal]
      simp only [heard, List.foldl_cons, List.foldl_nil, hear, counted, h, id, if_true]

theorem heeds_quiet : Heeds id quiet := by
  intro radio
  simp only [quiet, bind_apply, get_apply, Done.after_nil]
  split
  · exact heeds_tell rfl radio
  · rfl

end Radio

namespace TimerQueue

theorem mute_insert (deadline : Nat) (period : Option Nat) (task : Task) (queue : TimerQueue) :
    Mute (insert deadline period task queue).output := by
  rcases insert_cases deadline period task queue with ⟨-, h⟩ | ⟨-, -, h⟩
  · rw [h]
    exact mute_singleton rfl
  · rw [h]
    exact mute_nil

end TimerQueue

namespace Scheduler

theorem heeds_onRadio {action : Act Radio α} (h : Heeds id action) :
    Heeds Scheduler.radio (onRadio action) :=
  h.within (fun _ => rfl) fun _ _ => rfl

theorem spares_onTimers {action : Act TimerQueue α} (h : ∀ q, Mute (action q).output) :
    Spares Scheduler.radio (onTimers action) := by
  constructor
  · intro s
    rfl
  · intro s
    exact h s.timers

theorem spares_modify {f : Scheduler → Scheduler} (h : ∀ s, (f s).radio = s.radio) :
    Spares Scheduler.radio (modify f : Act Scheduler PUnit) :=
  spares_of_still h fun _ => rfl

theorem heeds_stop : Heeds Scheduler.radio stop := by
  apply Heeds.bind
  · exact (spares_modify fun _ => rfl).heeds
  · intro a
    exact heeds_onRadio Radio.heeds_quiet

theorem spares_arm (slot : SlotIndex) (interval : UInt16) (now : Nat) :
    Spares Scheduler.radio (arm slot interval now) := by
  apply (spares_onTimers fun q => TimerQueue.mute_insert _ _ _ q).bind
  intro handle
  exact spares_modify fun _ => rfl

theorem spares_offer (slot : Nat) : Spares Scheduler.radio (offer slot) := by
  constructor
  · intro s
    obtain ⟨queue, hoffer, -⟩ := offer_cases slot s
    rw [hoffer]
  · intro s
    simp only [offer, bind_apply, get_apply, Done.after_nil]
    split
    · exact mute_nil
    · split
      · exact mute_nil
      · exact mute_singleton rfl

theorem spares_rearm (p : State) (slot now : Nat) : Spares Scheduler.radio (rearm p slot now) := by
  unfold rearm
  split
  · apply spares_get_bind
    intro s
    split
    · apply Spares.bind
      · exact spares_modify fun _ => rfl
      intro _
      cases AdvertProvider.interval? p slot with
      | none => exact spares_note _ _
      | some interval => exact (spares_arm _ interval now).bind fun _ => spares_note _ _
    · exact spares_pure _ _
  · exact spares_pure _ _

theorem spares_armAll (p : State) (now : Nat) (slots : List SlotIndex) :
    Spares Scheduler.radio (armAll p now slots) := by
  induction slots with
  | nil => exact spares_pure _ _
  | cons slot rest ih =>
      rw [armAll]
      cases AdvertProvider.interval? p slot.val with
      | none => exact ih
      | some interval =>
          apply Spares.bind
          · exact spares_modify fun _ => rfl
          intro _
          apply (spares_arm slot interval now).bind
          intro _
          exact (spares_note _ _).bind fun _ => ih

theorem heeds_changeAddress (newAddress : Option (Octets 6)) :
    Heeds Scheduler.radio (changeAddress newAddress) := by
  cases newAddress with
  | none => exact heeds_pure _ _
  | some address =>
      apply (heeds_onRadio (Radio.heeds_ask rfl)).bind
      intro answer
      cases answer with
      | ok _ => exact heeds_pure _ _
      | error fault => exact heeds_note _ _

/-- The radio of a scheduler with the state that it sends from. -/
def sounding (x : Scheduler × State) : Radio :=
  x.1.radio

theorem heeds_onFst {action : Act Scheduler α} (h : Heeds Scheduler.radio action) :
    Heeds sounding (Act.onFst action) :=
  h.within (fun _ => rfl) fun _ _ => rfl

theorem heeds_transmit (slot : Nat) (advert : PreparedAdvert) :
    Heeds sounding (transmit slot advert) := by
  apply (heeds_onFst (heeds_changeAddress _)).bind
  intro _
  apply (heeds_onFst (heeds_onRadio (Radio.heeds_tell rfl))).bind
  intro _
  apply (heeds_onFst (heeds_onRadio (Radio.heeds_tell rfl))).bind
  intro _
  apply (heeds_onFst (heeds_onRadio (Radio.heeds_ask rfl))).bind
  intro answer
  cases answer with
  | ok _ =>
      exact ((spares_note _ _).bind fun _ => spares_of_still (fun _ => rfl) fun _ => rfl).heeds
  | error fault => exact heeds_note _ _

theorem heeds_broadcast (slot now : Nat) :
    Heeds sounding (broadcast slot now : Act (Scheduler × State) Unit) := by
  have hprepare : Heeds sounding
      (Act.onSnd (AdvertProvider.prepare slot now) : Act (Scheduler × State) _) :=
    Spares.heeds ⟨fun _ => rfl, fun x => (State.asides_prepare slot now x.2).plain.mute⟩
  apply hprepare.bind
  intro advert
  cases advert with
  | none => exact heeds_note _ _
  | some advert => exact heeds_transmit slot advert

theorem heeds_manageRadio (now : Nat) :
    Heeds sounding (manageRadio now : Act (Scheduler × State) Unit) := by
  have hquiet : Heeds sounding (Act.onFst (onRadio Radio.quiet)) :=
    heeds_onFst (heeds_onRadio Radio.heeds_quiet)
  intro x
  obtain ⟨s, p⟩ := x
  cases hqueue : s.queue with
  | nil =>
      rw [manageRadio_of_nil hqueue]
      exact hquiet ({ s with manager := none }, p)
  | cons slot rest =>
      rw [manageRadio_of_cons hqueue]
      refine Heeds.bind hquiet (fun _ => ?_) ({ s with manager := none, queue := rest }, p)
      apply (heeds_broadcast slot now).bind
      intro _
      apply heeds_get_bind
      intro y
      have hpost (delay : Nat) : Heeds sounding
          (Act.onFst (onTimers (TimerQueue.postIn now delay .manageRadio)) :
            Act (Scheduler × State) _) :=
        heeds_onFst (spares_onTimers fun q => TimerQueue.mute_insert _ _ _ q).heeds
      refine Heeds.bind (hpost _) (fun _ => ?_) y
      exact (spares_of_still (fun _ => rfl) fun _ => rfl).heeds

theorem heeds_comeOnAir (now : Nat) :
    Heeds sounding (comeOnAir now : Act (Scheduler × State) Unit) := by
  apply heeds_get_bind
  intro x
  refine Heeds.bind (heeds_onFst (heeds_onRadio (Radio.heeds_tell rfl))) (fun _ => ?_) x
  apply (heeds_onFst (spares_armAll x.2 now SlotIndex.all).heeds).bind
  intro _
  exact (spares_of_still (fun _ => rfl) fun _ => rfl).heeds

end Scheduler

namespace Engine

variable {now : Nat}

def radio (e : Engine) : Radio :=
  e.scheduler.radio

theorem heeds_onScheduler {action : Act Scheduler α} (h : Heeds Scheduler.radio action) :
    Heeds radio (onScheduler action) :=
  h.within (fun _ => rfl) fun _ _ => rfl

theorem heeds_onRadio {action : Act Radio α} (h : Heeds id action) : Heeds radio (onRadio action) :=
  heeds_onScheduler (Scheduler.heeds_onRadio h)

theorem spares_onTimers {action : Act TimerQueue α} (h : ∀ q, Mute (action q).output) :
    Spares radio (onTimers action) := by
  constructor
  · intro e
    rfl
  · intro e
    exact h e.scheduler.timers

theorem heeds_onAir {action : Act (Scheduler × State) α} (h : Heeds Scheduler.sounding action) :
    Heeds radio (onAir action) :=
  h.within (fun _ => rfl) fun _ _ => rfl

theorem spares_modify {f : Engine → Engine} (h : ∀ e, (f e).radio = e.radio) :
    Spares radio (modify f : Act Engine PUnit) := by
  constructor
  · exact h
  · intro e
    exact mute_nil

theorem spares_setMode (mode : Mode) : Spares radio (setMode mode) := by
  constructor
  · intro e
    rw [setMode_state]
    rfl
  · intro e
    obtain ⟨reports, hreports, hmode⟩ := setMode_eq mode e
    rw [hmode]
    exact hreports.mute

theorem heeds_leaveMode : Heeds radio leaveMode := by
  apply Heeds.bind
  · exact (spares_modify fun _ => rfl).heeds
  · intro a
    exact heeds_onScheduler Scheduler.heeds_stop

theorem heeds_clearScanResponse : Heeds radio clearScanResponse := by
  apply (heeds_onRadio (Radio.heeds_ask rfl)).bind
  intro answer
  cases answer with
  | ok _ => exact heeds_pure _ _
  | error fault => exact heeds_note _ _

theorem heeds_askRadio {call : RadioCall} (h : call.isAsked = true) :
    Heeds radio (askRadio call) := by
  apply (heeds_onRadio (Radio.heeds_ask h)).bind
  intro answer
  cases answer with
  | ok _ => exact heeds_pure _ _
  | error fault => exact heeds_pure _ _

theorem heeds_startConfigAdvert (scan payload : Bytes) :
    Heeds radio (startConfigAdvert scan payload) := by
  apply (heeds_askRadio rfl).bind
  intro answer
  cases answer with
  | error fault => exact heeds_pure _ _
  | ok _ =>
      apply heeds_get_bind
      intro e
      refine Heeds.bind (heeds_onRadio (Radio.heeds_tell rfl)) (fun _ => ?_) e
      apply (heeds_onRadio (Radio.heeds_tell rfl)).bind
      intro _
      apply (heeds_onRadio (Radio.heeds_tell rfl)).bind
      intro _
      exact heeds_askRadio rfl

theorem heeds_enterConfig (scan payload : Bytes) (now : Nat) :
    Heeds radio (enterConfig scan payload now) := by
  apply (heeds_startConfigAdvert scan payload).bind
  intro answer
  cases answer with
  | error fault => exact heeds_pure _ _
  | ok _ =>
      apply Spares.heeds
      apply spares_get_bind
      intro e
      apply (spares_onTimers fun q => TimerQueue.mute_insert _ _ _ q).bind
      intro handle
      apply Spares.bind
      · exact spares_modify fun _ => rfl
      intro _
      apply (spares_note _ _).bind
      intro _
      exact (spares_setMode _).bind fun _ => spares_pure _ _

theorem spares_awaitResume (now : Nat) : Spares radio (awaitResume now) := by
  apply spares_get_bind
  intro e
  apply (spares_onTimers fun q => TimerQueue.mute_insert _ _ _ q).bind
  intro handle
  apply Spares.bind
  · exact spares_modify fun _ => rfl
  intro _
  exact spares_setMode _

theorem spares_popDue (now : Nat) : Spares radio (onTimers (TimerQueue.popDue now)) := by
  apply spares_onTimers
  intro q
  exact mute_nil

theorem mute_drainEvents (e : Engine) : Mute (onState State.drainEvents e).output := by
  intro output hmem
  obtain ⟨event, -, rfl⟩ := List.mem_map.mp hmem
  rfl

/-- The radio follows every move of the engine. -/
theorem Move.heeds {e : Engine} {action : Act Engine α} (hmove : Move now e action) :
    Heeds radio action := by
  cases hmove with
  | note _ => exact heeds_note _ _
  | emit event => exact Spares.heeds ⟨fun _ => rfl, fun _ => mute_singleton rfl⟩
  | drain => exact Spares.heeds ⟨fun _ => rfl, mute_drainEvents⟩
  | turnTo mode => exact (spares_setMode mode).heeds
  | leave _ => exact heeds_leaveMode
  | hush _ => exact heeds_onScheduler Scheduler.heeds_stop
  | clear _ => exact heeds_clearScanResponse
  | configure _ _ => exact heeds_enterConfig _ _ now
  | raise _ _ =>
      apply heeds_clearScanResponse.bind
      intro _
      apply (heeds_onScheduler Scheduler.heeds_stop).bind
      intro _
      exact heeds_onAir (Scheduler.heeds_comeOnAir now)
  | manage _ _ => exact heeds_onAir (Scheduler.heeds_manageRadio now)
  | ring _ _ =>
      apply (spares_popDue now).heeds.bind
      intro _
      exact heeds_onScheduler (Scheduler.spares_offer _).heeds
  | release _ _ => exact ((spares_popDue now).bind fun _ => spares_modify fun _ => rfl).heeds
  | wake _ _ =>
      apply (spares_popDue now).heeds.bind
      intro _
      exact (spares_modify fun _ => rfl).heeds.bind fun _ => heeds_leaveMode
  | rearm slot _ => exact heeds_onScheduler (Scheduler.spares_rearm e.state slot now).heeds

theorem Path.heard_eq {e e' : Engine} {out : Transcript} (hpath : Path now e out e') :
    e'.radio = e.radio.heard out := by
  induction hpath with
  | refl e => rfl
  | step hmove _ ih => rw [Radio.heard_append, ← hmove.heeds, ih]

end Engine

namespace Entry

/-- The radio of a device is what it makes of the calls that serving a request put out. -/
theorem heard_eq {x : Entry} (hphase : x.before.1.InPhase) :
    x.after.1.radio = x.before.1.radio.heard x.output := by
  cases x.route hphase with
  | served opening dirty _ _ houtput hopening hpath =>
      rw [houtput, Radio.heard_append, hopening.mute.heard_eq]
      exact hpath.heard_eq
  | kept clock clockDirty dirty _ hplain hafter _ =>
      rw [hplain.mute.heard_eq, hafter]
      rfl
  | paused clock clockDirty dirty _ _ he houtput hopening hafter =>
      rw [houtput, Radio.heard_append, hopening.mute.heard_eq, hafter,
        (Engine.spares_awaitResume _).heeds, he]
      rfl

end Entry

/-- All that was put out, oldest first. -/
def History.transcript (history : History) : Transcript :=
  history.flatMap Entry.output

theorem History.transcript_concat (history : History) (x : Entry) :
    History.transcript (history ++ [x]) = history.transcript ++ x.output := by
  simp [transcript]

end Beacon

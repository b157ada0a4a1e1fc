import Beacon.Proofs.Dues
import Beacon.Proofs.Rounds

/-!
# Device addresses

With every new identifier a device address is drawn.  It waits in the state, goes
with the next payload that a slot sends, and the radio is asked to take it on just
before that payload is started.

The radio may refuse, and it is not asked again: from then on slots go out under
an older address until the next rotation.  That is the only way for an address to
get lost; a slot with nothing to send leaves it waiting, and so does a stop.
-/

namespace Beacon

variable {α : Type} {now : Nat}

/-- What bears on the device address, and what is sent under it. -/
inductive Dealing where
  /-- A rotation has drawn an address. -/
  | drawn (address : Octets 6)
  /-- A factory reset has undone the rotations before. -/
  | reset
  | asked (address : Octets 6) (fault : Option RadioFault)
  /-- The radio has taken the payload of a slot. -/
  | aired (slot : Nat) (payload : Bytes)

abbrev Ledger := List Dealing

/-! ## Addresses that are drawn, taken on or lost -/

namespace Ledger

/-- The address was drawn, and later on the radio has taken it on. -/
def Applied (address : Octets 6) (ledger : Ledger) : Prop :=
  ∃ before later, ledger = before ++ .drawn address :: later ∧ .asked address none ∈ later

/-- For every rotation that no reset has undone, an address drawn then or later has been taken
on. -/
def Covered (ledger : Ledger) : Prop :=
  ∀ before address later, ledger = before ++ .drawn address :: later → .reset ∉ later →
    ∃ other, Applied other (.drawn address :: later)

/-- The radio has refused the address that was drawn last, and no reset has undone that. -/
def Refused (ledger : Ledger) : Prop :=
  ∃ before address later fault, ledger = before ++ .drawn address :: later ∧
    .asked address (some fault) ∈ later ∧ (∀ other, .drawn other ∉ later) ∧ .reset ∉ later

/-- What has become of the address drawn last: there is none since the last reset, it waits, or the
radio has answered. -/
inductive Standing : Ledger → Option (Octets 6) → Prop
  | clear {ledger : Ledger} :
      (∀ before address later, ledger = before ++ .drawn address :: later → .reset ∈ later) →
      Standing ledger none
  | waiting (before : Ledger) (address : Octets 6) :
      Standing (before ++ [.drawn address]) (some address)
  | answered (before : Ledger) (address : Octets 6) (fault : Option RadioFault) {later : Ledger} :
      (∀ dealing ∈ later, ∃ slot payload, dealing = .aired slot payload) →
      Standing (before ++ .drawn address :: .asked address fault :: later) none

/-- Any draw is the last one or comes before it. -/
theorem drawn_of_last {before before' later later' : Ledger} {address address' : Octets 6}
    (h : before ++ .drawn address :: later = before' ++ .drawn address' :: later')
    (hlast : ∀ other, .drawn other ∉ later) :
    (∃ mid, later' = mid ++ .drawn address :: later) ∨ address' = address ∧ later' = later := by
  rcases List.append_eq_append_iff.mp h with ⟨mid, -, hmid⟩ | ⟨mid, -, hmid⟩
  · cases mid with
    | nil =>
        obtain ⟨hsame, hlater⟩ := List.cons.inj hmid
        exact .inr ⟨(Dealing.drawn.inj hsame).symm, hlater.symm⟩
    | cons first mid =>
        have hlater := (List.cons.inj hmid).2
        exact absurd (hlater ▸ List.mem_append_right mid List.mem_cons_self) (hlast address')
  · cases mid with
    | nil =>
        obtain ⟨hsame, hlater⟩ := List.cons.inj hmid
        exact .inr ⟨Dealing.drawn.inj hsame, hlater⟩
    | cons first mid => exact .inl ⟨mid, (List.cons.inj hmid).2⟩

theorem Applied.asked_mem {address : Octets 6} {ledger : Ledger} (h : ledger.Applied address) :
    .asked address none ∈ ledger := by
  obtain ⟨before, later, rfl, htaken⟩ := h
  exact List.mem_append_right _ (List.mem_cons_of_mem _ htaken)

/-- An address that the radio has taken on covers every rotation before. -/
theorem Applied.extend {address : Octets 6} {ledger : Ledger} (h : ledger.Applied address)
    (before : Ledger) : Applied address (before ++ ledger) := by
  obtain ⟨earlier, later, rfl, htaken⟩ := h
  exact ⟨before ++ earlier, later, (List.append_assoc ..).symm, htaken⟩

section Answered

/-! The radio has answered for the address drawn last, and only payloads have been sent since. -/

variable {before later : Ledger} {address : Octets 6} {fault : Option RadioFault}
  (hlater : ∀ dealing ∈ later, ∃ slot payload, dealing = .aired slot payload)

include hlater

theorem eq_of_mem_answered {dealing : Dealing} (h : dealing ∈ .asked address fault :: later) :
    dealing = .asked address fault ∨ ∃ slot payload, dealing = .aired slot payload := by
  cases List.mem_cons.mp h with
  | inl hfirst => exact .inl hfirst
  | inr hmem => exact .inr (hlater dealing hmem)

theorem drawn_not_mem (other : Octets 6) : .drawn other ∉ Dealing.asked address fault :: later := by
  intro hmem
  rcases eq_of_mem_answered hlater hmem with heq | ⟨slot, payload, heq⟩ <;> cases heq

theorem reset_not_mem : .reset ∉ Dealing.asked address fault :: later := by
  intro hmem
  rcases eq_of_mem_answered hlater hmem with heq | ⟨slot, payload, heq⟩ <;> cases heq

theorem fault_of_asked_mem {other : Octets 6} {verdict : Option RadioFault}
    (hmem : .asked other verdict ∈ Dealing.asked address fault :: later) : verdict = fault := by
  rcases eq_of_mem_answered hlater hmem with heq | ⟨slot, payload, heq⟩ <;> cases heq
  rfl

theorem covered_of_taken :
    Covered (before ++ .drawn address :: .asked address none :: later) := by
  have happlied : Applied address (.drawn address :: .asked address none :: later) :=
    ⟨[], _, rfl, List.mem_cons_self⟩
  intro before' address' later' hsplit _
  rcases drawn_of_last hsplit (drawn_not_mem hlater) with ⟨mid, rfl⟩ | ⟨rfl, rfl⟩
  · exact ⟨address, happlied.extend (.drawn address' :: mid)⟩
  · exact ⟨_, happlied⟩

theorem not_refused_of_taken :
    ¬Refused (before ++ .drawn address :: .asked address none :: later) := by
  rintro ⟨before', address', later', fault, hsplit, hrefused, hlast, -⟩
  rcases drawn_of_last hsplit (drawn_not_mem hlater) with ⟨mid, rfl⟩ | ⟨rfl, rfl⟩
  · exact hlast address (List.mem_append_right mid List.mem_cons_self)
  · cases fault_of_asked_mem hlater hrefused

variable {fault : RadioFault}

theorem refused_of_fault :
    Refused (before ++ .drawn address :: .asked address (some fault) :: later) :=
  ⟨before, address, _, fault, rfl, List.mem_cons_self, drawn_not_mem hlater, reset_not_mem hlater⟩

theorem not_covered_of_fault :
    ¬Covered (before ++ .drawn address :: .asked address (some fault) :: later) := by
  intro hcovered
  obtain ⟨other, earlier, rest, hsplit, htaken⟩ :=
    hcovered before address _ rfl (reset_not_mem hlater)
  cases earlier with
  | nil =>
      rw [← (List.cons.inj hsplit).2] at htaken
      cases fault_of_asked_mem hlater htaken
  | cons first earlier =>
      have hmem : .drawn other ∈ Dealing.asked address (some fault) :: later := by
        rw [(List.cons.inj hsplit).2]
        exact List.mem_append_right earlier List.mem_cons_self
      exact drawn_not_mem hlater other hmem

end Answered

namespace Standing

variable {ledger : Ledger} {waiting : Option (Octets 6)}

theorem draw (ledger : Ledger) (address : Octets 6) :
    Standing (ledger ++ [.drawn address]) (some address) :=
  .waiting ledger address

theorem reset (ledger : Ledger) : Standing (ledger ++ [.reset]) none := by
  apply Standing.clear
  intro before address later hsplit
  rcases List.eq_nil_or_concat later with rfl | ⟨later, last, rfl⟩
  · have hlast := (List.append_inj' hsplit rfl).2
    cases hlast
  · rw [List.concat_eq_append, ← List.cons_append, ← List.append_assoc] at hsplit
    have hlast := (List.append_inj' hsplit rfl).2
    rw [List.concat_eq_append, ← hlast]
    exact List.mem_append_right _ List.mem_cons_self

/-- The radio is asked for the address that waits. -/
theorem ask {addressing : Addressing} (h : Standing ledger (addressing.map Prod.fst)) :
    Standing (ledger ++ (addressing.map fun asked => Dealing.asked asked.1 asked.2).toList)
      none := by
  match addressing with
  | none =>
      rw [Option.map_none, Option.toList_none, List.append_nil]
      exact h
  | some (address, fault) =>
      cases h with
      | waiting before address =>
          rw [List.append_assoc]
          exact .answered before address fault nofun

theorem air (h : Standing ledger none) (slot : Nat) (payload : Bytes) :
    Standing (ledger ++ [.aired slot payload]) none := by
  cases h with
  | clear hclear =>
      apply Standing.clear
      intro before address later hsplit
      rcases List.eq_nil_or_concat later with rfl | ⟨later, last, rfl⟩
      · have hlast := (List.append_inj' hsplit rfl).2
        cases hlast
      · rw [List.concat_eq_append, ← List.cons_append, ← List.append_assoc] at hsplit
        have hreset := hclear before address later (List.append_inj' hsplit rfl).1
        rw [List.concat_eq_append]
        exact List.mem_append_left _ hreset
  | answered before address fault hlater =>
      rw [List.append_assoc]
      apply Standing.answered before address fault
      intro dealing hmem
      cases List.mem_append.mp hmem with
      | inl hmem => exact hlater dealing hmem
      | inr hmem => exact ⟨slot, payload, List.mem_singleton.mp hmem⟩

/-- With no address waiting, every rotation is covered unless the radio has refused the last one. -/
theorem covered_iff (h : Standing ledger none) : ledger.Covered ↔ ¬ledger.Refused := by
  cases h with
  | clear hclear =>
      have hcovered : ledger.Covered := by
        intro before address later hsplit hreset
        exact absurd (hclear before address later hsplit) hreset
      have hrefused : ¬ledger.Refused := by
        rintro ⟨before, address, later, fault, hsplit, -, -, hreset⟩
        exact hreset (hclear before address later hsplit)
      exact iff_of_true hcovered hrefused
  | answered before address fault hlater =>
      cases fault with
      | none => exact iff_of_true (covered_of_taken hlater) (not_refused_of_taken hlater)
      | some fault =>
          exact iff_of_false (not_covered_of_fault hlater) (not_not.mpr (refused_of_fault hlater))

end Standing

end Ledger

open State

/-! ## The ledger -/

namespace Output

def addressing? : Output → Addressing
  | .radio (.address address) fault => some (address, fault)
  | _ => none

def onAir? : Output → Option Nat
  | .notice (.slotOnAir slot) => some slot
  | _ => none

end Output

namespace Dealing

def addressing? : Dealing → Addressing
  | .asked address fault => some (address, fault)
  | _ => none

def onAir? : Dealing → Option Nat
  | .aired slot _ => some slot
  | _ => none

end Dealing

namespace Transcript

/-- What each turn asked of the device address. -/
def addressings (asked : Addressing) : Transcript → List Addressing
  | [] => []
  | output :: rest =>
    if output.endsTurn then asked :: addressings none rest
    else addressings (output.addressing? <|> asked) rest

end Transcript

namespace Moment

/-- A slot gets an identifier. -/
def rotates (m : Moment) : Bool :=
  m.events.any Event.isRotation

/-- A central brings back the factory defaults. -/
def resets (m : Moment) : Bool :=
  match m.deed with
  | .asked (.write attr offset data now) =>
    match (attr.write offset data now m.state).value with
    | .ok .factoryReset => true
    | _ => false
  | _ => false

def drawn (m : Moment) : Ledger :=
  if m.rotates then [.drawn m.state.rng.address.1] else []

def aired (m : Moment) : Ledger :=
  match m.deed with
  | .took ⟨slot, some payload⟩ _ => [.aired slot payload]
  | _ => []

/-- All that the deed had to do with the device address, given what it asked of the radio. -/
def dealings (m : Moment) (addressing : Addressing) : Ledger :=
  if m.resets then [.reset]
  else m.drawn ++
    ((addressing.map fun asked => Dealing.asked asked.1 asked.2).toList ++ m.aired)

/-- The address that goes with the payload of the slot whose turn it is. -/
def newAddress (m : Moment) : Option (Octets 6) :=
  match m.deed with
  | .asked _ => none
  | .took turn now => (State.prepare turn.slot now m.state).value.bind PreparedAdvert.newAddress

end Moment

namespace Entry

/-- What each deed asked of the device address. -/
def addressings (x : Entry) : List Addressing :=
  x.request.asked.map (fun _ => none) ++ x.output.addressings none

def dealings (x : Entry) : Ledger :=
  (x.moments.zipWith Moment.dealings x.addressings).flatten

end Entry

def History.dealings (history : History) : Ledger :=
  history.flatMap Entry.dealings

theorem History.dealings_concat (history : History) (x : Entry) :
    History.dealings (history ++ [x]) = history.dealings ++ x.dealings := by
  simp [dealings]

/-- Whenever a payload goes out, every rotation before is covered unless the radio has refused the
last address. -/
def Ledger.Accountable (past ledger : Ledger) : Prop :=
  ∀ before slot payload rest, ledger = before ++ .aired slot payload :: rest →
    (Covered (past ++ before) ↔ ¬Refused (past ++ before))

namespace Ledger

theorem accountable_nil (past : Ledger) : Accountable past [] := by
  intro before slot payload rest hsplit
  simp at hsplit

theorem Accountable.append {past a b : Ledger} (ha : Accountable past a)
    (hb : Accountable (past ++ a) b) : Accountable past (a ++ b) := by
  intro before slot payload rest hsplit
  rcases List.append_eq_append_iff.mp hsplit with ⟨later, hbefore, hlater⟩ | ⟨mid, ha', hmid⟩
  · have hthen := hb later slot payload rest hlater
    rwa [List.append_assoc, ← hbefore] at hthen
  · cases mid with
    | nil =>
        rw [List.append_nil] at ha'
        have hthen := hb [] slot payload rest hmid.symm
        rwa [List.append_nil, ha'] at hthen
    | cons first mid =>
        obtain ⟨hfirst, -⟩ := List.cons.inj hmid
        exact ha before slot payload mid (hfirst ▸ ha')

theorem accountable_of_not_aired {past ledger : Ledger}
    (h : ∀ slot payload, .aired slot payload ∉ ledger) : Accountable past ledger := by
  rintro before slot payload rest rfl
  exact absurd (List.mem_append_right before List.mem_cons_self) (h slot payload)

end Ledger

namespace Ledger

theorem Standing.accountable {past : Ledger} (h : Standing past none) (slot : Nat)
    (payload : Bytes) :
    Accountable past [.aired slot payload] := by
  intro before slot' payload' rest hsplit
  cases before with
  | nil =>
      rw [List.append_nil]
      exact h.covered_iff
  | cons first before =>
      have hrest := (List.cons.inj hsplit).2
      simp at hrest

/-- The address drawn at a rotation waits. -/
theorem Standing.owe {past : Ledger} {s t : State} (h : Standing past s.pendingAddress)
    (htold : s.pendingEvents = []) (howes : Owes now s t) :
    Standing (past ++ if t.pendingEvents.any Event.isRotation then [.drawn s.rng.address.1] else [])
      t.pendingAddress := by
  rcases howes with howing | ⟨i, tx, id, howing⟩
  · have haddress : t.pendingAddress = s.pendingAddress := congrArg Owing.pendingAddress howing
    have hevents : t.pendingEvents = s.pendingEvents := congrArg Owing.pendingEvents howing
    rw [haddress, hevents, htold]
    simpa using h
  · have haddress : t.pendingAddress = (s.rotated i tx id now).pendingAddress :=
      congrArg Owing.pendingAddress howing
    have hevents : t.pendingEvents = (s.rotated i tx id now).pendingEvents :=
      congrArg Owing.pendingEvents howing
    have hrotation : t.pendingEvents.any Event.isRotation = true := by
      rw [hevents]
      exact List.any_eq_true.mpr ⟨_, State.mem_enqueueEvent _ _, rfl⟩
    rw [haddress, if_pos hrotation]
    exact .draw past _

end Ledger

open Ledger

namespace Moment

variable {past : Ledger} {addressing : Addressing}

theorem drawn_accountable (past : Ledger) (m : Moment) : Accountable past m.drawn := by
  apply accountable_of_not_aired
  intro slot payload hmem
  simp only [drawn] at hmem
  split at hmem <;> simp at hmem

theorem asked_accountable (past : Ledger) (addressing : Addressing) :
    Accountable past (addressing.map fun asked => Dealing.asked asked.1 asked.2).toList := by
  apply accountable_of_not_aired
  intro slot payload hmem
  obtain ⟨asked, -, heq⟩ := Option.map_eq_some_iff.mp (Option.mem_toList.mp hmem)
  cases heq

theorem drawn_took (turn : Turn) (now : Nat) (s : State) :
    drawn ⟨s, .took turn now⟩ =
      if (State.liveFrame turn.slot now s).state.pendingEvents.any Event.isRotation
      then [.drawn s.rng.address.1] else [] :=
  congrArg (fun owing => if owing.pendingEvents.any Event.isRotation then
    [Dealing.drawn s.rng.address.1] else []) (turn.owing_perform now s)

theorem pendingAddress_took (turn : Turn) (now : Nat) (s : State) :
    (after ⟨s, .took turn now⟩).pendingAddress =
      (State.prepare turn.slot now s).state.pendingAddress :=
  congrArg Owing.pendingAddress (turn.owing_perform now s)

section Took

variable {s : State} {slot : Nat} {sent : Option Bytes}

/-- A slot without a payload leaves the address that it has drawn waiting. -/
theorem standing_skipped (htold : s.pendingEvents = [])
    (hvalue : (State.prepare slot now s).value = none)
    (h : Standing past s.pendingAddress) :
    Accountable past (dealings ⟨s, .took ⟨slot, none⟩ now⟩ none) ∧
      Standing (past ++ dealings ⟨s, .took ⟨slot, none⟩ now⟩ none)
        (after ⟨s, .took ⟨slot, none⟩ now⟩).pendingAddress := by
  have hlive := h.owe htold (owes_liveFrame slot now s)
  rw [← drawn_took ⟨slot, none⟩] at hlive
  have hdealings : dealings ⟨s, .took ⟨slot, none⟩ now⟩ none =
      drawn ⟨s, .took ⟨slot, none⟩ now⟩ := List.append_nil _
  rw [hdealings, pendingAddress_took, State.prepare_state_of_none hvalue]
  exact ⟨drawn_accountable past _, hlive⟩

/-- The address goes with the payload, and the radio answers before it gets to the payload. -/
theorem standing_prepared {advert : PreparedAdvert} (htold : s.pendingEvents = [])
    (hvalue : (State.prepare slot now s).value = some advert)
    (hasks : addressing.map Prod.fst = advert.newAddress)
    (h : Standing past s.pendingAddress) :
    Accountable past (dealings ⟨s, .took ⟨slot, sent⟩ now⟩ addressing) ∧
      Standing (past ++ dealings ⟨s, .took ⟨slot, sent⟩ now⟩ addressing)
        (after ⟨s, .took ⟨slot, sent⟩ now⟩).pendingAddress := by
  obtain ⟨frame, held, -, -, -, -, -, haddress, hstate⟩ := State.prepare_eq_of_some hvalue
  have hlive := h.owe htold (owes_liveFrame slot now s)
  rw [← drawn_took ⟨slot, sent⟩, ← haddress, ← hasks] at hlive
  have hasked := hlive.ask
  rw [List.append_assoc] at hasked
  have hquiet := (drawn_accountable past ⟨s, .took ⟨slot, sent⟩ now⟩).append
    (asked_accountable _ addressing)
  rw [pendingAddress_took, hstate]
  cases sent with
  | none =>
      have hdealings : dealings ⟨s, .took ⟨slot, none⟩ now⟩ addressing =
          drawn ⟨s, .took ⟨slot, none⟩ now⟩ ++
            (addressing.map fun asked => Dealing.asked asked.1 asked.2).toList :=
        congrArg _ (List.append_nil _)
      rw [hdealings]
      exact ⟨hquiet, hasked⟩
  | some payload =>
      have hdealings : dealings ⟨s, .took ⟨slot, some payload⟩ now⟩ addressing =
          drawn ⟨s, .took ⟨slot, some payload⟩ now⟩ ++
            (addressing.map fun asked => Dealing.asked asked.1 asked.2).toList ++
            [.aired slot payload] := (List.append_assoc ..).symm
      rw [hdealings, ← List.append_assoc]
      exact ⟨hquiet.append (hasked.accountable slot payload), hasked.air slot payload⟩

theorem standing_took (htold : s.pendingEvents = [])
    (hasks : addressing.map Prod.fst = newAddress ⟨s, .took ⟨slot, sent⟩ now⟩)
    (hfaithful : Faithful ⟨s, .took ⟨slot, sent⟩ now⟩)
    (h : Standing past s.pendingAddress) :
    Accountable past (dealings ⟨s, .took ⟨slot, sent⟩ now⟩ addressing) ∧
      Standing (past ++ dealings ⟨s, .took ⟨slot, sent⟩ now⟩ addressing)
        (after ⟨s, .took ⟨slot, sent⟩ now⟩).pendingAddress := by
  have hasks : addressing.map Prod.fst =
      (State.prepare slot now s).value.bind PreparedAdvert.newAddress := hasks
  cases hvalue : (State.prepare slot now s).value with
  | none =>
      have hsent : sent = none := by
        cases sent with
        | none => rfl
        | some payload =>
            obtain ⟨advert, hadvert, -⟩ := hfaithful slot payload now rfl
            cases hadvert.symm.trans hvalue
      have hnone : addressing = none := by
        rw [hvalue] at hasks
        exact Option.map_eq_none_iff.mp hasks
      subst hsent hnone
      exact standing_skipped htold hvalue h
  | some advert =>
      rw [hvalue] at hasks
      exact standing_prepared htold hvalue hasks h

end Took

theorem owing_of_resets {s : State} {access : Access} (h : resets ⟨s, .asked access⟩ = true) :
    (access.perform s).state.owing = ⟨none, s.pendingEvents, s.telemetry, .zero, false⟩ := by
  cases access with
  | read attr now => cases h
  | write attr offset data now =>
      simp only [resets] at h
      split at h
      next heffect => exact Attribute.owing_reset heffect
      next => cases h

theorem owes_of_not_resets {s : State} {access : Access}
    (h : resets ⟨s, .asked access⟩ = false) :
    Owes (Deed.time (.asked access)) s (access.perform s).state := by
  cases access with
  | read attr now => exact Attribute.owes_read attr now s
  | write attr offset data now =>
      have hspared : (attr.write offset data now s).value ≠ .ok .factoryReset := by
        intro heffect
        simp only [resets, heffect] at h
        cases h
      exact Attribute.owes_write hspared

theorem standing_asked {s : State} {access : Access} (htold : s.pendingEvents = [])
    (hasks : addressing.map Prod.fst = newAddress ⟨s, .asked access⟩)
    (h : Standing past s.pendingAddress) :
    Accountable past (dealings ⟨s, .asked access⟩ addressing) ∧
      Standing (past ++ dealings ⟨s, .asked access⟩ addressing)
        (after ⟨s, .asked access⟩).pendingAddress := by
  have hnone : addressing = none := Option.map_eq_none_iff.mp hasks
  subst hnone
  cases hresets : resets ⟨s, .asked access⟩ with
  | true =>
      have hafter : (after ⟨s, .asked access⟩).pendingAddress = none :=
        congrArg Owing.pendingAddress (owing_of_resets hresets)
      rw [dealings, if_pos hresets, hafter]
      exact ⟨accountable_of_not_aired (by simp), .reset past⟩
  | false =>
      have hdealings : dealings ⟨s, .asked access⟩ none = drawn ⟨s, .asked access⟩ := by
        rw [dealings, if_neg (Bool.eq_false_iff.mp hresets)]
        exact List.append_nil _
      rw [hdealings]
      exact ⟨drawn_accountable past _, h.owe htold (owes_of_not_resets hresets)⟩

theorem standing (m : Moment) (htold : m.state.pendingEvents = [])
    (hasks : addressing.map Prod.fst = m.newAddress) (hfaithful : m.Faithful)
    (h : Standing past m.state.pendingAddress) :
    Accountable past (m.dealings addressing) ∧
      Standing (past ++ m.dealings addressing) m.after.pendingAddress := by
  obtain ⟨s, deed⟩ := m
  cases deed with
  | asked access => exact standing_asked htold hasks h
  | took turn now => exact standing_took htold hasks hfaithful h

end Moment

/-! ## What each turn asked -/

namespace Output

theorem addressing?_of_isStill {output : Output} (h : output.isStill) :
    output.addressing? = none := by
  cases output with
  | radio call fault => cases call <;> first | rfl | cases h
  | notice n => rfl
  | event event => rfl
  | store call fault => rfl

theorem onAir?_of_isStill {output : Output} (h : output.isStill) : output.onAir? = none := by
  cases output with
  | notice n => cases n <;> first | rfl | cases h
  | radio call fault => rfl
  | event event => rfl
  | store call fault => rfl

end Output

namespace Transcript

theorem addressings_append {out : Transcript} (h : out.Still) (asked : Addressing)
    (rest : Transcript) : addressings asked (out ++ rest) = addressings asked rest := by
  induction out with
  | nil => rfl
  | cons output out ih =>
      have hstill := h output List.mem_cons_self
      have hends := Output.endsTurn_of_isStill hstill
      have hnone := Output.addressing?_of_isStill hstill
      rw [List.cons_append, addressings, if_neg (Bool.eq_false_iff.mp hends), hnone]
      exact ih fun other hmem => h other (List.mem_cons_of_mem _ hmem)

theorem addressings_turn (addressing : Addressing) (advert : PreparedAdvert) (slot : Nat)
    (fault : Option RadioFault) (rest : Transcript) :
    addressings none (addressing.outputs ++ (advert.outputs slot fault ++ rest)) =
      addressing :: addressings none rest := by
  match addressing with
  | none => cases fault <;> rfl
  | some (address, none) => cases fault <;> rfl
  | some (address, some refusal) => cases fault <;> rfl

end Transcript

/-- The radio was asked for the addresses that went with the payloads, and for no other. -/
def Asked (moments : List Moment) (addressings : List Addressing) : Prop :=
  List.Forall₂ (fun addressing m => addressing.map Prod.fst = Moment.newAddress m)
    addressings moments

theorem State.Rounds.asked {s t : State} {out : Transcript} (h : Rounds now s out t)
    (started : Option Bytes) :
    Asked (s.hush.moments ((out.turns started).map fun turn => .took turn now))
      (out.addressings none) := by
  induction h generalizing started with
  | refl s => exact .nil
  | still hstill hstate _ ih =>
      rw [Transcript.turns_append, hstill.turnless.turns_eq_nil,
        Transcript.addressings_append hstill, ← hstate]
      exact ih _
  | @silent s u slot rest hnone _ ih =>
      have haside := State.asides_prepare slot now s
      have hnew : Moment.newAddress ⟨s.hush, .took ⟨slot, none⟩ now⟩ = none := by
        simp only [Moment.newAddress, (State.heedless_prepare slot now s).1, hnone]
        rfl
      have hrest := ih (Transcript.lastStarted started (State.prepare slot now s).output)
      rw [← perform_silent, ← Moment.after_hush] at hrest
      rw [Transcript.turns_append, haside.turnless.turns_eq_nil,
        Transcript.addressings_append haside.plain.still]
      exact .cons hnew.symm hrest
  | @turn s u slot addressing fault advert rest hadvert haddress _ ih =>
      have haside := State.asides_prepare slot now s
      obtain ⟨later, hturns⟩ :=
        Transcript.turns_round haside slot addressing advert fault rest started
      have hnew : Moment.newAddress ⟨s.hush, .took ⟨slot, advert.sent fault⟩ now⟩ =
          advert.newAddress := by
        simp only [Moment.newAddress, (State.heedless_prepare slot now s).1, hadvert]
        rfl
      have hrest := ih later
      rw [← perform_sent, ← Moment.after_hush] at hrest
      rw [hturns, Transcript.addressings_append haside.plain.still, Transcript.addressings_turn]
      exact .cons (haddress.trans hnew.symm) hrest

/-- One deed after the other. -/
theorem Ledger.Standing.moments {past : Ledger} {s : State} {deeds : List Deed}
    {addressings : List Addressing} (h : Standing past s.pendingAddress)
    (htold : s.pendingEvents = []) (hasked : Asked (s.moments deeds) addressings)
    (hfaithful : ∀ m ∈ s.moments deeds, m.Faithful) :
    Accountable past ((s.moments deeds).zipWith Moment.dealings addressings).flatten ∧
      Standing (past ++ ((s.moments deeds).zipWith Moment.dealings addressings).flatten)
        (s.afterDeeds deeds).pendingAddress := by
  induction deeds generalizing past s addressings with
  | nil =>
      rw [State.moments, List.zipWith_nil_left, List.flatten_nil, List.append_nil]
      exact ⟨accountable_nil past, h⟩
  | cons deed rest ih =>
      cases hasked with
      | @cons addressing _ others _ hfirst hrest =>
          have hmoment := hfaithful ⟨s, deed⟩ List.mem_cons_self
          obtain ⟨haccountable, hstanding⟩ := Moment.standing ⟨s, deed⟩ htold hfirst hmoment h
          obtain ⟨hlater, hlast⟩ := ih hstanding rfl hrest fun m hmem =>
            hfaithful m (List.mem_cons_of_mem _ hmem)
          rw [State.moments, List.zipWith_cons_cons, List.flatten_cons, ← List.append_assoc]
          exact ⟨haccountable.append hlater, hlast⟩

/-! ## The ledger against the transcript -/

/-- The slot whose payload the radio has taken. -/
def Deed.onAir? : Deed → Option Nat
  | .asked _ => none
  | .took turn _ => turn.sent.map fun _ => turn.slot

namespace Moment

variable {m : Moment} {addressing : Addressing}

theorem newAddress_of_resets (h : m.resets = true) : m.newAddress = none := by
  obtain ⟨s, deed⟩ := m
  cases deed with
  | asked access => rfl
  | took turn now => cases h

theorem filterMap_aired (m : Moment) :
    m.aired.filterMap Dealing.addressing? = [] ∧
      m.aired.filterMap Dealing.onAir? = m.deed.onAir?.toList := by
  obtain ⟨s, deed⟩ := m
  cases deed with
  | asked access => exact ⟨rfl, rfl⟩
  | took turn now =>
      obtain ⟨slot, sent⟩ := turn
      cases sent <;> exact ⟨rfl, rfl⟩

theorem filterMap_drawn (m : Moment) :
    m.drawn.filterMap Dealing.addressing? = [] ∧ m.drawn.filterMap Dealing.onAir? = [] := by
  rw [drawn]
  split <;> exact ⟨rfl, rfl⟩

theorem filterMap_dealings (hasked : addressing.map Prod.fst = m.newAddress) :
    (m.dealings addressing).filterMap Dealing.addressing? = addressing.toList ∧
      (m.dealings addressing).filterMap Dealing.onAir? = m.deed.onAir?.toList := by
  cases hresets : m.resets with
  | true =>
      rw [newAddress_of_resets hresets] at hasked
      have hnone := Option.map_eq_none_iff.mp hasked
      have honAir : m.deed.onAir? = none := by
        obtain ⟨s, deed⟩ := m
        cases deed with
        | asked access => rfl
        | took turn now => cases hresets
      rw [dealings, if_pos hresets, hnone, honAir]
      exact ⟨rfl, rfl⟩
  | false =>
      obtain ⟨hdrawn, hdrawn'⟩ := m.filterMap_drawn
      obtain ⟨haired, haired'⟩ := m.filterMap_aired
      rw [dealings, if_neg (Bool.eq_false_iff.mp hresets)]
      simp only [List.filterMap_append, hdrawn, hdrawn', haired, haired']
      cases addressing <;> exact ⟨rfl, rfl⟩

end Moment

theorem Asked.filterMap_dealings {moments : List Moment} {addressings : List Addressing}
    (h : Asked moments addressings) :
    (moments.zipWith Moment.dealings addressings).flatten.filterMap Dealing.addressing? =
        addressings.filterMap id ∧
      (moments.zipWith Moment.dealings addressings).flatten.filterMap Dealing.onAir? =
        (moments.map Moment.deed).filterMap Deed.onAir? := by
  induction h with
  | nil => exact ⟨rfl, rfl⟩
  | @cons addressing m others rest hfirst _ ih =>
      obtain ⟨haddress, honAir⟩ := Moment.filterMap_dealings hfirst
      rw [List.zipWith_cons_cons, List.flatten_cons, List.filterMap_append, List.filterMap_append,
        haddress, honAir, ih.1, ih.2]
      constructor
      · cases addressing <;> rfl
      · rw [List.map_cons, List.filterMap_cons]
        cases m.deed.onAir? <;> rfl

namespace Transcript

theorem Still.filterMap_addressing? {out : Transcript} (h : out.Still) (rest : Transcript) :
    (out ++ rest).filterMap Output.addressing? = rest.filterMap Output.addressing? := by
  have hnone : out.filterMap Output.addressing? = [] :=
    List.filterMap_eq_nil_iff.mpr fun output hmem => Output.addressing?_of_isStill (h output hmem)
  rw [List.filterMap_append, hnone, List.nil_append]

theorem Still.filterMap_onAir? {out : Transcript} (h : out.Still) (rest : Transcript) :
    (out ++ rest).filterMap Output.onAir? = rest.filterMap Output.onAir? := by
  have hnone : out.filterMap Output.onAir? = [] :=
    List.filterMap_eq_nil_iff.mpr fun output hmem => Output.onAir?_of_isStill (h output hmem)
  rw [List.filterMap_append, hnone, List.nil_append]

theorem filterMap_turn (addressing : Addressing) (advert : PreparedAdvert) (slot : Nat)
    (fault : Option RadioFault) (rest : Transcript) :
    (addressing.outputs ++ (advert.outputs slot fault ++ rest)).filterMap Output.addressing? =
        addressing.toList ++ rest.filterMap Output.addressing? ∧
      (addressing.outputs ++ (advert.outputs slot fault ++ rest)).filterMap Output.onAir? =
        (if fault.isSome then [] else [slot]) ++ rest.filterMap Output.onAir? := by
  match addressing with
  | none => cases fault <;> exact ⟨rfl, rfl⟩
  | some (address, none) => cases fault <;> exact ⟨rfl, rfl⟩
  | some (address, some refusal) => cases fault <;> exact ⟨rfl, rfl⟩

end Transcript

/-- What was asked and what went on air along the rounds is all told. -/
theorem State.Rounds.told {s t : State} {out : Transcript} (h : Rounds now s out t)
    (started : Option Bytes) :
    (out.addressings none).filterMap id = out.filterMap Output.addressing? ∧
      (out.turns started).filterMap (fun turn => turn.sent.map fun _ => turn.slot) =
        out.filterMap Output.onAir? := by
  induction h generalizing started with
  | refl s => exact ⟨rfl, rfl⟩
  | still hstill _ _ ih =>
      rw [Transcript.turns_append, hstill.turnless.turns_eq_nil,
        Transcript.addressings_append hstill, hstill.filterMap_addressing?,
        hstill.filterMap_onAir?]
      exact ih _
  | @silent s u slot rest hnone _ ih =>
      have haside := State.asides_prepare slot now s
      have hstill := haside.plain.still
      rw [Transcript.turns_append, haside.turnless.turns_eq_nil,
        Transcript.addressings_append hstill, hstill.filterMap_addressing?,
        hstill.filterMap_onAir?]
      exact ih (Transcript.lastStarted started (State.prepare slot now s).output)
  | @turn s u slot addressing fault advert rest _ _ _ ih =>
      have haside := State.asides_prepare slot now s
      have hstill := haside.plain.still
      obtain ⟨later, hturns⟩ :=
        Transcript.turns_round haside slot addressing advert fault rest started
      obtain ⟨haddress, honAir⟩ := Transcript.filterMap_turn addressing advert slot fault rest
      obtain ⟨hasked, hsent⟩ := ih later
      rw [hturns, Transcript.addressings_append hstill, Transcript.addressings_turn,
        hstill.filterMap_addressing?, hstill.filterMap_onAir?, haddress, honAir, ← hasked, ← hsent]
      constructor
      · cases addressing <;> rfl
      · cases fault <;> rfl

/-! ## Runs -/

namespace Entry

theorem asked_addressings {x : Entry} (hphase : x.before.1.InPhase)
    (htold : x.before.1.state.pendingEvents = []) : Asked x.moments x.addressings := by
  obtain ⟨t, clock, clockDirty, hrounds, -⟩ := x.rounds hphase
  rw [moments, deeds, State.moments_append, (replays_asked htold).state]
  apply List.rel_append ?_ (hrounds.asked none)
  obtain ⟨d, request⟩ := x
  cases request with
  | read attr now => exact .cons rfl .nil
  | write attr offset data now => exact .cons rfl .nil
  | poll now => exact .nil
  | radioEvent event now => exact .nil
  | command command now => exact .nil
  | saveIfDirty now => exact .nil

theorem standing {x : Entry} {past : Ledger} (hphase : x.before.1.InPhase)
    (htold : x.before.1.state.pendingEvents = [])
    (h : Standing past x.before.1.state.pendingAddress) :
    Accountable past x.dealings ∧ Standing (past ++ x.dealings) x.after.1.state.pendingAddress := by
  obtain ⟨t, clock, clockDirty, hrounds, hafter⟩ := x.rounds hphase
  have hreplays := (replays_asked htold).trans (hrounds.replays none)
  have hpending : x.after.1.state.pendingAddress =
      (x.before.1.state.hush.afterDeeds x.deeds).pendingAddress := by
    rw [hafter, deeds, hreplays.state]
    rfl
  have hhush : Standing past x.before.1.state.hush.pendingAddress := h
  rw [hpending]
  exact hhush.moments rfl (asked_addressings hphase htold) hreplays.faithful

end Entry

theorem Entry.told {x : Entry} (hphase : x.before.1.InPhase)
    (htold : x.before.1.state.pendingEvents = []) :
    x.dealings.filterMap Dealing.addressing? = x.output.filterMap Output.addressing? ∧
      x.dealings.filterMap Dealing.onAir? = x.output.filterMap Output.onAir? := by
  obtain ⟨t, clock, clockDirty, hrounds, -⟩ := x.rounds hphase
  obtain ⟨hasked, hsent⟩ := hrounds.told none
  obtain ⟨haddress, honAir⟩ := (asked_addressings hphase htold).filterMap_dealings
  have hcentral : (x.request.asked.map fun _ => (none : Addressing)).filterMap id = [] := by
    simp
  have hdeeds : x.request.asked.filterMap Deed.onAir? = [] := by
    obtain ⟨d, request⟩ := x
    cases request <;> rfl
  constructor
  · rw [dealings, haddress, addressings, List.filterMap_append, hcentral, List.nil_append, hasked]
  · rw [dealings, honAir, moments, State.map_deed_moments, deeds, List.filterMap_append, hdeeds,
      List.nil_append, List.filterMap_map, ← hsent]
    rfl

namespace Device

variable {config : Config} {store : Store} {start d : Device} {history : History}

theorem standing_of_run (hbooted : Booted config store start) (hrun : Run start history d) :
    Ledger.Accountable [] history.dealings ∧
      Ledger.Standing history.dealings d.1.state.pendingAddress := by
  induction hrun with
  | start =>
      rw [hbooted.newborn.2]
      exact ⟨Ledger.accountable_nil [], .clear (by simp [History.dealings])⟩
  | @serve history d request hrun ih =>
      have hreach := Reachable.of_run (.boot hbooted) hrun
      obtain ⟨haccountable, hstanding⟩ :=
        Entry.standing (x := ⟨d, request⟩) hreach.inPhase hreach.pendingEvents ih.2
      rw [History.dealings_concat]
      exact ⟨ih.1.append haccountable, hstanding⟩

theorem told_of_run (hbooted : Booted config store start) (hrun : Run start history d) :
    history.dealings.filterMap Dealing.addressing? =
        history.transcript.filterMap Output.addressing? ∧
      history.dealings.filterMap Dealing.onAir? = history.transcript.filterMap Output.onAir? := by
  induction hrun with
  | start => exact ⟨rfl, rfl⟩
  | @serve history d request hrun ih =>
      have hreach := Reachable.of_run (.boot hbooted) hrun
      obtain ⟨haddress, honAir⟩ :=
        Entry.told (x := ⟨d, request⟩) hreach.inPhase hreach.pendingEvents
      rw [History.dealings_concat, History.transcript_concat]
      simp only [List.filterMap_append, ih.1, ih.2, haddress, honAir, and_self]

/-- Whenever the radio takes the payload of a slot, every rotation of this boot that no factory
reset has undone is covered by an address drawn at it or later, unless the radio has refused the
address drawn last.  The ledger tells of every address that the radio was asked for and of every
payload that it has taken. -/
theorem sent_under_new_address_iff (hbooted : Booted config store start)
    (hrun : Run start history d) :
    history.dealings.filterMap Dealing.addressing? =
        history.transcript.filterMap Output.addressing? ∧
      history.dealings.filterMap Dealing.onAir? = history.transcript.filterMap Output.onAir? ∧
      ∀ past slot payload later, history.dealings = past ++ .aired slot payload :: later →
        (Ledger.Covered past ↔ ¬Ledger.Refused past) := by
  obtain ⟨haddress, honAir⟩ := told_of_run hbooted hrun
  exact ⟨haddress, honAir, (standing_of_run hbooted hrun).1⟩

/-- One slot is broadcast, and its identity changes. -/
def rotating : Config :=
  { Config.standard with slotIntervals := #v[0, 0, 1000] }

/-- Whether the first address is refused when beaconing starts. -/
def firstRefused? (start : Device) : Option Bool :=
  match History.dealings [⟨start, .command .startBeacon 0⟩] with
  | [.drawn _, .asked _ fault, .aired _ _] => some fault.isSome
  | _ => none

theorem dealings_of_firstRefused {start : Device} {refused : Bool}
    (h : firstRefused? start = some refused) :
    ∃ address other fault slot payload, History.dealings [⟨start, .command .startBeacon 0⟩] =
      [.drawn address, .asked other fault, .aired slot payload] ∧ fault.isSome = refused := by
  unfold firstRefused? at h
  split at h
  next address other fault slot payload heq =>
    exact ⟨address, other, fault, slot, payload, heq, Option.some.inj h⟩
  next => cases h

/-- A radio that takes on the first address sends the first payload under it. -/
theorem first_payload_covered :
    ∃ start address other slot payload, Booted rotating ⟨.memory none, fun _ _ => none, 0⟩ start ∧
      History.dealings [⟨start, .command .startBeacon 0⟩] =
        [.drawn address, .asked other none] ++ .aired slot payload :: [] ∧
      Ledger.Covered [.drawn address, .asked other none] := by
  obtain ⟨start, hbooted, hfirst⟩ : ∃ start,
      Booted rotating ⟨.memory none, fun _ _ => none, 0⟩ start ∧ firstRefused? start = some false :=
    exists_booted_of_eq (.idle 100 10240 fun _ _ => none) (some (Octets.zero 32)) 0 firstRefused?
      (by decide +kernel)
  obtain ⟨address, other, fault, slot, payload, hdealings, hfault⟩ :=
    dealings_of_firstRefused hfirst
  have hrun := (Run.start : Run start [] start).serve (.command .startBeacon 0)
  have hnone := Option.isNone_iff_eq_none.mp (Option.isSome_eq_false_iff.mp hfault)
  subst hnone
  obtain ⟨-, -, hcovered⟩ := sent_under_new_address_iff hbooted hrun
  have hiff := hcovered [.drawn address, .asked other none] slot payload [] hdealings
  refine ⟨start, address, other, slot, payload, hbooted, hdealings, hiff.mpr ?_⟩
  rintro ⟨before, last, later, refusal, hsplit, hrefused, -, -⟩
  have hmem : .asked last (some refusal) ∈ before ++ .drawn last :: later :=
    List.mem_append_right _ (List.mem_cons_of_mem _ hrefused)
  rw [← hsplit] at hmem
  simp at hmem

/-- A radio that refuses the first address, and nothing else. -/
def unmoved : Radio :=
  .idle 100 10240 fun
    | _, .address _ => some (.stack 5)
    | _, _ => none

/-- Not every payload goes out under the address drawn for it. -/
theorem not_always_under_new_address :
    ¬∀ (config : Config) (store : Store) (start d : Device) (history : History)
        (past later : Ledger) (slot : Nat) (payload : Bytes), Booted config store start →
      Run start history d → history.dealings = past ++ .aired slot payload :: later →
      Ledger.Covered past := by
  intro halways
  obtain ⟨start, hbooted, hfirst⟩ : ∃ start,
      Booted rotating ⟨.memory none, fun _ _ => none, 0⟩ start ∧ firstRefused? start = some true :=
    exists_booted_of_eq unmoved (some (Octets.zero 32)) 0 firstRefused? (by decide +kernel)
  obtain ⟨address, other, fault, slot, payload, hdealings, hfault⟩ :=
    dealings_of_firstRefused hfirst
  have hrun := (Run.start : Run start [] start).serve (.command .startBeacon 0)
  have hcovered := halways _ _ _ _ _ [.drawn address, .asked other fault] [] slot payload hbooted
    hrun hdealings
  obtain ⟨applied, happlied⟩ := hcovered [] address [.asked other fault] rfl (by simp)
  have htaken := happlied.asked_mem
  simp only [List.mem_cons, List.not_mem_nil, or_false, reduceCtorEq, false_or,
    Dealing.asked.injEq] at htaken
  rw [← htaken.2] at hfault
  cases hfault

end Device

end Beacon

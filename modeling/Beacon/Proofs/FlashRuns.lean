import Beacon.Proofs.Restart
import Mathlib.Data.List.Induction

/-!
# Runs of a flash

Flash is saved to, at times with the clock alone, loaded from and erased, in any
order.  The calls alone tell what is loaded, with no regard to bytes: the parameters
that were saved last since the last erasure, with the clock that was saved last,
either with parameters or by itself.
-/

namespace Beacon

inductive FlashCall where
  | save (params : Params)
  | saveClock (clock : Clock)
  | load
  | erase
  deriving DecidableEq

namespace FlashCall

/-- What a call leaves in flash. -/
def leaves : FlashCall → Flash → Flash
  | save params, flash => (Flash.save params flash).state
  | saveClock clock, flash => (Flash.saveClock clock flash).state
  | load, flash => (Flash.load flash).state
  | erase, flash => flash.erase

def params? : FlashCall → Option Params
  | save params => some params
  | _ => none

def clock? : FlashCall → Option Clock
  | save params => some params.clock
  | saveClock clock => some clock
  | _ => none

end FlashCall

/-- The calls that a flash has had, in order. -/
abbrev FlashCalls := List FlashCall

namespace FlashCalls

def flash (calls : FlashCalls) : Flash :=
  calls.foldl (fun flash call => call.leaves flash) .erased

/-- The calls since the last erasure, latest first. -/
def recent (calls : FlashCalls) : FlashCalls :=
  calls.reverse.takeWhile (fun call => call ≠ .erase)

def savedParams (calls : FlashCalls) : Option Params :=
  calls.recent.findSome? FlashCall.params?

def savedClock (calls : FlashCalls) : Option Clock :=
  calls.recent.findSome? FlashCall.clock?

/-- What there is to load. -/
def recalled (calls : FlashCalls) : Option Params := do
  let params ← calls.savedParams
  let clock ← calls.savedClock
  if params.magic = Params.magicWord then some { params with clock } else none

theorem flash_append (calls : FlashCalls) (call : FlashCall) :
    flash (calls ++ [call]) = call.leaves calls.flash := by
  simp only [flash, List.foldl_append, List.foldl_cons, List.foldl_nil]

theorem recent_append_erase (calls : FlashCalls) : recent (calls ++ [.erase]) = [] := by
  simp [recent]

theorem recent_append {call : FlashCall} (hcall : call ≠ .erase) (calls : FlashCalls) :
    recent (calls ++ [call]) = call :: calls.recent := by
  simp [recent, hcall]

/-- With parameters a clock is saved. -/
theorem exists_savedClock {calls : FlashCalls} {params : Params}
    (hparams : calls.savedParams = some params) : ∃ clock, calls.savedClock = some clock := by
  obtain ⟨call, hmem, hcall⟩ := List.exists_of_findSome?_eq_some hparams
  cases hclock : calls.savedClock with
  | some clock => exact ⟨clock, rfl⟩
  | none =>
      have hnone := List.findSome?_eq_none_iff.mp hclock call hmem
      cases call <;> simp [FlashCall.params?, FlashCall.clock?] at hcall hnone

/-- Flash holds what was saved last. -/
structure Held (calls : FlashCalls) (flash : Flash) : Prop where
  params : flash.params = calls.savedParams.map Params.toBytes
  clock : flash.clock = calls.savedClock.map Clock.write

theorem held_nil : Held [] .erased :=
  ⟨rfl, rfl⟩

theorem Held.append {calls : FlashCalls} {flash : Flash} (h : calls.Held flash) (call : FlashCall) :
    Held (calls ++ [call]) (call.leaves flash) := by
  cases call with
  | save params =>
      have hrecent : recent (calls ++ [.save params]) = .save params :: calls.recent :=
        recent_append (by simp) calls
      constructor
      · rw [savedParams, hrecent, FlashCall.leaves, Flash.save_eq]
        rfl
      · rw [savedClock, hrecent, FlashCall.leaves, Flash.save_eq]
        rfl
  | saveClock clock =>
      have hrecent : recent (calls ++ [.saveClock clock]) = .saveClock clock :: calls.recent :=
        recent_append (by simp) calls
      constructor
      · rw [savedParams, hrecent, FlashCall.leaves, Flash.saveClock_eq]
        exact h.params
      · rw [savedClock, hrecent, FlashCall.leaves, Flash.saveClock_eq]
        rfl
  | load =>
      have hrecent : recent (calls ++ [.load]) = .load :: calls.recent :=
        recent_append (by simp) calls
      constructor
      · rw [savedParams, hrecent, FlashCall.leaves, Flash.load_state]
        exact h.params
      · rw [savedClock, hrecent, FlashCall.leaves, Flash.load_state]
        exact h.clock
  | erase =>
      constructor
      · rw [savedParams, recent_append_erase]
        rfl
      · rw [savedClock, recent_append_erase]
        rfl

theorem held (calls : FlashCalls) : calls.Held calls.flash := by
  induction calls using List.reverseRecOn with
  | nil => exact held_nil
  | append_singleton calls call ih =>
      rw [flash_append]
      exact ih.append call

theorem Held.value_load {calls : FlashCalls} {flash : Flash} (h : calls.Held flash) :
    (Flash.load flash).value = .ok calls.recalled := by
  cases hparams : calls.savedParams with
  | none =>
      have hempty : flash.params = none := by
        rw [h.params, hparams]
        rfl
      simp only [Flash.load, Act.bind_apply, Act.get_apply, Done.after_nil, hempty, recalled,
        hparams]
      rfl
  | some params =>
      obtain ⟨clock, hclock⟩ := exists_savedClock hparams
      have hflash : flash = ⟨some params.toBytes, some clock.write⟩ := by
        have hfirst := h.params
        have hsecond := h.clock
        rw [hparams] at hfirst
        rw [hclock] at hsecond
        cases flash
        cases hfirst
        cases hsecond
        rfl
      simp only [recalled, hparams, hclock, Option.bind_eq_bind, Option.bind_some]
      by_cases hmagic : params.magic = Params.magicWord
      · rw [hflash, Flash.load_of_save hmagic clock, if_pos hmagic]
      · have hforeign := params.ofBytes_toBytes []
        rw [List.append_nil, if_neg hmagic] at hforeign
        rw [if_neg hmagic, hflash]
        simp only [Flash.load, Act.bind_apply, Act.get_apply, Done.after_nil, hforeign]
        rfl

/-- Whatever flash has been asked before, it saves all that it is given, and it gives the
parameters saved last with the clock saved last. -/
theorem answers_of_calls (calls : FlashCalls) :
    (∀ params, (Flash.save params calls.flash).value = .ok ()) ∧
      (∀ clock, (Flash.saveClock clock calls.flash).value = .ok ()) ∧
      (Flash.load calls.flash).value = .ok calls.recalled := by
  have hsave (params : Params) : (Flash.save params calls.flash).value = .ok () := by
    rw [Flash.save_eq]
  have hsaveClock (clock : Clock) : (Flash.saveClock clock calls.flash).value = .ok () := by
    rw [Flash.saveClock_eq]
  exact ⟨hsave, hsaveClock, calls.held.value_load⟩

end FlashCalls

end Beacon

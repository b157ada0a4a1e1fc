import Beacon.Notice
import Beacon.Params

/-!
# Actions

What the beacon does changes a state, gives a value and puts things out: lines
for the log, events, and calls to the radio and to the store.  An action keeps
the three apart, and it keeps the order of all that it puts out.

A refused operation is an action whose value is a fault.  What it changed before
it failed stays changed.
-/

namespace Beacon

inductive RadioCall where
  | start (payload : Bytes)
  | stop
  | scanResponse (payload : Bytes)
  | txPower (dbm : Int8)
  | interval (ms : UInt16)
  | connectable (on : Bool)
  | address (address : Octets 6)
  deriving DecidableEq

inductive StoreCall where
  | load
  | save (params : Params)
  | saveClock (clock : Clock)
  deriving DecidableEq

inductive Output where
  | notice (notice : Notice)
  | event (event : Event)
  /-- A call to the radio and, if it failed, why. -/
  | radio (call : RadioCall) (fault : Option RadioFault)
  /-- A call to the store and, if it failed, why. -/
  | store (call : StoreCall) (fault : Option StoreFault)
  deriving DecidableEq

def Output.line? : Output → Option Line
  | .notice n => some n.line
  | .event e => some e.line
  | .radio .. => none
  | .store .. => none

structure Done (σ α : Type) where
  value : α
  state : σ
  output : List Output

/-- The same result with something put out before it. -/
def Done.after {σ α : Type} (before : List Output) (done : Done σ α) : Done σ α :=
  { done with output := before ++ done.output }

namespace Done

variable {σ α : Type}

@[simp] theorem after_nil (done : Done σ α) : done.after [] = done := rfl

@[simp] theorem value_after (before : List Output) (done : Done σ α) :
    (done.after before).value = done.value := rfl

@[simp] theorem state_after (before : List Output) (done : Done σ α) :
    (done.after before).state = done.state := rfl

@[simp] theorem output_after (before : List Output) (done : Done σ α) :
    (done.after before).output = before ++ done.output := rfl

@[simp] theorem after_after (first before : List Output) (done : Done σ α) :
    (done.after before).after first = done.after (first ++ before) := by
  simp [after]

end Done

def Act (σ α : Type) : Type :=
  σ → Done σ α

namespace Act

variable {σ τ α β : Type}

instance : Monad (Act σ) where
  pure a s := ⟨a, s, []⟩
  bind action next s :=
    let first := action s
    (next first.value first.state).after first.output

instance : MonadStateOf σ (Act σ) where
  get s := ⟨s, s, []⟩
  set s _ := ⟨(), s, []⟩
  modifyGet f s := ⟨(f s).1, (f s).2, []⟩

def put (output : Output) : Act σ Unit :=
  fun s => ⟨(), s, [output]⟩

def note (notice : Notice) : Act σ Unit :=
  put (.notice notice)

def emit (event : Event) : Act σ Unit :=
  put (.event event)

def within (get : τ → σ) (set : τ → σ → τ) (action : Act σ α) : Act τ α :=
  fun t =>
    let done := action (get t)
    ⟨done.value, set t done.state, done.output⟩

/-- Runs an action on a larger state that starts with `t` as its other part. -/
def starting (t : τ) (action : Act (τ × σ) α) : Act σ (α × τ) :=
  fun s =>
    let done := action (t, s)
    ⟨(done.value, done.state.1), done.state.2, done.output⟩

def onFst (action : Act σ α) : Act (σ × τ) α :=
  action.within Prod.fst fun t s => (s, t.2)

def onSnd (action : Act σ α) : Act (τ × σ) α :=
  action.within Prod.snd fun t s => (t.1, s)

/-- Repeats an action as long as it gives something and gathers all that it gives.  There is no
bound on the rounds: an action that gives something for ever keeps the beacon busy for ever, and
nothing comes of it. -/
def gather (action : Act σ (Option α)) : Act σ (List α) :=
  fun s => (go [] [] s).getD ⟨[], s, []⟩
where
  /-- Carries what has been given and put out so far, latest first. -/
  go (given : List α) (sofar : List Output) (s : σ) : Option (Done σ (List α)) :=
    let done := action s
    let sofar := done.output.reverse ++ sofar
    match done.value with
    | some a => (go (s := done.state)) (a :: given) sofar
    | none => some ⟨given.reverse, done.state, sofar.reverse⟩
  partial_fixpoint

@[simp] theorem pure_apply (a : α) (s : σ) : (pure a : Act σ α) s = ⟨a, s, []⟩ := rfl

@[simp] theorem bind_apply (action : Act σ α) (next : α → Act σ β) (s : σ) :
    (action >>= next) s = (next (action s).value (action s).state).after (action s).output := rfl

@[simp] theorem get_apply (s : σ) : (get : Act σ σ) s = ⟨s, s, []⟩ := rfl

@[simp] theorem set_apply (s t : σ) : (set s : Act σ PUnit) t = ⟨(), s, []⟩ := rfl

@[simp] theorem modify_apply (f : σ → σ) (s : σ) : (modify f : Act σ PUnit) s = ⟨(), f s, []⟩ := rfl

@[simp] theorem put_apply (output : Output) (s : σ) :
    (put output : Act σ Unit) s = ⟨(), s, [output]⟩ := rfl

@[simp] theorem note_apply (notice : Notice) (s : σ) :
    (note notice : Act σ Unit) s = ⟨(), s, [.notice notice]⟩ := rfl

@[simp] theorem emit_apply (event : Event) (s : σ) :
    (emit event : Act σ Unit) s = ⟨(), s, [.event event]⟩ := rfl

@[simp] theorem within_apply (get : τ → σ) (set : τ → σ → τ) (action : Act σ α) (t : τ) :
    action.within get set t =
      ⟨(action (get t)).value, set t (action (get t)).state, (action (get t)).output⟩ := rfl

@[simp] theorem onFst_apply (action : Act σ α) (s : σ × τ) :
    (onFst action : Act (σ × τ) α) s =
      ⟨(action s.1).value, ((action s.1).state, s.2), (action s.1).output⟩ := rfl

@[simp] theorem onSnd_apply (action : Act σ α) (s : τ × σ) :
    (onSnd action : Act (τ × σ) α) s =
      ⟨(action s.2).value, (s.1, (action s.2).state), (action s.2).output⟩ := rfl

instance : LawfulMonad (Act σ) :=
  LawfulMonad.mk' (Act σ)
    (fun action => by
      funext s
      change (⟨(action s).value, (action s).state, (action s).output ++ []⟩ : Done σ _) = action s
      simp)
    (fun _ _ => by funext s; simp)
    (fun _ _ _ => by funext s; simp [Done.after])

end Act

end Beacon

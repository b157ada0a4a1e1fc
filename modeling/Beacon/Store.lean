import Beacon.Act

/-!
# Storage

Parameters are kept in flash, as two byte strings: all parameters, and the
clock once more by itself, since it is saved far more often.  On loading the
clock by itself counts.  A board without flash keeps its parameters in memory.

Like the radio a store may refuse any call.
-/

namespace Beacon

structure Flash where
  params : Option Bytes
  clock : Option Bytes
  deriving DecidableEq

namespace Flash

/-- The largest byte string that flash takes. -/
def capacity : Nat := 1024

def erased : Flash := ⟨none, none⟩

def announce : Act Flash Unit :=
  Act.note .flashReady

def load : Act Flash (Except StoreFault (Option Params)) := do
  let flash ← get
  match flash.params with
  | none =>
    Act.note .flashEmpty
    return .ok none
  | some bytes =>
    match Params.ofBytes bytes with
    | .error fault => return .error fault
    | .ok none =>
      Act.note .flashForeign
      return .ok none
    | .ok (some params) =>
      let params ←
        match flash.clock.map Clock.wire.read with
        | none => pure params
        | some (some (clock, _)) => pure { params with clock }
        | some none => do
          Act.note .flashTimeCorrupted
          pure params
      Act.note (.flashLoaded bytes.length)
      return .ok (some params)

def saveClock (clock : Clock) : Act Flash (Except StoreFault Unit) := do
  let bytes := clock.write
  if capacity < bytes.length then return .error .full
  else
    modify fun flash => { flash with clock := some bytes }
    return .ok ()

/-- Saves all parameters, and their clock by itself. -/
def save (params : Params) : Act Flash (Except StoreFault Unit) := do
  let bytes := params.toBytes
  if capacity < bytes.length then return .error .full
  else
    modify fun flash => { flash with params := some bytes }
    match ← saveClock params.clock with
    | .error fault => return .error fault
    | .ok () =>
      Act.note (.flashSaved bytes.length)
      return .ok ()

def erase (_ : Flash) : Flash := erased

end Flash

inductive Medium where
  | memory (params : Option Params)
  | flash (held : Flash)
  deriving DecidableEq

namespace Medium

def load : Act Medium (Except StoreFault (Option Params)) := fun medium =>
  match medium with
  | .memory params => ⟨.ok params, .memory params, []⟩
  | .flash held =>
    let done := Flash.load held
    ⟨done.value, .flash done.state, done.output⟩

def save (params : Params) : Act Medium (Except StoreFault Unit) := fun medium =>
  match medium with
  | .memory _ => ⟨.ok (), .memory (some params), []⟩
  | .flash held =>
    let done := Flash.save params held
    ⟨done.value, .flash done.state, done.output⟩

/-- Saves the clock; in memory there has to be something to put it into. -/
def saveClock (clock : Clock) : Act Medium (Except StoreFault Unit) := fun medium =>
  match medium with
  | .memory params => ⟨.ok (), .memory (params.map fun p => { p with clock }), []⟩
  | .flash held =>
    let done := Flash.saveClock clock held
    ⟨done.value, .flash done.state, done.output⟩

end Medium

structure Store where
  medium : Medium
  /-- What goes wrong with a call, given how many calls there were before. -/
  verdict : Nat → StoreCall → Option StoreFault
  calls : Nat

namespace Store

/-- A call that does its work unless something goes wrong with it. -/
def call {α : Type} (call : StoreCall) (work : Act Medium (Except StoreFault α)) :
    Act Store (Except StoreFault α) := do
  let store ← get
  let fault := store.verdict store.calls call
  Act.put (.store call fault)
  set { store with calls := store.calls + 1 }
  match fault with
  | some fault => return .error fault
  | none => work.within Store.medium fun store medium => { store with medium }

def load : Act Store (Except StoreFault (Option Params)) :=
  call .load Medium.load

def save (params : Params) : Act Store (Except StoreFault Unit) :=
  call (.save params) (Medium.save params)

def saveClock (clock : Clock) : Act Store (Except StoreFault Unit) :=
  call (.saveClock clock) (Medium.saveClock clock)

end Store

end Beacon

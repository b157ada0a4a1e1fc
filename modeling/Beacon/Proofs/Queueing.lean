import Beacon.Proofs.Ownership
import Mathlib.Data.List.Perm.Subperm

/-!
# The queue for the radio

Slots join the queue for the radio and are taken from it.  What happens to them
makes up a line, and a line leads from one queue to another if a slot joins only
while it does not wait, behind all others, and the slot that is taken is the first.
Of such a line it is known who is taken when, and how many go before a slot that
joins.

The log tells of every slot that is taken and of those that are armed at a start;
that a timer has put its slot into the queue it does not tell.
-/

namespace Beacon

/-- What happens to a slot. -/
inductive QueueEvent where
  | joined (slot : Nat)
  | taken (slot : Nat)
  deriving DecidableEq

namespace QueueEvent

def joined? : QueueEvent → Option Nat
  | joined slot => some slot
  | taken _ => none

def taken? : QueueEvent → Option Nat
  | joined _ => none
  | taken slot => some slot

end QueueEvent

/-- What happens to the slots, oldest first. -/
abbrev Lineup := List QueueEvent

namespace Lineup

def joins (line : Lineup) : List Nat :=
  line.filterMap QueueEvent.joined?

def takes (line : Lineup) : List Nat :=
  line.filterMap QueueEvent.taken?

@[simp] theorem takes_append (a b : Lineup) : takes (a ++ b) = takes a ++ takes b :=
  List.filterMap_append

theorem mem_takes {slot : Nat} {line : Lineup} : slot ∈ takes line ↔ .taken slot ∈ line := by
  constructor
  · intro h
    obtain ⟨event, hmem, hevent⟩ := List.mem_filterMap.mp h
    cases event with
    | joined other => cases hevent
    | taken other =>
        cases hevent
        exact hmem
  · intro h
    exact List.mem_filterMap.mpr ⟨.taken slot, h, rfl⟩

/-- The line leads from one queue to another. -/
inductive Moves : List Nat → Lineup → List Nat → Prop
  | done (queue : List Nat) : Moves queue [] queue
  | join {slot : Nat} {line : Lineup} {queue queue' : List Nat} :
      slot ∉ queue → slot < 3 → Moves (queue ++ [slot]) line queue' →
      Moves queue (.joined slot :: line) queue'
  | take {slot : Nat} {line : Lineup} {queue queue' : List Nat} :
      Moves queue line queue' → Moves (slot :: queue) (.taken slot :: line) queue'

namespace Moves

variable {queue middle queue' : List Nat} {line a b : Lineup} {slot : Nat}

theorem append (ha : Moves queue a middle) (hb : Moves middle b queue') :
    Moves queue (a ++ b) queue' := by
  induction ha with
  | done queue => exact hb
  | join hslot hlt _ ih => exact .join hslot hlt (ih hb)
  | take _ ih => exact .take (ih hb)

theorem split (h : Moves queue (a ++ b) queue') :
    ∃ middle, Moves queue a middle ∧ Moves middle b queue' := by
  induction a generalizing queue with
  | nil => exact ⟨queue, .done queue, h⟩
  | cons event rest ih =>
      cases h with
      | join hslot hlt h =>
          obtain ⟨middle, ha, hb⟩ := ih h
          exact ⟨middle, .join hslot hlt ha, hb⟩
      | take h =>
          obtain ⟨middle, ha, hb⟩ := ih h
          exact ⟨middle, .take ha, hb⟩

/-- Slots are taken in the order in which they joined. -/
theorem in_order (h : Moves queue line queue') : queue ++ joins line = takes line ++ queue' := by
  induction h with
  | done queue => exact List.append_nil queue
  | join _ _ _ ih => exact (List.append_assoc ..).symm.trans ih
  | take _ ih => exact congrArg (_ :: ·) ih

theorem nodup (h : Moves queue line queue') (hnodup : queue.Nodup) : queue'.Nodup := by
  induction h with
  | done queue => exact hnodup
  | join hslot _ _ ih =>
      have hjoined := hnodup.concat hslot
      rw [List.concat_eq_append] at hjoined
      exact ih hjoined
  | take _ ih => exact ih (List.nodup_cons.mp hnodup).2

theorem lt_three (h : Moves queue line queue') (hlt : ∀ slot ∈ queue, slot < 3) :
    ∀ slot ∈ queue', slot < 3 := by
  induction h with
  | done queue => exact hlt
  | join _ hslot _ ih =>
      refine ih fun other hmem => ?_
      cases List.mem_append.mp hmem with
      | inl hmem => exact hlt other hmem
      | inr hmem => exact List.mem_singleton.mp hmem ▸ hslot
  | take _ ih => exact ih fun other hmem => hlt other (.tail _ hmem)

end Moves

theorem length_le_three {queue : List Nat} (hnodup : queue.Nodup)
    (hlt : ∀ slot ∈ queue, slot < 3) : queue.length ≤ 3 := by
  have hsubset : queue ⊆ List.range 3 := fun slot hmem => List.mem_range.mpr (hlt slot hmem)
  exact (List.subperm_of_subset hnodup hsubset).length_le

/-- There is room for a slot that does not wait. -/
theorem length_le_two {queue : List Nat} {slot : Nat} (hnodup : queue.Nodup)
    (hlt : ∀ slot ∈ queue, slot < 3) (hslot : slot ∉ queue) (hslot' : slot < 3) :
    queue.length ≤ 2 := by
  have hlength := length_le_three (List.nodup_cons.mpr ⟨hslot, hnodup⟩)
    (List.forall_mem_cons.mpr ⟨hslot', hlt⟩)
  exact Nat.le_of_succ_le_succ hlength

/-- While a slot waits those are taken that waited when it joined, and these are two at most. -/
theorem Moves.patience {queue queue' : List Nat} {before between after : Lineup} {slot : Nat}
    (hnodup : queue.Nodup) (hlt : ∀ slot ∈ queue, slot < 3)
    (h : Moves queue (before ++ .joined slot :: (between ++ after)) queue')
    (hwaits : .taken slot ∉ between) : (takes between).length ≤ 2 := by
  obtain ⟨waiting, hbefore, h⟩ := h.split
  cases h with
  | join hslot hslot' h =>
      obtain ⟨left, hbetween, -⟩ := h.split
      have hroom := length_le_two (hbefore.nodup hnodup) (hbefore.lt_three hlt) hslot hslot'
      refine Nat.le_trans ?_ hroom
      -- Had one more been taken, it would have been the slot itself.
      by_contra hmore
      have horder := hbetween.in_order
      have hfront : (waiting ++ [slot]).IsPrefix (takes between) := by
        have hjoined : (waiting ++ [slot]).IsPrefix (takes between ++ left) := by
          rw [← horder]
          exact List.prefix_append _ _
        refine List.prefix_of_prefix_length_le hjoined (List.prefix_append _ _) ?_
        rw [List.length_append, List.length_singleton]
        exact Nat.lt_of_not_le hmore
      exact hwaits (mem_takes.mp (hfront.subset (by simp)))

end Lineup

/-! ## What the log tells -/

def Output.queueEvent? : Output → Option QueueEvent
  | .notice (.slotArmed slot _) => some (.joined slot)
  | .notice (.slotOnAir slot) => some (.taken slot)
  | .notice (.slotRefused slot _) => some (.taken slot)
  | .notice (.slotSilent slot) => some (.taken slot)
  | _ => none

namespace Transcript

def lineup (transcript : Transcript) : Lineup :=
  transcript.filterMap Output.queueEvent?

@[simp] theorem lineup_append (a b : Transcript) : lineup (a ++ b) = lineup a ++ lineup b :=
  List.filterMap_append

theorem Untimed.lineup_eq_nil {transcript : Transcript} (h : transcript.Untimed) :
    transcript.lineup = [] := by
  apply List.filterMap_eq_nil_iff.mpr
  intro output hmem
  have huntimed := h output hmem
  cases output with
  | notice n => cases n <;> first | rfl | cases huntimed
  | event event => rfl
  | radio call fault => rfl
  | store call fault => rfl

/-- The slots that are taken are those whose turns are reported. -/
theorem takes_lineup (transcript : Transcript) (started : Option Bytes) :
    transcript.lineup.takes = (transcript.turns started).map Turn.slot := by
  induction transcript generalizing started with
  | nil => rfl
  | cons output rest ih =>
      have hrest := ih (output.started? <|> started)
      have hfirst : Lineup.takes (lineup [output]) =
          (output.turn? started).toList.map Turn.slot := by
        cases output with
        | notice n => cases n <;> rfl
        | event event => rfl
        | radio call fault => rfl
        | store call fault => rfl
      rw [turns, List.map_append, ← hrest, ← hfirst, ← Lineup.takes_append, ← lineup_append]
      rfl

end Transcript

end Beacon

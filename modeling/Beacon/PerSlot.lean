/-!
# Values by slot

The beacon has three advertising slots, and much of what it holds is one value
for each of them.  `PerSlot.value` reads such a table and `PerSlot.put` changes
it; two tables are equal when they have the same value for every slot.
-/

namespace Beacon

abbrev SlotIndex := Fin 3

namespace SlotIndex

def first : SlotIndex := 0

def second : SlotIndex := 1

def third : SlotIndex := 2

def all : List SlotIndex := [first, second, third]

/-- The slot `n` steps after the first, going round. -/
def around (n : Nat) : SlotIndex := Fin.ofNat 3 n

def next (i : SlotIndex) : SlotIndex := around (i.val + 1)

theorem mem_all (i : SlotIndex) : i ∈ all := by
  revert i
  decide

end SlotIndex

abbrev PerSlot (α : Type) := Vector α 3

namespace PerSlot

variable {α β : Type}

def all (a : α) : PerSlot α := Vector.replicate 3 a

def value (table : PerSlot α) (i : SlotIndex) : α := table[i]

def put (i : SlotIndex) (a : α) (table : PerSlot α) : PerSlot α := table.set i a

@[simp] theorem value_all (a : α) (i : SlotIndex) : value (all a) i = a := by
  simp [value, all]

@[simp] theorem value_map (f : α → β) (table : PerSlot α) (i : SlotIndex) :
    value (table.map f) i = f (table.value i) := by
  simp [value]

@[simp] theorem value_ofFn (f : SlotIndex → α) (i : SlotIndex) : value (Vector.ofFn f) i = f i := by
  simp [value]

theorem value_put (i j : SlotIndex) (a : α) (table : PerSlot α) :
    value (put i a table) j = if i = j then a else table.value j := by
  simp [value, put, Vector.getElem_set, Fin.ext_iff]

@[simp] theorem value_put_self (i : SlotIndex) (a : α) (table : PerSlot α) :
    value (put i a table) i = a := by
  simp [value_put]

theorem value_put_of_ne {i j : SlotIndex} (h : i ≠ j) (a : α) (table : PerSlot α) :
    value (put i a table) j = table.value j := by
  simp [value_put, h]

theorem getElem?_eq_value (table : PerSlot α) (i : SlotIndex) :
    table[i.val]? = some (table.value i) := by
  simp [value]

theorem ext_value {a b : PerSlot α} (h : ∀ i, a.value i = b.value i) : a = b := by
  apply Vector.ext
  intro i hi
  exact h ⟨i, hi⟩

end PerSlot

end Beacon

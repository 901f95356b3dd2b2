/-!
# Stores of buffers

A store holds rows of samples in numbered buffers.  Buffers are added, read and
overwritten, and never removed.

Main results:

- Theorems `Store.read_alloc_self` and `Store.read_alloc_of_lt`: a new buffer
  holds its row, and the older ones keep theirs.
- Theorems `Store.read_write_self` and `Store.read_write_of_ne`: an overwritten
  buffer holds the new row, and the others keep theirs.
-/

namespace Formulary

/-- The number of a buffer. -/
structure Buffer where
  index : Nat
deriving DecidableEq, Repr

/-- Rows of samples in numbered buffers. -/
structure Store (α : Type) where
  rows : Array (List α)

namespace Store

variable {α : Type}

/-- The store without buffers. -/
def empty : Store α := ⟨#[]⟩

/-- The number of buffers. -/
def size (store : Store α) : Nat :=
  store.rows.size

/-- A buffer belongs to a store that has that many buffers. -/
def Has (store : Store α) (buffer : Buffer) : Prop :=
  buffer.index < store.size

/-- The row in a buffer. -/
def read (store : Store α) (buffer : Buffer) : List α :=
  store.rows[buffer.index]?.getD []

/-- Adds a buffer that holds `row`. -/
def alloc (store : Store α) (row : List α) : Buffer × Store α :=
  (⟨store.size⟩, ⟨store.rows.push row⟩)

/-- Puts `row` into a buffer. -/
def write (store : Store α) (buffer : Buffer) (row : List α) : Store α :=
  ⟨store.rows.setIfInBounds buffer.index row⟩

@[simp]
theorem size_alloc (store : Store α) (row : List α) :
    (store.alloc row).2.size = store.size + 1 := by
  simp [alloc, size]

@[simp]
theorem size_write (store : Store α) (buffer : Buffer) (row : List α) :
    (store.write buffer row).size = store.size := by
  simp [write, size]

@[simp]
theorem index_alloc (store : Store α) (row : List α) :
    (store.alloc row).1.index = store.size :=
  rfl

/-- A new buffer holds its row. -/
@[simp]
theorem read_alloc_self (store : Store α) (row : List α) :
    (store.alloc row).2.read (store.alloc row).1 = row := by
  simp [alloc, read, size]

/-- The older buffers keep their rows. -/
theorem read_alloc_of_lt {store : Store α} {buffer : Buffer} (h : store.Has buffer)
    (row : List α) : (store.alloc row).2.read buffer = store.read buffer := by
  have hlt : buffer.index < store.rows.size := h
  simp [alloc, read, Array.getElem?_push, Nat.ne_of_lt hlt]

/-- An overwritten buffer holds the new row. -/
theorem read_write_self {store : Store α} {buffer : Buffer} (h : store.Has buffer)
    (row : List α) : (store.write buffer row).read buffer = row := by
  have hlt : buffer.index < store.rows.size := h
  simp [write, read, hlt]

/-- Buffers that are not overwritten keep their rows. -/
theorem read_write_of_ne {buffer other : Buffer} (h : other ≠ buffer) (store : Store α)
    (row : List α) : (store.write buffer row).read other = store.read other := by
  have hne : buffer.index ≠ other.index := by
    intro same
    apply h
    cases other
    cases buffer
    simp_all
  simp [write, read, hne]

/-- Overwrites one sample of a buffer.  Negative places count from the end, and
a place outside the row is refused. -/
def poke (store : Store α) (buffer : Buffer) (place : Int) (sample : α) : Option (Store α) :=
  let row := store.read buffer
  let place := if place < 0 then place + row.length else place
  if 0 ≤ place ∧ place < row.length then
    some (store.write buffer (row.set place.toNat sample))
  else none

end Store

end Formulary

import Formulary.Store

/-!
# Changes of a store

A computation adds buffers to a store and overwrites some of those that are
there.  This module says in one relation what becomes of a store: no buffer is
lost, no row changes its length, and no row changes at all unless its buffer is
among those that may be written.

Main results:

- Definition `Store.ChangesOnly`: the relation between a store and a later one.
- Theorems `Store.ChangesOnly.trans` and `Store.ChangesOnly.write`: one change
  after another, and a row written into a buffer that may be written or that was
  not there at first.
-/

namespace Formulary.Store

variable {α : Type}

/-- From `before` to `after` buffers are added, all rows keep their lengths, and
only the buffers that `written` admits get other samples. -/
structure ChangesOnly (written : Buffer → Prop) (before after : Store α) : Prop where
  size_le : before.size ≤ after.size
  length_read : ∀ buffer, before.Has buffer →
    (after.read buffer).length = (before.read buffer).length
  read_eq : ∀ buffer, before.Has buffer → ¬written buffer →
    after.read buffer = before.read buffer

/-- A new buffer was not there before. -/
theorem not_has_alloc (store : Store α) (row : List α) : ¬store.Has (store.alloc row).1 := by
  intro present
  have hlt : (store.alloc row).1.index < store.size := present
  rw [index_alloc] at hlt
  omega

/-- A new buffer is there. -/
theorem has_alloc (store : Store α) (row : List α) :
    (store.alloc row).2.Has (store.alloc row).1 := by
  unfold Has
  rw [index_alloc, size_alloc]
  omega

/-- Overwriting a buffer neither adds nor removes any. -/
@[simp]
theorem has_write (store : Store α) (buffer other : Buffer) (row : List α) :
    (store.write buffer row).Has other ↔ store.Has other := by
  unfold Has
  rw [size_write]

/-- Overwriting a sample puts a row into its buffer. -/
theorem exists_write_of_poke {store after : Store α} {buffer : Buffer} {place : Int} {sample : α}
    (poked : store.poke buffer place sample = some after) :
    ∃ row, after = store.write buffer row := by
  simp only [poke, Option.ite_none_right_eq_some, Option.some.injEq] at poked
  exact ⟨_, poked.2.symm⟩

namespace ChangesOnly

variable {written : Buffer → Prop} {before between after : Store α}

/-- Nothing changes when nothing is done. -/
theorem refl (written : Buffer → Prop) (store : Store α) : ChangesOnly written store store where
  size_le := Nat.le_refl _
  length_read := fun _ _ => rfl
  read_eq := fun _ _ _ => rfl

/-- Buffers stay. -/
theorem has (changes : ChangesOnly written before after) {buffer : Buffer}
    (present : before.Has buffer) : after.Has buffer :=
  Nat.lt_of_lt_of_le present changes.size_le

/-- One change after another. -/
theorem trans (first : ChangesOnly written before between)
    (second : ChangesOnly written between after) : ChangesOnly written before after where
  size_le := Nat.le_trans first.size_le second.size_le
  length_read := by
    intro buffer present
    rw [second.length_read buffer (first.has present), first.length_read buffer present]
  read_eq := by
    intro buffer present untouched
    rw [second.read_eq buffer (first.has present) untouched,
      first.read_eq buffer present untouched]

/-- More buffers may be said to be written than are. -/
theorem mono (changes : ChangesOnly written before after) {more : Buffer → Prop}
    (covers : ∀ buffer, written buffer → more buffer) : ChangesOnly more before after where
  size_le := changes.size_le
  length_read := changes.length_read
  read_eq := fun buffer present untouched =>
    changes.read_eq buffer present fun h => untouched (covers buffer h)

/-- Adding a buffer changes none of the others. -/
theorem alloc (written : Buffer → Prop) (store : Store α) (row : List α) :
    ChangesOnly written store (store.alloc row).2 where
  size_le := by
    rw [size_alloc]
    exact Nat.le_succ _
  length_read := fun buffer present => by rw [read_alloc_of_lt present]
  read_eq := fun buffer present _ => read_alloc_of_lt present row

/-- At the end a row of the same length is put into a buffer, which may be
written if it was there at first. -/
theorem write (changes : ChangesOnly written before after) {target : Buffer} {row : List α}
    (present : after.Has target) (admitted : before.Has target → written target)
    (same : row.length = (after.read target).length) :
    ChangesOnly written before (after.write target row) where
  size_le := by
    rw [size_write]
    exact changes.size_le
  length_read := by
    intro buffer old
    rw [← changes.length_read buffer old]
    by_cases here : buffer = target
    · subst here
      rw [read_write_self present, same]
    · rw [read_write_of_ne here]
  read_eq := by
    intro buffer old untouched
    have elsewhere : buffer ≠ target := by
      intro here
      subst here
      exact untouched (admitted old)
    rw [read_write_of_ne elsewhere, changes.read_eq buffer old untouched]

end ChangesOnly

end Formulary.Store

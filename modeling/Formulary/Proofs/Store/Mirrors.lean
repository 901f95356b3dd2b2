import Formulary.Proofs.Store.Changes

/-!
# Stores that mirror each other

The same computation in two stores uses other buffers in the one than in the other.
This module pairs the buffers that serve the same purpose: partners hold the same row,
and each buffer has at most one partner.

Main results:

- Definition `Store.Mirrors`: two stores agree on all partners.
- Theorems `Store.Mirrors.alloc` and `Store.Mirrors.write`: they still do after a row is
  added to both, or written into both of a pair.
-/

namespace Formulary.Store

variable {α : Type} {partners : Buffer → Buffer → Prop} {left right : Store α}

/-- Partners are in their stores and hold the same row.  No buffer has two partners. -/
structure Mirrors (partners : Buffer → Buffer → Prop) (left right : Store α) : Prop where
  present : ∀ {one other}, partners one other → left.Has one ∧ right.Has other
  read_eq : ∀ {one other}, partners one other → left.read one = right.read other
  matched : ∀ {one other one' other'}, partners one other → partners one' other' →
    (one = one' ↔ other = other')

/-- The pairs that there were, and one more. -/
def Paired (partners : Buffer → Buffer → Prop) (first second one other : Buffer) : Prop :=
  partners one other ∨ one = first ∧ other = second

/-- A buffer that is there is none that is added. -/
theorem ne_alloc_of_has {store : Store α} {buffer : Buffer} (present : store.Has buffer)
    (row : List α) : buffer ≠ (store.alloc row).1 := by
  rintro rfl
  exact store.not_has_alloc row present

/-- The same row added to both stores makes a new pair. -/
theorem Mirrors.alloc (mirrors : Mirrors partners left right) (row : List α) :
    Mirrors (Paired partners (left.alloc row).1 (right.alloc row).1) (left.alloc row).2
      (right.alloc row).2 where
  present := by
    rintro one other (old | ⟨rfl, rfl⟩)
    · obtain ⟨here, there⟩ := mirrors.present old
      exact ⟨(ChangesOnly.alloc (fun _ => False) left row).has here,
        (ChangesOnly.alloc (fun _ => False) right row).has there⟩
    · exact ⟨left.has_alloc row, right.has_alloc row⟩
  read_eq := by
    rintro one other (old | ⟨rfl, rfl⟩)
    · obtain ⟨here, there⟩ := mirrors.present old
      rw [read_alloc_of_lt here, read_alloc_of_lt there, mirrors.read_eq old]
    · rw [read_alloc_self, read_alloc_self]
  matched := by
    rintro one other one' other' (old | ⟨rfl, rfl⟩) (old' | ⟨rfl, rfl⟩)
    · exact mirrors.matched old old'
    · obtain ⟨here, there⟩ := mirrors.present old
      exact iff_of_false (ne_alloc_of_has here row) (ne_alloc_of_has there row)
    · obtain ⟨here, there⟩ := mirrors.present old'
      exact iff_of_false (ne_alloc_of_has here row).symm (ne_alloc_of_has there row).symm
    · exact iff_of_true rfl rfl

/-- The same row may be written into both of a pair. -/
theorem Mirrors.write (mirrors : Mirrors partners left right) {first second : Buffer}
    (pair : partners first second) (row : List α) :
    Mirrors partners (left.write first row) (right.write second row) where
  present := by
    intro one other pair'
    rw [has_write, has_write]
    exact mirrors.present pair'
  read_eq := by
    intro one other pair'
    obtain ⟨here, there⟩ := mirrors.present pair
    by_cases same : one = first
    · obtain rfl := same
      obtain rfl := (mirrors.matched pair' pair).1 rfl
      rw [read_write_self here, read_write_self there]
    · have apart : other ≠ second := fun h => same ((mirrors.matched pair' pair).2 h)
      rw [read_write_of_ne same, read_write_of_ne apart, mirrors.read_eq pair']
  matched := mirrors.matched

end Formulary.Store

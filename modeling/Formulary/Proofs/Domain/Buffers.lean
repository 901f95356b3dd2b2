import Formulary.Domain.Basic
import Formulary.Proofs.Store.Changes

/-!
# The buffers of a domain

A domain binds names to buffers of a store.  This module says when its buffers
are in a store and when they are kept apart, which of them it hands out itself,
and what placing rows in a store makes of them.

Main results:

- Definition `Domain.Separate`: every name is bound once, to a buffer of its own.
- Theorem `Domain.separate_place`: rows placed in a store are kept apart.
- Theorem `Domain.rows_place`: the buffers of rows placed in a store hold them.
-/

namespace Formulary.Domain

variable {α : Type}

/-! ## Lent buffers -/

/-- The buffer of its own that a domain hands out for a variable.  A copying
domain hands out none of its own. -/
def lent? (domain : Domain) (name : String) : Option Buffer :=
  match domain with
  | copying _ _ => none
  | sharing bindings => bindings.find? name

theorem find?_of_lent? {domain : Domain} {name : String} {buffer : Buffer}
    (h : domain.lent? name = some buffer) : domain.bindings.find? name = some buffer := by
  cases domain with
  | copying bindings count => cases h
  | sharing bindings => exact h

/-- A domain that lends anything lends all that is bound in it. -/
theorem lent?_of_find? {domain : Domain} {name other : String} {buffer own : Buffer}
    (lends : domain.lent? name = some buffer) (bound : domain.bindings.find? other = some own) :
    domain.lent? other = some own := by
  cases domain with
  | copying bindings count => cases lends
  | sharing bindings => exact bound

/-- No buffer is lent for two variables. -/
def LendsApart (domain : Domain) : Prop :=
  ∀ name other buffer, domain.lent? name = some buffer → domain.lent? other = some buffer →
    name = other

theorem lendsApart_copying (bindings : Bindings Buffer) (count : Int) :
    (copying bindings count).LendsApart := by
  intro name other buffer lends
  cases lends

theorem mem_bindings_of_find? {domain : Domain} {name : String} {buffer : Buffer}
    (h : domain.bindings.find? name = some buffer) : (name, buffer) ∈ domain.bindings := by
  obtain ⟨front, back, bindings, -⟩ := List.lookup_eq_some_iff.1 h
  rw [bindings]
  exact List.mem_append_right front List.mem_cons_self

/-! ## Domains in a store -/

/-- A domain lives in a store that has all buffers bound in it. -/
def LivesIn (domain : Domain) (store : Store α) : Prop :=
  ∀ name buffer, (name, buffer) ∈ domain.bindings → store.Has buffer

theorem LivesIn.has {domain : Domain} {store : Store α} (lives : domain.LivesIn store)
    {name : String} {buffer : Buffer} (h : domain.bindings.find? name = some buffer) :
    store.Has buffer :=
  lives name buffer (mem_bindings_of_find? h)

/-- A domain goes on living in a store that changes. -/
theorem LivesIn.later {domain : Domain} {before after : Store α} {written : Buffer → Prop}
    (lives : domain.LivesIn before) (changes : Store.ChangesOnly written before after) :
    domain.LivesIn after :=
  fun name buffer bound => changes.has (lives name buffer bound)

/-- The number of samples stays when rows keep their lengths. -/
theorem sampleCount_of_changesOnly {domain : Domain} {before after : Store α}
    {written : Buffer → Prop} (lives : domain.LivesIn before)
    (changes : Store.ChangesOnly written before after) :
    domain.sampleCount after = domain.sampleCount before := by
  cases domain with
  | copying bindings count => rfl
  | sharing bindings =>
    cases bindings with
    | nil => rfl
    | cons pair rest =>
      obtain ⟨name, buffer⟩ := pair
      have present : before.Has buffer := lives name buffer List.mem_cons_self
      have same := changes.length_read buffer present
      show ((after.read buffer).length : Int) = (before.read buffer).length
      rw [same]

/-- The row of a variable is the one in its buffer. -/
theorem find?_rows (domain : Domain) (store : Store α) (name : String) :
    (domain.rows store).find? name = (domain.bindings.find? name).map store.read :=
  Bindings.find?_map (fun _ => store.read) domain.bindings name

/-- The rows of a domain stay when its buffers keep their rows. -/
theorem rows_congr {domain : Domain} {before after : Store α}
    (kept : ∀ name buffer, (name, buffer) ∈ domain.bindings →
      after.read buffer = before.read buffer) :
    domain.rows after = domain.rows before := by
  refine List.map_congr_left ?_
  rintro ⟨name, buffer⟩ bound
  exact congrArg (Prod.mk name) (kept name buffer bound)

/-! ## Buffers kept apart -/

/-- Every name is bound once, to a buffer of the store to which no other name is
bound. -/
structure Separate (domain : Domain) (store : Store α) : Prop where
  names : domain.bindings.names.Nodup
  buffers : (domain.bindings.map Prod.snd).Nodup
  lives : domain.LivesIn store

/-- A buffer to which no name is bound is not found. -/
theorem filter_eq_nil_of_not_mem {bindings : Bindings Buffer} {buffer : Buffer}
    (free : buffer ∉ bindings.map Prod.snd) :
    bindings.filter (fun (_, other) => other == buffer) = [] := by
  rw [List.filter_eq_nil_iff]
  intro held member same
  exact free (List.mem_map.2 ⟨held, member, beq_iff_eq.1 same⟩)

/-- The names bound to a buffer of its own are that one name. -/
theorem Separate.namesOf_eq {domain : Domain} {store : Store α} (separate : domain.Separate store)
    {name : String} {buffer : Buffer} (bound : (name, buffer) ∈ domain.bindings) :
    domain.namesOf buffer = [name] := by
  have apart := separate.buffers
  unfold namesOf
  generalize domain.bindings = bindings at bound apart ⊢
  induction bindings with
  | nil => cases bound
  | cons pair rest ih =>
    obtain ⟨key, other⟩ := pair
    rw [List.map_cons, List.nodup_cons] at apart
    rcases List.mem_cons.1 bound with here | later
    · cases here
      rw [List.filter_cons_of_pos (by simp), filter_eq_nil_of_not_mem apart.1]
      rfl
    · have differs : other ≠ buffer := by
        intro same
        subst same
        exact apart.1 (List.mem_map.2 ⟨(name, other), later, rfl⟩)
      rw [List.filter_cons_of_neg (by simpa using differs)]
      exact ih later apart.2

/-- No name is bound to a buffer that the store does not have. -/
theorem LivesIn.namesOf_eq_nil {domain : Domain} {store : Store α} (lives : domain.LivesIn store)
    {buffer : Buffer} (fresh : ¬store.Has buffer) : domain.namesOf buffer = [] := by
  rw [namesOf, filter_eq_nil_of_not_mem, List.map_nil]
  intro bound
  obtain ⟨⟨name, held⟩, member, same⟩ := List.mem_map.1 bound
  dsimp only at same
  subst same
  exact fresh (lives name held member)

/-- A buffer is bound to one name. -/
theorem Separate.name_eq {domain : Domain} {store : Store α} (separate : domain.Separate store)
    {name other : String} {buffer : Buffer} (bound : (name, buffer) ∈ domain.bindings)
    (other_bound : (other, buffer) ∈ domain.bindings) : name = other := by
  have names := separate.namesOf_eq bound
  rw [separate.namesOf_eq other_bound] at names
  exact (List.head_eq_of_cons_eq names).symm

theorem Separate.lendsApart {domain : Domain} {store : Store α}
    (separate : domain.Separate store) : domain.LendsApart := by
  intro name other buffer lends other_lends
  exact separate.name_eq (mem_bindings_of_find? (find?_of_lent? lends))
    (mem_bindings_of_find? (find?_of_lent? other_lends))

/-! ## Rows placed in a store -/

theorem changesOnly_place (written : Buffer → Prop) (rows : Bindings (List α))
    (store : Store α) : Store.ChangesOnly written store (place rows store).2 := by
  induction rows generalizing store with
  | nil => exact .refl written store
  | cons pair rest ih => exact (Store.ChangesOnly.alloc written store pair.2).trans (ih _)

/-- The buffers of rows placed in a store are new. -/
theorem new_of_mem_place {rows : Bindings (List α)} {store : Store α} {name : String}
    {buffer : Buffer} (bound : (name, buffer) ∈ (place rows store).1) :
    ¬store.Has buffer ∧ (place rows store).2.Has buffer := by
  induction rows generalizing store with
  | nil => cases bound
  | cons pair rest ih =>
    rcases List.mem_cons.1 bound with here | later
    · cases here
      exact ⟨store.not_has_alloc pair.2,
        (changesOnly_place (fun _ => False) rest _).has (store.has_alloc pair.2)⟩
    · obtain ⟨fresh, present⟩ := ih later
      refine ⟨fun old => fresh ?_, present⟩
      exact (Store.ChangesOnly.alloc (fun _ => False) store pair.2).has old

theorem nodup_place (rows : Bindings (List α)) (store : Store α) :
    ((place rows store).1.map Prod.snd).Nodup := by
  induction rows generalizing store with
  | nil => exact List.nodup_nil
  | cons pair rest ih =>
    show ((store.alloc pair.2).1 :: (place rest (store.alloc pair.2).2).1.map Prod.snd).Nodup
    rw [List.nodup_cons]
    refine ⟨?_, ih _⟩
    intro again
    obtain ⟨⟨name, buffer⟩, bound, same⟩ := List.mem_map.1 again
    dsimp only at same
    subst same
    exact (new_of_mem_place bound).1 (store.has_alloc pair.2)

/-- Rows placed under distinct names are kept apart. -/
theorem separate_place {rows : Bindings (List α)} (names : rows.names.Nodup) (store : Store α) :
    (sharing (place rows store).1).Separate (place rows store).2 where
  names := by
    show (place rows store).1.names.Nodup
    rw [names_place]
    exact names
  buffers := nodup_place rows store
  lives := fun _ _ bound => (new_of_mem_place bound).2

/-- The buffers of rows placed in a store hold them. -/
theorem rows_place (rows : Bindings (List α)) (store : Store α) :
    (place rows store).1.map (fun (name, buffer) => (name, (place rows store).2.read buffer)) =
      rows := by
  induction rows generalizing store with
  | nil => rfl
  | cons pair rest ih =>
    have kept : (place rest (store.alloc pair.2).2).2.read (store.alloc pair.2).1 = pair.2 := by
      rw [(changesOnly_place (fun _ => False) rest _).read_eq _ (store.has_alloc pair.2) id,
        Store.read_alloc_self]
    show (pair.1, (place rest (store.alloc pair.2).2).2.read (store.alloc pair.2).1) :: _ = _
    rw [kept]
    exact congrArg (pair :: ·) (ih (store.alloc pair.2).2)

/-- A copying domain lives where it was placed, and shows its samples. -/
theorem copyingOf_spec (samples : Samples α) (store : Store α) :
    (copyingOf samples store).1.LivesIn (copyingOf samples store).2 ∧
      (copyingOf samples store).1.rows (copyingOf samples store).2 = samples.rows ∧
      (copyingOf samples store).1.sampleCount (copyingOf samples store).2 = samples.count :=
  ⟨fun _ _ bound => (new_of_mem_place bound).2, rows_place samples.rows store, rfl⟩

end Formulary.Domain

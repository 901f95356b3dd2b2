import Mathlib.Data.List.Nodup
import Formulary.Bindings

/-!
# Merging bindings

Pairs are merged into bindings one after another.  This module says which value a
name has in the end, and when a merge changes nothing.

Main results:

- Theorem `Bindings.find?_setAll`: the last value that a name is given stays.
- Theorem `Bindings.setAll_eq_self`: values that are there already change nothing.
- Theorem `Bindings.ofPairs_eq_self`: bindings are made again by their own pairs.
-/

namespace Formulary.Bindings

universe u

variable {β : Type u}

/-! ## Looking up -/

/-- A name that is bound once has the one value given to it. -/
theorem find?_eq_some_iff {bindings : Bindings β} (distinct : bindings.names.Nodup)
    {name : String} {value : β} :
    bindings.find? name = some value ↔ (name, value) ∈ bindings := by
  induction bindings with
  | nil => simp
  | cons pair rest ih =>
    obtain ⟨key, first⟩ := pair
    obtain ⟨fresh, distinct⟩ := List.nodup_cons.1 distinct
    rw [find?_cons, List.mem_cons, Prod.mk.injEq]
    by_cases here : name = key
    · subst here
      have absent : (name, value) ∉ rest := fun member => fresh (List.mem_map.2 ⟨_, member, rfl⟩)
      simp [absent, eq_comm]
    · simp [here, ih distinct]

/-- The bindings that come first are looked through first. -/
theorem find?_append (first second : Bindings β) (name : String) :
    find? (first ++ second) name = (first.find? name).or (second.find? name) :=
  List.lookup_append

/-! ## Values bound one after another -/

/-- Of the values given to a name the last one stays, and before all of them the
value that the name had. -/
theorem find?_setAll (bindings : Bindings β) (pairs : List (String × β)) (name : String) :
    (bindings.setAll pairs).find? name = (find? pairs.reverse name).or (bindings.find? name) := by
  induction pairs generalizing bindings with
  | nil => simp
  | cons pair rest ih =>
    obtain ⟨key, value⟩ := pair
    rw [setAll_cons, ih, find?_set, List.reverse_cons, find?_append, Option.or_assoc, find?_cons]
    by_cases here : name = key <;> simp [here]

/-- The order does not matter to names that are given one value each. -/
theorem find?_setAll_of_nodup (bindings : Bindings β) {pairs : Bindings β}
    (distinct : pairs.names.Nodup) (name : String) :
    (bindings.setAll pairs).find? name = (find? pairs name).or (bindings.find? name) := by
  have reversed : (names pairs.reverse).Nodup := by
    rw [names, List.map_reverse, List.nodup_reverse]
    exact distinct
  have same : find? pairs.reverse name = find? pairs name := by
    ext value
    rw [find?_eq_some_iff reversed, find?_eq_some_iff distinct, List.mem_reverse]
  rw [find?_setAll, same]

/-- Giving a name the value that it has changes nothing. -/
theorem set_eq_self {bindings : Bindings β} {name : String} {value : β}
    (bound : bindings.find? name = some value) : bindings.set name value = bindings := by
  induction bindings with
  | nil => cases bound
  | cons pair rest ih =>
    obtain ⟨key, old⟩ := pair
    rw [find?_cons] at bound
    rw [set]
    by_cases here : name = key
    · rw [if_pos here] at bound
      rw [if_pos here.symm, here, Option.some.inj bound]
    · rw [if_neg here] at bound
      rw [if_neg (Ne.symm here), ih bound]

theorem setAll_eq_self {bindings : Bindings β} {pairs : List (String × β)}
    (bound : ∀ pair ∈ pairs, bindings.find? pair.1 = some pair.2) :
    bindings.setAll pairs = bindings := by
  induction pairs with
  | nil => rfl
  | cons pair rest ih =>
    have first := bound pair List.mem_cons_self
    rw [setAll_cons, set_eq_self first]
    exact ih fun later member => bound later (List.mem_cons_of_mem _ member)

/-- A name that is not bound yet comes last. -/
theorem set_of_not_mem {bindings : Bindings β} {name : String} (value : β)
    (fresh : name ∉ bindings.names) : bindings.set name value = bindings ++ [(name, value)] := by
  induction bindings with
  | nil => rfl
  | cons pair rest ih =>
    obtain ⟨key, old⟩ := pair
    obtain ⟨differs, fresh⟩ := not_or.1 (mt List.mem_cons.2 fresh)
    rw [set, if_neg (Ne.symm differs), ih fresh, List.cons_append]

theorem setAll_of_nodup {bindings pairs : Bindings β}
    (distinct : (names (bindings ++ pairs)).Nodup) :
    bindings.setAll pairs = bindings ++ pairs := by
  induction pairs generalizing bindings with
  | nil => rw [setAll_nil, List.append_nil]
  | cons pair rest ih =>
    obtain ⟨name, value⟩ := pair
    have fresh : name ∉ bindings.names := by
      rw [names, List.map_append, List.map_cons, List.nodup_append] at distinct
      intro bound
      exact distinct.2.2 name bound name List.mem_cons_self rfl
    have assoc : bindings ++ (name, value) :: rest = bindings ++ [(name, value)] ++ rest := by
      rw [List.append_assoc, List.singleton_append]
    rw [assoc] at distinct ⊢
    rw [setAll_cons, set_of_not_mem value fresh]
    exact ih distinct

theorem nodup_names_ofPairs (pairs : List (String × β)) : (ofPairs pairs).names.Nodup :=
  @nodup_names_setAll β [] List.nodup_nil pairs

/-- Bindings of distinct names are made again by their own pairs. -/
theorem ofPairs_eq_self {bindings : Bindings β} (distinct : bindings.names.Nodup) :
    ofPairs bindings = bindings :=
  setAll_of_nodup distinct

end Formulary.Bindings

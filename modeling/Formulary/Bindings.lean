/-!
# Bindings

Bindings give values to names.  They keep the order in which the names were
first bound; binding a name again replaces its value and leaves its place.

Main results:

- Theorem `Bindings.find?_set`: a name has the value last bound to it.
- Theorem `Bindings.names_set`: a new name comes last, a bound one keeps its
  place.
- Theorem `Bindings.nodup_names_set`: no name is bound twice.
-/

namespace Formulary

universe u

/-- Names with their values, in the order in which they were first bound. -/
abbrev Bindings (β : Type u) := List (String × β)

namespace Bindings

variable {β : Type u}

/-- The names bound, in order. -/
def names (bindings : Bindings β) : List String :=
  bindings.map Prod.fst

/-- The value of a name. -/
def find? (bindings : Bindings β) (name : String) : Option β :=
  List.lookup name bindings

/-- Binds `name` to `value`, in its place if it is bound already. -/
def set (name : String) (value : β) : Bindings β → Bindings β
  | [] => [(name, value)]
  | (key, old) :: rest =>
    if key = name then (name, value) :: rest
    else (key, old) :: set name value rest

/-- Binds names to values one after another. -/
def setAll (bindings : Bindings β) (pairs : List (String × β)) : Bindings β :=
  pairs.foldl (fun bindings (name, value) => bindings.set name value) bindings

/-- The bindings made by `pairs` from the first to the last. -/
def ofPairs (pairs : List (String × β)) : Bindings β :=
  setAll [] pairs

@[simp]
theorem find?_nil (name : String) : find? ([] : Bindings β) name = none :=
  rfl

@[simp]
theorem setAll_nil (bindings : Bindings β) : bindings.setAll [] = bindings :=
  rfl

@[simp]
theorem setAll_cons (bindings : Bindings β) (name : String) (value : β)
    (pairs : List (String × β)) :
    bindings.setAll ((name, value) :: pairs) = (bindings.set name value).setAll pairs :=
  rfl

/-- The value of the first name, or that of a later one. -/
theorem find?_cons (key name : String) (value : β) (rest : Bindings β) :
    find? ((key, value) :: rest) name = if name = key then some value else find? rest name := by
  simp only [find?, List.lookup_cons]
  split <;> simp_all

/-- Values that are changed under their names are found changed. -/
theorem find?_map {γ : Type u} (f : String → β → γ) (bindings : Bindings β) (name : String) :
    find? (bindings.map fun (key, value) => (key, f key value)) name =
      (find? bindings name).map (f name) := by
  induction bindings with
  | nil => rfl
  | cons pair rest ih =>
    obtain ⟨key, value⟩ := pair
    rw [List.map_cons, find?_cons, find?_cons, ih]
    split
    · next same => rw [same, Option.map_some]
    · rfl

/-- A name has the value last bound to it. -/
theorem find?_set (bindings : Bindings β) (name other : String) (value : β) :
    (bindings.set name value).find? other =
      if other = name then some value else bindings.find? other := by
  induction bindings with
  | nil => simp [set, find?_cons]
  | cons pair rest ih =>
    obtain ⟨key, old⟩ := pair
    simp only [set]
    by_cases hk : key = name
    · subst hk
      by_cases ho : other = key <;> simp [find?_cons, ho]
    · by_cases ho : other = key
      · subst ho
        simp [find?_cons, hk]
      · simp [find?_cons, hk, ho, ih]

/-- A new name comes last, and a bound one keeps its place. -/
theorem names_set (bindings : Bindings β) (name : String) (value : β) :
    (bindings.set name value).names =
      if name ∈ bindings.names then bindings.names else bindings.names ++ [name] := by
  induction bindings with
  | nil => simp [set, names]
  | cons pair rest ih =>
    obtain ⟨key, old⟩ := pair
    simp only [names] at ih
    simp only [set, names]
    by_cases hk : key = name
    · simp [hk]
    · simp only [hk, if_false, List.map_cons, ih, List.mem_cons, Ne.symm hk, false_or]
      by_cases bound : name ∈ rest.map Prod.fst <;> simp [bound]

/-- No name is bound twice. -/
theorem nodup_names_set {bindings : Bindings β} (h : bindings.names.Nodup) (name : String)
    (value : β) : (bindings.set name value).names.Nodup := by
  rw [names_set]
  split
  · exact h
  · next fresh =>
    rw [List.nodup_append]
    refine ⟨h, by simp, ?_⟩
    intro a ha b hb
    rw [List.mem_singleton] at hb
    subst hb
    exact fun hab => fresh (hab ▸ ha)

/-- Names bound one after another are bound once each. -/
theorem nodup_names_setAll {bindings : Bindings β} (h : bindings.names.Nodup)
    (pairs : List (String × β)) : (bindings.setAll pairs).names.Nodup := by
  induction pairs generalizing bindings with
  | nil => exact h
  | cons pair pairs ih =>
    obtain ⟨name, value⟩ := pair
    exact ih (nodup_names_set h name value)

/-- A name is bound exactly when it is among the names. -/
theorem find?_eq_none_iff {bindings : Bindings β} {name : String} :
    bindings.find? name = none ↔ name ∉ bindings.names := by
  induction bindings with
  | nil => simp [names]
  | cons pair rest ih =>
    obtain ⟨key, value⟩ := pair
    simp only [names] at ih
    rw [find?_cons]
    by_cases hk : name = key
    · simp [hk, names]
    · simp [hk, names, ih]

end Bindings

/-! ## Sorted names -/

/-- The distinct names of a list in alphabetical order of code points. -/
def sortedNames (names : List String) : List String :=
  names.eraseDups.mergeSort (fun a b => decide (a ≤ b))

/-- Sorting keeps the names. -/
theorem mem_sortedNames {names : List String} {name : String} :
    name ∈ sortedNames names ↔ name ∈ names := by
  rw [sortedNames, List.mem_mergeSort, List.mem_eraseDups]

end Formulary

/-!
# Nested lists of samples

What is given for a variable may be a single sample or lists nested to any depth.
Nested lists have a shape when the lists of each level are of one length.

Main results:

- Definition `Nested.shape?`: the lengths level by level, from the outside.
- Theorem `Nested.length_row`: what has a single length is a row of that length.
-/

namespace Formulary

/-- Samples in nested lists. -/
inductive Nested (α : Type) where
  | sample (value : α)
  | list (items : List (Nested α))
deriving Repr

namespace Nested

variable {α : Type}

mutual

/-- The lengths of the lists at each level of nesting, if those of one level
agree. -/
def shape? : Nested α → Option (List Nat)
  | sample _ => some []
  | list items => (commonShape? items).map (items.length :: ·)

/-- The shape that all items of a list have.  No items agree on the empty
shape. -/
def commonShape? : List (Nested α) → Option (List Nat)
  | [] => some []
  | [item] => shape? item
  | item :: rest =>
    match shape? item, commonShape? rest with
    | some first, some others => if first = others then some first else none
    | _, _ => none

end

/-- The greatest number of levels that samples may be nested to. -/
def deepest : Nat := 64

/-- The samples of a list that is not nested any further. -/
def row : Nested α → List α
  | sample _ => []
  | list items => items.filterMap fun
    | sample value => some value
    | list _ => none

/-- Items that agree on the empty shape are samples. -/
theorem samples_of_commonShape? {items : List (Nested α)}
    (h : commonShape? items = some []) : ∃ values : List α, items = values.map sample := by
  match items, h with
  | [], _ => exact ⟨[], rfl⟩
  | [sample value], _ => exact ⟨[value], rfl⟩
  | [list inner], h => simp [commonShape?, shape?] at h
  | first :: second :: rest, h =>
    simp only [commonShape?] at h
    split at h
    · next found others hfound hothers =>
      split at h
      · next same =>
        cases h
        subst same
        obtain ⟨values, hvalues⟩ := samples_of_commonShape? hothers
        cases first with
        | sample value => exact ⟨value :: values, by rw [hvalues, List.map_cons]⟩
        | list inner => simp [shape?] at hfound
      · cases h
    · cases h

/-- What has a single length is a row of that length. -/
theorem length_row {given : Nested α} {length : Nat} (h : given.shape? = some [length]) :
    given.row.length = length := by
  cases given with
  | sample value => simp [shape?] at h
  | list items =>
    simp only [shape?, Option.map_eq_some_iff, List.cons.injEq] at h
    obtain ⟨inner, common, count, rfl⟩ := h
    obtain ⟨values, rfl⟩ := samples_of_commonShape? common
    rw [← count]
    simp [row, List.filterMap_map]

end Nested

/-- A shape in parentheses, where a single length is followed by a comma. -/
def shapeText (shape : List Nat) : String :=
  match shape with
  | [length] => "(" ++ toString length ++ ",)"
  | lengths => "(" ++ ", ".intercalate (lengths.map toString) ++ ")"

end Formulary

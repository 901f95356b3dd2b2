import Mathlib.Logic.ExistsUnique
import Formulary.Domain.Axis
import Formulary.Proofs.Bindings.Merging
import Formulary.Proofs.Domain.Agreement

/-!
# Grids

A grid puts every sample of one row together with every sample of another, the first row
going faster.  A place on the grid tells by remainder and quotient which two samples stand
there, and no other place has the same two.

Main results:

- Theorem `Axis.make_eq_ok_iff`: the numbers of samples for which there are axes.
- Definition `Samples.IsGrid`: what samples have to be to enumerate all pairs.
- Theorem `Samples.exists_grid_iff`: there is a grid exactly when rows can hold its axes and
  all pairs.
- Theorem `Samples.isGrid_of_overAxes`: a grid enumerates all pairs.
-/

namespace Formulary

variable {α : Type}

/-- Of two steps that may fail, the second is taken from what the first one gives. -/
theorem bind_eq_ok_iff {ε β : Type} {first : Except ε α} {next : α → Except ε β} {result : β} :
    first >>= next = .ok result ↔ ∃ value, first = .ok value ∧ next value = .ok result := by
  constructor
  · intro made
    cases first with
    | error fault => cases made
    | ok value => exact ⟨value, rfl, made⟩
  · rintro ⟨value, rfl, made⟩
    exact made

/-! ## Axes -/

/-- There is an axis exactly when a row can hold as many samples as the nearest double
says. -/
theorem Axis.make_eq_ok_iff {start stop : Float} {count : Nat} {axis : Axis} :
    Axis.make start stop count = .ok axis ↔
      Axis.nearestDouble count < rowLimit ∧ axis = ⟨start, stop, count⟩ := by
  have limit : rowLimit < Nat.pow 2 63 := by decide
  have natural : (0 : Int) ≤ count := Int.natCast_nonneg count
  have long : (⟨start, stop, count⟩ : Axis).length = Axis.nearestDouble count := rfl
  simp only [Axis.make, Int.toNat_natCast, long, natural, true_and]
  split
  · next whole => simp only [reduceCtorEq, false_iff]; omega
  · split
    · next fits => simp [fits, eq_comm]
    · next large => simp [large]

/-! ## Rows of pairs -/

/-- Where rows of one length are put one after another, the place tells the row by its
quotient and the place in the row by its remainder. -/
theorem getElem?_flatMap_of_length {β : Type} {row : β → List α} {length : Nat}
    (same : ∀ y, (row y).length = length) (positive : 0 < length) (ys : List β) (place : Nat) :
    (ys.flatMap row)[place]? = ys[place / length]?.bind fun y => (row y)[place % length]? := by
  induction ys generalizing place with
  | nil => simp
  | cons y rest ih =>
    rw [List.flatMap_cons]
    by_cases here : place < length
    · rw [List.getElem?_append_left (by rwa [same]), Nat.div_eq_of_lt here, Nat.mod_eq_of_lt here]
      rfl
    · have behind : length ≤ place := Nat.le_of_not_lt here
      rw [List.getElem?_append_right (by rwa [same]), same, ih, Nat.div_eq_sub_div positive behind,
        List.getElem?_cons_succ, Nat.mod_eq_sub_mod behind]

/-- Every pair of places is told by exactly one place on the grid. -/
theorem existsUnique_place {columns rows column row : Nat} (column_inside : column < columns)
    (row_inside : row < rows) :
    ∃! place, place < columns * rows ∧ place % columns = column ∧ place / columns = row := by
  have positive : 0 < columns := Nat.zero_lt_of_lt column_inside
  refine ⟨column + columns * row, ⟨?_, ?_, ?_⟩, ?_⟩
  · calc column + columns * row
        < columns + columns * row := Nat.add_lt_add_right column_inside _
      _ = columns * (row + 1) := by rw [Nat.mul_succ, Nat.add_comm]
      _ ≤ columns * rows := Nat.mul_le_mul_left columns row_inside
  · rw [Nat.add_mul_mod_self_left, Nat.mod_eq_of_lt column_inside]
  · rw [Nat.add_mul_div_left _ _ positive, Nat.div_eq_of_lt column_inside, Nat.zero_add]
  · rintro place ⟨-, rfl, rfl⟩
    exact (Nat.mod_add_div place columns).symm

namespace Samples

section

variable {xs ys : List α} {place : Nat}

/-- The first row of a grid goes through its samples again and again. -/
theorem getElem?_gridRows_fst (inside : place < xs.length * ys.length) :
    (gridRows xs ys).1[place]? = xs[place % xs.length]? := by
  have positive : 0 < xs.length := Nat.pos_of_mul_pos_right (Nat.zero_lt_of_lt inside)
  have row_inside : place / xs.length < ys.length := Nat.div_lt_of_lt_mul inside
  rw [gridRows, getElem?_flatMap_of_length (fun _ => rfl) positive,
    List.getElem?_eq_getElem row_inside, Option.bind_some]

/-- The second row of a grid stays at each sample while the first one goes through all of
its own. -/
theorem getElem?_gridRows_snd (inside : place < xs.length * ys.length) :
    (gridRows xs ys).2[place]? = ys[place / xs.length]? := by
  have positive : 0 < xs.length := Nat.pos_of_mul_pos_right (Nat.zero_lt_of_lt inside)
  have row_inside : place / xs.length < ys.length := Nat.div_lt_of_lt_mul inside
  rw [gridRows, getElem?_flatMap_of_length (fun _ => List.length_replicate) positive,
    List.getElem?_eq_getElem row_inside, Option.bind_some,
    List.getElem?_replicate, if_pos (Nat.mod_lt place positive)]

end

/-! ## Samples on a grid -/

/-- The sample of a variable at a place. -/
def sampleAt (samples : Samples α) (name : String) (place : Nat) : Option α :=
  (samples.rows.find? name).bind (·[place]?)

/-- Samples enumerate the pairs of two rows: there are as many as pairs, and the place of a
pair has its first sample at the remainder and its second at the quotient.  If both
variables have one name, it has the second row. -/
structure IsGrid (x : String) (xs : List α) (y : String) (ys : List α) (samples : Samples α) :
    Prop where
  count : samples.count = (xs.length * ys.length : Nat)
  names : samples.rows.names = if x = y then [y] else [x, y]
  level : ∀ name row, (name, row) ∈ samples.rows → row.length = xs.length * ys.length
  first : x ≠ y → ∀ place < xs.length * ys.length,
    samples.sampleAt x place = xs[place % xs.length]?
  second : ∀ place < xs.length * ys.length, samples.sampleAt y place = ys[place / xs.length]?

section

variable (x y : String) (xAxis yAxis : Axis)

/-- The bindings of a grid, one for each name. -/
theorem ofPairs_two (first second : List α) :
    Bindings.ofPairs [(x, first), (y, second)] =
      if x = y then [(y, second)] else [(x, first), (y, second)] := by
  by_cases same : x = y <;> simp [Bindings.ofPairs, Bindings.setAll, Bindings.set, same]

/-- Two rows of one length make samples. -/
theorem ofRows_two {first second : List α} {length : Nat} (first_length : first.length = length)
    (second_length : second.length = length) :
    ofRows (Bindings.ofPairs [(x, first), (y, second)]) none =
      .ok ⟨Bindings.ofPairs [(x, first), (y, second)], length⟩ := by
  have same : ∀ name row, (name, row) ∈ Bindings.ofPairs [(x, first), (y, second)] →
      row.length = length := by
    intro name row member
    rw [ofPairs_two] at member
    split at member <;> simp only [List.mem_cons, Prod.mk.injEq, List.not_mem_nil, or_false]
      at member
    · exact member.2 ▸ second_length
    · rcases member with ⟨-, rfl⟩ | ⟨-, rfl⟩
      · exact first_length
      · exact second_length
  have bound : (Bindings.ofPairs [(x, first), (y, second)]).isEmpty = false := by
    rw [ofPairs_two]
    split <;> rfl
  rw [ofRows_of_same same, bound]
  rfl

/-- A grid has its rows, unless there are too many pairs for a row. -/
theorem overAxes_eq :
    overAxes x xAxis y yAxis =
      if xAxis.length * yAxis.length < rowLimit then
        .ok ⟨Bindings.ofPairs [(x, (gridRows xAxis.points yAxis.points).1),
          (y, (gridRows xAxis.points yAxis.points).2)], (xAxis.length * yAxis.length : Nat)⟩
      else .error (.tooMany (xAxis.length * yAxis.length)) := by
  obtain ⟨first_length, second_length⟩ := length_gridRows xAxis.points yAxis.points
  rw [Axis.length_points, Axis.length_points, Nat.mul_comm] at first_length second_length
  rw [overAxes]
  dsimp only
  rw [first_length, ofRows_two x y first_length second_length]

theorem exists_overAxes_iff :
    (∃ samples, overAxes x xAxis y yAxis = .ok samples) ↔
      xAxis.length * yAxis.length < rowLimit := by
  rw [overAxes_eq]
  split <;> simp [*]

variable {x y xAxis yAxis} {samples : Samples Float}

/-- The rows of a grid are those of all pairs. -/
theorem ofRows_of_overAxes (made : overAxes x xAxis y yAxis = .ok samples) :
    ofRows (Bindings.ofPairs [(x, (gridRows xAxis.points yAxis.points).1),
      (y, (gridRows xAxis.points yAxis.points).2)]) none = .ok samples := by
  rw [overAxes] at made
  dsimp only at made
  split at made
  · exact made
  · cases made

/-- A grid enumerates the pairs of samples of its axes. -/
theorem isGrid_of_overAxes (made : overAxes x xAxis y yAxis = .ok samples) :
    samples.IsGrid x xAxis.points y yAxis.points := by
  obtain ⟨rows, level⟩ := ofRows_count (ofRows_of_overAxes made)
  rw [← rows] at level
  have count : samples.count = (xAxis.length * yAxis.length : Nat) := by
    have same := overAxes_eq x y xAxis yAxis
    rw [made] at same
    split at same
    · cases same
      rfl
    · cases same
  have total : xAxis.points.length * yAxis.points.length = xAxis.length * yAxis.length := by
    rw [Axis.length_points, Axis.length_points]
  rw [ofPairs_two] at rows
  refine ⟨?_, ?_, ?_, ?_, ?_⟩
  · rw [count, total]
  · rw [rows]
    split <;> rfl
  · intro name row member
    rw [total]
    exact Int.ofNat.inj ((level name row member).trans count)
  · intro distinct place inside
    have found : samples.rows.find? x = some (gridRows xAxis.points yAxis.points).1 := by
      rw [rows, if_neg distinct, Bindings.find?_cons, if_pos rfl]
    rw [sampleAt, found, Option.bind_some, getElem?_gridRows_fst inside]
  · intro place inside
    have found : samples.rows.find? y = some (gridRows xAxis.points yAxis.points).2 := by
      rw [rows]
      split
      · rw [Bindings.find?_cons, if_pos rfl]
      · next distinct =>
        rw [Bindings.find?_cons, if_neg (Ne.symm distinct), Bindings.find?_cons, if_pos rfl]
    rw [sampleAt, found, Option.bind_some, getElem?_gridRows_snd inside]

end

section

variable {x y : String} {xRange yRange : Float × Float} {xCount yCount : Nat}

/-- A grid is one over two axes, where both can be made. -/
theorem grid_eq_ok_iff {samples : Samples Float} :
    grid x xRange y yRange xCount yCount = .ok samples ↔
      Axis.nearestDouble xCount < rowLimit ∧ Axis.nearestDouble yCount < rowLimit ∧
        overAxes x ⟨xRange.1, xRange.2, xCount⟩ y ⟨yRange.1, yRange.2, yCount⟩ =
          .ok samples := by
  simp only [grid, bind_eq_ok_iff, Axis.make_eq_ok_iff]
  constructor
  · rintro ⟨_, ⟨x_fits, rfl⟩, _, ⟨y_fits, rfl⟩, made⟩
    exact ⟨x_fits, y_fits, made⟩
  · rintro ⟨x_fits, y_fits, made⟩
    exact ⟨_, ⟨x_fits, rfl⟩, _, ⟨y_fits, rfl⟩, made⟩

/-- There is a grid exactly when rows can hold both axes and all pairs. -/
theorem exists_grid_iff :
    (∃ samples, grid x xRange y yRange xCount yCount = .ok samples) ↔
      Axis.nearestDouble xCount < rowLimit ∧ Axis.nearestDouble yCount < rowLimit ∧
        Axis.nearestDouble xCount * Axis.nearestDouble yCount < rowLimit := by
  simp only [grid_eq_ok_iff, exists_and_left]
  rw [exists_overAxes_iff]
  rfl

end

end Samples

end Formulary

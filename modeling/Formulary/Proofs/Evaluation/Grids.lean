import Formulary.Proofs.Domain.Grids
import Formulary.Proofs.Evaluation.Resampling
import Formulary.Proofs.Evaluation.Validity

/-!
# Evaluation on a grid

A valid expression over the two variables of a grid has at each place the value that it has
on the single pair of samples there, provided that no reduction has a single argument.

Main results:

- Definition `Samples.pair`: a single pair of samples.
- Theorem `Samples.IsGrid.sampleAt_eq`: what stands at a place of a grid is one pair.
- Theorem `Expr.rowOver_isGrid`: evaluation on a grid goes pair by pair.
- Theorem `Samples.grid_enumerates_pairs`: when there is a grid, what it enumerates and
  what an expression is on it.
-/

namespace Formulary

variable {α : Type}

/-! ## Single pairs -/

namespace Samples

/-- One sample for each of two variables. -/
def pair (x : String) (a : α) (y : String) (b : α) : Samples α :=
  ⟨[(x, [a]), (y, [b])], 1⟩

section

variable {x y : String}

/-- Two variables of different names and one sample each make samples. -/
theorem ofRows_pair (distinct : x ≠ y) (a b : α) :
    ofRows (Bindings.ofPairs [(x, [a]), (y, [b])]) none = .ok (pair x a y b) := by
  have one : ∀ sample : α, [sample].length = 1 := fun _ => rfl
  rw [ofRows_two x y (one a) (one b), ofPairs_two, if_neg distinct]
  rfl

theorem sampleAt_pair (a b : α) (name : String) :
    (pair x a y b).sampleAt name 0 =
      if name = x then some a else if name = y then some b else none := by
  rw [sampleAt, pair, Bindings.find?_cons, Bindings.find?_cons, Bindings.find?_nil]
  split
  · rfl
  · split <;> rfl

variable {xs ys : List α} {samples : Samples α} {place : Nat} {a b : α}

/-- At a place of a grid, the variables have the samples of one pair. -/
theorem IsGrid.sampleAt_eq (grid : samples.IsGrid x xs y ys) (distinct : x ≠ y)
    (inside : place < xs.length * ys.length) (first : xs[place % xs.length]? = some a)
    (second : ys[place / xs.length]? = some b) (name : String) :
    samples.sampleAt name place = (pair x a y b).sampleAt name 0 := by
  rw [sampleAt_pair]
  by_cases is_first : name = x
  · rw [if_pos is_first, is_first, grid.first distinct place inside, first]
  · rw [if_neg is_first]
    by_cases is_second : name = y
    · rw [if_pos is_second, is_second, grid.second place inside, second]
    · have absent : name ∉ samples.rows.names := by
        rw [grid.names, if_neg distinct]
        simp [is_first, is_second]
      rw [if_neg is_second, sampleAt, Bindings.find?_eq_none_iff.2 absent]
      rfl

/-- The two variables of a grid are bound. -/
theorem IsGrid.isSome_find? (grid : samples.IsGrid x xs y ys) (distinct : x ≠ y) {name : String}
    (named : name = x ∨ name = y) : (samples.rows.find? name).isSome = true := by
  have listed : name ∈ samples.rows.names := by
    rw [grid.names, if_neg distinct]
    simpa using named
  rw [Option.isSome_iff_ne_none, Ne, Bindings.find?_eq_none_iff]
  exact not_not_intro listed

end

end Samples

/-! ## Expressions on a grid -/

namespace Expr

variable [Scalar α] {x y : String} {expr : Expr α}

/-- A valid expression of two variables has a single value on a pair of samples, and that is
its value on these samples. -/
theorem exists_value_pair (distinct : x ≠ y) (valid : expr.isValid = true)
    (named : ∀ name ∈ expr.variableNames, name = x ∨ name = y) (several : expr.ReducesSeveral)
    (a b : α) (store : Store α) :
    ∃ value, expr.rowOver (Samples.pair x a y b) store = .ok [value] ∧
      expr.sample? (fun name => (Samples.pair x a y b).sampleAt name 0) = some value := by
  have made := Samples.ofRows_pair distinct a b
  have single : (0 : Int) ≤ 1 ∧ (1 : Int) < rowLimit := by decide
  have room : expr.HasRoom (Samples.pair x a y b).count := fun _ _ _ _ => single
  have bound : ∀ name ∈ expr.variableNames,
      ((Samples.pair x a y b).rows.find? name).isSome = true := by
    intro name listed
    rw [Samples.pair, Bindings.find?_cons, Bindings.find?_cons]
    rcases named name listed with rfl | rfl
    · rw [if_pos rfl]
      rfl
    · rw [if_neg (Ne.symm distinct), if_pos rfl]
      rfl
  obtain ⟨row, found, long⟩ := exists_row_of_isValid made store room valid bound
  obtain ⟨value, rfl⟩ := List.length_eq_one_iff.1 (Int.ofNat.inj long)
  refine ⟨value, found, ?_⟩
  have value_found := (rowOver_eq_valueOn _ store expr).symm.trans found
  have first : 0 < [value].length := Nat.one_pos
  exact (getElem?_value several value_found first).symm

/-- On a grid, a valid expression has at each place the value that it has on the pair
there. -/
theorem rowOver_isGrid {rows : Bindings (List α)} {size : Option Int} {samples : Samples α}
    {xs ys : List α} (made : Samples.ofRows rows size = .ok samples)
    (grid : samples.IsGrid x xs y ys) (fits : xs.length * ys.length < rowLimit)
    (distinct : x ≠ y) (valid : expr.isValid = true)
    (named : ∀ name ∈ expr.variableNames, name = x ∨ name = y) (several : expr.ReducesSeveral)
    (store other : Store α) :
    ∃ row, expr.rowOver samples store = .ok row ∧ row.length = xs.length * ys.length ∧
      ∀ place < xs.length * ys.length, ∃ a b value,
        xs[place % xs.length]? = some a ∧ ys[place / xs.length]? = some b ∧
        expr.rowOver (Samples.pair x a y b) other = .ok [value] ∧ row[place]? = some value := by
  have room : expr.HasRoom samples.count := by
    intro _ _ _ _
    rw [grid.count]
    omega
  have bound : ∀ name ∈ expr.variableNames, (samples.rows.find? name).isSome = true :=
    fun name listed => grid.isSome_find? distinct (named name listed)
  obtain ⟨row, found, long⟩ := exists_row_of_isValid made store room valid bound
  rw [grid.count] at long
  refine ⟨row, found, Int.ofNat.inj long, ?_⟩
  intro place inside
  have positive : 0 < xs.length := Nat.pos_of_mul_pos_right (Nat.zero_lt_of_lt inside)
  obtain ⟨a, first⟩ : ∃ a, xs[place % xs.length]? = some a :=
    ⟨_, List.getElem?_eq_getElem (Nat.mod_lt place positive)⟩
  obtain ⟨b, second⟩ : ∃ b, ys[place / xs.length]? = some b :=
    ⟨_, List.getElem?_eq_getElem (Nat.div_lt_of_lt_mul inside)⟩
  obtain ⟨value, alone, meant⟩ := exists_value_pair distinct valid named several a b other
  refine ⟨a, b, value, first, second, alone, ?_⟩
  have value_found := (rowOver_eq_valueOn _ store expr).symm.trans found
  rw [getElem?_value several value_found (by omega), ← meant]
  exact congrArg expr.sample? (funext (grid.sampleAt_eq distinct inside first second))

end Expr

/-! ## Grids from ranges -/

namespace Samples

/-- There is an axis of any number of samples if a row can hold it, as long as the nearest
double says, and a grid if rows can hold both axes and all pairs.  The grid enumerates the
pairs, each at one place; and a valid expression of its two variables in which no reduction
has a single argument has at every place the value that it has on the pair there, whatever
the operators mean. -/
theorem grid_enumerates_pairs [Scalar Float] :
    (∀ (start stop : Float) (count : Nat) (axis : Axis),
      Axis.make start stop count = .ok axis ↔
        Axis.nearestDouble count < rowLimit ∧ axis = ⟨start, stop, count⟩) ∧
    (∀ axis : Axis, axis.points.length = Axis.nearestDouble axis.count) ∧
    (∀ count < Nat.pow 2 53, Axis.nearestDouble count = count) ∧
    (∀ columns rows column row : Nat, column < columns → row < rows →
      ∃! place, place < columns * rows ∧ place % columns = column ∧ place / columns = row) ∧
    ∀ (x y : String) (xRange yRange : Float × Float) (xCount yCount : Nat),
      ((∃ samples, grid x xRange y yRange xCount yCount = .ok samples) ↔
        Axis.nearestDouble xCount < rowLimit ∧ Axis.nearestDouble yCount < rowLimit ∧
          Axis.nearestDouble xCount * Axis.nearestDouble yCount < rowLimit) ∧
      ∀ samples, grid x xRange y yRange xCount yCount = .ok samples →
        ∀ xs ys : List Float, xs = Axis.points ⟨xRange.1, xRange.2, xCount⟩ →
          ys = Axis.points ⟨yRange.1, yRange.2, yCount⟩ →
          samples.count = (Axis.nearestDouble xCount * Axis.nearestDouble yCount : Nat) ∧
          samples.IsGrid x xs y ys ∧
          (x ≠ y → ∀ (expr : Expr Float) (store other : Store Float), expr.isValid = true →
            (∀ name ∈ expr.variableNames, name = x ∨ name = y) → expr.ReducesSeveral →
            ∃ row, expr.rowOver samples store = .ok row ∧
              row.length = xs.length * ys.length ∧
              ∀ place < xs.length * ys.length, ∃ a b value,
                xs[place % xs.length]? = some a ∧ ys[place / xs.length]? = some b ∧
                ofRows (Bindings.ofPairs [(x, [a]), (y, [b])]) none = .ok (pair x a y b) ∧
                expr.rowOver (pair x a y b) other = .ok [value] ∧
                row[place]? = some value) := by
  refine ⟨fun _ _ _ _ => Axis.make_eq_ok_iff, Axis.length_points,
    fun _ => Axis.nearestDouble_of_lt, fun _ _ _ _ => existsUnique_place, ?_⟩
  intro x y xRange yRange xCount yCount
  refine ⟨exists_grid_iff, ?_⟩
  rintro samples made _ _ rfl rfl
  obtain ⟨-, -, joined⟩ := grid_eq_ok_iff.1 made
  have is_grid := isGrid_of_overAxes joined
  have count := is_grid.count
  have fits := (exists_overAxes_iff _ _ _ _).1 ⟨samples, joined⟩
  rw [← Axis.length_points, ← Axis.length_points] at fits
  rw [Axis.length_points, Axis.length_points] at count
  refine ⟨count, is_grid, ?_⟩
  intro distinct expr store other valid named several
  obtain ⟨row, found, long, values⟩ := Expr.rowOver_isGrid (ofRows_of_overAxes joined) is_grid
    fits distinct valid named several store other
  refine ⟨row, found, long, ?_⟩
  intro place inside
  obtain ⟨a, b, value, first, second, alone, same⟩ := values place inside
  exact ⟨a, b, value, first, second, ofRows_pair distinct a b, alone, same⟩

/-- The lesser of the two coordinates. -/
def leastOfCoordinates : Expr Float :=
  .node ⟨.op (.reduction .min), none⟩ [.node ⟨.var "x", none⟩ [], .node ⟨.var "y", none⟩ []]

/-- Two samples from `0` to `1` and three from `10` to `20` make six pairs, and the lesser
coordinate is found at each. -/
theorem grid_enumerates_pairs_leastOfCoordinates :
    Axis.make 0 1 2 = .ok ⟨0, 1, 2⟩ ∧ (Axis.points ⟨0, 1, 2⟩).length = Axis.nearestDouble 2 ∧
    Axis.nearestDouble 2 = 2 ∧ Axis.nearestDouble 3 = 3 ∧
    (∃! place, place < 2 * 3 ∧ place % 2 = 1 ∧ place / 2 = 2) ∧
    ∃ samples, grid "x" (0, 1) "y" (10, 20) 2 3 = .ok samples ∧ samples.count = 6 ∧
      samples.IsGrid "x" (Axis.points ⟨0, 1, 2⟩) "y" (Axis.points ⟨10, 20, 3⟩) ∧
      ∃ row a b value, leastOfCoordinates.rowOver samples Store.empty = .ok row ∧
        (Axis.points ⟨0, 1, 2⟩)[1]? = some a ∧ (Axis.points ⟨10, 20, 3⟩)[2]? = some b ∧
        leastOfCoordinates.rowOver (pair "x" a "y" b) Store.empty = .ok [value] ∧
        row[5]? = some value := by
  have nodes : leastOfCoordinates.preorder =
      [leastOfCoordinates, .node ⟨.var "x", none⟩ [], .node ⟨.var "y", none⟩ []] := rfl
  have evaluated : leastOfCoordinates.evaluatedNodes =
      [leastOfCoordinates, .node ⟨.var "x", none⟩ [], .node ⟨.var "y", none⟩ []] := rfl
  have valid : leastOfCoordinates.isValid = true := by
    refine Expr.isValid_iff_isSound.2 ?_
    rw [nodes]
    simp only [List.forall_mem_cons, List.not_mem_nil, false_implies, implies_true, and_true]
    exact ⟨Nat.le_succ 1, rfl, rfl⟩
  have named : ∀ name ∈ leastOfCoordinates.variableNames, name = "x" ∨ name = "y" := by
    intro name listed
    obtain ⟨node, member, label⟩ := Expr.mem_variableNames_iff.1 listed
    simp only [nodes, List.mem_cons, List.not_mem_nil, or_false] at member
    rcases member with rfl | rfl | rfl <;> cases label
    · exact .inl rfl
    · exact .inr rfl
  have several : leastOfCoordinates.ReducesSeveral := by
    intro node member op label
    simp only [evaluated, List.mem_cons, List.not_mem_nil, or_false] at member
    rcases member with rfl | rfl | rfl <;> cases label
    exact Nat.succ_ne_self 1
  obtain ⟨axes, lengths, small, places, grids⟩ := grid_enumerates_pairs
  have two := small 2 (by decide)
  have three := small 3 (by decide)
  obtain ⟨made_iff, made⟩ := grids "x" "y" (0, 1) (10, 20) 2 3
  obtain ⟨samples, found⟩ := made_iff.2 (by rw [two, three]; decide)
  obtain ⟨count, is_grid, values⟩ := made samples found _ _ rfl rfl
  have columns : (Axis.points ⟨0, 1, 2⟩).length = 2 := (lengths ⟨0, 1, 2⟩).trans two
  have rows : (Axis.points ⟨10, 20, 3⟩).length = 3 := (lengths ⟨10, 20, 3⟩).trans three
  obtain ⟨row, row_found, -, at_places⟩ :=
    values (by decide) leastOfCoordinates Store.empty Store.empty valid named several
  rw [columns, rows] at at_places
  obtain ⟨a, b, value, first, second, -, alone, same⟩ := at_places 5 (by decide)
  rw [two, three] at count
  exact ⟨(axes 0 1 2 _).2 ⟨by rw [two]; decide, rfl⟩, lengths ⟨0, 1, 2⟩, two, three,
    places 2 3 1 2 (by decide) (by decide), samples, found, count, is_grid, row, a, b, value,
    row_found, first, second, alone, same⟩

/-- There is no axis of more samples than a row can hold, not even for a grid without pairs;
and a row that is counted by a double loses a sample of an axis of one more than `2 ^ 53`. -/
theorem grid_of_long_axes :
    (¬ ∃ samples, grid "x" (0, 1) "y" (0, 1) 1152921504606846976 0 = .ok samples) ∧
    ∃ samples, grid "x" (0, 1) "y" (0, 1) 9007199254740993 1 = .ok samples ∧
      samples.count = 9007199254740992 * 1 := by
  have none_fits : ¬ Axis.nearestDouble 1152921504606846976 < rowLimit := by decide
  have rounded : Axis.nearestDouble 9007199254740993 = 9007199254740992 := by decide
  have one : Axis.nearestDouble 1 = 1 := Axis.nearestDouble_of_lt (by decide)
  constructor
  · rintro ⟨samples, made⟩
    exact none_fits (grid_eq_ok_iff.1 made).1
  · have fits : ∃ samples, grid "x" (0, 1) "y" (0, 1) (9007199254740993 : Nat) (1 : Nat) =
        .ok samples := by
      rw [exists_grid_iff, rounded, one]
      decide
    obtain ⟨samples, made⟩ := fits
    have count := (isGrid_of_overAxes (grid_eq_ok_iff.1 made).2.2).count
    rw [Axis.length_points, Axis.length_points, Axis.length, Axis.length, rounded, one] at count
    exact ⟨samples, made, count⟩

end Samples

end Formulary

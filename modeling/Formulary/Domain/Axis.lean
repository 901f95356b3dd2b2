import Formulary.Decimal.Numeral
import Formulary.Domain.Samples

/-!
# Evenly spaced samples

An axis has a number of samples evenly spaced from its start to its stop.  This
module lists them, and makes samples of one variable along an axis and of two
variables on a grid.

Main results:

- Definition `Axis.make`: an axis of a number of samples, or why there is none.
- Definition `Samples.grid`: the samples of two variables on a grid, from their ranges.
- Theorem `Axis.nearestDouble_of_lt`: lengths of at most 53 binary digits are kept.
- Theorem `Samples.length_gridRows`: a grid has a sample for every pair.
-/

namespace Formulary

/-- An axis from `start` to `stop` with a number of samples. -/
structure Axis where
  start : Float
  stop : Float
  count : Nat

namespace Axis

/-- The nearest number of at most 53 binary digits, as which a double holds a
whole number. -/
def nearestDouble (count : Nat) : Nat :=
  let dropped := count.log2 - 52
  Decimal.roundQuotient .toEven count (Nat.pow 2 dropped) * Nat.pow 2 dropped

/-- Numbers of at most 53 binary digits are their own doubles. -/
theorem nearestDouble_of_lt {count : Nat} (h : count < Nat.pow 2 53) :
    nearestDouble count = count := by
  have small : count.log2 - 52 = 0 := by
    by_cases zero : count = 0
    · simp [zero]
    · have := (Nat.log2_lt zero).2 h
      omega
  simp [nearestDouble, small, Decimal.roundQuotient, Nat.mod_one]

/-- The number of places of an axis.  They are counted by a double. -/
def length (axis : Axis) : Nat :=
  nearestDouble axis.count

/-- The sample at a place.  The last one of several is the end of the axis; the
others are whole steps away from its start, or parts of the whole way where a step
is too small to be told from zero. -/
def point (axis : Axis) (place : Nat) : Float :=
  let divisions := axis.count - 1
  let way := axis.stop - axis.start
  if divisions = 0 then 0 * way + axis.start
  else if place + 1 = axis.length then axis.stop
  else
    let step := way / Float.ofNat divisions
    if step == 0 then Float.ofNat place / Float.ofNat divisions * way + axis.start
    else Float.ofNat place * step + axis.start

/-- The samples of an axis. -/
def points (axis : Axis) : List Float :=
  (List.range axis.length).map axis.point

@[simp]
theorem length_points (axis : Axis) : axis.points.length = axis.length := by
  simp [points]

/-- The axis with a number of samples.  There have to be rows of its length; one
of `2 ^ 63` places comes out empty, and has no place for the stop. -/
def make (start stop : Float) (count : Int) : Except SamplesError Axis :=
  let axis : Axis := ⟨start, stop, count.toNat⟩
  if axis.length = Nat.pow 2 63 then .error (.noLastPlace count)
  else if 0 ≤ count ∧ axis.length < rowLimit then .ok axis
  else .error (.notALength count)

end Axis

namespace Samples

variable {α : Type}

/-- The samples of one variable along an axis. -/
def line (name : String) (start stop : Float) (count : Int) :
    Except SamplesError (Samples Float) := do
  let axis ← Axis.make start stop count
  ofRows [(name, axis.points)] none

/-- Every sample of the first row with every sample of the second; the first row
goes through its samples faster. -/
def gridRows (xs ys : List α) : List α × List α :=
  (ys.flatMap fun _ => xs, ys.flatMap fun y => List.replicate xs.length y)

/-- A grid has a sample for every pair. -/
theorem length_gridRows (xs ys : List α) :
    (gridRows xs ys).1.length = ys.length * xs.length ∧
      (gridRows xs ys).2.length = ys.length * xs.length := by
  simp [gridRows, List.length_flatMap, List.map_const']

/-- The samples of two variables along two axes, for every pair.  If both variables
have one name, the second row stands.  There is no grid of more samples than a row can
hold. -/
def overAxes (x : String) (xAxis : Axis) (y : String) (yAxis : Axis) :
    Except SamplesError (Samples Float) :=
  let (xs, ys) := gridRows xAxis.points yAxis.points
  if xs.length < rowLimit then ofRows (Bindings.ofPairs [(x, xs), (y, ys)]) none
  else .error (.tooMany xs.length)

/-- The samples of two variables on a grid, from the start, the stop and the number of
samples for each of them.  The axis of the first variable is made first. -/
def grid (x : String) (xRange : Float × Float) (y : String) (yRange : Float × Float)
    (xCount yCount : Int) : Except SamplesError (Samples Float) := do
  let xAxis ← Axis.make xRange.1 xRange.2 xCount
  let yAxis ← Axis.make yRange.1 yRange.2 yCount
  overAxes x xAxis y yAxis

end Samples

end Formulary

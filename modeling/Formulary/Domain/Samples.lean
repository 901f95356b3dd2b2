import Formulary.Bindings
import Formulary.Binary64.Rounding
import Formulary.Domain.Nested

/-!
# Samples of variables

Variables are given rows of samples, all of one length.  This module checks that
what is given for each variable is a row and that the lengths agree.

Main results:

- Definition `rowLength?`: the numbers that can be lengths of rows.
- Definition `Samples.build`: the check, with the first fault found.
- Theorem `Samples.ofRows_count`: the count agreed on is the length of every row.
-/

namespace Formulary

/-- The number of samples from which on there are no rows: a sample takes eight
bytes, and the bytes of a row are counted by a signed word of 64 bits. -/
def rowLimit : Nat := Nat.pow 2 60

/-- The length of a row of `count` samples, if there are such rows. -/
def rowLength? (count : Int) : Option Nat :=
  if 0 ≤ count ∧ count < rowLimit then some count.toNat else none

/-- A row is as long as it says, which is below the limit. -/
theorem rowLength?_eq_some_iff {count : Int} {length : Nat} :
    rowLength? count = some length ↔ count = length ∧ length < rowLimit := by
  simp only [rowLength?, Option.ite_none_right_eq_some, Option.some.injEq]
  omega

/-- Rows of samples for variables, with the number of samples. -/
structure Samples (α : Type) where
  rows : Bindings (List α)
  count : Int

/-- What can be wrong with the samples given. -/
inductive SamplesError
  /-- The nested lists given for a variable have no common shape. -/
  | ragged (name : String)
  /-- The lists given for a variable are nested beyond `Nested.deepest`. -/
  | tooDeep (name : String)
  /-- What is given for a variable is not a row. -/
  | notARow (name : String) (shape : List Nat)
  /-- The number of samples is not a number. -/
  | count (error : Binary64.TruncationError)
  /-- The rows and the number of samples disagree. -/
  | differentLengths (lengths : List Int)
  /-- There are no rows of as many samples. -/
  | tooMany (count : Nat)
  /-- There are no rows of the length asked for. -/
  | notALength (count : Int)
  /-- The row for the number of samples has no last place. -/
  | noLastPlace (count : Int)
deriving DecidableEq, Repr

/-- The wording of a fault. -/
def SamplesError.message : SamplesError → String
  | ragged name => s!"domain variable '{name}' is given lists of different shapes"
  | tooDeep name => s!"domain variable '{name}' is given lists nested too deeply"
  | notARow name shape =>
    let text := shapeText shape
    s!"domain variable '{name}' must be one-dimensional, got shape {text}"
  | count _ => "the number of samples is not a whole number"
  | differentLengths lengths =>
    let text := ", ".intercalate (lengths.map toString)
    s!"domain variables have different lengths: [{text}]"
  | tooMany _ => "there are more samples than a row can hold"
  | notALength asked => s!"there is no row of {asked} samples"
  | noLastPlace asked => s!"a row of {asked} samples has no last place"

namespace Samples

variable {α : Type}

/-- The row given for a variable.  A shape is told only as far as samples may be
nested. -/
def rowOf (name : String) (given : Nested α) : Except SamplesError (String × List α) :=
  match given.shape? with
  | none => .error (.ragged name)
  | some [_] => .ok (name, given.row)
  | some shape =>
    if shape.length ≤ Nested.deepest then .error (.notARow name shape)
    else .error (.tooDeep name)

/-- The distinct lengths in increasing order. -/
def distinctLengths (lengths : List Int) : List Int :=
  lengths.eraseDups.mergeSort (fun a b => decide (a ≤ b))

/-- Samples made of rows and a number of samples that may be left open.  All have
to agree; nothing at all makes no samples. -/
def ofRows (rows : Bindings (List α)) (count : Option Int) : Except SamplesError (Samples α) :=
  match distinctLengths (rows.map (fun (_, row) => (row.length : Int)) ++ count.toList) with
  | [] => .ok ⟨rows, 0⟩
  | [agreed] => .ok ⟨rows, agreed⟩
  | lengths => .error (.differentLengths lengths)

/-- Samples made of nested lists for each variable and a number of samples, of
which the places behind the point are dropped. -/
def build (given : List (String × Nested α)) (count : Option Float) :
    Except SamplesError (Samples α) := do
  let rows ← (Bindings.ofPairs given).mapM fun (name, values) => rowOf name values
  let count ← count.mapM fun count => (Binary64.truncate count).mapError .count
  ofRows rows count

/-- The count agreed on is the length of every row. -/
theorem ofRows_count {rows : Bindings (List α)} {count : Option Int} {samples : Samples α}
    (h : ofRows rows count = .ok samples) :
    samples.rows = rows ∧
      ∀ name row, (name, row) ∈ rows → (row.length : Int) = samples.count := by
  have member : ∀ name row, (name, row) ∈ rows → (row.length : Int) ∈
      distinctLengths (rows.map (fun (_, row) => (row.length : Int)) ++ count.toList) := by
    intro name row hrow
    rw [distinctLengths, List.mem_mergeSort, List.mem_eraseDups, List.mem_append]
    exact .inl (List.mem_map.2 ⟨(name, row), hrow, rfl⟩)
  rw [ofRows] at h
  split at h
  · next none =>
    cases h
    refine ⟨rfl, fun name row hrow => ?_⟩
    have := member name row hrow
    simp [none] at this
  · next agreed one =>
    cases h
    refine ⟨rfl, fun name row hrow => ?_⟩
    have := member name row hrow
    simpa [one] using this
  · cases h

end Samples

end Formulary

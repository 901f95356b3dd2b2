import Formulary.Domain.Samples

/-!
# Samples of one length

Samples are made of rows that agree in length.  This module says which rows make
samples and how many samples there are.

Main results:

- Theorem `Samples.ofRows_of_same`: rows of one length make samples.
- Theorem `Samples.level`: every row of samples is as long as their number says.
-/

namespace Formulary.Samples

variable {α : Type}

/-- Lengths that are all the same are one length. -/
theorem distinctLengths_of_same {length : Int} {lengths : List Int}
    (same : ∀ other ∈ lengths, other = length) :
    distinctLengths (length :: lengths) = [length] := by
  have none_left : lengths.filter (fun other => !other == length) = [] := by
    rw [List.filter_eq_nil_iff]
    intro other member
    simp [same other member]
  rw [distinctLengths, List.eraseDups_cons, none_left, List.eraseDups_nil,
    List.mergeSort_singleton]

/-- Each of several rows of one length has that length. -/
theorem lengths_of_same {rows : Bindings (List α)} {length : Nat}
    (same : ∀ name row, (name, row) ∈ rows → row.length = length) :
    ∀ other ∈ rows.map (fun (_, row) => (row.length : Int)), other = (length : Int) := by
  intro other member
  obtain ⟨⟨name, row⟩, bound, rfl⟩ := List.mem_map.1 member
  exact congrArg Int.ofNat (same name row bound)

/-- Rows of one length make samples, as many as a domain that shares them has. -/
theorem ofRows_of_same {rows : Bindings (List α)} {length : Nat}
    (same : ∀ name row, (name, row) ∈ rows → row.length = length) :
    ofRows rows none = .ok ⟨rows, if rows.isEmpty then 0 else length⟩ := by
  rw [ofRows, Option.toList_none, List.append_nil]
  cases rows with
  | nil =>
    have empty : distinctLengths [] = [] := by
      rw [distinctLengths, List.eraseDups_nil, List.mergeSort_nil]
    rw [List.map_nil, empty]
    rfl
  | cons pair rest =>
    obtain ⟨name, row⟩ := pair
    have first : (row.length : Int) = length :=
      congrArg Int.ofNat (same name row List.mem_cons_self)
    have others := lengths_of_same fun name row bound =>
      same name row (List.mem_cons_of_mem _ bound)
    rw [List.map_cons]
    dsimp only
    rw [first, distinctLengths_of_same others]
    rfl

/-- A single row makes as many samples as it has. -/
theorem ofRows_singleton (name : String) (row : List α) :
    ofRows [(name, row)] none = .ok ⟨[(name, row)], row.length⟩ := by
  refine ofRows_of_same ?_
  intro other given bound
  cases List.mem_singleton.1 bound
  rfl

/-- Without rows, samples are as many as they are said to be. -/
theorem ofRows_nil (count : Int) :
    ofRows ([] : Bindings (List α)) (some count) = .ok ⟨[], count⟩ := by
  have agreed : distinctLengths [count] = [count] :=
    distinctLengths_of_same fun _ other => by cases other
  rw [ofRows, List.map_nil, List.nil_append, Option.toList_some, agreed]

/-- Every row of samples is as long as their number says. -/
theorem level {rows : Bindings (List α)} {count : Option Int} {samples : Samples α}
    (made : ofRows rows count = .ok samples) (name : String) (length : Nat)
    (given : (samples.rows.find? name).map List.length = some length) :
    (length : Int) = samples.count := by
  obtain ⟨same, level⟩ := ofRows_count made
  obtain ⟨row, found, rfl⟩ := Option.map_eq_some_iff.1 given
  rw [same] at found
  obtain ⟨front, back, rows_eq, -⟩ := List.lookup_eq_some_iff.1 found
  refine level name row ?_
  rw [rows_eq]
  exact List.mem_append_right front List.mem_cons_self

end Formulary.Samples

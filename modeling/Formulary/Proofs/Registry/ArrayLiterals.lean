import Mathlib.Data.List.Induction
import Mathlib.Data.List.Infix
import Formulary.Registry.Registration

/-!
# Array literals

An array literal is one pair of brackets around a text whose own brackets match.  This
module compares literals with the definitions that count as arrays: every literal does,
but so does every other text that opens and closes with a bracket.

Main results:

- Definitions `bracketDepth` and `IsArrayLiteral`: the text is read from left to right,
  and its first bracket is closed by its last character.
- Theorem `isArrayLiteral_between`: a literal is one pair of brackets around a balanced text.
- Theorem `arrays_and_literals`: which definitions count as arrays, which of them are
  literals, and what is noted with a formula.
- Theorem `isMatrix_sum`: a sum of two literals counts as an array.
-/

namespace Formulary

open Text

/-! ## Depth -/

/-- Opening brackets less closing ones. -/
def bracketDepth (text : List Char) : Int :=
  text.count '[' - text.count ']'

@[simp]
theorem bracketDepth_nil : bracketDepth [] = 0 :=
  rfl

theorem bracketDepth_opening : bracketDepth ['['] = 1 := by
  decide

theorem bracketDepth_closing : bracketDepth [']'] = -1 := by
  decide

theorem bracketDepth_append (front rest : List Char) :
    bracketDepth (front ++ rest) = bracketDepth front + bracketDepth rest := by
  simp only [bracketDepth, List.count_append]
  omega

theorem bracketDepth_cons (c : Char) (rest : List Char) :
    bracketDepth (c :: rest) = bracketDepth [c] + bracketDepth rest :=
  bracketDepth_append [c] rest

/-- One character closes one bracket at most, and only a closing bracket does. -/
theorem bracketDepth_singleton (c : Char) :
    -1 ≤ bracketDepth [c] ∧ (bracketDepth [c] = -1 → c = ']') := by
  by_cases opening : c = '['
  · subst opening
    decide
  · by_cases closing : c = ']'
    · subst closing
      decide
    · simp [bracketDepth, opening, closing]

/-! ## Balanced texts and literals -/

/-- Inside the text every closing bracket has an opening one before it, and all are
closed at the end. -/
structure IsBalanced (text : List Char) : Prop where
  sane : ∀ front, front <+: text → 0 ≤ bracketDepth front
  settled : bracketDepth text = 0

/-- The text opens with a bracket, and the depth returns to zero at its last character
and not before. -/
structure IsArrayLiteral (text : List Char) : Prop where
  opens : text.head? = some '['
  unsettled : ∀ front, front <+: text → front ≠ [] → front ≠ text → bracketDepth front ≠ 0
  settled : bracketDepth text = 0

instance (text : List Char) : Decidable (IsBalanced text) :=
  decidable_of_iff ((∀ front ∈ text.inits, 0 ≤ bracketDepth front) ∧ bracketDepth text = 0) <| by
    simp only [List.mem_inits]
    exact ⟨fun ⟨sane, settled⟩ => ⟨sane, settled⟩, fun ⟨sane, settled⟩ => ⟨sane, settled⟩⟩

instance (text : List Char) : Decidable (IsArrayLiteral text) :=
  decidable_of_iff (text.head? = some '[' ∧
      (∀ front ∈ text.inits, front ≠ [] → front ≠ text → bracketDepth front ≠ 0) ∧
      bracketDepth text = 0) <| by
    simp only [List.mem_inits]
    exact ⟨fun ⟨opens, unsettled, settled⟩ => ⟨opens, unsettled, settled⟩,
      fun ⟨opens, unsettled, settled⟩ => ⟨opens, unsettled, settled⟩⟩

/-- The depth does not fall below zero without passing minus one. -/
theorem bracketDepth_nonneg {text : List Char}
    (passed : ∀ front, front <+: text → bracketDepth front ≠ -1) : 0 ≤ bracketDepth text := by
  induction text using List.reverseRecOn with
  | nil => simp
  | append_singleton text c ih =>
    have before := ih fun front shorter => passed front (shorter.trans (List.prefix_append _ _))
    have here := passed _ (List.prefix_refl _)
    have step := (bracketDepth_singleton c).1
    rw [bracketDepth_append] at here ⊢
    omega

/-- Behind the first bracket of a literal and in front of its last character the depth
stays at or above zero, as the first bracket would be closed too early otherwise. -/
theorem IsArrayLiteral.nonneg_inside {inside front : List Char} {last : Char}
    (literal : IsArrayLiteral ('[' :: (inside ++ [last]))) (shorter : front <+: inside) :
    0 ≤ bracketDepth front := by
  refine bracketDepth_nonneg ?_
  intro other still_shorter closed
  have within := still_shorter.trans shorter
  have bound := within.length_le
  refine literal.unsettled ('[' :: other) ?_ (List.cons_ne_nil _ _) ?_ ?_
  · exact List.cons_prefix_cons.2 ⟨rfl, within.trans (List.prefix_append _ _)⟩
  · intro same
    have lengths := congrArg List.length same
    simp at lengths
    omega
  · rw [bracketDepth_cons, bracketDepth_opening, closed]
    rfl

/-- A literal closes with a bracket. -/
theorem IsArrayLiteral.exists_inside {text : List Char} (literal : IsArrayLiteral text) :
    ∃ inside, text = '[' :: (inside ++ [']']) := by
  obtain ⟨rest, rfl⟩ := List.head?_eq_some_iff.1 literal.opens
  have settled := literal.settled
  rw [bracketDepth_cons, bracketDepth_opening] at settled
  obtain rfl | ⟨inside, last, rfl⟩ := List.eq_nil_or_concat rest
  · simp at settled
  rw [List.concat_eq_append] at literal settled ⊢
  have inner := literal.nonneg_inside (List.prefix_refl _)
  obtain ⟨step, closes⟩ := bracketDepth_singleton last
  rw [bracketDepth_append] at settled
  exact ⟨inside, by rw [closes (by omega)]⟩

/-- A text between brackets is a literal exactly if it is balanced. -/
theorem isArrayLiteral_between {inside : List Char} :
    IsArrayLiteral ('[' :: (inside ++ [']'])) ↔ IsBalanced inside := by
  have whole : bracketDepth ('[' :: (inside ++ [']'])) = bracketDepth inside := by
    rw [bracketDepth_cons, bracketDepth_append, bracketDepth_opening, bracketDepth_closing]
    omega
  constructor
  · intro literal
    exact ⟨fun front shorter => literal.nonneg_inside shorter, whole ▸ literal.settled⟩
  · rintro ⟨sane, settled⟩
    refine ⟨rfl, ?_, whole.trans settled⟩
    intro front shorter nonempty differs
    rcases List.prefix_cons_iff.1 shorter with rfl | ⟨inner, rfl, within⟩
    · exact absurd rfl nonempty
    rcases List.prefix_concat_iff.1 within with rfl | within
    · exact absurd rfl differs
    have nonneg := sane inner within
    rw [bracketDepth_cons, bracketDepth_opening]
    omega

/-! ## Definitions that count as arrays -/

/-- Every array literal counts as an array. -/
theorem isMatrix_of_isArrayLiteral {definition : String}
    (literal : IsArrayLiteral (trim definition.toList)) : isMatrix (some definition) = true :=
  isMatrix_iff.2 literal.exists_inside

/-- The notes of a new formula are those that were given, and over them those on the
arguments if its definition counts as an array. -/
theorem notes_of_registered {registry : Registry} {request : Request} {entry : Entry}
    (registered : registry.outcome request = .registered entry) :
    entry.notes =
      if isMatrix request.definition then
        (Bindings.ofPairs (request.notes.getD [])).setAll (matrixNotes entry.signature.arguments)
      else Bindings.ofPairs (request.notes.getD []) := by
  obtain ⟨signature, -, -, -, rfl⟩ := Registry.outcome_eq_registered_iff.1 registered
  rfl

/-- Every array literal counts as an array.  A definition that counts as one opens and
closes with a bracket, and is a literal exactly if the text between these two is balanced.
The arguments of a new formula are noted if its definition is a literal, and are not if
the definition does not open and close with a bracket. -/
theorem arrays_and_literals (definition : String) :
    (IsArrayLiteral (trim definition.toList) → isMatrix (some definition) = true) ∧
    (isMatrix (some definition) = true →
      ∃ inside, trim definition.toList = '[' :: (inside ++ [']']) ∧
        (IsArrayLiteral (trim definition.toList) ↔ IsBalanced inside)) ∧
    ∀ (registry : Registry) (request : Request) (entry : Entry),
      request.definition = some definition → registry.outcome request = .registered entry →
      (IsArrayLiteral (trim definition.toList) →
        entry.notes = (Bindings.ofPairs (request.notes.getD [])).setAll
          (matrixNotes entry.signature.arguments)) ∧
      ((¬ ∃ inside, trim definition.toList = '[' :: (inside ++ [']'])) →
        entry.notes = Bindings.ofPairs (request.notes.getD [])) := by
  refine ⟨isMatrix_of_isArrayLiteral, ?_, ?_⟩
  · intro array
    obtain ⟨inside, whole⟩ := isMatrix_iff.1 array
    rw [whole]
    exact ⟨inside, rfl, isArrayLiteral_between⟩
  · intro registry request entry given registered
    rw [notes_of_registered registered, given]
    refine ⟨?_, ?_⟩
    · intro literal
      rw [if_pos (isMatrix_of_isArrayLiteral literal)]
    · intro open_ended
      rw [if_neg (mt isMatrix_iff.1 open_ended)]

/-- `[[1],[2]]` is a literal and counts as an array, and the argument of a formula so
defined is noted. -/
theorem arrays_and_literals_nested :
    IsArrayLiteral (trim " [[1],[2]]".toList) ∧ isMatrix (some " [[1],[2]]") = true ∧
      ∃ entry, Registry.empty.outcome ⟨some "m(t)", some " [[1],[2]]", none⟩ = .registered entry ∧
        entry.notes = (Bindings.ofPairs []).setAll (matrixNotes ["t"]) := by
  have literal : IsArrayLiteral (trim " [[1],[2]]".toList) := by decide +kernel
  have registered : Registry.empty.outcome ⟨some "m(t)", some " [[1],[2]]", none⟩ =
      .registered ⟨⟨"m", ["t"]⟩, some " [[1],[2]]", [(independentVariable, "t")]⟩ := by
    decide +kernel
  obtain ⟨counts, -, noted⟩ := arrays_and_literals " [[1],[2]]"
  exact ⟨literal, counts literal, _, registered, (noted _ _ _ rfl registered).1 literal⟩

/-- The sum `[1]+[2]` of two literals counts as an array, and the argument of a formula
so defined is noted, but it is not a literal: its first bracket is closed too early. -/
theorem isMatrix_sum :
    isMatrix (some "[1]+[2]") = true ∧ ¬ IsArrayLiteral (trim "[1]+[2]".toList) ∧
      (Registry.empty.add ⟨some "m(t)", some "[1]+[2]", none⟩).notes "m" =
        [(independentVariable, "t")] := by
  decide +kernel

end Formulary

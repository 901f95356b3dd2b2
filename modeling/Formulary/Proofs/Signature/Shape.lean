import Formulary.Proofs.Signature.Wellformed
import Formulary.Proofs.Text.Cutting
import Formulary.Text.Blank

/-!
# The shape of a signature

A signature is a name, or a name in front of one pair of parentheses.  This module
says which characters identifiers are made of, and what is read off a text of this
shape.

Main results:

- Theorem `not_isBlank_of_rest`: there are no blanks in identifiers.
- Theorem `exists_shape_of_isCallShaped`: one pair of parentheses that closes at the
  end cuts a text in two parts.
- Theorem `Signature.read_of_shape`: a name in front of one pair of parentheses
  around distinct identifiers is read.
-/

namespace Formulary

open Text

/-! ## Characters of identifiers -/

/-- The characters of identifiers lie between `0` and `z`. -/
theorem bounds_of_rest {c : Char} (h : isIdentifierRest c = true) :
    '0'.toNat ≤ c.toNat ∧ c.toNat ≤ 'z'.toNat := by
  have kinds : (((c.isUpper || c.isLower) || c.isDigit) || c == '_') = true := h
  simp only [Bool.or_eq_true, beq_iff_eq] at kinds
  rcases kinds with ((upper | lower) | digit) | rfl
  · have upper : 'A'.val ≤ c.val ∧ c.val ≤ 'Z'.val := of_decide_eq_true upper
    have low : 'A'.toNat ≤ c.toNat := UInt32.le_iff_toNat_le.1 upper.1
    have high : c.toNat ≤ 'Z'.toNat := UInt32.le_iff_toNat_le.1 upper.2
    exact ⟨Nat.le_trans (by decide) low, Nat.le_trans high (by decide)⟩
  · obtain ⟨low, high⟩ := Bool.and_eq_true_iff.1 lower
    have low : 'a'.toNat ≤ c.toNat := UInt32.le_iff_toNat_le.1 (of_decide_eq_true low)
    exact ⟨Nat.le_trans (by decide) low, UInt32.le_iff_toNat_le.1 (of_decide_eq_true high)⟩
  · obtain ⟨low, high⟩ := Bool.and_eq_true_iff.1 digit
    have high : c.toNat ≤ '9'.toNat := UInt32.le_iff_toNat_le.1 (of_decide_eq_true high)
    exact ⟨UInt32.le_iff_toNat_le.1 (of_decide_eq_true low), Nat.le_trans high (by decide)⟩
  · decide

/-- None of them is blank. -/
theorem not_isBlank_of_rest {c : Char} (h : isIdentifierRest c = true) : isBlank c = false := by
  obtain ⟨low, high⟩ := bounds_of_rest h
  simp only [Char.reduceToNat] at low high
  simp only [isBlank, blankRanges, List.any_cons, List.any_nil, Bool.or_false,
    Bool.or_eq_false_iff, Bool.and_eq_false_iff, decide_eq_false_iff_not]
  omega

/-- Other characters are in no identifier. -/
theorem not_mem_of_isIdentifier {text : List Char} (h : isIdentifier text = true) {c : Char}
    (outside : isIdentifierRest c = false) : c ∉ text := by
  intro member
  rw [isIdentifierRest_of_mem h member] at outside
  cases outside

/-- Identifiers have nothing to trim. -/
theorem trim_of_isIdentifier {text : List Char} (h : isIdentifier text = true) :
    trim text = text :=
  trim_of_no_blank fun _ member => not_isBlank_of_rest (isIdentifierRest_of_mem h member)

/-! ## A name and one pair of parentheses -/

section Shape

variable {front inside : List Char}

/-- Without an opening parenthesis nothing stands between parentheses. -/
theorem parenthesized_of_not_mem {text : List Char} (opening : '(' ∉ text) :
    parenthesized text = [] := by
  rw [parenthesized, after_of_not_mem opening]
  simp

theorem parenthesized_of_shape (opening : '(' ∉ front) :
    parenthesized (front ++ '(' :: (inside ++ [')'])) = inside := by
  have found : ')' ∈ inside ++ [')'] := List.mem_append_right _ (List.mem_singleton_self _)
  rw [parenthesized, after_append opening]
  simp only [found, if_true]
  exact beforeLast_append List.not_mem_nil

theorem isCallShaped_of_shape (opening : '(' ∉ front ++ inside) (closing : ')' ∉ front ++ inside) :
    isCallShaped (front ++ '(' :: (inside ++ [')'])) = true := by
  obtain ⟨opening, opening'⟩ := not_or.1 (mt List.mem_append.2 opening)
  obtain ⟨closing, closing'⟩ := not_or.1 (mt List.mem_append.2 closing)
  have last : (front ++ '(' :: (inside ++ [')'])).getLast? = some ')' := by
    rw [← List.cons_append, ← List.append_assoc, List.getLast?_concat]
  simp [isCallShaped, List.count_append, List.count_eq_zero.2, opening, closing, opening',
    closing', last]

/-- One pair of parentheses that closes at the end cuts the text in two parts
without parentheses. -/
theorem exists_shape_of_isCallShaped {text : List Char} (shaped : isCallShaped text = true) :
    ∃ front inside, text = front ++ '(' :: (inside ++ [')']) ∧
      '(' ∉ front ++ inside ∧ ')' ∉ front ++ inside := by
  simp only [isCallShaped, Bool.and_eq_true, beq_iff_eq] at shaped
  obtain ⟨⟨one_opening, one_closing⟩, last⟩ := shaped
  have opened : '(' ∈ text := List.count_pos_iff.1 (by omega)
  have cut := eq_before_append_after opened
  generalize before '(' text = front at cut
  generalize after '(' text = rest at cut
  subst cut
  obtain ⟨inside, rfl⟩ : ∃ inside, rest = inside ++ [')'] := by
    rw [List.getLast?_append, List.getLast?_cons, Option.some_or, Option.some.injEq] at last
    cases closing : rest.getLast? with
    | none =>
      rw [closing] at last
      exact absurd last (by decide)
    | some c =>
      rw [closing, Option.getD_some] at last
      rw [last] at closing
      exact List.getLast?_eq_some_iff.1 closing
  refine ⟨front, inside, rfl, ?_, ?_⟩
  · rw [← List.count_eq_zero]
    simp [List.count_append] at one_opening ⊢
    omega
  · rw [← List.count_eq_zero]
    simp [List.count_append] at one_closing ⊢
    omega

/-- A name in front of one pair of parentheses around distinct identifiers is
read. -/
theorem Signature.read_of_shape {source : String}
    (shape : trim source.toList = front ++ '(' :: (inside ++ [')']))
    (opening : '(' ∉ front ++ inside) (closing : ')' ∉ front ++ inside)
    (named : isIdentifier (nameIn source.toList) = true)
    (identifiers : ∀ argument ∈ argumentsIn source.toList, isIdentifier argument = true)
    (distinct : (argumentsIn source.toList).Nodup) :
    read (some source) = .ok ⟨String.ofList (nameIn source.toList),
      (argumentsIn source.toList).map String.ofList⟩ := by
  have opened : '(' ∈ trim source.toList := by
    rw [shape]
    exact List.mem_append_right _ List.mem_cons_self
  have call : isCallShaped (trim source.toList) = true := by
    rw [shape]
    exact isCallShaped_of_shape opening closing
  have valid : (argumentsIn source.toList).find? (!isIdentifier ·) = none := by
    rw [List.find?_eq_none]
    intro argument listed
    rw [identifiers argument listed]
    exact Bool.noConfusion
  rw [read]
  simp only [named, opened, call, valid, firstRepeat_eq_none_iff.2 distinct, Bool.not_true,
    Bool.false_eq_true, not_true_eq_false, if_false]

/-- An identifier without parentheses is read. -/
theorem Signature.read_of_isIdentifier {source : String}
    (named : isIdentifier (trim source.toList) = true) :
    read (some source) = .ok ⟨String.ofList (trim source.toList), []⟩ := by
  have opening := not_mem_of_isIdentifier named (c := '(') (by decide)
  have closing := not_mem_of_isIdentifier named (c := ')') (by decide)
  have name : nameIn source.toList = trim source.toList := by
    rw [nameIn, before_of_not_mem opening, trim_of_isIdentifier named]
  rw [read]
  simp only [name, named, opening, closing, Bool.not_true, Bool.false_eq_true, not_false_eq_true,
    if_true, if_false]

end Shape

end Formulary

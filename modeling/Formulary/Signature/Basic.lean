import Formulary.Text.Pieces

/-!
# Signatures

A formula is introduced by a signature: its name, and the names of its
arguments if it has any.  This module defines signatures, identifiers, and the
one spelling in which a signature is written.

Main results:

- Theorem `isIdentifier_iff`: an identifier is a first letter or underscore
  followed by letters, digits and underscores.
- Theorem `Signature.text_of_arguments_nil`: a signature without arguments is
  written as its name.
-/

namespace Formulary

/-! ## Identifiers -/

/-- Letters of the ASCII alphabet and the underscore. -/
def isIdentifierStart (c : Char) : Bool :=
  c.isAlpha || c == '_'

/-- Letters and digits of the ASCII alphabet and the underscore. -/
def isIdentifierRest (c : Char) : Bool :=
  c.isAlphanum || c == '_'

/-- A text is an identifier when it starts as one and goes on as one. -/
def isIdentifier : List Char → Bool
  | [] => false
  | c :: rest => isIdentifierStart c && rest.all isIdentifierRest

/-- An identifier is a first letter or underscore followed by letters, digits
and underscores. -/
theorem isIdentifier_iff {text : List Char} :
    isIdentifier text = true ↔
      ∃ c rest, text = c :: rest ∧ isIdentifierStart c = true ∧
        ∀ d ∈ rest, isIdentifierRest d = true := by
  cases text with
  | nil => simp [isIdentifier]
  | cons c rest =>
    simp only [isIdentifier, Bool.and_eq_true, List.all_eq_true]
    constructor
    · exact fun h => ⟨c, rest, rfl, h⟩
    · rintro ⟨d, more, heq, h⟩
      cases heq
      exact h

/-- What may start an identifier may also stand inside it. -/
theorem isIdentifierRest_of_start {c : Char} (h : isIdentifierStart c = true) :
    isIdentifierRest c = true := by
  simp only [isIdentifierStart, isIdentifierRest, Char.isAlphanum, Bool.or_eq_true] at h ⊢
  rcases h with h | h
  · exact .inl (.inl h)
  · exact .inr h

/-- Every character of an identifier may stand inside one. -/
theorem isIdentifierRest_of_mem {text : List Char} (h : isIdentifier text = true) {c : Char}
    (hc : c ∈ text) : isIdentifierRest c = true := by
  obtain ⟨d, rest, rfl, start, all⟩ := isIdentifier_iff.1 h
  rcases List.mem_cons.1 hc with rfl | hc
  · exact isIdentifierRest_of_start start
  · exact all c hc

/-! ## Signatures and their spelling -/

/-- The name of a formula and the names of its arguments in order. -/
structure Signature where
  name : String
  arguments : List String
deriving DecidableEq, Repr, Inhabited

/-- A signature is written as `f(x,y)`, and as the bare name when there are no
arguments. -/
def Signature.text (signature : Signature) : String :=
  match signature.arguments with
  | [] => signature.name
  | arguments => signature.name ++ "(" ++ ",".intercalate arguments ++ ")"

/-- A signature without arguments is written as its name. -/
@[simp]
theorem Signature.text_of_arguments_nil (name : String) :
    Signature.text ⟨name, []⟩ = name :=
  rfl

/-- A signature with arguments is written with parentheses. -/
theorem Signature.text_of_arguments_cons (name argument : String) (more : List String) :
    Signature.text ⟨name, argument :: more⟩ =
      name ++ "(" ++ ",".intercalate (argument :: more) ++ ")" :=
  rfl

end Formulary

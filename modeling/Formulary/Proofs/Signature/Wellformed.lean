import Mathlib.Data.List.Nodup
import Formulary.Signature.Reading

/-!
# Signatures that are read

This module says what is known of a signature once it was read from some text.

Main results:

- Definition `Signature.Wellformed`: identifiers for a name and for distinct
  arguments.
- Theorem `Signature.read_cases`: what was looked at before a signature is
  accepted.
- Theorem `Signature.wellformed_of_read`: what is read is well-formed.
-/

namespace Formulary.Signature

open Text

/-- The name and the arguments are identifiers, and no argument is listed
twice. -/
structure Wellformed (signature : Signature) : Prop where
  name : isIdentifier signature.name.toList = true
  arguments : ∀ argument ∈ signature.arguments, isIdentifier argument.toList = true
  distinct : signature.arguments.Nodup

/-- Texts that are identifiers make a signature if no argument is repeated. -/
theorem wellformed_ofList {name : List Char} {arguments : List (List Char)}
    (named : isIdentifier name = true)
    (identifiers : ∀ argument ∈ arguments, isIdentifier argument = true)
    (distinct : arguments.Nodup) :
    Wellformed ⟨String.ofList name, arguments.map String.ofList⟩ where
  name := by
    rw [String.toList_ofList]
    exact named
  arguments := by
    intro argument listed
    obtain ⟨text, member, rfl⟩ := List.mem_map.1 listed
    rw [String.toList_ofList]
    exact identifiers text member
  distinct := by
    refine List.Nodup.map ?_ distinct
    intro first second same
    exact String.ofList_injective same

/-- What was looked at before a signature is accepted: its name is an identifier,
and there are no parentheses, or one pair around distinct identifiers. -/
theorem read_cases {source : String} {signature : Signature}
    (accepted : read (some source) = .ok signature) :
    isIdentifier (nameIn source.toList) = true ∧
    ('(' ∉ trim source.toList ∧ signature = ⟨String.ofList (nameIn source.toList), []⟩ ∨
      isCallShaped (trim source.toList) = true ∧
        (∀ argument ∈ argumentsIn source.toList, isIdentifier argument = true) ∧
        (argumentsIn source.toList).Nodup ∧
        signature = ⟨String.ofList (nameIn source.toList),
          (argumentsIn source.toList).map String.ofList⟩) := by
  rw [read] at accepted
  dsimp only at accepted
  split at accepted
  · cases accepted
  · next named =>
    refine ⟨by simpa using named, ?_⟩
    split at accepted
    · next opening =>
      split at accepted
      · cases accepted
      · exact .inl ⟨opening, (Except.ok.inj accepted).symm⟩
    · split at accepted
      · cases accepted
      · next shaped =>
        split at accepted
        · cases accepted
        · next no_invalid =>
          split at accepted
          · cases accepted
          · next no_repeat =>
            refine .inr ⟨by simpa using shaped, ?_, firstRepeat_eq_none_iff.1 no_repeat,
              (Except.ok.inj accepted).symm⟩
            intro argument listed
            simpa using List.find?_eq_none.1 no_invalid argument listed

/-- What is read is well-formed. -/
theorem wellformed_of_read {source : Option String} {signature : Signature}
    (accepted : read source = .ok signature) : signature.Wellformed := by
  cases source with
  | none => cases accepted
  | some source =>
    obtain ⟨named, ⟨-, rfl⟩ | ⟨-, identifiers, distinct, rfl⟩⟩ := read_cases accepted
    · exact wellformed_ofList named (fun argument wrong => by cases wrong) List.nodup_nil
    · exact wellformed_ofList named identifiers distinct

end Formulary.Signature

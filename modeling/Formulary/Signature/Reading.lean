import Formulary.Signature.Basic
import Formulary.Text.Blank

/-!
# Reading signatures

A signature is read from a text such as ` f( x , y ) `.  This module takes the
name and the arguments out of any text, and decides which texts are signatures
and what is wrong with the others.

Main results:

- Definition `Signature.read`: the reader, with the causes of refusal in the
  order in which they are looked for.
- Theorem `firstRepeat_eq_none_iff`: no repetition is found exactly when the
  entries are distinct.
-/

namespace Formulary

open Text

/-! ## Taking a text apart -/

/-- The name in front of the first opening parenthesis. -/
def nameIn (text : List Char) : List Char :=
  trim (before '(' (trim text))

/-- What stands between the first opening and the last closing parenthesis of
`text`.  A missing closing parenthesis is supplied at the end, and nothing
stands between parentheses in the wrong order. -/
def parenthesized (text : List Char) : List Char :=
  let inside := after '(' text
  if ')' ∈ inside then beforeLast ')' inside
  else if ')' ∈ text then []
  else inside

/-- The comma-separated arguments between the parentheses, if there are any. -/
def argumentsIn (text : List Char) : List (List Char) :=
  match trim (parenthesized (trim text)) with
  | [] => []
  | inside => (pieces ',' inside).map trim

/-- The text is a name and one pair of parentheses that closes at its end. -/
def isCallShaped (text : List Char) : Bool :=
  text.count '(' == 1 && text.count ')' == 1 && text.getLast? == some ')'

/-- The first entry that is equal to an earlier one. -/
def firstRepeat {α : Type} [DecidableEq α] : List α → Option α :=
  go []
where
  go (seen : List α) : List α → Option α
    | [] => none
    | a :: rest => if a ∈ seen then some a else go (a :: seen) rest

theorem firstRepeat_go_eq_none_iff {α : Type} [DecidableEq α] (entries seen : List α) :
    firstRepeat.go seen entries = none ↔ entries.Nodup ∧ ∀ a ∈ entries, a ∉ seen := by
  induction entries generalizing seen with
  | nil => simp [firstRepeat.go]
  | cons a rest ih =>
    simp only [firstRepeat.go]
    split
    · next h => simp [h]
    · next h =>
      rw [ih, List.nodup_cons]
      constructor
      · rintro ⟨distinct, fresh⟩
        refine ⟨⟨fun ha => fresh a ha List.mem_cons_self, distinct⟩, ?_⟩
        intro b hb
        rcases List.mem_cons.1 hb with rfl | hb
        · exact h
        · exact fun hs => fresh b hb (List.mem_cons_of_mem _ hs)
      · rintro ⟨⟨ha, distinct⟩, fresh⟩
        refine ⟨distinct, fun b hb hs => ?_⟩
        rcases List.mem_cons.1 hs with rfl | hs
        · exact ha hb
        · exact fresh b (List.mem_cons_of_mem _ hb) hs

/-- No repetition is found exactly when the entries are distinct. -/
theorem firstRepeat_eq_none_iff {α : Type} [DecidableEq α] {entries : List α} :
    firstRepeat entries = none ↔ entries.Nodup := by
  simp [firstRepeat, firstRepeat_go_eq_none_iff]

/-! ## Refusals -/

/-- What can be wrong with a signature.  `text` is the trimmed signature. -/
inductive SignatureError
  /-- There is no text. -/
  | missing
  /-- The name is not an identifier. -/
  | invalidName (name text : String)
  /-- A parenthesis is closed that was never opened. -/
  | strayClosing (name text : String)
  /-- The parentheses are not one pair that closes at the end; the first one
  opens at `offset`. -/
  | malformedArguments (name text : String) (offset : Nat)
  /-- An argument is not an identifier. -/
  | invalidArgument (name argument : String)
  /-- An argument is listed twice. -/
  | repeatedArgument (name argument : String)
deriving DecidableEq, Repr

namespace SignatureError

/-- The wording of a refusal. -/
def message : SignatureError → String
  | missing => "signature is missing"
  | invalidName name text => s!"'{name}' is not a valid symbol name in signature '{text}'"
  | strayClosing _ text => s!"unbalanced parentheses in signature '{text}'"
  | malformedArguments _ text _ => s!"malformed argument list in signature '{text}'"
  | invalidArgument name argument => s!"{name} has an invalid argument name '{argument}'"
  | repeatedArgument name argument => s!"{name} repeats the argument '{argument}'"

/-- The name under which the formula would have been known. -/
def name? : SignatureError → Option String
  | missing => none
  | invalidName name _ => some name
  | strayClosing name _ => some name
  | malformedArguments name _ _ => some name
  | invalidArgument name _ => some name
  | repeatedArgument name _ => some name

/-- The position in the trimmed signature to which a refusal points. -/
def offset : SignatureError → Nat
  | malformedArguments _ _ offset => offset
  | _ => 0

end SignatureError

/-! ## The reader -/

/-- Reads a signature.  A name comes first; then nothing may follow, or one
pair of parentheses around distinct identifiers. -/
def Signature.read : Option String → Except SignatureError Signature
  | none => .error .missing
  | some source =>
    let text := trim source.toList
    let name := String.ofList (nameIn source.toList)
    if !isIdentifier (nameIn source.toList) then
      .error (.invalidName name (String.ofList text))
    else if '(' ∉ text then
      if ')' ∈ text then .error (.strayClosing name (String.ofList text))
      else .ok ⟨name, []⟩
    else if !isCallShaped text then
      .error (.malformedArguments name (String.ofList text) (text.idxOf '('))
    else
      let arguments := argumentsIn source.toList
      match arguments.find? (!isIdentifier ·) with
      | some argument => .error (.invalidArgument name (String.ofList argument))
      | none =>
        match firstRepeat arguments with
        | some argument => .error (.repeatedArgument name (String.ofList argument))
        | none => .ok ⟨name, arguments.map String.ofList⟩

end Formulary

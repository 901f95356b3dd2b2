import Formulary.Bindings
import Formulary.Signature.Reading

/-!
# The registry of formulas

A registry holds formulas in the order of their registration.  This module
defines the entries, what a registry shows of them, and which names collide.

Main results:

- Definition `Registry.collision?`: the first cause for which a signature cannot
  be added.
- Theorem `Registry.find?_eq_none_iff`: a name has an entry exactly when it is
  registered.
-/

namespace Formulary

/-- Notes on a formula under their keys. -/
abbrev Notes := Bindings String

/-- A registered formula. -/
structure Entry where
  signature : Signature
  definition : Option String
  notes : Notes
deriving DecidableEq, Repr

/-- Formulas in the order of their registration. -/
structure Registry where
  entries : List Entry
deriving DecidableEq, Repr

namespace Registry

/-! ## What a registry shows -/

/-- The registry without formulas. -/
def empty : Registry := ⟨[]⟩

/-- The number of formulas. -/
def size (registry : Registry) : Nat :=
  registry.entries.length

/-- The names of the formulas. -/
def names (registry : Registry) : List String :=
  registry.entries.map (·.signature.name)

/-- The written signatures of the formulas. -/
def signatures (registry : Registry) : List String :=
  registry.entries.map (·.signature.text)

/-- The names that are arguments of some formula. -/
def arguments (registry : Registry) : List String :=
  registry.entries.flatMap (·.signature.arguments)

/-- The arguments of all formulas, sorted and each once. -/
def argumentNames (registry : Registry) : List String :=
  sortedNames registry.arguments

/-- The formula with a given name. -/
def find? (registry : Registry) (name : String) : Option Entry :=
  registry.entries.find? (·.signature.name == name)

/-- A name is registered when there is a formula of that name. -/
def contains (registry : Registry) (name : String) : Bool :=
  registry.names.contains name

/-- The written signature of a formula. -/
def signature? (registry : Registry) (name : String) : Option String :=
  (registry.find? name).map (·.signature.text)

/-- The arguments of a formula. -/
def arguments? (registry : Registry) (name : String) : Option (List String) :=
  (registry.find? name).map (·.signature.arguments)

/-- The definition of a formula, which may be absent. -/
def definition? (registry : Registry) (name : String) : Option String :=
  (registry.find? name).bind (·.definition)

/-- The notes on a formula; there are none on a name that is not registered. -/
def notes (registry : Registry) (name : String) : Notes :=
  match registry.find? name with
  | none => []
  | some entry => entry.notes

/-- The description of a registry lists its signatures. -/
def description (registry : Registry) : String :=
  "EquationSet(" ++ Text.listing registry.signatures ++ ")"

/-- A name has an entry exactly when it is registered. -/
theorem find?_eq_none_iff {registry : Registry} {name : String} :
    registry.find? name = none ↔ name ∉ registry.names := by
  simp only [find?, names, List.find?_eq_none, beq_iff_eq, List.mem_map, not_exists, not_and]

/-- The entry found under a name bears that name and is registered. -/
theorem find?_some {registry : Registry} {name : String} {entry : Entry}
    (h : registry.find? name = some entry) :
    entry.signature.name = name ∧ entry ∈ registry.entries := by
  have named := List.find?_some h
  exact ⟨by simpa using named, List.mem_of_find?_eq_some h⟩

@[simp]
theorem contains_iff {registry : Registry} {name : String} :
    registry.contains name = true ↔ name ∈ registry.names := by
  simp [contains]

/-! ## Collisions -/

/-- Why a formula cannot be added: it has its own name as an argument, some of
its arguments are formulas, or its name is an argument of a formula. -/
inductive Collision
  | ownArgument
  | definedArguments (arguments : List String)
  | domainVariable
deriving DecidableEq, Repr

/-- The wording of a collision for the formula `name`. -/
def Collision.message (name : String) : Collision → String
  | ownArgument => s!"{name} can't be used as one of its own arguments"
  | definedArguments arguments =>
    let listed := Text.listing arguments
    if arguments.length = 1 then
      s!"{name} has an signature argument {listed} which is already a defined function"
    else
      s!"{name} has arguments {listed} in the signature which are already defined functions"
  | domainVariable =>
    s!"{name} can't be used as a function, it is already defined as a domain variable"

/-- The arguments of a signature that are names of formulas. -/
def definedArguments (registry : Registry) (signature : Signature) : List String :=
  signature.arguments.filter registry.contains

/-- The first cause for which a signature cannot be added. -/
def collision? (registry : Registry) (signature : Signature) : Option Collision :=
  if signature.name ∈ signature.arguments then some .ownArgument
  else if registry.definedArguments signature ≠ [] then
    some (.definedArguments (registry.definedArguments signature))
  else if signature.name ∈ registry.arguments then some .domainVariable
  else none

/-- No argument is listed exactly when none is registered. -/
theorem definedArguments_eq_nil_iff {registry : Registry} {signature : Signature} :
    registry.definedArguments signature = [] ↔
      ∀ argument ∈ signature.arguments, argument ∉ registry.names := by
  simp [definedArguments, List.filter_eq_nil_iff]

/-- Nothing collides exactly when the name is no argument, neither here nor in
the registry, and no argument is registered. -/
theorem collision?_eq_none_iff {registry : Registry} {signature : Signature} :
    registry.collision? signature = none ↔
      signature.name ∉ signature.arguments ∧
      (∀ argument ∈ signature.arguments, argument ∉ registry.names) ∧
      signature.name ∉ registry.arguments := by
  rw [collision?, ← definedArguments_eq_nil_iff]
  split
  · next h => simp [h]
  · next own =>
    split
    · next h => simp [h]
    · next free =>
      have free : registry.definedArguments signature = [] := Decidable.of_not_not free
      split
      · next h => simp [h]
      · next h => simp [own, free, h]

end Registry

end Formulary

import Mathlib.Data.List.Nodup
import Formulary.Proofs.Registry.Separation

/-!
# Refused requests

A request can collide with a registry in three ways at once.  This module says
which of them is reported, in what words, and that nothing else changes.

Main results:

- Definition `Registry.FirstCause`: the collision that is reported, told by what a
  registry shows.
- Theorem `Registry.collision?_eq_some_iff`: it is the one that is found.
- Theorem `Registry.outcome_eq_refused_iff`: a request is refused for it and for
  nothing else.
- Definitions `Registry.oneDefined` and `Registry.severalDefined`: what is said of
  arguments that are formulas.
- Theorem `Registry.refusal_of_reachable`: when a request is refused by a reachable
  registry, for which cause, in which words, and what becomes of the registry.
-/

namespace Formulary.Registry

variable {registry : Registry} {signature : Signature}

/-! ## The first cause -/

/-- A list of all arguments of a signature that are formulas, in the order of the
signature. -/
structure ListsDefined (registry : Registry) (signature : Signature) (listed : List String) :
    Prop where
  order : listed.Sublist signature.arguments
  exactly : ∀ argument, argument ∈ listed ↔
    argument ∈ signature.arguments ∧ argument ∈ registry.names

/-- The collision that is reported: the name among its own arguments comes first,
then arguments that are formulas, then a formula of which the name is an argument. -/
inductive FirstCause (registry : Registry) (signature : Signature) : Collision → Prop
  | ownArgument (own : signature.name ∈ signature.arguments) :
      FirstCause registry signature .ownArgument
  | definedArguments {listed : List String} (other : signature.name ∉ signature.arguments)
      (some_defined : listed ≠ []) (lists : ListsDefined registry signature listed) :
      FirstCause registry signature (.definedArguments listed)
  | domainVariable {entry : Entry} (other : signature.name ∉ signature.arguments)
      (none_defined : ∀ argument ∈ signature.arguments, argument ∉ registry.names)
      (member : entry ∈ registry.entries) (used : signature.name ∈ entry.signature.arguments) :
      FirstCause registry signature .domainVariable

/-- The arguments that are formulas are listed in one way only, since no argument is
repeated. -/
theorem listsDefined_iff (distinct : signature.arguments.Nodup) {listed : List String} :
    ListsDefined registry signature listed ↔ listed = registry.definedArguments signature := by
  constructor
  · rintro ⟨order, exactly⟩
    have all_defined : listed.filter registry.contains = listed := by
      rw [List.filter_eq_self]
      intro argument member
      exact contains_iff.2 ((exactly argument).1 member).2
    have inside : listed.Sublist (registry.definedArguments signature) :=
      all_defined ▸ order.filter registry.contains
    have same : listed.Perm (registry.definedArguments signature) := by
      refine (List.perm_ext_iff_of_nodup (distinct.sublist order) (distinct.filter _)).2 ?_
      intro argument
      rw [exactly, List.mem_filter, contains_iff]
    exact inside.eq_of_length same.length_eq
  · rintro rfl
    exact ⟨List.filter_sublist, fun argument => by
      rw [definedArguments, List.mem_filter, contains_iff]⟩

/-- The collision that is found is the first cause. -/
theorem collision?_eq_some_iff (distinct : signature.arguments.Nodup) {cause : Collision} :
    registry.collision? signature = some cause ↔ registry.FirstCause signature cause := by
  constructor
  · intro found
    unfold collision? at found
    split at found
    · next own =>
      cases found
      exact .ownArgument own
    · next other =>
      split at found
      · next some_defined =>
        cases found
        exact .definedArguments other some_defined ((listsDefined_iff distinct).2 rfl)
      · next none_defined =>
        split at found
        · next listed =>
          cases found
          obtain ⟨entry, member, used⟩ := List.mem_flatMap.1 listed
          exact .domainVariable other
            (definedArguments_eq_nil_iff.1 (Decidable.of_not_not none_defined)) member used
        · cases found
  · intro first
    unfold collision?
    cases first with
    | ownArgument own => rw [if_pos own]
    | definedArguments other some_defined lists =>
      rw [(listsDefined_iff distinct).1 lists] at some_defined ⊢
      rw [if_neg other, if_pos some_defined]
    | domainVariable other none_defined member used =>
      have listed : signature.name ∈ registry.arguments := List.mem_flatMap.2 ⟨_, member, used⟩
      rw [if_neg other, if_neg (not_not_intro (definedArguments_eq_nil_iff.2 none_defined)),
        if_pos listed]

/-- There is one first cause. -/
theorem FirstCause.eq {cause other : Collision} (first : registry.FirstCause signature cause)
    (distinct : signature.arguments.Nodup) (same : registry.FirstCause signature other) :
    cause = other := by
  have found := (collision?_eq_some_iff distinct).2 first
  rw [(collision?_eq_some_iff distinct).2 same] at found
  exact (Option.some.inj found).symm

/-- Where neither the name is an argument nor any argument a formula, a first cause is
that the name is an argument of a formula. -/
theorem FirstCause.eq_domainVariable {cause : Collision}
    (first : registry.FirstCause signature cause) (other : signature.name ∉ signature.arguments)
    (none_defined : ∀ argument ∈ signature.arguments, argument ∉ registry.names) :
    cause = .domainVariable := by
  cases first with
  | ownArgument own => exact absurd own other
  | definedArguments _ some_defined lists =>
    obtain ⟨argument, member⟩ := List.exists_mem_of_ne_nil _ some_defined
    obtain ⟨declared, registered⟩ := (lists.exactly argument).1 member
    exact absurd registered (none_defined argument declared)
  | domainVariable => rfl

/-! ## Refused requests -/

/-- A request that is looked at, since it has no notes or its name is new, is refused
for the first cause and for nothing else. -/
theorem outcome_eq_refused_iff {request : Request}
    (accepted : Signature.read request.signature = .ok signature)
    (looked_at : ¬ (request.notes.isSome = true ∧ signature.name ∈ registry.names))
    {error : RegistrationError} :
    registry.outcome request = .refused error ↔
      ∃ cause, registry.FirstCause signature cause ∧ error = .collision signature.name cause := by
  have passed : (request.notes.isSome && registry.contains signature.name) = false := by
    rw [Bool.eq_false_iff, Ne, Bool.and_eq_true, contains_iff]
    exact looked_at
  simp only [← collision?_eq_some_iff (Signature.wellformed_of_read accepted).distinct]
  rw [outcome, accepted]
  simp only [passed, Bool.false_eq_true, if_false]
  cases registry.collision? signature with
  | some cause => simp [eq_comm]
  | none =>
    simp only [reduceCtorEq, false_and, exists_false, iff_false]
    split <;> exact Outcome.noConfusion

/-- There is a first cause exactly if there is any. -/
theorem exists_firstCause_iff (distinct : signature.arguments.Nodup) :
    (∃ cause, registry.FirstCause signature cause) ↔
      signature.name ∈ signature.arguments ∨
      (∃ argument ∈ signature.arguments, argument ∈ registry.names) ∨
      ∃ entry ∈ registry.entries, signature.name ∈ entry.signature.arguments := by
  have collides : (∃ cause, registry.FirstCause signature cause) ↔
      registry.collision? signature ≠ none := by
    simp only [← collision?_eq_some_iff distinct, Option.ne_none_iff_exists']
  rw [collides, Ne, collision?_eq_none_iff]
  simp only [not_and_or, not_not, not_forall, exists_prop, arguments, List.mem_flatMap]

/-! ## The wording -/

/-- What is said of a name among its own arguments. -/
def ownDefined (name : String) : String :=
  name ++ " can't be used as one of its own arguments"

/-- What is said of the only argument that is a formula. -/
def oneDefined (name : String) (listed : List String) : String :=
  name ++ " has an signature argument ['" ++ "', '".intercalate listed ++
    "'] which is already a defined function"

/-- What is said of several arguments that are formulas. -/
def severalDefined (name : String) (listed : List String) : String :=
  name ++ " has arguments ['" ++ "', '".intercalate listed ++
    "'] in the signature which are already defined functions"

/-- What is said of a name that is an argument of a formula. -/
def usedAsArgument (name : String) : String :=
  name ++ " can't be used as a function, it is already defined as a domain variable"

/-- The two wordings for arguments that are formulas differ, whatever is listed in them. -/
theorem oneDefined_ne_severalDefined (name : String) (listed others : List String) :
    oneDefined name listed ≠ severalDefined name others := by
  intro same
  have texts := congrArg String.toList same
  simp [oneDefined, severalDefined] at texts

/-- Arguments that are formulas are told in the singular if there is one, in the plural
otherwise, and listed between brackets. -/
theorem message_definedArguments (name : String) {listed : List String}
    (some_defined : listed ≠ []) :
    (Collision.definedArguments listed).message name =
      if listed.length = 1 then oneDefined name listed else severalDefined name listed := by
  have one_opened : " has an signature argument ['" = " has an signature argument " ++ "['" := rfl
  have one_closed : "'] which is already a defined function" =
      "']" ++ " which is already a defined function" := rfl
  have several_opened : " has arguments ['" = " has arguments " ++ "['" := rfl
  have several_closed : "'] in the signature which are already defined functions" =
      "']" ++ " in the signature which are already defined functions" := rfl
  rw [Collision.message, Text.listing_of_ne_nil some_defined]
  split
  · rw [oneDefined, one_opened, one_closed]
    simp only [toString, String.append_assoc]
  · rw [severalDefined, several_opened, several_closed]
    simp only [toString, String.append_assoc]

/-- Of the two wordings, one has its number. -/
theorem message_definedArguments_eq_iff (name : String) {listed : List String}
    (some_defined : listed ≠ []) :
    ((Collision.definedArguments listed).message name = oneDefined name listed ↔
      listed.length = 1) ∧
    ((Collision.definedArguments listed).message name = severalDefined name listed ↔
      listed.length ≠ 1) := by
  rw [message_definedArguments name some_defined]
  by_cases one : listed.length = 1
  · simp [one, oneDefined_ne_severalDefined]
  · simp [one, (oneDefined_ne_severalDefined name listed listed).symm]

/-- Only a name that is an argument of a formula is said to be one. -/
theorem message_eq_usedAsArgument_iff {name : String} {cause : Collision} :
    cause.message name = usedAsArgument name ↔ cause = .domainVariable := by
  constructor
  · intro same
    have texts := congrArg String.toList same
    cases cause with
    | ownArgument => simp [Collision.message, usedAsArgument, toString] at texts
    | definedArguments listed =>
      rw [Collision.message] at texts
      split at texts <;> simp [usedAsArgument, toString] at texts
    | domainVariable => rfl
  · rintro rfl
    rfl

/-! ## Reachable registries -/

/-- A name that is registered is an argument of no formula, so that this is never the
cause for which it is refused. -/
theorem Separated.firstCause_ne_domainVariable (separated : registry.Separated)
    {cause : Collision} (first : registry.FirstCause signature cause)
    (registered : signature.name ∈ registry.names) : cause ≠ .domainVariable := by
  rintro rfl
  cases first with
  | domainVariable _ _ member used =>
    exact separated.apart _ registered (List.mem_flatMap.2 ⟨_, member, used⟩)

/-- A request whose signature can be read, and which is looked at because it has no
notes or its name is new, is refused by a reachable registry exactly if the name is
among the arguments, or one of these is a formula, or the name is an argument of a
formula.  The first of these causes is reported under the name, at the start of the
signature and in its own words.  Arguments that are formulas are all listed in their
order, which is possible in one way only, and told in the singular exactly if there is
one.  A registered name is never refused as an argument of a formula.  A refused
request leaves the registry as it is. -/
theorem refusal_of_reachable (reachable : registry.Reachable) {request : Request}
    (accepted : Signature.read request.signature = .ok signature)
    (looked_at : ¬ (request.notes.isSome = true ∧ signature.name ∈ registry.names)) :
    ((∃ error, registry.outcome request = .refused error) ↔
      signature.name ∈ signature.arguments ∨
      (∃ argument ∈ signature.arguments, argument ∈ registry.names) ∨
      ∃ entry ∈ registry.entries, signature.name ∈ entry.signature.arguments) ∧
    (∃! listed, ListsDefined registry signature listed) ∧
    ∀ error, registry.outcome request = .refused error →
      error.name? = some signature.name ∧ error.offset = 0 ∧
      (∃ cause, registry.FirstCause signature cause ∧ error = .collision signature.name cause) ∧
      (signature.name ∈ signature.arguments → error.message = ownDefined signature.name) ∧
      (∀ listed, signature.name ∉ signature.arguments → listed ≠ [] →
        ListsDefined registry signature listed →
        (error.message = oneDefined signature.name listed ↔ listed.length = 1) ∧
        (error.message = severalDefined signature.name listed ↔ listed.length ≠ 1)) ∧
      (signature.name ∉ signature.arguments →
        (∀ argument ∈ signature.arguments, argument ∉ registry.names) →
        error.message = usedAsArgument signature.name) ∧
      (signature.name ∈ registry.names → error ≠ .collision signature.name .domainVariable ∧
        error.message ≠ usedAsArgument signature.name) ∧
      registry.add request = registry := by
  have distinct := (Signature.wellformed_of_read accepted).distinct
  refine ⟨?_, ?_, ?_⟩
  · simp only [← exists_firstCause_iff distinct, outcome_eq_refused_iff accepted looked_at]
    exact ⟨fun ⟨_, cause, first, _⟩ => ⟨cause, first⟩, fun ⟨cause, first⟩ => ⟨_, cause, first, rfl⟩⟩
  · exact ⟨_, (listsDefined_iff distinct).2 rfl, fun _ => (listsDefined_iff distinct).1⟩
  · intro error refused
    obtain ⟨cause, first, rfl⟩ := (outcome_eq_refused_iff accepted looked_at).1 refused
    refine ⟨rfl, rfl, ⟨cause, first, rfl⟩, ?_, ?_, ?_, ?_, ?_⟩
    · intro own
      rw [first.eq distinct (.ownArgument own)]
      rfl
    · intro listed other some_defined lists
      rw [first.eq distinct (.definedArguments other some_defined lists)]
      exact message_definedArguments_eq_iff signature.name some_defined
    · intro other none_defined
      rw [first.eq_domainVariable other none_defined]
      rfl
    · intro registered
      have not_used := reachable.separated.firstCause_ne_domainVariable first registered
      refine ⟨?_, fun worded => not_used (message_eq_usedAsArgument_iff.1 worded)⟩
      intro same
      cases same
      exact not_used rfl
    · rw [add, refused, after]

/-- With `f(x)` and `g` registered, `x(f,y,g)` is refused for its arguments `f` and
`g`, although `x` is an argument of `f`. -/
theorem refusal_of_twoFormulas :
    let registry := (empty.add ⟨some "f(x)", some "x+1", none⟩).add ⟨some "g", some "2", none⟩
    ∃ error, registry.outcome ⟨some " x( f, y, g )", some "y", some []⟩ = .refused error ∧
      error.name? = some "x" ∧ error.offset = 0 ∧
      error.message =
        "x has arguments ['f', 'g'] in the signature which are already defined functions" ∧
      registry.add ⟨some " x( f, y, g )", some "y", some []⟩ = registry := by
  intro registry
  have reachable : registry.Reachable := (Reachable.empty.add _).add _
  have accepted : Signature.read (some " x( f, y, g )") = .ok ⟨"x", ["f", "y", "g"]⟩ := by
    decide +kernel
  have new : "x" ∉ registry.names := by decide +kernel
  have refused : registry.outcome ⟨some " x( f, y, g )", some "y", some []⟩ =
      .refused (.collision "x" (.definedArguments ["f", "g"])) := by decide +kernel
  have lists : ListsDefined registry ⟨"x", ["f", "y", "g"]⟩ ["f", "g"] :=
    (listsDefined_iff (by decide)).2 (by decide +kernel)
  obtain ⟨named, offset, -, -, worded, -, -, same⟩ :=
    (refusal_of_reachable reachable accepted (fun h => new h.2)).2.2 _ refused
  have told := (worded ["f", "g"] (by decide) (by decide) lists).2.2 (by decide)
  exact ⟨_, refused, named, offset, told.trans (by decide), same⟩

end Formulary.Registry

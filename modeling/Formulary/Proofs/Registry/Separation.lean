import Formulary.Proofs.Signature.Wellformed
import Formulary.Registry.Registration

/-!
# Formulas and variables are kept apart

A name is either that of a formula or an argument of formulas, and stays what it
is.  Each request is looked at from one side only: its arguments against the
formulas that are there, and its name against their arguments.  This module shows
that this is enough for all registries to which requests lead.

Main results:

- Definition `Registry.Reachable`: the registries to which requests and loading
  lead.
- Definition `Registry.Separated`: formulas and arguments are kept apart.
- Theorem `Registry.Separated.add`: a request keeps them apart.
- Theorem `Registry.separated_of_reachable`: they are apart in every registry that
  is reached, and stay so.
-/

namespace Formulary.Registry

/-! ## What a request does -/

/-- A request leaves the registry as it is, or appends an entry whose signature
can be read, whose name is new and which does not collide. -/
theorem add_cases (registry : Registry) (request : Request) :
    registry.add request = registry ∨
      ∃ entry, Signature.read request.signature = .ok entry.signature ∧
        entry.signature.name ∉ registry.names ∧
        registry.collision? entry.signature = none ∧
        registry.add request = ⟨registry.entries ++ [entry]⟩ := by
  unfold add
  cases decided : registry.outcome request with
  | registered entry =>
    obtain ⟨signature, accepted, new, free, rfl⟩ := outcome_eq_registered_iff.1 decided
    exact .inr ⟨_, accepted, new, free, rfl⟩
  | ignored name text => exact .inl rfl
  | refused error => exact .inl rfl

@[simp]
theorem names_append (entries : List Entry) (entry : Entry) :
    names ⟨entries ++ [entry]⟩ = names ⟨entries⟩ ++ [entry.signature.name] := by
  rw [names, names, List.map_append, List.map_singleton]

@[simp]
theorem arguments_append (entries : List Entry) (entry : Entry) :
    arguments ⟨entries ++ [entry]⟩ = arguments ⟨entries⟩ ++ entry.signature.arguments := by
  rw [arguments, arguments, List.flatMap_append, List.flatMap_singleton]

/-- Requests only append entries. -/
theorem entries_prefix_addAll (registry : Registry) (requests : List Request) :
    registry.entries <+: (registry.addAll requests).entries := by
  induction requests generalizing registry with
  | nil => exact List.prefix_refl _
  | cons request rest ih =>
    obtain ⟨new, -, entries⟩ := registry.add_entries request
    have first : registry.entries <+: (registry.add request).entries := ⟨new, entries.symm⟩
    exact first.trans (ih (registry.add request))

/-- Formulas stay, and so do arguments. -/
theorem names_subset_addAll (registry : Registry) (requests : List Request) :
    registry.names ⊆ (registry.addAll requests).names := by
  intro name registered
  obtain ⟨entry, member, named⟩ := List.mem_map.1 registered
  exact List.mem_map.2 ⟨entry, (registry.entries_prefix_addAll requests).subset member, named⟩

theorem arguments_subset_addAll (registry : Registry) (requests : List Request) :
    registry.arguments ⊆ (registry.addAll requests).arguments := by
  intro name listed
  obtain ⟨entry, member, inside⟩ := List.mem_flatMap.1 listed
  exact List.mem_flatMap.2 ⟨entry, (registry.entries_prefix_addAll requests).subset member, inside⟩

/-- Requests of which none is refused are carried out one after another. -/
theorem eq_addAll_of_addUntilRefused {registry after : Registry} {requests : List Request}
    (accepted : (registry.addUntilRefused requests).2 = .ok after) :
    after = registry.addAll requests := by
  induction requests generalizing registry with
  | nil => exact (Except.ok.inj accepted).symm
  | cons request rest ih =>
    rw [addUntilRefused] at accepted
    dsimp only at accepted
    split at accepted
    · cases accepted
    · exact ih accepted

/-! ## Reachable registries -/

/-- The registries to which requests lead, from the empty one or from one that
was loaded.  Refused requests leave a registry as it is. -/
inductive Reachable : Registry → Prop
  | empty : Reachable empty
  | load {formulas : List (Option String × Option String)} {events : List Event}
      {registry : Registry} (loaded : Registry.load formulas = (events, .ok registry)) :
      Reachable registry
  | add {registry : Registry} (reached : Reachable registry) (request : Request) :
      Reachable (registry.add request)

/-- Signatures are well-formed, every formula has a name of its own, and no name
of a formula is an argument. -/
structure Separated (registry : Registry) : Prop where
  signatures : ∀ entry ∈ registry.entries, entry.signature.Wellformed
  names : registry.names.Nodup
  apart : ∀ name ∈ registry.names, name ∉ registry.arguments

theorem separated_empty : Separated empty where
  signatures := fun entry member => by cases member
  names := List.nodup_nil
  apart := fun name member => by cases member

/-- A new entry that does not collide is kept apart from the others. -/
theorem Separated.append {registry : Registry} (separated : registry.Separated) {entry : Entry}
    (wellformed : entry.signature.Wellformed) (new : entry.signature.name ∉ registry.names)
    (free : registry.collision? entry.signature = none) :
    Separated ⟨registry.entries ++ [entry]⟩ := by
  obtain ⟨not_own, no_formula, no_argument⟩ := collision?_eq_none_iff.1 free
  refine ⟨?_, ?_, ?_⟩
  · intro other member
    rcases List.mem_append.1 member with old | last
    · exact separated.signatures other old
    · rw [List.mem_singleton.1 last]
      exact wellformed
  · rw [names_append, List.nodup_append]
    refine ⟨separated.names, List.nodup_singleton _, ?_⟩
    intro name old other last same
    rw [same, List.mem_singleton.1 last] at old
    exact new old
  · -- an old or the new name, against the old or the new arguments
    intro name registered listed
    rw [names_append, List.mem_append, List.mem_singleton] at registered
    rw [arguments_append, List.mem_append] at listed
    rcases registered with old | rfl <;> rcases listed with before | own
    · exact separated.apart name old before
    · exact no_formula name own old
    · exact no_argument before
    · exact not_own own

/-- What does not collide with formulas and arguments does not collide with fewer. -/
theorem collision?_eq_none_mono {fewer registry : Registry} (names : fewer.names ⊆ registry.names)
    (arguments : fewer.arguments ⊆ registry.arguments) {signature : Signature}
    (free : registry.collision? signature = none) : fewer.collision? signature = none := by
  obtain ⟨not_own, no_formula, no_argument⟩ := collision?_eq_none_iff.1 free
  exact collision?_eq_none_iff.2 ⟨not_own,
    fun argument own formula => no_formula argument own (names formula),
    fun argument => no_argument (arguments argument)⟩

/-- What is kept apart does not collide. -/
theorem Separated.collision?_eq_none {registry : Registry} (separated : registry.Separated)
    {entry : Entry} (member : entry ∈ registry.entries) :
    registry.collision? entry.signature = none := by
  have registered : entry.signature.name ∈ registry.names := List.mem_map.2 ⟨entry, member, rfl⟩
  refine collision?_eq_none_iff.2 ⟨?_, ?_, separated.apart _ registered⟩
  · intro own
    exact separated.apart _ registered (List.mem_flatMap.2 ⟨entry, member, own⟩)
  · intro argument own formula
    exact separated.apart argument formula (List.mem_flatMap.2 ⟨entry, member, own⟩)

/-- A request keeps formulas and arguments apart. -/
theorem Separated.add {registry : Registry} (separated : registry.Separated) (request : Request) :
    (registry.add request).Separated := by
  rcases registry.add_cases request with same | ⟨entry, accepted, new, free, appended⟩
  · rw [same]
    exact separated
  · rw [appended]
    exact separated.append (Signature.wellformed_of_read accepted) new free

theorem Separated.addAll {registry : Registry} (separated : registry.Separated)
    (requests : List Request) : (registry.addAll requests).Separated := by
  induction requests generalizing registry with
  | nil => exact separated
  | cons request rest ih => exact ih (separated.add request)

/-- A reachable registry is what some requests make of the empty one. -/
theorem Reachable.exists_requests {registry : Registry} (reachable : registry.Reachable) :
    ∃ requests, registry = Registry.empty.addAll requests := by
  induction reachable with
  | empty => exact ⟨[], rfl⟩
  | @load formulas events registry loaded =>
    unfold Registry.load at loaded
    dsimp only at loaded
    split at loaded
    · cases loaded
    · next after accepted =>
      have same : registry = after := by
        split at loaded <;> cases loaded <;> rfl
      exact ⟨_, same.trans (eq_addAll_of_addUntilRefused accepted)⟩
  | @add registry _ request ih =>
    obtain ⟨requests, rfl⟩ := ih
    exact ⟨requests ++ [request], (List.foldl_concat Registry.add Registry.empty request requests).symm⟩

theorem Reachable.separated {registry : Registry} (reachable : registry.Reachable) :
    registry.Separated := by
  obtain ⟨requests, rfl⟩ := reachable.exists_requests
  exact separated_empty.addAll requests

/-- A formula is found under its own name. -/
theorem find?_of_mem {registry : Registry} (names : registry.names.Nodup) {entry : Entry}
    (member : entry ∈ registry.entries) : registry.find? entry.signature.name = some entry := by
  obtain ⟨entries⟩ := registry
  unfold find?
  dsimp only at member ⊢
  induction entries with
  | nil => cases member
  | cons first rest ih =>
    have distinct : (first.signature.name :: Registry.names ⟨rest⟩).Nodup := names
    rw [List.nodup_cons] at distinct
    rcases List.mem_cons.1 member with rfl | later
    · exact List.find?_cons_of_pos (beq_self_eq_true _)
    · have differs : first.signature.name ≠ entry.signature.name := by
        intro same
        rw [same] at distinct
        exact distinct.1 (List.mem_map.2 ⟨entry, later, rfl⟩)
      rw [List.find?_cons_of_neg (by simpa using differs)]
      exact ih distinct.2 later

/-- Names of formulas in a reachable registry are identifiers, each registered
once and found as the name of its own formula; arguments are distinct identifiers;
and no name is both.  Whatever is requested later, names of formulas and arguments
stay what they are. -/
theorem separated_of_reachable {registry : Registry} (reachable : registry.Reachable) :
    (∀ name ∈ registry.names, isIdentifier name.toList = true) ∧
    registry.names.Nodup ∧
    (∀ entry ∈ registry.entries, registry.find? entry.signature.name = some entry) ∧
    (∀ entry ∈ registry.entries, entry.signature.arguments.Nodup ∧
      ∀ argument ∈ entry.signature.arguments,
        isIdentifier argument.toList = true ∧ argument ∉ registry.names) ∧
    (∀ name ∈ registry.names, name ∉ registry.argumentNames) ∧
    ∀ requests,
      (∀ name ∈ registry.names, name ∈ (registry.addAll requests).names ∧
        name ∉ (registry.addAll requests).argumentNames) ∧
      (∀ name ∈ registry.argumentNames, name ∈ (registry.addAll requests).argumentNames ∧
        name ∉ (registry.addAll requests).names) := by
  have separated := reachable.separated
  refine ⟨?_, separated.names, ?_, ?_, ?_, ?_⟩
  · intro name registered
    obtain ⟨entry, member, rfl⟩ := List.mem_map.1 registered
    exact (separated.signatures entry member).name
  · intro entry member
    exact find?_of_mem separated.names member
  · intro entry member
    refine ⟨(separated.signatures entry member).distinct, ?_⟩
    intro argument listed
    refine ⟨(separated.signatures entry member).arguments argument listed, ?_⟩
    intro registered
    exact separated.apart argument registered (List.mem_flatMap.2 ⟨entry, member, listed⟩)
  · intro name registered
    rw [argumentNames, mem_sortedNames]
    exact separated.apart name registered
  · intro requests
    have later := separated.addAll requests
    refine ⟨?_, ?_⟩
    · intro name registered
      have still := registry.names_subset_addAll requests registered
      rw [argumentNames, mem_sortedNames]
      exact ⟨still, later.apart name still⟩
    · intro name listed
      rw [argumentNames, mem_sortedNames] at listed
      have still := registry.arguments_subset_addAll requests listed
      rw [argumentNames, mem_sortedNames]
      exact ⟨still, fun registered => later.apart name registered still⟩

/-- Once `f(x,y)` is registered, `x` never becomes a formula. -/
theorem separated_after_first_formula :
    (empty.add ⟨some "f(x,y)", some "x+y", none⟩).names = ["f"] ∧
      ∀ requests,
        "x" ∉ ((empty.add ⟨some "f(x,y)", some "x+y", none⟩).addAll requests).names := by
  have reachable := Reachable.empty.add ⟨some "f(x,y)", some "x+y", none⟩
  have listed : "x" ∈ (empty.add ⟨some "f(x,y)", some "x+y", none⟩).argumentNames := by
    rw [argumentNames, mem_sortedNames]
    decide +kernel
  refine ⟨by decide +kernel, ?_⟩
  intro requests
  exact ((separated_of_reachable reachable).2.2.2.2.2 requests).2 "x" listed |>.2

end Formulary.Registry

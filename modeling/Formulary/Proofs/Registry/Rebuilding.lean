import Formulary.Proofs.Registry.Batches
import Formulary.Proofs.Registry.Log
import Formulary.Proofs.Signature.Spelling

/-!
# Rebuilding a registry

What a registry shows of its formulas is enough to make it again: the signatures
can be read, the formulas can be requested in their order, and notes that were
merged once are not changed by merging them once more.

Main results:

- Definition `Registry.requestFor`: a formula as a registry shows it, taken for a
  request.
- Theorem `Registry.addUntilRefused_requests`: entries are made again after those in
  front of them.
- Theorem `Registry.rebuilt_of_reachable`: the requests for all formulas of a
  reachable registry make the registry again.
-/

namespace Formulary

/-- The request that asks for an entry as it is. -/
def Entry.request (entry : Entry) : Request :=
  ⟨some entry.signature.text, entry.definition, some entry.notes⟩

namespace Registry

/-- The request for a formula as a registry shows it. -/
def requestFor (registry : Registry) (name : String) : Request :=
  ⟨registry.signature? name, registry.definition? name, some (registry.notes name)⟩

/-- A registry shows every entry as it is. -/
theorem map_requestFor {registry : Registry} (distinct : registry.names.Nodup) :
    registry.names.map registry.requestFor = registry.entries.map Entry.request := by
  rw [names, List.map_map]
  refine List.map_congr_left ?_
  intro entry member
  have here := find?_of_mem distinct member
  simp only [Function.comp_apply, requestFor, signature?, definition?, notes, here,
    Option.map_some, Option.bind_some, Entry.request]

/-! ## Notes merged again -/

/-- The arguments of an array are noted in its entry. -/
theorem note_of_mem_matrixNotes {admission : Admission} {entry : Entry}
    (described : admission.Describes entry) (array : isMatrix entry.definition = true)
    {key value : String} (noted : (key, value) ∈ matrixNotes entry.signature.arguments) :
    entry.notes.find? key = some value := by
  have derived : (matrixNotes entry.signature.arguments).lookup key = some value :=
    (Bindings.find?_eq_some_iff (nodup_matrixNotes _)).2 noted
  rw [described.signature] at derived
  rw [described.definition] at array
  rw [described.notes, Admission.note?, if_pos array, derived, Option.some_or]

/-- Merging the notes of an entry again changes nothing. -/
theorem entryNotes_of_describes {admission : Admission} {entry : Entry}
    (described : admission.Describes entry) :
    entry.request.entryNotes entry.signature = entry.notes := by
  have given : Bindings.ofPairs (entry.request.notes.getD []) = entry.notes :=
    Bindings.ofPairs_eq_self described.keys
  rw [Request.entryNotes, given]
  split
  · next array =>
    refine Bindings.setAll_eq_self ?_
    rintro ⟨key, value⟩ noted
    exact note_of_mem_matrixNotes described array noted
  · rfl

/-- The entries of a reachable registry are merged. -/
theorem Reachable.entryNotes {registry : Registry} (reachable : registry.Reachable) {entry : Entry}
    (member : entry ∈ registry.entries) :
    entry.request.entryNotes entry.signature = entry.notes := by
  obtain ⟨requests, rfl⟩ := reachable.exists_requests
  obtain ⟨admission, -, described⟩ :=
    exists_admission_of_describes (describes_log requests) member
  exact entryNotes_of_describes described

/-! ## Formulas requested again -/

/-- The request for an entry as it is makes the entry. -/
theorem formula?_request {entry : Entry} (wellformed : entry.signature.Wellformed)
    (merged : entry.request.entryNotes entry.signature = entry.notes) :
    entry.request.formula? = some entry :=
  Request.formula?_eq_some_iff.2 ⟨Signature.read_text wellformed, rfl, merged.symm⟩

/-- Entries are made again after those in front of them. -/
theorem addUntilRefused_requests {front rest : List Entry}
    (separated : Separated ⟨front ++ rest⟩)
    (merged : ∀ entry ∈ rest, entry.request.entryNotes entry.signature = entry.notes) :
    (addUntilRefused ⟨front⟩ (rest.map Entry.request)).2 = .ok ⟨front ++ rest⟩ := by
  refine addUntilRefused_of_separated ?_ separated
  rw [List.map_map]
  refine List.map_congr_left ?_
  intro entry member
  exact formula?_request (separated.signatures entry (List.mem_append_right _ member))
    (merged entry member)

/-- When all formulas of a reachable registry are requested from an empty one as
they are shown, in their order, none is refused and the same registry comes out:
the same formulas in the same order with the same arguments, definitions and notes.
Every signature shown is read as the name and its arguments. -/
theorem rebuilt_of_reachable {registry : Registry} (reachable : registry.Reachable) :
    (empty.addUntilRefused (registry.names.map registry.requestFor)).2 = .ok registry ∧
    ∀ name ∈ registry.names, ∃ arguments, registry.arguments? name = some arguments ∧
      Signature.read (registry.signature? name) = .ok ⟨name, arguments⟩ := by
  have separated := reachable.separated
  refine ⟨?_, ?_⟩
  · rw [map_requestFor separated.names]
    exact @addUntilRefused_requests [] registry.entries separated
      fun _ member => reachable.entryNotes member
  · intro name registered
    obtain ⟨entry, member, rfl⟩ := List.mem_map.1 registered
    have here := find?_of_mem separated.names member
    refine ⟨entry.signature.arguments, ?_, ?_⟩
    · rw [arguments?, here, Option.map_some]
    · rw [signature?, here, Option.map_some]
      exact Signature.read_text (separated.signatures entry member)

/-- An array is shown with its own variable noted over what was given for the key,
and is made again from that. -/
theorem rebuilt_array :
    let registry := empty.add ⟨some " f( x )", some "[x]", some [(independentVariable, "t")]⟩
    registry.names.map registry.requestFor =
        [⟨some "f(x)", some "[x]", some [(independentVariable, "x")]⟩] ∧
      (empty.addUntilRefused
        [⟨some "f(x)", some "[x]", some [(independentVariable, "x")]⟩]).2 = .ok registry := by
  have shown :
      (empty.add ⟨some " f( x )", some "[x]", some [(independentVariable, "t")]⟩).names.map
        (empty.add ⟨some " f( x )", some "[x]", some [(independentVariable, "t")]⟩).requestFor =
      [⟨some "f(x)", some "[x]", some [(independentVariable, "x")]⟩] := by decide +kernel
  refine ⟨shown, ?_⟩
  rw [← shown]
  exact (rebuilt_of_reachable (Reachable.empty.add _)).1

end Registry

end Formulary

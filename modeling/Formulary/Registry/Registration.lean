import Formulary.Journal
import Formulary.Registry.Basic
import Formulary.Registry.Matrix

/-!
# Registration

A request asks for a formula to be added.  It is refused, ignored or carried
out; the first formula of a name stays.  Every request whose signature can be
read is reported by one event.

Main results:

- Definition `Registry.outcome`: what becomes of a request.
- Theorem `Registry.outcome_eq_registered_iff`: when a request is carried out.
- Theorem `Registry.add_entries`: a request appends at most one entry.
-/

namespace Formulary

/-- A request to register a formula.  The signature, the definition and the
notes may each be absent. -/
structure Request where
  signature : Option String
  definition : Option String
  notes : Option (List (String × String))
deriving DecidableEq, Repr

/-- Why a request is refused. -/
inductive RegistrationError
  | signature (error : SignatureError)
  | collision (name : String) (cause : Registry.Collision)
deriving DecidableEq, Repr

namespace RegistrationError

/-- The wording of a refusal. -/
def message : RegistrationError → String
  | signature error => error.message
  | collision name cause => cause.message name

/-- The name of the formula that was refused, if it could be read. -/
def name? : RegistrationError → Option String
  | signature error => error.name?
  | collision name _ => some name

/-- The position in the trimmed signature to which a refusal points. -/
def offset : RegistrationError → Nat
  | signature error => error.offset
  | collision _ _ => 0

end RegistrationError

/-- What becomes of a request.  An ignored request keeps its trimmed
signature. -/
inductive Outcome
  | registered (entry : Entry)
  | ignored (name text : String)
  | refused (error : RegistrationError)
deriving DecidableEq, Repr

/-- The events that report an outcome.  A signature that cannot be read is not
reported. -/
def Outcome.events : Outcome → List Event
  | registered entry =>
    let definition := entry.definition.getD "None"
    [.debug s!"Registered {entry.signature.text} = {definition}"]
  | ignored name text => [.debug s!"Symbol '{name}' already defined, ignoring '{text}'"]
  | refused (.signature _) => []
  | refused (.collision name cause) =>
    [.warning s!"Rejected symbol: {cause.message name}"]

/-- The notes of a new entry: those of the request, and over them those on the
arguments of an array. -/
def Request.entryNotes (request : Request) (signature : Signature) : Notes :=
  let given := Bindings.ofPairs (request.notes.getD [])
  if isMatrix request.definition then given.setAll (matrixNotes signature.arguments)
  else given

/-- The trimmed signature of a request. -/
def Request.trimmedSignature (request : Request) : String :=
  String.ofList (Text.trim (request.signature.getD "").toList)

namespace Registry

/-- What becomes of a request.  A request with notes for a registered name is
ignored before anything else is looked at; one without notes has to be free of
collisions even then. -/
def outcome (registry : Registry) (request : Request) : Outcome :=
  match Signature.read request.signature with
  | .error error => .refused (.signature error)
  | .ok signature =>
    if request.notes.isSome && registry.contains signature.name then
      .ignored signature.name request.trimmedSignature
    else
      match registry.collision? signature with
      | some cause => .refused (.collision signature.name cause)
      | none =>
        if registry.contains signature.name then
          .ignored signature.name request.trimmedSignature
        else
          .registered ⟨signature, request.definition, request.entryNotes signature⟩

/-- The registry after an outcome. -/
def after (registry : Registry) : Outcome → Registry
  | .registered entry => ⟨registry.entries ++ [entry]⟩
  | .ignored _ _ => registry
  | .refused _ => registry

/-- The registry after a request. -/
def add (registry : Registry) (request : Request) : Registry :=
  registry.after (registry.outcome request)

/-- The registry after requests, of which those refused change nothing. -/
def addAll (registry : Registry) (requests : List Request) : Registry :=
  requests.foldl add registry

/-- The request for a formula without notes. -/
def plainRequest (signature definition : Option String) : Request :=
  ⟨signature, definition, none⟩

/-- The events of requests up to the first that is refused, and the registry
after them or the cause of the refusal. -/
def addUntilRefused (registry : Registry) :
    List Request → List Event × Except RegistrationError Registry
  | [] => ([], .ok registry)
  | request :: rest =>
    let outcome := registry.outcome request
    match outcome with
    | .refused error => (outcome.events, .error error)
    | _ =>
      let (events, result) := addUntilRefused (registry.after outcome) rest
      (outcome.events ++ events, result)

/-- Loads a registry from signatures with definitions.  Loading stops at the
first refusal, and reports its success unless there was nothing to load. -/
def load (formulas : List (Option String × Option String)) :
    List Event × Except RegistrationError Registry :=
  let (events, result) :=
    empty.addUntilRefused (formulas.map fun (signature, definition) =>
      plainRequest signature definition)
  match result with
  | .error error => (events, .error error)
  | .ok registry =>
    if formulas.isEmpty then (events, .ok registry)
    else (events ++ [.info s!"Loaded {registry.size} symbols" .detailed], .ok registry)

/-! ## When a request is carried out -/

/-- A request is carried out exactly when its signature can be read, its name is
new and nothing collides; the entry is made of the request. -/
theorem outcome_eq_registered_iff {registry : Registry} {request : Request} {entry : Entry} :
    registry.outcome request = .registered entry ↔
      ∃ signature, Signature.read request.signature = .ok signature ∧
        signature.name ∉ registry.names ∧ registry.collision? signature = none ∧
        entry = ⟨signature, request.definition, request.entryNotes signature⟩ := by
  rw [outcome]
  cases hs : Signature.read request.signature with
  | error error => simp
  | ok signature =>
    simp only [Except.ok.injEq, exists_eq_left']
    by_cases known : signature.name ∈ registry.names
    · have : registry.contains signature.name = true := contains_iff.2 known
      simp only [this, Bool.and_true, known, not_true_eq_false, false_and, iff_false]
      split
      · simp
      · cases registry.collision? signature <;> simp
    · have : registry.contains signature.name = false :=
        Bool.eq_false_iff.2 fun h => known (contains_iff.1 h)
      simp only [this, Bool.and_false, Bool.false_eq_true, if_false, known,
        not_false_eq_true, true_and]
      cases registry.collision? signature with
      | some cause => simp
      | none => simp [eq_comm]

/-- A request appends at most one entry. -/
theorem add_entries (registry : Registry) (request : Request) :
    ∃ new : List Entry, new.length ≤ 1 ∧
      (registry.add request).entries = registry.entries ++ new := by
  rw [add]
  cases registry.outcome request with
  | registered entry => exact ⟨[entry], by simp, rfl⟩
  | ignored name text => exact ⟨[], by simp, by simp [after]⟩
  | refused error => exact ⟨[], by simp, by simp [after]⟩

end Registry

end Formulary

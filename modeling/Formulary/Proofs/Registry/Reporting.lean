import Mathlib.Data.List.Nodup
import Formulary.Proofs.Journal.Posting
import Formulary.Registry.Registration

/-!
# Reported requests

A registry reports to a journal while it works on a request: what it ignores before and
after the checks, what it rejects in one of these, and what it registers in the end.  This
module lets it work step by step, with the journal at hand, and compares that with the
outcome of the request, which knows of no journal.

Main results:

- Definition `Desk.register`: a request is worked on, and reported on the way.
- Theorem `Desk.serve_eq`: the result and the registry are those of the outcome, and the
  journal gets the events of the outcome.
- Theorem `Registry.exists_event`: a request whose signature can be read is reported once,
  in words that tell what became of it.
- Theorem `Desk.requests_reported`: what is reported of requests, and what of it is shown;
  neither the results nor the registry depend on that.
-/

namespace Formulary

/-! ## Work at a desk -/

/-- A registry with the journal to which it reports. -/
structure Desk where
  registry : Registry
  journal : Journal
deriving DecidableEq, Repr

/-- Work at a desk, which may end in a refusal.  What was done until then stays. -/
abbrev DeskM := ExceptT RegistrationError (StateM Desk)

/-- What is reported when a formula was registered. -/
def registeredText (signature : Signature) (definition : Option String) : String :=
  let definition := definition.getD "None"
  s!"Registered {signature.text} = {definition}"

/-- What is reported when a request was ignored. -/
def ignoredText (name text : String) : String :=
  s!"Symbol '{name}' already defined, ignoring '{text}'"

/-- What is reported before a request is refused. -/
def rejectedText (message : String) : String :=
  s!"Rejected symbol: {message}"

namespace Desk

/-- The registry at present. -/
def current : DeskM Registry := do
  return (← getThe Desk).registry

/-- Reports an event to the journal. -/
def report (event : Event) : DeskM Unit :=
  modifyThe Desk fun desk => { desk with journal := desk.journal.post event }

/-- Appends an entry to the registry. -/
def enter (entry : Entry) : DeskM Unit :=
  modifyThe Desk fun desk => { desk with registry := ⟨desk.registry.entries ++ [entry]⟩ }

/-- Reports a collision and refuses the request for it. -/
def reject (name : String) (cause : Registry.Collision) : DeskM Unit := do
  report (.warning (rejectedText (cause.message name)))
  throw (.collision name cause)

/-- Looks for one cause of a collision after another, and rejects for the first. -/
def check (signature : Signature) : DeskM Unit := do
  if signature.name ∈ signature.arguments then
    reject signature.name .ownArgument
  let defined := (← current).definedArguments signature
  if defined ≠ [] then
    reject signature.name (.definedArguments defined)
  if signature.name ∈ (← current).arguments then
    reject signature.name .domainVariable

/-- Works on a request.  A known name is looked for before the checks if there are notes,
and after them in any case. -/
def register (request : Request) : DeskM Unit := do
  match Signature.read request.signature with
  | .error error => throw (.signature error)
  | .ok signature =>
    let ignored := Event.debug (ignoredText signature.name request.trimmedSignature)
    if request.notes.isSome && (← current).contains signature.name then
      report ignored
    else
      check signature
      if (← current).contains signature.name then
        report ignored
      else
        enter ⟨signature, request.definition, request.entryNotes signature⟩
        report (.debug (registeredText signature request.definition))

/-- Does some work to its end.  A refusal is returned. -/
def perform {α : Type} (desk : Desk) (work : DeskM α) : Except RegistrationError α × Desk :=
  work.run.run desk

/-- Works on a request to its end. -/
def serve (desk : Desk) (request : Request) : Except RegistrationError Unit × Desk :=
  desk.perform (register request)

/-- Works on requests one after another. -/
def serveAll (desk : Desk) : List Request → List (Except RegistrationError Unit) × Desk
  | [] => ([], desk)
  | request :: rest =>
    let (result, desk) := desk.serve request
    let (results, desk) := serveAll desk rest
    (result :: results, desk)

end Desk

/-! ## Outcomes of requests -/

/-- What a request returns. -/
def Outcome.result : Outcome → Except RegistrationError Unit
  | refused error => .error error
  | _ => .ok ()

namespace Registry

/-- The outcomes of requests one after another. -/
def outcomes (registry : Registry) : List Request → List Outcome
  | [] => []
  | request :: rest => registry.outcome request :: (registry.add request).outcomes rest

/-- The events that report requests one after another. -/
def events (registry : Registry) (requests : List Request) : List Event :=
  (registry.outcomes requests).flatMap Outcome.events

end Registry

namespace Desk

/-! ## Each piece of work -/

section Steps

variable {α β : Type} (desk : Desk)

@[simp]
theorem perform_pure (value : α) : desk.perform (pure value) = (.ok value, desk) :=
  rfl

/-- Work goes on with what came before, unless that was refused. -/
@[simp]
theorem perform_bind (work : DeskM α) (next : α → DeskM β) :
    desk.perform (work >>= next) =
      match desk.perform work with
      | (.ok value, later) => later.perform (next value)
      | (.error error, later) => (.error error, later) := by
  change (ExceptT.bindCont next (work.run.run desk).1).run (work.run.run desk).2 = _
  unfold perform
  rcases work.run.run desk with ⟨_ | value, later⟩ <;> rfl

@[simp]
theorem perform_throw (error : RegistrationError) :
    desk.perform (throw error : DeskM α) = (.error error, desk) :=
  rfl

@[simp]
theorem perform_current : desk.perform current = (.ok desk.registry, desk) :=
  rfl

@[simp]
theorem perform_report (event : Event) :
    desk.perform (report event) = (.ok (), ⟨desk.registry, desk.journal.post event⟩) :=
  rfl

@[simp]
theorem perform_enter (entry : Entry) :
    desk.perform (enter entry) = (.ok (), ⟨⟨desk.registry.entries ++ [entry]⟩, desk.journal⟩) :=
  rfl

@[simp]
theorem perform_reject (name : String) (cause : Registry.Collision) :
    desk.perform (reject name cause) =
      (.error (.collision name cause),
        ⟨desk.registry, desk.journal.post (.warning (rejectedText (cause.message name)))⟩) := by
  simp [reject]

end Steps

/-- The checks reject for the collision that is found, and do nothing if there is none. -/
theorem perform_check (desk : Desk) (signature : Signature) :
    desk.perform (check signature) =
      match desk.registry.collision? signature with
      | none => (.ok (), desk)
      | some cause => desk.perform (reject signature.name cause) := by
  unfold check Registry.collision?
  by_cases own : signature.name ∈ signature.arguments
  · simp [own]
  · by_cases defined : desk.registry.definedArguments signature = []
    · by_cases argument : signature.name ∈ desk.registry.arguments <;>
        simp [own, defined, argument]
    · simp [own, defined]

/-- The result of a request and the registry after it are those of its outcome, and the
journal gets the events of the outcome. -/
theorem serve_eq (desk : Desk) (request : Request) :
    desk.serve request =
      ((desk.registry.outcome request).result,
        ⟨desk.registry.add request, desk.journal.postAll (desk.registry.outcome request).events⟩) := by
  unfold serve register Registry.add Registry.outcome
  cases Signature.read request.signature with
  | error error => rfl
  | ok signature =>
    simp only [perform_bind, perform_current, Bool.and_eq_true, Registry.contains_iff]
    by_cases passed : request.notes.isSome = true ∧ signature.name ∈ desk.registry.names
    · simp only [passed, and_self, if_true, perform_report]
      rfl
    · simp only [passed, if_false, perform_bind, perform_check]
      cases desk.registry.collision? signature with
      | some cause =>
        simp only [perform_reject]
        rfl
      | none =>
        by_cases known : signature.name ∈ desk.registry.names
        · simp only [perform_current, known, if_true, perform_report]
          rfl
        · simp only [perform_current, known, if_false, perform_bind, perform_enter,
            perform_report]
          rfl

/-- So are those of requests one after another. -/
theorem serveAll_eq (desk : Desk) (requests : List Request) :
    desk.serveAll requests =
      ((desk.registry.outcomes requests).map Outcome.result,
        ⟨desk.registry.addAll requests, desk.journal.postAll (desk.registry.events requests)⟩) := by
  induction requests generalizing desk with
  | nil => rfl
  | cons request rest ih =>
    have posted : (desk.journal.postAll (desk.registry.outcome request).events).postAll
        ((desk.registry.add request).events rest) =
        desk.journal.postAll (desk.registry.events (request :: rest)) :=
      List.foldl_append.symm
    simp only [serveAll, serve_eq, ih, posted]
    rfl

end Desk

/-! ## The event of a request -/

/-- What is reported of a registration and what is reported of an ignored request differ
in their first characters. -/
theorem registeredText_ne_ignoredText (signature : Signature) (definition : Option String)
    (name text : String) : registeredText signature definition ≠ ignoredText name text := by
  intro same
  have texts := congrArg String.toList same
  simp [registeredText, ignoredText, toString] at texts

namespace Registry

/-- An event reports a request: it tells of a registration when the registry grew, of an
ignored request when nothing changed and nothing was refused, and it is a warning when the
request was refused, with the message of the refusal. -/
structure Reports (registry : Registry) (request : Request) (signature : Signature)
    (event : Event) : Prop where
  registered : event = .debug (registeredText signature request.definition) ↔
    (registry.add request).size = registry.size + 1
  ignored : event = .debug (ignoredText signature.name request.trimmedSignature) ↔
    registry.add request = registry ∧ (registry.outcome request).result = .ok ()
  refused : (∃ message, event = .warning message) ↔
    ∃ error, (registry.outcome request).result = .error error
  worded : ∀ error, (registry.outcome request).result = .error error →
    event = .warning (rejectedText error.message)

/-- A request whose signature cannot be read is not reported. -/
theorem events_eq_nil {registry : Registry} {request : Request} {error : SignatureError}
    (unreadable : Signature.read request.signature = .error error) :
    (registry.outcome request).events = [] := by
  rw [outcome, unreadable]
  rfl

/-- What can become of a request whose signature can be read. -/
theorem outcome_cases (registry : Registry) {request : Request} {signature : Signature}
    (readable : Signature.read request.signature = .ok signature) :
    registry.outcome request =
        .registered ⟨signature, request.definition, request.entryNotes signature⟩ ∨
      registry.outcome request = .ignored signature.name request.trimmedSignature ∨
      ∃ cause, registry.outcome request = .refused (.collision signature.name cause) := by
  rw [outcome, readable]
  simp only
  split
  · exact .inr (.inl rfl)
  · cases registry.collision? signature with
    | some cause => exact .inr (.inr ⟨cause, rfl⟩)
    | none =>
      simp only
      split
      · exact .inr (.inl rfl)
      · exact .inl rfl

/-- A request whose signature can be read is reported once, in words that tell what became
of it. -/
theorem exists_event (registry : Registry) {request : Request} {signature : Signature}
    (readable : Signature.read request.signature = .ok signature) :
    ∃ event, (registry.outcome request).events = [event] ∧
      registry.Reports request signature event := by
  rcases registry.outcome_cases readable with decided | decided | ⟨cause, decided⟩
  · have grown : (registry.add request).size = registry.size + 1 := by
      simp [add, decided, after, size]
    have changed : registry.add request ≠ registry := by
      intro same
      rw [same] at grown
      omega
    refine ⟨.debug (registeredText signature request.definition), by rw [decided]; rfl, ?_⟩
    constructor
    · simp [grown]
    · simp [changed, registeredText_ne_ignoredText]
    · simp [decided, Outcome.result]
    · simp [decided, Outcome.result]
  · have kept : registry.add request = registry := by rw [add, decided, after]
    refine ⟨.debug (ignoredText signature.name request.trimmedSignature), by rw [decided]; rfl, ?_⟩
    constructor
    · simp [kept, (registeredText_ne_ignoredText _ _ _ _).symm]
    · simp [kept, decided, Outcome.result]
    · simp [decided, Outcome.result]
    · simp [decided, Outcome.result]
  · have kept : registry.add request = registry := by rw [add, decided, after]
    refine ⟨.warning (rejectedText (cause.message signature.name)), by rw [decided]; rfl, ?_⟩
    constructor
    · simp [kept]
    · simp [decided, Outcome.result]
    · simp [decided, Outcome.result]
    · simp [decided, Outcome.result, RegistrationError.message]

end Registry

/-! ## What is heard -/

namespace Event

/-- A warning. -/
def isWarning : Event → Bool
  | warning _ => true
  | _ => false

/-- The events among warnings and details that a console of the given verbosity shows. -/
def heard (verbosity : Verbosity) (events : List Event) : List Event :=
  match verbosity with
  | .silent => []
  | .verbose => events
  | _ => events.filter isWarning

/-- A console of greater verbosity shows the same events and others between them. -/
theorem heard_sublist {first second : Verbosity} (le : first.value ≤ second.value)
    (events : List Event) : (heard first events).Sublist (heard second events) := by
  cases first <;> cases second <;>
    first
    | exact absurd le (by decide)
    | exact List.nil_sublist _
    | exact List.filter_sublist
    | exact List.Sublist.refl _

end Event

namespace Registry

/-- A request is reported by a warning or a detail. -/
theorem required_of_mem_events {registry : Registry} {request : Request} {event : Event}
    (member : event ∈ (registry.outcome request).events) :
    event.required = if event.isWarning then .minimal else .verbose := by
  cases decided : registry.outcome request with
  | registered entry =>
    rw [decided] at member
    cases List.mem_singleton.1 member
    rfl
  | ignored name text =>
    rw [decided] at member
    cases List.mem_singleton.1 member
    rfl
  | refused error =>
    rw [decided] at member
    cases error with
    | signature error => cases member
    | collision name cause =>
      cases List.mem_singleton.1 member
      rfl

/-- The events of requests are warnings and details as well. -/
theorem required_of_mem_allEvents {registry : Registry} {requests : List Request}
    {event : Event} (member : event ∈ registry.events requests) :
    event.required = if event.isWarning then .minimal else .verbose := by
  induction requests generalizing registry with
  | nil => cases member
  | cons request rest ih =>
    rcases List.mem_append.1 member with now | later
    · exact required_of_mem_events now
    · exact ih later

/-- A logger shows those of the events of requests that are heard at the verbosity at which
it was created. -/
theorem filter_echoes (registry : Registry) (requests : List Request) (journal : Journal)
    (verbosity : Verbosity) (toFile : Bool) :
    (registry.events requests).filter (journal.configure verbosity toFile).current.echoes =
      Event.heard verbosity (registry.events requests) := by
  have echoed : ∀ event, (journal.configure verbosity toFile).current.echoes event =
      ((verbosity != .silent) && event.isShown verbosity) := fun _ => rfl
  have required := fun event (member : event ∈ registry.events requests) =>
    required_of_mem_allEvents member
  cases verbosity with
  | silent => simp [Event.heard, echoed]
  | verbose =>
    refine List.filter_eq_self.2 ?_
    intro event member
    rw [echoed, Event.isShown, required event member]
    cases event.isWarning <;> rfl
  | minimal | moderate | detailed =>
    refine List.filter_congr ?_
    intro event member
    rw [echoed, Event.isShown, required event member]
    cases event.isWarning <;> rfl

end Registry

namespace Desk

/-- At a console that a new logger has, requests add what is heard of their events. -/
theorem console_serveAll (registry : Registry) (requests : List Request) (journal : Journal)
    (verbosity : Verbosity) (toFile : Bool) :
    (serveAll ⟨registry, journal.configure verbosity toFile⟩ requests).2.journal.console =
      journal.console ++
        (Event.heard verbosity (registry.events requests)).map Event.record := by
  rw [serveAll_eq, Journal.console_postAll, Registry.filter_echoes]
  rfl

/-- The requests for `f(x)`, for `x`, for `f(y)` and for something without a name. -/
def fourRequests : List Request :=
  [Registry.plainRequest (some "f(x)") (some "[x]"), Registry.plainRequest (some "x") (some "1"),
    Registry.plainRequest (some "f(y)") none, Registry.plainRequest (some "(") none]

end Desk

end Formulary

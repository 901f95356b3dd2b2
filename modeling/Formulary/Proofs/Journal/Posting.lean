import Formulary.Journal

/-!
# What events add

Reporting an event creates a logger if there is none, and never changes or replaces one.
What it adds is one record at most for every sink of the logger in use.

Main results:

- Definition `Logger.echoes`: the events that a logger brings to the console.
- Theorem `Journal.current_post`: the logger in use stays what it is.
- Theorems `Journal.console_post` and `Journal.files_post`: what one event adds.
- Theorem `Journal.console_postAll`: what events one after another add.
-/

namespace Formulary

/-- A verbosity admits an event from the one on that the event requires. -/
theorem Event.isShown_iff {event : Event} {verbosity : Verbosity} :
    event.isShown verbosity = true ↔ event.required.value ≤ verbosity.value :=
  decide_eq_true_iff

/-- A logger brings an event to the console if it has the console and its verbosity
admits the event. -/
def Logger.echoes (logger : Logger) (event : Event) : Bool :=
  logger.hasConsole && event.isShown logger.verbosity

namespace Journal

/-! ## The logger in use -/

@[simp]
theorem current_ensure (journal : Journal) : journal.ensure.current = journal.current := by
  rcases journal with ⟨_ | logger, console, files⟩ <;> rfl

@[simp]
theorem console_ensure (journal : Journal) : journal.ensure.console = journal.console := by
  rcases journal with ⟨_ | logger, console, files⟩ <;> rfl

@[simp]
theorem files_ensure (journal : Journal) : journal.ensure.files = journal.files := by
  rcases journal with ⟨_ | logger, console, files⟩ <;> rfl

@[simp]
theorem logger_write (journal : Journal) (logger : Logger) (record : Record) :
    (journal.write logger record).logger = journal.logger :=
  rfl

/-- After an event the logger that was in use, or would have been, is the logger. -/
@[simp]
theorem logger_post (journal : Journal) (event : Event) :
    (journal.post event).logger = some journal.current := by
  unfold post
  split <;> simp [logger_ensure]

/-- An event leaves the logger in use as it is. -/
@[simp]
theorem current_post (journal : Journal) (event : Event) :
    (journal.post event).current = journal.current := by
  simp [current]

/-! ## Records -/

/-- An event adds its record to the console if the logger in use brings it there, and
nothing otherwise. -/
theorem console_post (journal : Journal) (event : Event) :
    (journal.post event).console =
      journal.console ++ if journal.current.echoes event then [event.record] else [] := by
  unfold post Logger.echoes
  by_cases shown : event.isShown journal.current.verbosity = true
  · by_cases connected : journal.current.hasConsole = true
    · simp [shown, connected, write]
    · simp [shown, connected, write]
  · simp [shown]

/-- An event adds its record to the file of the logger in use, if that has one and its
verbosity admits the event. -/
theorem files_post (journal : Journal) (event : Event) :
    (journal.post event).files =
      match journal.current.file, event.isShown journal.current.verbosity with
      | some file, true => journal.files.modify file (· ++ [event.record])
      | _, _ => journal.files := by
  unfold post
  by_cases shown : event.isShown journal.current.verbosity = true
  · cases own : journal.current.file <;> simp [shown, own, write]
  · simp [shown]

/-- Events one after another add the records of those that the logger in use brings to the
console, in their order. -/
theorem console_postAll (journal : Journal) (events : List Event) :
    (journal.postAll events).console =
      journal.console ++ (events.filter journal.current.echoes).map Event.record := by
  induction events generalizing journal with
  | nil => simp [postAll]
  | cons event rest ih =>
    have later : (journal.postAll (event :: rest)).console =
        (journal.post event).console ++
          (rest.filter (journal.post event).current.echoes).map Event.record := ih _
    rw [later, current_post, console_post, List.append_assoc]
    by_cases echoed : journal.current.echoes event = true <;> simp [echoed]

end Journal

end Formulary

import Formulary.Proofs.Journal.Reconfiguring

/-!
# Verbosity and the console

Setting the verbosity neither gives a logger the console nor takes it away.  So what is
shown later depends on the verbosity in force, and besides on whether the latest logger was
created silent.  This module says when two histories are the same to the console, when
setting a verbosity comes to the same as creating a logger of that verbosity, and what is
still shown while the verbosity is silent.

Main results:

- Definition `Journal.added`: what later events add to the console.
- Theorem `Journal.added_eq_iff`: two histories that lead to one verbosity are the same to
  the console exactly if both or none of the latest loggers were created silent.
- Theorem `Journal.console_after_settings`: this, when setting and creating are the same,
  and what is shown in silence.
- Theorem `Journal.console_after_silent_creation`: the verbosity in force does not decide
  alone.
-/

namespace Formulary.Journal

/-- What events add to the console. -/
def added (journal : Journal) (events : List Event) : List Record :=
  (journal.postAll events).console.drop journal.console.length

/-- What is added are the records of the events that the logger in use brings there. -/
theorem added_eq (journal : Journal) (events : List Event) :
    journal.added events = (events.filter journal.current.echoes).map Event.record := by
  rw [added, console_postAll, List.drop_left]

/-- The logger in use is the one that the commands tell of. -/
theorem current_performAll (commands : List Command) :
    (empty.performAll commands).current = loggerAfter commands :=
  (follows_empty.performAll commands).current

/-! ## Loggers of one verbosity -/

/-- An event that requires nothing is brought to the console by every logger that has it. -/
theorem echoes_of_required_silent {event : Event} (required : event.required = .silent)
    (logger : Logger) : logger.echoes event = logger.hasConsole := by
  simp [Logger.echoes, Event.isShown, required, Verbosity.value]

/-- While the verbosity is silent, these are the only events that are brought there. -/
theorem echoes_of_verbosity_silent {logger : Logger} (silent : logger.verbosity = .silent)
    (event : Event) :
    logger.echoes event = (logger.hasConsole && decide (event.required = .silent)) := by
  have least : event.isShown .silent = decide (event.required = .silent) := by
    unfold Event.isShown
    cases event.required <;> rfl
  rw [Logger.echoes, silent, least]

/-- Loggers of one verbosity bring the same events to the console exactly if both or none of
them have it. -/
theorem records_eq_iff {first second : Logger} (same : first.verbosity = second.verbosity) :
    (∀ events : List Event, (events.filter first.echoes).map Event.record =
        (events.filter second.echoes).map Event.record) ↔
      first.hasConsole = second.hasConsole := by
  constructor
  · intro all
    -- an event that requires nothing tells whether there is the console
    have shown := congrArg List.length (all [.info "" .silent])
    rw [List.length_map, List.length_map, List.filter_cons, List.filter_cons,
      echoes_of_required_silent rfl, echoes_of_required_silent rfl] at shown
    cases own : first.hasConsole <;> cases other : second.hasConsole <;>
      simp [own, other] at shown ⊢
  · intro alike events
    have echoed : first.echoes = second.echoes := by
      funext event
      rw [Logger.echoes, Logger.echoes, same, alike]
    rw [echoed]

/-! ## Histories that lead to one verbosity -/

/-- The latest logger has the console unless it was created silent. -/
theorem hasConsole_loggerAfter (history : List Command) :
    (loggerAfter history).hasConsole = !decide ((lastCreation history).verbosity = .silent) :=
  rfl

/-- Both or none of two loggers got the console exactly if both or none were created
silent. -/
theorem hasConsole_eq_iff (commands others : List Command) :
    (loggerAfter commands).hasConsole = (loggerAfter others).hasConsole ↔
      ((lastCreation commands).verbosity = .silent ↔ (lastCreation others).verbosity = .silent) := by
  by_cases first : (lastCreation commands).verbosity = .silent <;>
    by_cases second : (lastCreation others).verbosity = .silent <;>
    simp [hasConsole_loggerAfter, first, second]

/-- Two histories that lead to one verbosity are the same to the console exactly if both or
none of the latest loggers were created silent. -/
theorem added_eq_iff {commands others : List Command}
    (same : currentVerbosity commands = currentVerbosity others) :
    (∀ events, (empty.performAll commands).added events =
        (empty.performAll others).added events) ↔
      ((lastCreation commands).verbosity = .silent ↔ (lastCreation others).verbosity = .silent) := by
  simp only [added_eq, current_performAll]
  exact (records_eq_iff same).trans (hasConsole_eq_iff commands others)

/-- To set a verbosity comes to the same as to create a logger of it, if there is none or the
latest one was created silent just when the new one would be. -/
theorem added_setVerbosity_eq_iff (commands : List Command) (verbosity : Verbosity)
    (path : Option String) :
    (∀ events, (empty.performAll (commands ++ [.setVerbosity verbosity])).added events =
        (empty.performAll (commands ++ [.configure verbosity path])).added events) ↔
      (commands = [] ∨ ((lastCreation commands).verbosity = .silent ↔ verbosity = .silent)) := by
  have level : currentVerbosity (commands ++ [.setVerbosity verbosity]) =
      currentVerbosity (commands ++ [.configure verbosity path]) := by
    rw [currentVerbosity_concat, currentVerbosity_concat]
    rfl
  rw [added_eq_iff level, lastCreation_concat, lastCreation_concat]
  by_cases start : commands = []
  · simp [Command.creation?, Command.firstCreation, start]
  · simp [Command.creation?, start]

/-- While the verbosity is silent, what requires nothing is shown by a logger that was not
created silent, and nothing else is shown at all. -/
theorem added_of_silent {commands : List Command} (silent : currentVerbosity commands = .silent)
    (events : List Event) :
    (empty.performAll commands).added events =
      if (lastCreation commands).verbosity = .silent then []
      else (events.filter (·.required = .silent)).map Event.record := by
  have echoed : (loggerAfter commands).echoes = fun event =>
      (loggerAfter commands).hasConsole && decide (event.required = .silent) :=
    funext (echoes_of_verbosity_silent silent)
  rw [added_eq, current_performAll, echoed]
  by_cases created : (lastCreation commands).verbosity = .silent <;>
    simp [hasConsole_loggerAfter, created]

/-- After two histories that lead to one verbosity, all later events are shown alike exactly
if both or none of the latest loggers were created silent.  Setting a verbosity and creating
a logger of it are the same to the console exactly if there was no logger, or the latest one
was created silent just when that verbosity is silent.  While the verbosity is silent, what
requires nothing is shown by a logger that was not created silent, and nothing else. -/
theorem console_after_settings (commands others : List Command) (verbosity : Verbosity)
    (path : Option String) :
    ((empty.performAll commands).current.verbosity =
        (empty.performAll others).current.verbosity →
      ((∀ events, (empty.performAll commands).added events =
          (empty.performAll others).added events) ↔
        ((lastCreation commands).verbosity = .silent ↔
          (lastCreation others).verbosity = .silent))) ∧
    ((∀ events, (empty.performAll (commands ++ [.setVerbosity verbosity])).added events =
        (empty.performAll (commands ++ [.configure verbosity path])).added events) ↔
      (commands = [] ∨ ((lastCreation commands).verbosity = .silent ↔ verbosity = .silent))) ∧
    ((empty.performAll commands).current.verbosity = .silent →
      ∀ events, (empty.performAll commands).added events =
        if (lastCreation commands).verbosity = .silent then []
        else (events.filter (·.required = .silent)).map Event.record) := by
  simp only [current_performAll]
  exact ⟨added_eq_iff, added_setVerbosity_eq_iff commands verbosity path, added_of_silent⟩

/-- A logger that was created silent shows nothing when its verbosity is raised, as another
one does that was created silent; one that was not goes on showing what requires nothing
when it is silenced. -/
theorem console_after_settings_raised :
    (empty.performAll [.configure .silent none, .setVerbosity .verbose]).current.verbosity =
        (empty.performAll [.setVerbosity .silent, .setVerbosity .verbose]).current.verbosity ∧
      (∀ events,
        (empty.performAll [.configure .silent none, .setVerbosity .verbose]).added events =
          (empty.performAll [.setVerbosity .silent, .setVerbosity .verbose]).added events) ∧
      (empty.performAll [.configure .minimal none, .setVerbosity .silent]).current.verbosity =
        .silent ∧
      (empty.performAll [.configure .minimal none, .setVerbosity .silent]).added
        [.warning "late", .info "still" .silent] = [⟨.info, "still"⟩] := by
  obtain ⟨alike, -, -⟩ := console_after_settings [.configure .silent none, .setVerbosity .verbose]
    [.setVerbosity .silent, .setVerbosity .verbose] .verbose none
  obtain ⟨-, -, silent⟩ := console_after_settings [.configure .minimal none, .setVerbosity .silent]
    [] .verbose none
  refine ⟨rfl, (alike rfl).2 ?_, rfl, ?_⟩
  · decide
  · rw [silent rfl]
    decide

/-- The verbosity in force does not decide alone what is shown: a warning is lost after a
silent logger was made verbose, and is shown by a logger that was created verbose.  Nor does
silence keep everything from the console. -/
theorem console_after_silent_creation :
    (empty.performAll [.configure .silent none, .setVerbosity .verbose]).current.verbosity =
        (empty.performAll [.configure .verbose none]).current.verbosity ∧
      (empty.performAll [.configure .silent none, .setVerbosity .verbose]).added
        [.warning "late"] = [] ∧
      (empty.performAll [.configure .verbose none]).added [.warning "late"] =
        [⟨.warning, "late"⟩] ∧
      (empty.performAll [.configure .minimal none, .setVerbosity .silent]).current.verbosity =
        .silent ∧
      (empty.performAll [.configure .minimal none, .setVerbosity .silent]).added
        [.info "still" .silent] = [⟨.info, "still"⟩] := by
  decide

end Formulary.Journal

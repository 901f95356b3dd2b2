/-!
# The journal

Events are reported to a logger with a verbosity.  The logger writes records to
the console and to a file; which of the two it has is settled when it is
created, and its verbosity can be changed later.

Main results:

- Definition `Journal.post`: an event reaches every sink of the logger when the
  verbosity admits it.
- Theorems `Journal.post_shown` and `Journal.post_hidden`: what one event adds.
-/

namespace Formulary

/-! ## Verbosity -/

/-- How much is reported. -/
inductive Verbosity
  | silent | minimal | moderate | detailed | verbose
deriving DecidableEq, Repr

namespace Verbosity

/-- The verbosities from the least to the greatest. -/
def all : List Verbosity :=
  [silent, minimal, moderate, detailed, verbose]

/-- The number of a verbosity. -/
def value : Verbosity → Nat
  | silent => 0 | minimal => 1 | moderate => 2 | detailed => 3 | verbose => 4

/-- The name in capitals. -/
def name : Verbosity → String
  | silent => "SILENT" | minimal => "MINIMAL" | moderate => "MODERATE"
  | detailed => "DETAILED" | verbose => "VERBOSE"

/-- The verbosity with a given name. -/
def ofName? (name : String) : Option Verbosity :=
  all.find? (·.name == name)

/-- Every verbosity is found under its name. -/
@[simp]
theorem ofName?_name (verbosity : Verbosity) : ofName? verbosity.name = some verbosity := by
  cases verbosity <;> decide +kernel

end Verbosity

/-! ## Events and records -/

/-- What is reported: information with the verbosity that it needs, a warning,
or a detail for finding faults. -/
inductive Event
  | info (message : String) (required : Verbosity)
  | warning (message : String)
  | debug (message : String)
deriving DecidableEq, Repr

/-- How grave a record is. -/
inductive Severity
  | info | warning | debug
deriving DecidableEq, Repr

/-- The name in capitals. -/
def Severity.name : Severity → String
  | info => "INFO" | warning => "WARNING" | debug => "DEBUG"

/-- A line of a log without its time. -/
structure Record where
  severity : Severity
  message : String
deriving DecidableEq, Repr

/-- The line of a log that was written at the given time of day. -/
def Record.line (time : String) (record : Record) : String :=
  time ++ " - " ++ record.severity.name ++ " - " ++ record.message ++ "\n"

namespace Event

/-- The least verbosity at which an event is reported. -/
def required : Event → Verbosity
  | info _ required => required
  | warning _ => .minimal
  | debug _ => .verbose

/-- The record of an event. -/
def record : Event → Record
  | info message _ => ⟨.info, message⟩
  | warning message => ⟨.warning, message⟩
  | debug message => ⟨.debug, "DEBUG: " ++ message⟩

/-- An event is reported from the verbosity on that it requires. -/
def isShown (event : Event) (verbosity : Verbosity) : Bool :=
  event.required.value ≤ verbosity.value

end Event

/-! ## The logger and what was written -/

/-- A logger: its verbosity, whether it has the console, and the number of its
file if it has one. -/
structure Logger where
  verbosity : Verbosity
  hasConsole : Bool
  file : Option Nat
deriving DecidableEq, Repr

/-- The number of sinks of a logger. -/
def Logger.sinks (logger : Logger) : Nat :=
  (if logger.hasConsole then 1 else 0) + (if logger.file.isSome then 1 else 0)

/-- The logger in use, everything written to the console, and everything written
to each file that was opened. -/
structure Journal where
  logger : Option Logger
  console : List Record
  files : List (List Record)
deriving DecidableEq, Repr

namespace Journal

/-- Nothing is written and there is no logger. -/
def empty : Journal := ⟨none, [], []⟩

/-- Creates a logger, which takes the place of the present one.  A silent logger
gets no console; a file is new and empty.  Opening a file is taken to succeed: where
it does not, there is no new logger, and the present one has lost its sinks. -/
def configure (journal : Journal) (verbosity : Verbosity) (toFile : Bool) : Journal where
  logger := some
    { verbosity := verbosity
      hasConsole := verbosity != .silent
      file := if toFile then some journal.files.length else none }
  console := journal.console
  files := if toFile then journal.files ++ [[]] else journal.files

/-- Changes the verbosity of the logger and none of its sinks; creates a logger
if there is none. -/
def setVerbosity (journal : Journal) (verbosity : Verbosity) : Journal :=
  match journal.logger with
  | none => journal.configure verbosity false
  | some logger => { journal with logger := some { logger with verbosity := verbosity } }

/-- Creates a logger of minimal verbosity if there is none. -/
def ensure (journal : Journal) : Journal :=
  match journal.logger with
  | none => journal.configure .minimal false
  | some _ => journal

/-- The logger in use once there is one. -/
def current (journal : Journal) : Logger :=
  match journal.logger with
  | none => ⟨.minimal, true, none⟩
  | some logger => logger

/-- Writes a record to the sinks of a logger. -/
def write (journal : Journal) (logger : Logger) (record : Record) : Journal where
  logger := journal.logger
  console := if logger.hasConsole then journal.console ++ [record] else journal.console
  files := match logger.file with
    | none => journal.files
    | some file => journal.files.modify file (· ++ [record])

/-- Reports an event: it reaches every sink of the logger when the verbosity
admits it. -/
def post (journal : Journal) (event : Event) : Journal :=
  if event.isShown journal.current.verbosity then
    journal.ensure.write journal.current event.record
  else journal.ensure

/-- Reports events one after another. -/
def postAll (journal : Journal) (events : List Event) : Journal :=
  events.foldl post journal

/-- An event that the verbosity admits is written by the logger in use. -/
theorem post_shown {journal : Journal} {event : Event}
    (h : event.isShown journal.current.verbosity = true) :
    journal.post event = journal.ensure.write journal.current event.record := by
  rw [post, if_pos h]

/-- An event that the verbosity does not admit leaves nothing. -/
theorem post_hidden {journal : Journal} {event : Event}
    (h : event.isShown journal.current.verbosity = false) :
    journal.post event = journal.ensure := by
  rw [post, if_neg (by simp [h])]

/-- The logger in use is the one that `ensure` leaves. -/
theorem logger_ensure (journal : Journal) : journal.ensure.logger = some journal.current := by
  rcases journal with ⟨_ | logger, console, files⟩ <;> rfl

end Journal

end Formulary

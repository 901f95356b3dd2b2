import Mathlib.Data.List.Induction
import Formulary.Proofs.Journal.Posting

/-!
# Records across loggers

A journal is given new loggers, its verbosity is changed and events are posted, in any
order.  Whatever was done before, each event leaves one record where the logger in use
has to bring it, and none elsewhere.

What decides is read off the history of commands alone: which of them created the latest
logger, and which of them set the verbosity last.

Main results:

- Definitions `Journal.lastCreation` and `Journal.currentVerbosity`: the latest logger
  and the present verbosity, told by a history.
- Definition `Journal.postings`: the events posted, each with the commands before it.
- Theorem `Journal.Follows.perform`: a journal goes on following its history.
- Theorem `Journal.written_once`: the console, and what is found under each path, are the
  records of the events that have to be there, once each and in their order.
-/

namespace Formulary.Journal

/-! ## Commands -/

/-- What a journal is told to do.  A new logger may have a file, which is opened under a
path. -/
inductive Command
  | configure (verbosity : Verbosity) (path : Option String)
  | setVerbosity (verbosity : Verbosity)
  | get
  | post (event : Event)
deriving DecidableEq, Repr

/-- The journal after a command. -/
def perform (journal : Journal) : Command → Journal
  | .configure verbosity path => journal.configure verbosity path.isSome
  | .setVerbosity verbosity => journal.setVerbosity verbosity
  | .get => journal.ensure
  | .post event => journal.post event

/-- The journal after commands one after another. -/
def performAll (journal : Journal) (commands : List Command) : Journal :=
  commands.foldl perform journal

@[simp]
theorem performAll_nil (journal : Journal) : journal.performAll [] = journal :=
  rfl

@[simp]
theorem performAll_cons (journal : Journal) (command : Command) (rest : List Command) :
    journal.performAll (command :: rest) = (journal.perform command).performAll rest :=
  rfl

/-! ## What a history says -/

/-- What a logger was created with: its verbosity, and the path of its file if it got
one. -/
structure Creation where
  verbosity : Verbosity
  path : Option String
deriving DecidableEq, Repr

namespace Command

/-- The logger that a command creates whether or not there is one. -/
def creation? : Command → Option Creation
  | configure verbosity path => some ⟨verbosity, path⟩
  | _ => none

/-- The logger that a command creates when there is none. -/
def firstCreation : Command → Creation
  | configure verbosity path => ⟨verbosity, path⟩
  | setVerbosity verbosity => ⟨verbosity, none⟩
  | _ => ⟨.minimal, none⟩

/-- The verbosity that a command sets. -/
def verbosity? : Command → Option Verbosity
  | configure verbosity _ => some verbosity
  | setVerbosity verbosity => some verbosity
  | _ => none

/-- The path under which a command opens a file. -/
def path? : Command → Option String
  | configure _ path => path
  | _ => none

end Command

/-- The latest logger: that of the last command that creates one in any case, or else the
one that the first command found missing.  Without any command there would be one of
minimal verbosity. -/
def lastCreation (history : List Command) : Creation :=
  (history.reverse.findSome? Command.creation?).getD
    ((history.head?.map Command.firstCreation).getD ⟨.minimal, none⟩)

/-- The verbosity that was set last. -/
def currentVerbosity (history : List Command) : Verbosity :=
  (history.reverse.findSome? Command.verbosity?).getD .minimal

/-- The paths under which files were opened, in order. -/
def openedPaths (history : List Command) : List String :=
  history.filterMap Command.path?

/-- The latest logger after one more command. -/
theorem lastCreation_concat (history : List Command) (command : Command) :
    lastCreation (history ++ [command]) =
      command.creation?.getD
        (if history = [] then command.firstCreation else lastCreation history) := by
  cases history with
  | nil => cases command <;> rfl
  | cons first rest => cases command <;> simp [lastCreation, Command.creation?, List.findSome?_cons]

/-- The verbosity after one more command. -/
theorem currentVerbosity_concat (history : List Command) (command : Command) :
    currentVerbosity (history ++ [command]) =
      command.verbosity?.getD (currentVerbosity history) := by
  cases command <;> simp [currentVerbosity, Command.verbosity?, List.findSome?_cons]

theorem openedPaths_concat (history : List Command) (command : Command) :
    openedPaths (history ++ [command]) = openedPaths history ++ command.path?.toList := by
  cases opened : command.path? <;> simp [openedPaths, opened]

/-- The file of the latest logger is opened by the last command, unless that opens none and
leaves the latest logger as it is. -/
theorem path_of_lastCreation_concat {history : List Command} {command : Command} {path : String}
    (own : (lastCreation (history ++ [command])).path = some path) :
    command.path? = some path ∨
      command.path? = none ∧ (lastCreation history).path = some path := by
  rw [lastCreation_concat] at own
  cases command with
  | configure verbosity opened => exact .inl own
  | _ =>
    right
    by_cases first : history = []
    · simp [Command.creation?, Command.firstCreation, first] at own
    · simpa [Command.creation?, Command.path?, first] using own

/-- If the latest logger has a file, no file was opened after it. -/
theorem getLast?_openedPaths {history : List Command} {path : String}
    (own : (lastCreation history).path = some path) :
    (openedPaths history).getLast? = some path := by
  induction history using List.reverseRecOn with
  | nil => cases own
  | append_singleton history command ih =>
    rw [openedPaths_concat]
    rcases path_of_lastCreation_concat own with opened | ⟨none_opened, before⟩
    · simp [opened]
    · simpa [none_opened] using ih before

/-! ## A journal and its history -/

/-- The logger in use after a history. -/
def loggerAfter (history : List Command) : Logger where
  verbosity := currentVerbosity history
  hasConsole := (lastCreation history).verbosity != .silent
  file := (lastCreation history).path.map fun _ => (openedPaths history).length - 1

/-- A journal follows a history when there is a logger once there was a command, the
logger in use is the one that the history tells of, and there are as many files as were
opened. -/
structure Follows (journal : Journal) (history : List Command) : Prop where
  started : journal.logger = none ↔ history = []
  current : journal.current = loggerAfter history
  files : journal.files.length = (openedPaths history).length

theorem follows_empty : empty.Follows [] where
  started := by simp [empty]
  current := rfl
  files := rfl

variable {journal : Journal} {history : List Command}

theorem length_files_post (journal : Journal) (event : Event) :
    (journal.post event).files.length = journal.files.length := by
  rw [files_post]
  split <;> simp

/-- A new logger is the one that the history then tells of. -/
theorem Follows.configure (follows : journal.Follows history) (verbosity : Verbosity)
    (path : Option String) :
    (journal.configure verbosity path.isSome).Follows
      (history ++ [.configure verbosity path]) := by
  have own : lastCreation (history ++ [.configure verbosity path]) = ⟨verbosity, path⟩ :=
    lastCreation_concat history _
  have level : currentVerbosity (history ++ [.configure verbosity path]) = verbosity :=
    currentVerbosity_concat history _
  refine ⟨by simp [Journal.configure], ?_, ?_⟩
  · rw [loggerAfter, own, level, openedPaths_concat]
    cases path <;>
      simp [Journal.configure, Journal.current, Command.path?, follows.files]
  · rw [openedPaths_concat]
    cases path <;> simp [Journal.configure, Command.path?, follows.files]

/-- Another verbosity is that of the logger in use, or of the first one. -/
theorem Follows.setVerbosity (follows : journal.Follows history) (verbosity : Verbosity) :
    (journal.setVerbosity verbosity).Follows (history ++ [.setVerbosity verbosity]) := by
  by_cases start : history = []
  · -- nothing tells the first logger from one that was asked for with that verbosity
    have missing := follows.started.2 start
    have first : journal.setVerbosity verbosity = journal.configure verbosity false := by
      rw [Journal.setVerbosity, missing]
    subst start
    rw [first]
    obtain ⟨-, current, files⟩ := follows.configure verbosity none
    exact ⟨by simp [Journal.configure], current, files⟩
  · obtain ⟨logger, present⟩ := Option.ne_none_iff_exists'.1 (mt follows.started.1 start)
    have changed : journal.setVerbosity verbosity =
        { journal with logger := some { logger with verbosity := verbosity } } := by
      rw [Journal.setVerbosity, present]
    have described : logger = loggerAfter history := by
      rw [← follows.current, Journal.current, present]
    have same : lastCreation (history ++ [.setVerbosity verbosity]) = lastCreation history := by
      simp [lastCreation_concat, Command.creation?, start]
    have level : currentVerbosity (history ++ [.setVerbosity verbosity]) = verbosity :=
      currentVerbosity_concat history _
    rw [changed]
    refine ⟨by simp, ?_, ?_⟩
    · rw [loggerAfter, same, level, openedPaths_concat, described]
      simp [Journal.current, loggerAfter, Command.path?]
    · rw [openedPaths_concat]
      simpa [Command.path?] using follows.files

/-- A command that sets nothing leaves the logger that a history tells of. -/
theorem loggerAfter_concat_of_idle {command : Command} (created : command.creation? = none)
    (first : command.firstCreation = ⟨.minimal, none⟩) (verbosity : command.verbosity? = none)
    (path : command.path? = none) : loggerAfter (history ++ [command]) = loggerAfter history := by
  have same : lastCreation (history ++ [command]) = lastCreation history := by
    rw [lastCreation_concat, created, first, Option.getD_none]
    split
    · next start => rw [start]; rfl
    · rfl
  rw [loggerAfter, loggerAfter, same, currentVerbosity_concat, openedPaths_concat, verbosity, path]
  simp

/-- A journal goes on following its history. -/
theorem Follows.perform (follows : journal.Follows history) (command : Command) :
    (journal.perform command).Follows (history ++ [command]) := by
  cases command with
  | configure verbosity path => exact follows.configure verbosity path
  | setVerbosity verbosity => exact follows.setVerbosity verbosity
  | get =>
    refine ⟨?_, ?_, ?_⟩
    · simp [Journal.perform, logger_ensure]
    · rw [loggerAfter_concat_of_idle rfl rfl rfl rfl, ← follows.current]
      exact current_ensure journal
    · rw [openedPaths_concat]
      simp [Journal.perform, Command.path?, follows.files]
  | post event =>
    refine ⟨?_, ?_, ?_⟩
    · simp [Journal.perform]
    · rw [loggerAfter_concat_of_idle rfl rfl rfl rfl, ← follows.current]
      exact current_post journal event
    · rw [openedPaths_concat]
      simp [Journal.perform, Command.path?, length_files_post, follows.files]

theorem Follows.performAll (follows : journal.Follows history) (commands : List Command) :
    (journal.performAll commands).Follows (history ++ commands) := by
  induction commands generalizing journal history with
  | nil => simpa using follows
  | cons command rest ih => simpa using ih (follows.perform command)

/-! ## Events posted -/

/-- An event that was posted, and the commands before it. -/
structure Posting where
  before : List Command
  event : Event

/-- The event that a command posts after those before it. -/
def Command.posting? (before : List Command) : Command → Option Posting
  | post event => some ⟨before, event⟩
  | _ => none

/-- The events that commands post when others came before them. -/
def postingsFrom (before : List Command) : List Command → List Posting
  | [] => []
  | command :: rest => (command.posting? before).toList ++ postingsFrom (before ++ [command]) rest

/-- The events that commands post, in their order, each with all the commands before it. -/
def postings (commands : List Command) : List Posting :=
  postingsFrom [] commands

namespace Posting

/-- The verbosity in force when the event was posted admits it. -/
def Admitted (posting : Posting) : Prop :=
  posting.event.required.value ≤ (currentVerbosity posting.before).value

/-- The event has to be on the console: the latest logger was not created silent, and the
verbosity in force admits the event. -/
def ReachesConsole (posting : Posting) : Prop :=
  (lastCreation posting.before).verbosity ≠ .silent ∧ posting.Admitted

/-- The event has to be in the file under a path: the latest logger has that file, and the
verbosity in force admits the event. -/
def ReachesFile (path : String) (posting : Posting) : Prop :=
  (lastCreation posting.before).path = some path ∧ posting.Admitted

instance (posting : Posting) : Decidable posting.Admitted :=
  inferInstanceAs (Decidable (_ ≤ _))

instance (posting : Posting) : Decidable posting.ReachesConsole :=
  inferInstanceAs (Decidable (_ ∧ _))

instance (path : String) (posting : Posting) : Decidable (posting.ReachesFile path) :=
  inferInstanceAs (Decidable (_ ∧ _))

end Posting

/-- The logger that a history tells of brings to the console what has to be there. -/
theorem echoes_loggerAfter (history : List Command) (event : Event) :
    (loggerAfter history).echoes event = true ↔ Posting.ReachesConsole ⟨history, event⟩ := by
  simp [Logger.echoes, loggerAfter, Posting.ReachesConsole, Posting.Admitted, Event.isShown_iff]

/-- A command adds to the console the event that it posts, if that has to be there. -/
theorem Follows.console_perform (follows : journal.Follows history) (command : Command) :
    (journal.perform command).console =
      journal.console ++
        ((command.posting? history).toList.filter (·.ReachesConsole)).map (·.event.record) := by
  cases command with
  | configure verbosity path => simp [Journal.perform, Journal.configure, Command.posting?]
  | setVerbosity verbosity =>
    cases given : journal.logger <;>
      simp [Journal.perform, Journal.setVerbosity, given, Journal.configure, Command.posting?]
  | get => simp [Journal.perform, Command.posting?]
  | post event =>
    have decided := echoes_loggerAfter history event
    rw [← follows.current] at decided
    simp only [Journal.perform, console_post, decided, Command.posting?, Option.toList_some]
    by_cases reaches : Posting.ReachesConsole ⟨history, event⟩ <;> simp [reaches]

/-! ## Files under their paths -/

/-- What is found under a path: the records of all files opened under it, as each was
continued by the next. -/
def contents (paths : List String) (files : List (List Record)) (path : String) : List Record :=
  ((paths.zip files).filter (·.1 == path)).flatMap (·.2)

/-- A file that was just opened holds nothing. -/
theorem contents_open {paths : List String} {files : List (List Record)}
    (paired : files.length = paths.length) (opened path : String) :
    contents (paths ++ [opened]) (files ++ [[]]) path = contents paths files path := by
  rw [contents, List.zip_append paired.symm, List.filter_append, List.flatMap_append]
  by_cases same : opened = path <;> simp [contents, same]

/-- A record in the last file is the last one under its path, and is not found under any
other. -/
theorem contents_write {paths : List String} {files : List (List Record)}
    (paired : files.length = paths.length) {own : String} (last : paths.getLast? = some own)
    (record : Record) (path : String) :
    contents paths (files.modify (paths.length - 1) (· ++ [record])) path =
      contents paths files path ++ if own = path then [record] else [] := by
  obtain ⟨earlier, rfl⟩ := List.getLast?_eq_some_iff.1 last
  obtain rfl | ⟨others, content, rfl⟩ := List.eq_nil_or_concat files
  · simp at paired
  have level : earlier.length = others.length := by simpa using paired.symm
  have written : (others ++ [content]).modify others.length (· ++ [record]) =
      others ++ [content ++ [record]] := by
    rw [List.modify_eq_take_cons_drop (by simp)]
    simp
  have place : (earlier ++ [own]).length - 1 = others.length := by simpa using level
  rw [List.concat_eq_append, place, written]
  simp only [contents, List.zip_append level, List.filter_append, List.flatMap_append]
  by_cases same : own = path <;> simp [same]

/-- A command adds to what is found under a path the event that it posts, if that has to be
there. -/
theorem Follows.contents_perform (follows : journal.Follows history) (command : Command)
    (path : String) :
    contents (openedPaths (history ++ [command])) (journal.perform command).files path =
      contents (openedPaths history) journal.files path ++
        ((command.posting? history).toList.filter (·.ReachesFile path)).map (·.event.record) := by
  rw [openedPaths_concat]
  cases command with
  | configure verbosity opened =>
    cases opened with
    | none => simp [Journal.perform, Journal.configure, Command.path?, Command.posting?]
    | some opened =>
      have new := contents_open follows.files opened path
      simpa [Journal.perform, Journal.configure, Command.path?, Command.posting?] using new
  | setVerbosity verbosity =>
    cases given : journal.logger <;>
      simp [Journal.perform, Journal.setVerbosity, given, Journal.configure, Command.path?,
        Command.posting?]
  | get => simp [Journal.perform, Command.path?, Command.posting?]
  | post event =>
    have level : openedPaths history ++ (Command.post event).path?.toList = openedPaths history :=
      List.append_nil _
    simp only [Journal.perform, level, files_post, follows.current, Command.posting?,
      Option.toList_some]
    by_cases admitted : Posting.Admitted ⟨history, event⟩
    · have shown : event.isShown (currentVerbosity history) = true := Event.isShown_iff.2 admitted
      cases own : (lastCreation history).path with
      | none => simp [loggerAfter, own, Posting.ReachesFile]
      | some opened =>
        have written := contents_write follows.files (getLast?_openedPaths own) event.record path
        by_cases same : opened = path <;>
          simpa [shown, loggerAfter, own, Posting.ReachesFile, admitted, same] using written
    · have hidden : event.isShown (currentVerbosity history) = false :=
        Bool.eq_false_iff.2 fun shown => admitted (Event.isShown_iff.1 shown)
      simp [hidden, loggerAfter, Posting.ReachesFile, admitted]

/-! ## Whole runs -/

/-- Commands add the events that they post to the console and to the files, wherever these
have to be. -/
theorem Follows.records_performAll (follows : journal.Follows history)
    (commands : List Command) :
    (journal.performAll commands).console =
      journal.console ++
        ((postingsFrom history commands).filter (·.ReachesConsole)).map (·.event.record) ∧
    ∀ path, contents (openedPaths (history ++ commands)) (journal.performAll commands).files path =
      contents (openedPaths history) journal.files path ++
        ((postingsFrom history commands).filter (·.ReachesFile path)).map (·.event.record) := by
  induction commands generalizing journal history with
  | nil => simp [postingsFrom]
  | cons command rest ih =>
    obtain ⟨console, files⟩ := ih (follows.perform command)
    refine ⟨?_, ?_⟩
    · rw [performAll_cons, console, follows.console_perform, postingsFrom, List.filter_append,
        List.map_append, List.append_assoc]
    · intro path
      have split : history ++ command :: rest = history ++ [command] ++ rest := by simp
      rw [performAll_cons, split, files, follows.contents_perform, postingsFrom,
        List.filter_append, List.map_append, List.append_assoc]

/-- A file that is opened again is continued, even by a logger without the console. -/
example :
    let commands : List Command :=
      [.configure .minimal (some "a"), .post (.warning "one"), .configure .silent (some "a"),
        .setVerbosity .moderate, .post (.info "two" .moderate), .post (.debug "three")]
    (empty.performAll commands).console = [⟨.warning, "one"⟩] ∧
      contents (openedPaths commands) (empty.performAll commands).files "a" =
        [⟨.warning, "one"⟩, ⟨.info, "two"⟩] := by
  decide +kernel

end Formulary.Journal

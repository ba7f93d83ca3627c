import Mathlib
import SiteConfig.Proofs.Paths
/-!
# Loggers of a process

A process sets loggers up, logs events and drops its logger, in any order. The first logger whose
level is known is installed and stays installed. From then on the records that pass its filter are
added to its file, in order, and to no other one, until it is dropped. A logger that is set up later
only leaves its file, with what was in it before.
-/
namespace SiteConfig

inductive LogAction where
  | setUp (context : LogContext) (settings : LogSettings)
  | write (span : Option Span) (event : Event)
  | close (span : Span)
  | drop

namespace LogAction

def level? : LogAction → Option Level
  | setUp _ settings => Level.ofName? settings.level
  | _ => none

def file? : LogAction → Option LogFile
  | setUp context settings =>
    (Level.ofName? settings.level).bind fun _ => Log.fileOf context settings
  | _ => none

def isDrop : LogAction → Bool
  | drop => true
  | _ => false

def record? (filter : LogFilter) : LogAction → Option LogRecord
  | write span event => filter.record? span event
  | _ => none

/-- The records that pass a filter before the logger is dropped. -/
def records (filter : LogFilter) (actions : List LogAction) : List LogRecord :=
  (actions.takeWhile fun action => !action.isDrop).filterMap (record? filter)

/-- What actions make of a file that does not exist: an empty one, or none. -/
def newFile? (actions : List LogAction) (file : LogFile) : Option (List LogRecord) :=
  if file ∈ actions.filterMap file? then some [] else none

def announcement (settings : LogSettings) : LogAction :=
  write none (.loggerInitialized settings.level settings.format.label settings.dir.isSome)

theorem newFile?_cons (action : LogAction) (rest : List LogAction) (file : LogFile) :
    newFile? (action :: rest) file =
      (if action.file? = some file then some [] else none).or (newFile? rest file) := by
  rw [newFile?, newFile?]
  by_cases hown : action.file? = some file
  · simp [hown]
  · simp [List.mem_filterMap, hown]

theorem records_drop (filter : LogFilter) (rest : List LogAction) :
    records filter (drop :: rest) = [] := rfl

theorem records_cons {action : LogAction} (h : action.isDrop = false) (filter : LogFilter)
    (rest : List LogAction) :
    records filter (action :: rest) = (action.record? filter).toList ++ records filter rest := by
  rw [records, List.takeWhile_cons_of_pos (by simp [h])]
  cases hrecord : action.record? filter <;> simp [hrecord, records]

end LogAction

namespace Logger

def ofSettings (context : LogContext) (settings : LogSettings) (level : Level) : Logger where
  filter := context.filter level
  file := Log.fileOf context settings
  stderr := if settings.stderr then some settings.format else none

/-- What an action leaves of the installed logger. -/
def after (logger : Logger) (action : LogAction) : Logger :=
  if action.isDrop then { logger with file := none } else logger

theorem foldl_after (logger : Logger) (actions : List LogAction) :
    actions.foldl after logger =
      if actions.any LogAction.isDrop then { logger with file := none } else logger := by
  induction actions generalizing logger with
  | nil => rfl
  | cons action rest ih =>
    rw [List.foldl_cons, ih, List.any_cons, after]
    cases action.isDrop <;> simp

end Logger

/-- Without directives in the environment, events and spans pass by the level of the logger. -/
structure FiltersByLevel (choose : Level → LogFilter) : Prop where
  event (level : Level) (span : Option Span) (event : Event) :
    (choose level).enablesEvent span event = decide (level.severity ≤ event.level.severity)
  span (level : Level) (span : Span) :
    (choose level).enablesSpan span = decide (level.severity ≤ span.level.severity)

theorem filtersByLevel_ofLevel : FiltersByLevel LogFilter.ofLevel where
  event _ _ _ := rfl
  span _ _ := rfl

theorem FiltersByLevel.record?_eq {choose : Level → LogFilter} (h : FiltersByLevel choose)
    (level : Level) (span : Option Span) (event : Event) :
    (choose level).record? span event =
      if level.severity ≤ event.level.severity then
        some ⟨event, span.filter fun span => level.severity ≤ span.level.severity⟩
      else none := by
  have hspan : (choose level).enablesSpan =
      fun span => decide (level.severity ≤ span.level.severity) := funext (h.span level)
  simp only [LogFilter.record?, h.event, hspan, decide_eq_true_eq]

namespace Log

/-- The log of a process that has not set a logger up, with the files that are there already. -/
def fresh (files : List (LogFile × List LogRecord)) : Log := ⟨none, files, []⟩

/-- The records in a file, none if there is no such file. -/
def records? (log : Log) (file : LogFile) : Option (List LogRecord) := log.files.lookup file

def act (log : Log) : LogAction → Log
  | .setUp context settings => (log.setUp context settings).1
  | .write span event => log.write span event
  | .close span => log.close span
  | .drop => log.drop

def run (log : Log) : List LogAction → Log
  | [] => log
  | action :: rest => (log.act action).run rest

def opened (log : Log) : Option LogFile → Log
  | none => log
  | some file => log.openFile file

/-- The log once a logger is installed, before it has written anything. -/
def installing (log : Log) (logger : Logger) : Log :=
  { log.opened logger.file with installed := some logger }

/-- A logger is installed and its file exists. -/
structure Installed (log : Log) (logger : Logger) : Prop where
  installed : log.installed = some logger
  hasFile : ∀ file, logger.file = some file → (log.records? file).isSome

section Files

variable (log : Log) (file other : LogFile)

theorem records?_openFile : (log.openFile file).records? other =
    (log.records? other).or (if file = other then some [] else none) := by
  rw [openFile]
  split
  · next h =>
    cases hother : log.records? other with
    | some records => rfl
    | none =>
      have hne : file ≠ other := by
        rintro rfl
        simp only [List.any_eq_true, beq_iff_eq] at h
        obtain ⟨⟨_, records⟩, hmem, rfl⟩ := h
        exact absurd (List.lookup_eq_none_iff.mp hother _ hmem) (by simp)
      rw [if_neg hne, Option.or_none]
  · rw [records?, records?, List.lookup_append, List.lookup_cons, List.lookup_nil]
    congr 1
    by_cases h : file = other
    · subst h
      simp
    · rw [beq_false_of_ne (Ne.symm h), if_neg h]

theorem records?_opened (file : Option LogFile) : (log.opened file).records? other =
    (log.records? other).or (if file = some other then some [] else none) := by
  cases file with
  | none => simp [opened]
  | some file => simp [opened, records?_openFile]

theorem records?_installing (logger : Logger) : (log.installing logger).records? other =
    (log.records? other).or (if logger.file = some other then some [] else none) :=
  log.records?_opened other logger.file

@[simp] theorem installed_opened (file : Option LogFile) :
    (log.opened file).installed = log.installed := by
  cases file with
  | none => rfl
  | some file =>
    rw [opened, openFile]
    split <;> rfl

@[simp] theorem stderr_opened (file : Option LogFile) :
    (log.opened file).stderr = log.stderr := by
  cases file with
  | none => rfl
  | some file =>
    rw [opened, openFile]
    split <;> rfl

theorem records?_appendToFile (record : LogRecord) : (log.appendToFile file record).records? other =
    (log.records? other).map (· ++ if file = other then [record] else []) := by
  simp only [records?, appendToFile]
  induction log.files with
  | nil => rfl
  | cons entry rest ih =>
    obtain ⟨name, records⟩ := entry
    rw [List.map_cons, List.lookup_cons, List.lookup_cons, ih]
    by_cases h : other = name
    · subst h
      by_cases hfile : file = other
      · simp [hfile]
      · simp [hfile, Ne.symm hfile]
    · rw [beq_false_of_ne h]

end Files

section Events

variable (log : Log) (span : Option Span) (event : Event)

@[simp] theorem records?_appendToStderr (entries : List StderrEntry) (file : LogFile) :
    (log.appendToStderr entries).records? file = log.records? file := rfl

@[simp] theorem installed_appendToStderr (entries : List StderrEntry) :
    (log.appendToStderr entries).installed = log.installed := rfl

@[simp] theorem installed_appendToFile (file : LogFile) (record : LogRecord) :
    (log.appendToFile file record).installed = log.installed := rfl

theorem write_of_none (h : log.installed = none) : log.write span event = log := by
  rw [write, h]

theorem close_of_none (h : log.installed = none) (span : Span) : log.close span = log := by
  rw [close, h]

theorem drop_of_none (h : log.installed = none) : log.drop = log := by
  rw [drop, h, Option.map_none, ← h]

theorem installed_write : (log.write span event).installed = log.installed := by
  rw [write]
  split
  · rfl
  · next logger hlogger =>
    split
    · rfl
    · cases logger.file <;> rcases logger.stderr with _ | _ | _ <;> rfl

theorem installed_close (span : Span) : (log.close span).installed = log.installed := by
  rw [close]
  split
  · rfl
  · split <;> rfl

theorem records?_close (span : Span) (file : LogFile) :
    (log.close span).records? file = log.records? file := by
  rw [close]
  split
  · rfl
  · split <;> rfl

theorem records?_write {logger : Logger} (h : log.installed = some logger) (file : LogFile) :
    (log.write span event).records? file = (log.records? file).map (· ++
      if logger.file = some file then (logger.filter.record? span event).toList else []) := by
  rw [write, h]
  dsimp only
  cases logger.filter.record? span event with
  | none => simp
  | some record =>
    cases hfile : logger.file with
    | none => rcases logger.stderr with _ | _ | _ <;> simp
    | some own => rcases logger.stderr with _ | _ | _ <;> simp [records?_appendToFile]

end Events

section SettingUp

variable (log : Log) (context : LogContext) {settings : LogSettings} {level : Level}

theorem setUp_of_unknown (h : Level.ofName? settings.level = none) :
    log.setUp context settings = (log, .error (.unknownLevel settings.level)) := by
  rw [setUp, h]

theorem setUp_of_known (h : Level.ofName? settings.level = some level) :
    log.setUp context settings =
      match (log.opened (fileOf context settings)).installed with
      | some _ => (log.opened (fileOf context settings), .error .alreadyInstalled)
      | none =>
        ((log.installing (.ofSettings context settings level)).act (.announcement settings),
          .ok ()) := by
  rw [setUp, h]
  rfl

theorem setUp_of_installed {logger : Logger} (hlevel : Level.ofName? settings.level = some level)
    (h : log.installed = some logger) : log.setUp context settings =
      (log.opened (fileOf context settings), .error .alreadyInstalled) := by
  rw [setUp_of_known log context hlevel, installed_opened, h]

theorem setUp_of_not_installed (hlevel : Level.ofName? settings.level = some level)
    (h : log.installed = none) : log.setUp context settings =
      ((log.installing (.ofSettings context settings level)).act (.announcement settings),
        .ok ()) := by
  rw [setUp_of_known log context hlevel, installed_opened, h]

end SettingUp

section Runs

theorem act_of_unknown {log : Log} {action : LogAction} (h : log.installed = none)
    (hlevel : action.level? = none) : log.act action = log := by
  cases action with
  | setUp context settings => rw [act, setUp_of_unknown log context hlevel]
  | write span event => exact log.write_of_none span event h
  | close span => exact log.close_of_none h span
  | drop => exact log.drop_of_none h

theorem run_of_unknown {log : Log} {actions : List LogAction} (h : log.installed = none)
    (hlevels : ∀ action ∈ actions, action.level? = none) : log.run actions = log := by
  induction actions with
  | nil => rfl
  | cons action rest ih =>
    obtain ⟨hlevel, hrest⟩ := List.forall_mem_cons.mp hlevels
    rw [run, act_of_unknown h hlevel, ih hrest]

namespace Installed

variable {log : Log} {logger : Logger}

theorem installed_act (h : log.Installed logger) (action : LogAction) :
    (log.act action).installed = some (logger.after action) := by
  cases action with
  | setUp context settings =>
    cases hlevel : Level.ofName? settings.level with
    | none =>
      rw [act, setUp_of_unknown log context hlevel]
      exact h.installed
    | some level =>
      rw [act, setUp_of_installed log context hlevel h.installed, installed_opened]
      exact h.installed
  | write span event => exact (log.installed_write span event).trans h.installed
  | close span => exact (log.installed_close span).trans h.installed
  | drop =>
    rw [act, drop, h.installed]
    rfl

/-- An action makes its file, and its record is added to the file of the logger. -/
theorem records?_act (h : log.Installed logger) (action : LogAction) (file : LogFile) :
    (log.act action).records? file =
      ((log.records? file).or (if action.file? = some file then some [] else none)).map
        (· ++ if logger.file = some file then (action.record? logger.filter).toList else []) := by
  cases action with
  | setUp context settings =>
    cases hlevel : Level.ofName? settings.level with
    | none =>
      rw [act, setUp_of_unknown log context hlevel]
      simp [LogAction.file?, LogAction.record?, hlevel]
    | some level =>
      rw [act, setUp_of_installed log context hlevel h.installed, records?_opened]
      simp [LogAction.file?, LogAction.record?, hlevel]
  | write span event =>
    rw [act, log.records?_write span event h.installed]
    simp [LogAction.file?, LogAction.record?]
  | close span =>
    rw [act, records?_close]
    simp [LogAction.file?, LogAction.record?]
  | drop =>
    have hsame : (log.act .drop).records? file = log.records? file := rfl
    simp [hsame, LogAction.file?, LogAction.record?]

theorem act (h : log.Installed logger) (action : LogAction) :
    (log.act action).Installed (logger.after action) := by
  refine ⟨h.installed_act action, ?_⟩
  intro file hfile
  have hown : logger.file = some file := by
    rw [Logger.after] at hfile
    split at hfile
    · cases hfile
    · exact hfile
  rw [h.records?_act, Option.isSome_map, Option.isSome_or, h.hasFile file hown, Bool.true_or]

theorem run (h : log.Installed logger) (actions : List LogAction) :
    (log.run actions).Installed (actions.foldl Logger.after logger) := by
  induction actions generalizing log logger with
  | nil => exact h
  | cons action rest ih => exact ih (h.act action)

theorem records?_run (h : log.Installed logger) (actions : List LogAction) (file : LogFile) :
    (log.run actions).records? file =
      ((log.records? file).or (LogAction.newFile? actions file)).map
        (· ++ if logger.file = some file then LogAction.records logger.filter actions else []) := by
  induction actions generalizing log logger with
  | nil => simp [Log.run, LogAction.newFile?, LogAction.records]
  | cons action rest ih =>
    rw [Log.run, ih (h.act action), h.records?_act, LogAction.newFile?_cons, Logger.after]
    by_cases hfile : logger.file = some file
    · obtain ⟨records, hrecords⟩ := Option.isSome_iff_exists.mp (h.hasFile file hfile)
      cases hdrop : action.isDrop with
      | true =>
        cases action with
        | drop => simp [hrecords, LogAction.record?, LogAction.records_drop]
        | _ => cases hdrop
      | false => simp [hrecords, hfile, LogAction.records_cons hdrop]
    · cases hdrop : action.isDrop <;> cases log.records? file <;> simp [hfile]

theorem isSome_records?_run (h : log.Installed logger) (actions : List LogAction) {file : LogFile}
    (hfile : (log.records? file).isSome) : ((log.run actions).records? file).isSome := by
  rw [h.records?_run, Option.isSome_map, Option.isSome_or, hfile, Bool.true_or]

theorem installing (log : Log) (logger : Logger) : (log.installing logger).Installed logger := by
  refine ⟨rfl, ?_⟩
  intro file hfile
  rw [records?_installing, if_pos hfile, Option.isSome_or, Option.isSome_some, Bool.or_true]

end Installed

section FirstLevel

variable {log : Log} {context : LogContext} {settings : LogSettings} {level : Level}

theorem run_setUp (h : log.installed = none) (hlevel : Level.ofName? settings.level = some level)
    (later : List LogAction) : (log.setUp context settings).1.run later =
      (log.installing (.ofSettings context settings level)).run
        (.announcement settings :: later) := by
  rw [setUp_of_not_installed log context hlevel h]
  rfl

theorem installed_run_setUp (h : log.installed = none)
    (hlevel : Level.ofName? settings.level = some level) (later : List LogAction) :
    ((log.setUp context settings).1.run later).Installed
      (later.foldl Logger.after (.ofSettings context settings level)) := by
  rw [run_setUp h hlevel]
  exact (Installed.installing log _).run (.announcement settings :: later)

theorem records?_run_setUp (h : log.installed = none)
    (hlevel : Level.ofName? settings.level = some level) (later : List LogAction) (file : LogFile) :
    ((log.setUp context settings).1.run later).records? file =
      ((log.records? file).or (LogAction.newFile? (.setUp context settings :: later) file)).map
        (· ++ if fileOf context settings = some file then
          LogAction.records (context.filter level) (.announcement settings :: later) else []) := by
  have hfile : (LogAction.setUp context settings).file? = fileOf context settings := by
    rw [LogAction.file?, hlevel, Option.bind_some]
  rw [run_setUp h hlevel, (Installed.installing log _).records?_run, records?_installing,
    LogAction.newFile?_cons, LogAction.newFile?_cons, hfile, Option.or_assoc]
  rfl

/-- The file of a logger with a known level exists from then on, whether or not the logger is
installed. -/
theorem isSome_records?_run_setUp (h : log.installed = none ∨ ∃ logger, log.Installed logger)
    (hlevel : Level.ofName? settings.level = some level) {file : LogFile}
    (hfile : fileOf context settings = some file) (later : List LogAction) :
    (((log.setUp context settings).1.run later).records? file).isSome := by
  rcases h with hnone | ⟨logger, hlogger⟩
  · rw [run_setUp hnone hlevel]
    exact (Installed.installing log _).isSome_records?_run _
      ((Installed.installing log _).hasFile file hfile)
  · have hnext : ((log.setUp context settings).1.records? file).isSome := by
      rw [setUp_of_installed log context hlevel hlogger.installed, records?_opened, if_pos hfile,
        Option.isSome_or, Option.isSome_some, Bool.or_true]
    exact (hlogger.act (.setUp context settings)).isSome_records?_run later hnext

theorem setUp_again (context : LogContext) {logger : Logger} (h : log.installed = some logger)
    (hlevel : Level.ofName? settings.level = some level) :
    (log.setUp context settings).2 = .error .alreadyInstalled ∧
      (log.setUp context settings).1.installed = log.installed ∧
      (log.setUp context settings).1.stderr = log.stderr ∧
      ∀ file, (log.setUp context settings).1.records? file =
        (log.records? file).or (if fileOf context settings = some file then some [] else none) := by
  rw [setUp_of_installed log context hlevel h]
  exact ⟨rfl, log.installed_opened _, log.stderr_opened _, fun file => log.records?_opened file _⟩

end FirstLevel

theorem exists_installed_run {log : Log} {actions : List LogAction} (h : log.installed = none)
    (hknown : ∃ action ∈ actions, action.level?.isSome) :
    ∃ logger, (log.run actions).Installed logger := by
  induction actions with
  | nil => simp at hknown
  | cons action rest ih =>
    cases hlevel : action.level? with
    | none =>
      rw [run, act_of_unknown h hlevel]
      apply ih
      simpa [hlevel] using hknown
    | some level =>
      cases action with
      | setUp context settings => exact ⟨_, installed_run_setUp h hlevel rest⟩
      | _ => cases hlevel

end Runs

/-- Among the calls that set a logger up, those with an unknown level change nothing, the first one
with a known level installs its logger, and later ones fail and only leave their files. All that is
logged after the first one, until it is dropped, and passes its filter is added to its file, in
order, and to no other. Without directives in the environment this filter is its level. -/
theorem setUp_installs_once :
    (∀ choose, FiltersByLevel choose → ∀ level span event,
      (choose level).record? span event =
        if level.severity ≤ event.level.severity then
          some ⟨event, span.filter fun span => level.severity ≤ span.level.severity⟩
        else none) ∧
    ∀ (files : List (LogFile × List LogRecord)) (earlier : List LogAction) (context : LogContext)
      (settings : LogSettings),
      let log := (fresh files).run earlier
      let next := (log.setUp context settings).1
      let outcome := (log.setUp context settings).2.mapError LoggerError.message
      (Level.ofName? settings.level = none →
        outcome = .error ("Invalid log level: " ++ settings.level) ∧ next = log) ∧
      ∀ level, Level.ofName? settings.level = some level →
        (∀ dir, settings.dir = some dir → ∀ later, ((next.run later).records?
          ⟨directoryAt context.directory dir, settings.rotation⟩).isSome) ∧
        ((∃ action ∈ earlier, action.level?.isSome) →
          outcome = .error "Failed to install tracing subscriber" ∧
            next.installed = log.installed ∧ next.stderr = log.stderr ∧
            ∀ file, next.records? file = (log.records? file).or
              (if fileOf context settings = some file then some [] else none)) ∧
        ((∀ action ∈ earlier, action.level? = none) →
          outcome = .ok () ∧ log = fresh files ∧ ∀ later,
            (next.run later).installed = some
              (if later.any LogAction.isDrop then
                { Logger.ofSettings context settings level with file := none }
              else .ofSettings context settings level) ∧
            ∀ file, (next.run later).records? file =
              ((log.records? file).or
                (LogAction.newFile? (.setUp context settings :: later) file)).map
                (· ++ if fileOf context settings = some file then
                  LogAction.records (context.filter level) (.announcement settings :: later)
                else [])) := by
  refine ⟨fun choose hchoose => hchoose.record?_eq, ?_⟩
  intro files earlier context settings log next outcome
  have hinstalled (hknown : ∃ action ∈ earlier, action.level?.isSome) :
      ∃ logger, log.Installed logger := exists_installed_run rfl hknown
  have hfresh (hunknown : ∀ action ∈ earlier, action.level? = none) : log = fresh files :=
    run_of_unknown rfl hunknown
  refine ⟨fun hunknown => ?_, fun level hlevel => ⟨fun dir hdir later => ?_, fun hknown => ?_,
    fun hunknown => ?_⟩⟩
  · have hsetUp := setUp_of_unknown log context hunknown
    exact ⟨congrArg (fun result => result.2.mapError LoggerError.message) hsetUp,
      congrArg Prod.fst hsetUp⟩
  · have hlog : log.installed = none ∨ ∃ logger, log.Installed logger := by
      by_cases hknown : ∃ action ∈ earlier, action.level?.isSome
      · exact .inr (hinstalled hknown)
      · exact .inl (congrArg installed (hfresh (by simpa using hknown)))
    apply isSome_records?_run_setUp hlog hlevel
    rw [fileOf, hdir, Option.map_some]
  · obtain ⟨logger, hlogger⟩ := hinstalled hknown
    obtain ⟨houtcome, hsame⟩ := setUp_again context hlogger.installed hlevel
    exact ⟨congrArg (Except.mapError LoggerError.message) houtcome, hsame⟩
  · have hnone : log.installed = none := congrArg installed (hfresh hunknown)
    have hsetUp := setUp_of_not_installed log context hlevel hnone
    refine ⟨congrArg (fun result => result.2.mapError LoggerError.message) hsetUp,
      hfresh hunknown, ?_⟩
    intro later
    rw [← Logger.foldl_after]
    exact ⟨(installed_run_setUp hnone hlevel later).installed,
      records?_run_setUp hnone hlevel later⟩

section Sample

def sampleContext : LogContext := ⟨["site"], LogFilter.ofLevel⟩

def sampleFiles : List (LogFile × List LogRecord) :=
  [(⟨["site", "logs"], .never⟩, [⟨.moduleEvaluated 17, none⟩])]

def sampleSettings (level dir : String) : LogSettings where
  level := level
  format := .json
  dir := some dir
  stderr := true
  rotation := .never

def sampleEarlier : List LogAction :=
  [.write none (.configurationLoaded "site" "src" "dist"),
    .setUp sampleContext (sampleSettings "loud" "logs")]

/-- An event that does not pass, a second logger for the same file under another name, an event that
passes, and one behind the drop of the logger. -/
def sampleLater : List LogAction :=
  [.write none (.moduleEvaluated 18),
    .setUp ⟨[], LogFilter.ofLevel⟩ (sampleSettings "trace" "/site/./logs/"),
    .write (some (.processing "site")) (.configurationLoaded "site" "src" "dist"), .drop,
    .write none (.configurationLoaded "site" "src" "dist")]

def sampleLog : Log :=
  (fresh sampleFiles).run
    (sampleEarlier ++ [.setUp sampleContext (sampleSettings "Info" "logs")])

theorem directoryAt_logs :
    directoryAt ["site"] "logs" = ["site", "logs"] ∧
      directoryAt [] "/site/./logs/" = ["site", "logs"] := by
  have hlogs : directoryAt ["site"] "logs" = ["site", "logs"] := by
    have hrooted : "logs".startsWith "/" = false := by simp
    rw [directoryAt, hrooted, splitOn_of_not_mem (by decide)]
    rfl
  have hpath : "/site/./logs/" = absolutePath ["site"] ++ "/" ++ ("./" ++ ("logs" ++ "/")) := rfl
  have hentry : ∀ step ∈ ["site"], IsEntry step := by
    simp only [List.forall_mem_singleton, IsEntry]
    decide
  have hpoint : ("./" ++ ("logs" ++ "/")).startsWith "/" = false := by simp
  have hrooted : ("logs" ++ "/").startsWith "/" = false := by simp
  refine ⟨hlogs, ?_⟩
  rw [hpath, directoryAt_absolutePath hentry hpoint, directoryAt_point_slash hrooted,
    directoryAt_append_slash (by decide), hlogs]

theorem records_sampleLater :
    LogAction.records (LogFilter.ofLevel .info)
        (.announcement (sampleSettings "Info" "logs") :: sampleLater) =
      [⟨.loggerInitialized "Info" "Json" true, none⟩,
        ⟨.configurationLoaded "site" "src" "dist", some (.processing "site")⟩] := by
  rfl

theorem setUp_installs_once_sample :
    FiltersByLevel LogFilter.ofLevel ∧
      (LogFilter.ofLevel .warn).record? none (.moduleEvaluated 18) = none ∧
      Level.ofName? "loud" = none ∧ Level.ofName? "Info" = some .info ∧
      Level.ofName? "trace" = some .trace ∧
      (sampleSettings "trace" "/site/./logs/").dir = some "/site/./logs/" ∧
      (∀ action ∈ sampleEarlier, action.level? = none) ∧
      (∃ action ∈ sampleEarlier ++ [.setUp sampleContext (sampleSettings "Info" "logs")],
        action.level?.isSome) ∧
      ((((fresh sampleFiles).run sampleEarlier).setUp sampleContext
          (sampleSettings "Info" "logs")).1.run sampleLater).records?
            ⟨["site", "logs"], .never⟩ =
        some [⟨.moduleEvaluated 17, none⟩, ⟨.loggerInitialized "Info" "Json" true, none⟩,
          ⟨.configurationLoaded "site" "src" "dist", some (.processing "site")⟩] ∧
      (sampleLog.setUp ⟨[], LogFilter.ofLevel⟩
          (sampleSettings "trace" "/site/./logs/")).2.mapError LoggerError.message =
        .error "Failed to install tracing subscriber" ∧
      (((sampleLog.setUp ⟨[], LogFilter.ofLevel⟩
          (sampleSettings "trace" "/site/./logs/")).1.run sampleLater).records?
        ⟨["site", "logs"], .never⟩).isSome ∧
      (sampleLog.setUp sampleContext (sampleSettings "loud" "logs")).2.mapError
        LoggerError.message = .error "Invalid log level: loud" := by
  have hloud : Level.ofName? "loud" = none := by cbv
  have hinfo : Level.ofName? "Info" = some .info := by cbv
  have htrace : Level.ofName? "trace" = some .trace := by cbv
  have hunknown : ∀ action ∈ sampleEarlier, action.level? = none := by
    simp [sampleEarlier, LogAction.level?, sampleSettings, hloud]
  have hknown : ∃ action ∈ sampleEarlier ++ [.setUp sampleContext (sampleSettings "Info" "logs")],
      action.level?.isSome := by
    simp [LogAction.level?, sampleSettings, hinfo]
  obtain ⟨hlevels, hruns⟩ := setUp_installs_once
  obtain ⟨-, hlog, hlater⟩ := ((hruns sampleFiles sampleEarlier sampleContext
    (sampleSettings "Info" "logs")).2 .info hinfo).2.2 hunknown
  obtain ⟨hfile, hagain, -⟩ := (hruns sampleFiles
    (sampleEarlier ++ [.setUp sampleContext (sampleSettings "Info" "logs")])
      ⟨[], LogFilter.ofLevel⟩ (sampleSettings "trace" "/site/./logs/")).2 .trace htrace
  have hrefused := (hruns sampleFiles
    (sampleEarlier ++ [.setUp sampleContext (sampleSettings "Info" "logs")])
      sampleContext (sampleSettings "loud" "logs")).1 hloud
  refine ⟨filtersByLevel_ofLevel,
    hlevels LogFilter.ofLevel filtersByLevel_ofLevel .warn none (.moduleEvaluated 18),
    hloud, hinfo, htrace, rfl, hunknown, hknown, ?_, (hagain hknown).1, ?_, hrefused.1⟩
  · have hown : fileOf sampleContext (sampleSettings "Info" "logs") =
        some ⟨["site", "logs"], .never⟩ := by
      rw [fileOf, sampleSettings, Option.map_some, sampleContext, directoryAt_logs.1]
    rw [(hlater sampleLater).2, hlog, if_pos hown]
    exact congrArg some (congrArg ([⟨.moduleEvaluated 17, none⟩] ++ ·) records_sampleLater)
  · exact directoryAt_logs.2 ▸ hfile "/site/./logs/" rfl sampleLater

end Sample

end Log

end SiteConfig

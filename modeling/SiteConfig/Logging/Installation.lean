import SiteConfig.Logging.Basic
import SiteConfig.Logging.Filter
/-!
# Installing loggers

The log of a process. The first logger that is set up with a known level is installed for good and
receives everything that is logged from then on, its file until the logger is dropped. Setting up
another one fails, but leaves its file.
-/
namespace SiteConfig

/-- One more step of a path from the root. Empty steps and single points stay, and double points take
the step before them back. -/
def extendSteps (steps : List String) (step : String) : List String :=
  if step = "" ∨ step = "." then steps
  else if step = ".." then steps.dropLast
  else steps ++ [step]

/-- The directory to which a path leads from a working directory once all directories on it exist. -/
def directoryAt (cwd : List String) (path : String) : List String :=
  (path.splitOn "/").foldl extendSteps (if path.startsWith "/" then [] else cwd)

/-- A log file is known by its directory and its rotation. -/
structure LogFile where
  dir : List String
  rotation : Rotation
  deriving DecidableEq

structure Logger where
  filter : LogFilter
  file : Option LogFile
  stderr : Option LogFormat

inductive LoggerError where
  | unknownLevel (level : String)
  | alreadyInstalled
  deriving DecidableEq

def LoggerError.message : LoggerError → String
  | .unknownLevel level => "Invalid log level: " ++ level
  | .alreadyInstalled => "Failed to install tracing subscriber"

/-- What a process writes to its standard error stream: a record as data, or a line of text. -/
inductive StderrEntry where
  | record (record : LogRecord)
  | line (text : String)
  deriving DecidableEq

/-- The log of a process: the installed logger, the files with their records, and what went to the
standard error stream. -/
structure Log where
  installed : Option Logger
  files : List (LogFile × List LogRecord)
  stderr : List StderrEntry

namespace Log

def empty : Log := ⟨none, [], []⟩

def openFile (log : Log) (file : LogFile) : Log :=
  if log.files.any fun (other, _) => other == file then log
  else { log with files := log.files ++ [(file, [])] }

def appendToFile (log : Log) (file : LogFile) (record : LogRecord) : Log :=
  { log with files := log.files.map fun (other, records) =>
      (other, if other == file then records ++ [record] else records) }

def appendToStderr (log : Log) (entries : List StderrEntry) : Log :=
  { log with stderr := log.stderr ++ entries }

def write (log : Log) (span : Option Span) (event : Event) : Log :=
  match log.installed with
  | none => log
  | some logger =>
    match logger.filter.record? span event with
    | none => log
    | some record =>
      let log := match logger.file with
        | none => log
        | some file => log.appendToFile file record
      match logger.stderr with
      | none => log
      | some .json => log.appendToStderr [.record record]
      | some .pretty => log.appendToStderr (record.lines.map .line)

/-- Ends a span; only the format for readers tells it. -/
def close (log : Log) (span : Span) : Log :=
  match log.installed with
  | none => log
  | some logger =>
    if logger.filter.enablesSpan span ∧ logger.stderr = some .pretty then
      log.appendToStderr (span.closingLines.map .line)
    else log

def writeSpan (log : Log) (span : Span) (events : List Event) : Log :=
  (events.foldl (fun log event => log.write (some span) event) log).close span

/-- The file that settings ask for. Two paths to one directory give one file. -/
def fileOf (context : LogContext) (settings : LogSettings) : Option LogFile :=
  settings.dir.map fun dir => ⟨directoryAt context.directory dir, settings.rotation⟩

/-- Sets a logger up. An unknown level changes nothing; the file is made before the logger is
installed. -/
def setUp (log : Log) (context : LogContext) (settings : LogSettings) :
    Log × Except LoggerError Unit :=
  match Level.ofName? settings.level with
  | none => (log, .error (.unknownLevel settings.level))
  | some level =>
    let file := fileOf context settings
    let log := match file with
      | none => log
      | some file => log.openFile file
    match log.installed with
    | some _ => (log, .error .alreadyInstalled)
    | none =>
      let logger : Logger :=
        { filter := context.filter level
          file
          stderr := if settings.stderr then some settings.format else none }
      let log := { log with installed := some logger }
      (log.write none
        (.loggerInitialized settings.level settings.format.label settings.dir.isSome), .ok ())

/-- Drops what the setting up has returned: the installed logger writes no more to its file. -/
def drop (log : Log) : Log :=
  { log with installed := log.installed.map fun logger => { logger with file := none } }

end Log

def LogFile.name (file : LogFile) (day hour : String) : String :=
  match file.rotation with
  | .never => "suv.log"
  | .daily => "suv.log." ++ day
  | .hourly => "suv.log." ++ day ++ "-" ++ hour

end SiteConfig

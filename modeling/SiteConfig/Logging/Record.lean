import SiteConfig.Event
/-!
# Log records

What is written for an event: where it comes from, the span that encloses it, and its lines in the
format for readers.
-/
namespace SiteConfig

/-- A stretch of work that encloses events. -/
structure Span where
  name : String
  target : String
  level : Level
  fields : List (String × Event.Field)
  deriving DecidableEq

structure LogRecord where
  event : Event
  span : Option Span
  deriving DecidableEq

/-- The parts of the library as log lines name them. -/
def Event.target : Event → String
  | .undeclaredOption _ => "suv_config::infrastructure::validators::object"
  | .environmentOverride _ => "suv_config::infrastructure::config::processor"
  | .configurationProcessed _ => "suv_config::infrastructure::config::processor"
  | .fileNotAccessible _ => "suv_config::infrastructure::config::loader"
  | .moduleEvaluated _ => "suv_config::infrastructure::config::loader"
  | .configurationLoaded .. => "suv_config::infrastructure::config::loader"
  | .loggerInitialized .. => "suv_config::infrastructure::logging::logger"

def Span.processing (cwd : String) : Span where
  name := "process_config"
  target := "suv_config::infrastructure::config::processor"
  level := .info
  fields := [("cwd", .text cwd)]

def Event.Field.display : Event.Field → String
  | .text s => s
  | .count n => toString n
  | .flag b => toString b

def fieldsText (fields : List (String × Event.Field)) : String :=
  String.intercalate ", " (fields.map fun (name, field) => name ++ ": " ++ field.display)

namespace Span

def line (span : Span) : String :=
  "in " ++ span.target ++ "::" ++ span.name ++ " with " ++ fieldsText span.fields

def closingLines (span : Span) : List String :=
  [span.level.label ++ " " ++ span.target ++ ": close", span.line]

end Span

def LogRecord.lines (record : LogRecord) : List String :=
  let event := record.event
  let message := event.level.label ++ " " ++ event.target ++ ": " ++ event.message
  let fields := event.fields.map fun (name, field) => name ++ ": " ++ field.display
  String.intercalate ", " (message :: fields) :: (record.span.map Span.line).toList

end SiteConfig

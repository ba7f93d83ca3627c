import SiteConfig.Keypath
import SiteConfig.Logging.Level
/-!
# Events

What the library reports while it works, as data: the severity, the message and the named fields of
each event.
-/
namespace SiteConfig

inductive Event where
  | undeclaredOption (keypath : Keypath)
  | environmentOverride (option : String)
  | configurationProcessed (extraOptions : Nat)
  | fileNotAccessible (error : String)
  | moduleEvaluated (bytes : Nat)
  | configurationLoaded (cwd root outDir : String)
  | loggerInitialized (level format : String) (fileOutput : Bool)
  deriving DecidableEq

inductive Event.Field where
  | text (s : String)
  | count (n : Nat)
  | flag (b : Bool)
  deriving DecidableEq

namespace Event

def level : Event → Level
  | .configurationLoaded .. => .info
  | .loggerInitialized .. => .info
  | _ => .debug

def message : Event → String
  | .undeclaredOption _ => "passing through undeclared option"
  | .environmentOverride _ => "environment override"
  | .configurationProcessed _ => "configuration processed"
  | .fileNotAccessible _ => "config file not accessible, using empty configuration"
  | .moduleEvaluated _ => "config module evaluated"
  | .configurationLoaded .. => "configuration loaded"
  | .loggerInitialized .. => "logger initialized"

def fields : Event → List (String × Field)
  | .undeclaredOption keypath => [("keypath", .text keypath.text)]
  | .environmentOverride option => [("option", .text option)]
  | .configurationProcessed n => [("extra_options", .count n)]
  | .fileNotAccessible error => [("error", .text error)]
  | .moduleEvaluated n => [("bytes", .count n)]
  | .configurationLoaded cwd root outDir =>
    [("cwd", .text cwd), ("root", .text root), ("out_dir", .text outDir)]
  | .loggerInitialized level format fileOutput =>
    [("level", .text level), ("format", .text format), ("file_output", .flag fileOutput)]

end Event

end SiteConfig

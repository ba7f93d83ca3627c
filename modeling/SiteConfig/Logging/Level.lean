/-!
# Levels

The severities of events, with their names.
-/
namespace SiteConfig

inductive Level where
  | trace
  | debug
  | info
  | warn
  | error
  deriving DecidableEq

namespace Level

/-- The names that settings may have for a level. -/
def names : List String := ["trace", "debug", "info", "warn", "error"]

def label : Level → String
  | .trace => "TRACE"
  | .debug => "DEBUG"
  | .info => "INFO"
  | .warn => "WARN"
  | .error => "ERROR"

def severity : Level → Nat
  | .trace => 0
  | .debug => 1
  | .info => 2
  | .warn => 3
  | .error => 4

/-- The level that a name stands for, whatever the case of its letters. -/
def ofName? (name : String) : Option Level :=
  match name.toLower with
  | "trace" => some .trace
  | "debug" => some .debug
  | "info" => some .info
  | "warn" => some .warn
  | "error" => some .error
  | _ => none

end Level

end SiteConfig

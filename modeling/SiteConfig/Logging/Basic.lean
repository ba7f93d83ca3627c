import SiteConfig.Logging.Level
/-!
# Logger settings

What a logger is set up with. Names of formats and rotations are read without regard to the case of
their letters.
-/
namespace SiteConfig

/-- How log lines are written to the standard error stream. -/
inductive LogFormat where
  | json
  | pretty
  deriving DecidableEq, Inhabited

namespace LogFormat

def names : List String := ["json", "pretty"]

def label : LogFormat → String
  | .json => "Json"
  | .pretty => "Pretty"

def standard : LogFormat := .pretty

def ofName? (name : String) : Option LogFormat :=
  match name.toLower with
  | "json" => some .json
  | "pretty" => some .pretty
  | _ => none

end LogFormat

inductive Rotation where
  | daily
  | hourly
  | never
  deriving DecidableEq, Inhabited

namespace Rotation

def names : List String := ["daily", "hourly", "never"]

def label : Rotation → String
  | .daily => "Daily"
  | .hourly => "Hourly"
  | .never => "Never"

def standard : Rotation := .daily

def ofName? (name : String) : Option Rotation :=
  match name.toLower with
  | "daily" => some .daily
  | "hourly" => some .hourly
  | "never" => some .never
  | _ => none

end Rotation

structure LogSettings where
  /-- The name of the least severe level that is written. -/
  level : String
  format : LogFormat
  /-- The directory of the log files, none if no file is written. -/
  dir : Option String
  /-- Whether log lines go to the standard error stream. -/
  stderr : Bool
  rotation : Rotation

def LogSettings.standard : LogSettings where
  level := "info"
  format := .standard
  dir := none
  stderr := true
  rotation := .standard

end SiteConfig

import SiteConfig.Overlay
import SiteConfig.Settings.OfValue
import SiteConfig.Settings.Options
import SiteConfig.Validator.Object
/-!
# Processing

From the exported value to settings: the value has to be an object, the environment is laid over it,
the recognized options are validated, and what their types cannot say is checked last.
-/
namespace SiteConfig

inductive ConfigError where
  | validation (violation : Violation)
  | load (path reason : String)
  | notAnObject (found : Value.Kind)
  /-- A configuration that is no object once the environment is laid over it. -/
  | overlay
  /-- A validated object that holds no settings. -/
  | extraction
  deriving DecidableEq

def ConfigError.message : ConfigError → String
  | .validation violation => violation.message
  | .load path reason => "Failed to load " ++ path ++ ": " ++ reason
  | .notAnObject found =>
    "suv.config.js must have a default configuration object export, found " ++ found.name
  | .overlay => "Failed to apply environment overrides"
  | .extraction => "Failed to extract configuration"

structure Context where
  /-- The directory that relative paths start from. -/
  cwd : String
  /-- What the names of overriding variables start with, none if nothing is overridden. -/
  envBeginning : Option String
  environment : Environment

namespace Settings

def guardObject (raw : Value) : Except ConfigError Object :=
  match raw with
  | .object entries => .ok entries
  | other => .error (.notAnObject other.kind)

def check (ok : Bool) (path : List String) (flaw : Flaw) : Except Violation Unit :=
  if ok then .ok () else .error (.invalidValue ⟨path⟩ flaw)

/-- Checks the names of the log options and the sign of the chunk limit, in this order. -/
def checkMeaning (settings : Settings) : Except Violation Unit := do
  check (Level.names.contains settings.logging.level.toLower) ["logging", "level"]
    (.notListed Level.names)
  check (LogFormat.ofName? settings.logging.format).isSome ["logging", "format"]
    (.notListed LogFormat.names)
  check (Rotation.ofName? settings.logging.rotation).isSome ["logging", "rotation"]
    (.notListed Rotation.names)
  check settings.build.chunkSizeWarningLimit.isPositive ["build", "chunk_size_warning_limit"]
    .notPositive

def overrides (context : Context) : List (List String × String) :=
  match context.envBeginning with
  | none => []
  | some beginning => Overlay.overrides beginning context.environment

/-- The entries of an object with the overrides written over it, which has to stay an object. -/
def applyOverrides (overrides : List (List String × String)) (entries : Object) :
    Except ConfigError Object :=
  let layered := overrides.foldl
    (fun found (path, text) => Overlay.overwritten text path (some found)) (.object entries)
  match layered with
  | .object entries => .ok entries
  | _ => .error .overlay

def ofValidated (cwd : String) (validated : Value) : Except ConfigError Settings :=
  match ofValue? validated with
  | none => .error .extraction
  | some settings =>
    let settings := { settings with cwd }
    match settings.checkMeaning with
    | .error violation => .error (.validation violation)
    | .ok () => .ok settings

/-- The settings that an exported value gives in a context. -/
def process (raw : Value) (context : Context) : Reported ConfigError Settings := do
  let entries ← .ofExcept (guardObject raw)
  let overrides := overrides context
  ⟨Overlay.events overrides, .ok ()⟩
  let layered ← .ofExcept (applyOverrides overrides entries)
  let validated ← (validator.validateField (some (.object layered)) .root).mapError .validation
  let settings ← .ofExcept (ofValidated context.cwd validated)
  .event (.configurationProcessed settings.extra.length)
  return settings

end Settings
end SiteConfig

import SiteConfig.Settings.Basic
/-!
# Settings of a value

Settings from a value of which every option has its exact type. Nothing is coerced and only the log
directory may be missing. A section may also be given as the array of its options, in order.
-/
namespace SiteConfig

namespace Value

def asString? : Value → Option String
  | .string s => some s
  | _ => none

def asBool? : Value → Option Bool
  | .bool b => some b
  | _ => none

def asPort? : Value → Option UInt16
  | .number (.integer n) =>
    if h : 0 ≤ n.val ∧ n.val < 65536 then
      some (UInt16.ofNatLT n.val.toNat (by
        have : UInt16.size = 65536 := rfl
        omega))
    else none
  | _ => none

def asFloat? : Value → Option Binary64.Finite
  | .number n => some n.toFloat
  | _ => none

def asOptionalString? : Option Value → Option (Option String)
  | none => some none
  | some .null => some none
  | some (.string s) => some (some s)
  | some _ => none

/-- The options of a section by name, each none if it is missing. An array has to hold all of
them. -/
def section? (names : List String) : Value → Option (List (Option Value))
  | .object entries => some (names.map fun name => Object.find? name entries)
  | .array items => if items.length = names.length then some (items.map some) else none
  | _ => none

end Value

def DevSettings.ofValue? (value : Value) : Option DevSettings :=
  match value.section? names with
  | some [host, port, opensBrowser] => do
    return {
      host := ← (← host).asString?
      port := ← (← port).asPort?
      opensBrowser := ← (← opensBrowser).asBool? }
  | _ => none

def BuildSettings.ofValue? (value : Value) : Option BuildSettings :=
  match value.section? names with
  | some [minify, sourcemap, limit] => do
    return {
      minify := ← (← minify).asBool?
      sourcemap := ← (← sourcemap).asBool?
      chunkSizeWarningLimit := ← (← limit).asFloat? }
  | _ => none

def LoggingSettings.ofValue? (value : Value) : Option LoggingSettings :=
  match value.section? names with
  | some [level, format, dir, rotation, stderr] => do
    return {
      level := ← (← level).asString?
      format := ← (← format).asString?
      dir := ← Value.asOptionalString? dir
      rotation := ← (← rotation).asString?
      stderr := ← (← stderr).asBool? }
  | _ => none

/-- The settings that an object holds; their directory is empty. -/
def Settings.ofObject? (entries : Object) : Option Settings := do
  return {
    root := ← (← Object.find? "root" entries).asString?
    outDir := ← (← Object.find? "out_dir" entries).asString?
    base := ← (← Object.find? "base" entries).asString?
    publicDir := ← (← Object.find? "public_dir" entries).asString?
    dev := ← DevSettings.ofValue? (← Object.find? "dev" entries)
    build := ← BuildSettings.ofValue? (← Object.find? "build" entries)
    logging := ← LoggingSettings.ofValue? (← Object.find? "logging" entries)
    extra := Object.without names entries
    cwd := "" }

def Settings.ofValue? (value : Value) : Option Settings := value.object?.bind ofObject?

end SiteConfig

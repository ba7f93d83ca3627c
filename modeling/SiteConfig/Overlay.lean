import SiteConfig.Event
import SiteConfig.Text.Blank
import SiteConfig.Value
/-!
# Environment overlay

Environment variables override options. A variable whose name starts with the overlay's beginning
names the option by the rest of the name, with two underscores between the levels, and its text is
written over the value that stands there.
-/
namespace SiteConfig

abbrev Environment := List (String × String)

namespace Overlay

/-- The text behind a beginning, which is matched without regard to the case of ASCII letters. -/
def afterBeginning? : List Char → List Char → Option (List Char)
  | [], text => some text
  | _ :: _, [] => none
  | b :: beginning, c :: text =>
    if b.toLower = c.toLower then afterBeginning? beginning text else none

/-- Text with a point for every two underscores, from the left. -/
def separate : List Char → List Char
  | '_' :: '_' :: rest => '.' :: separate rest
  | c :: rest => c :: separate rest
  | [] => []

def parts : List Char → List (List Char)
  | [] => [[]]
  | c :: rest =>
    if c = '.' then [] :: parts rest
    else
      match parts rest with
      | part :: others => (c :: part) :: others
      | [] => [[c]]

/-- The path of the option that a variable names, none if the name does not start as it has to or a
level of the path is empty. -/
def path? (beginning name : String) : Option (List String) :=
  match afterBeginning? beginning.toList (Text.trim name.toList) with
  | none => none
  | some rest =>
    let levels := parts (Text.trim (separate rest))
    if levels.any List.isEmpty then none
    else some (levels.map fun level => String.ofList (level.map Char.toLower))

def entriesOf (found : Option Value) : Object := (found.bind Value.object?).getD []

/-- An object with a text at a path. What stands in the way of the path is replaced. -/
def write (value : String) : List String → Object → Object
  | [], entries => entries
  | [key], entries => Object.insert key (.string value) entries
  | key :: path, entries =>
    Object.insert key (.object (write value path (entriesOf (Object.find? key entries)))) entries

/-- What stands at a place after a text was written below it. -/
def overwritten (text : String) (path : List String) (found : Option Value) : Value :=
  match path with
  | [] => .string text
  | path => .object (write text path (entriesOf found))

/-- The overridden paths with their texts, in the order of the environment. -/
def overrides (beginning : String) (environment : Environment) : List (List String × String) :=
  environment.filterMap fun (name, value) => (path? beginning name).map (·, value)

def layer (overrides : List (List String × String)) (entries : Object) : Object :=
  overrides.foldl (fun entries (path, value) => write value path entries) entries

def events (overrides : List (List String × String)) : List Event :=
  overrides.map fun (path, _) => .environmentOverride (String.intercalate "." path)

end Overlay
end SiteConfig

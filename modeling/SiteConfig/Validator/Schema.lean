import SiteConfig.Validator.Basic
import SiteConfig.Text.Quoted
/-!
# Schemas

Declaring the fields of an object. A mark in front of the name makes a field required; declaring a
name again replaces the earlier field.
-/
namespace SiteConfig.Schema

def empty : Schema := []

/-- The name that a declaration spells, and whether it is marked as required. One mark counts. -/
def splitMark (spelling : String) : String × Bool :=
  match spelling.toList with
  | '!' :: name => (String.ofList name, true)
  | _ => (spelling, false)

def declare (schema : Schema) (spelling : String) (validator : Validator) : Schema :=
  let (name, required) := splitMark spelling
  schema.filter (fun field => field.name != name) ++ [⟨name, required, validator⟩]

def ofDeclarations (declarations : List (String × Validator)) : Schema :=
  declarations.foldl (fun schema (spelling, validator) => declare schema spelling validator) empty

def names (schema : Schema) : List String := schema.map Field.name

def isRequired (schema : Schema) (name : String) : Bool :=
  schema.any fun field => field.name == name && field.required

private def braced (text : String) : String := String.singleton '{' ++ text ++ String.singleton '}'

def summary (schema : Schema) : String :=
  let entries := schema.map fun field =>
    Text.quoted field.name ++ ": " ++ Text.quoted (if field.required then "required" else "optional")
  braced (String.intercalate ", " entries)

def validatorSummary (schema : Schema) : String :=
  "ObjectValidator " ++ braced (" schema: " ++ summary schema ++ " ")

end SiteConfig.Schema

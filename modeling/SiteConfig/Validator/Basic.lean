import SiteConfig.Value
/-!
# Validators

A validator describes the values that an option accepts and what a missing option becomes. Object
validators nest: a schema lists the declared fields of an object in their order.
-/
namespace SiteConfig

structure Field (α : Type) where
  name : String
  required : Bool
  validator : α

inductive Validator where
  /-- Accepts strings, the empty one only if `allowEmpty` is set. -/
  | string (default : Option String) (allowEmpty : Bool)
  /-- Accepts numbers, and strings that spell a finite number. -/
  | number (default : Option Binary64)
  /-- Accepts truth values, their names, and the numbers zero and one. -/
  | boolean (default : Option Bool)
  /-- Accepts what `number` accepts if it is a whole number of 64 bits within the bounds. -/
  | integer (default : Option Signed64) (range : Option (Int × Int))
  /-- Accepts objects whose declared fields are accepted. -/
  | object (fields : List (Field Validator))

abbrev Schema := List (Field Validator)

namespace Validator

/-- What a validator makes of a value: the value in the validator's own type, none if it is missing
and has no default. -/
inductive Output where
  | string (s : Option String)
  | number (x : Option Binary64)
  | boolean (b : Option Bool)
  | integer (n : Option Signed64)
  | object (entries : Object)

/-- A finite number as a value. Numbers that are whole and fit become integers. -/
def finiteValue (x : Binary64.Finite) : Value :=
  .number ((x.whole?.bind Signed64.ofInt?).elim (.float x) .ofSigned)

/-- A floating-point number as a value. Those that are not finite become null. -/
def floatValue (x : Binary64) : Value :=
  match Binary64.Finite.ofBinary64? x with
  | none => .null
  | some x => finiteValue x

/-- The output as a value of the configuration tree; a missing one is null. -/
def Output.toValue : Output → Value
  | .string s => s.elim .null .string
  | .number x => x.elim .null floatValue
  | .boolean b => b.elim .null .bool
  | .integer n => n.elim .null fun n => .number (.ofSigned n)
  | .object entries => .object entries

/-- The value, unless it is missing or null. -/
def present (raw : Option Value) : Option Value :=
  match raw with
  | some .null => none
  | raw => raw

end Validator
end SiteConfig

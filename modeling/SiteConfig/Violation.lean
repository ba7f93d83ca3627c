import SiteConfig.Keypath
import SiteConfig.Value
/-!
# Violations

The constraint that a value breaks, with its location and its cause.
-/
namespace SiteConfig

inductive Demand where
  | string
  | number
  | boolean
  | integer
  | object
  deriving DecidableEq

def Demand.name : Demand → String
  | .string => "a string"
  | .number => "a number"
  | .boolean => "a boolean"
  | .integer => "an integer"
  | .object => "an object"

/-- Why a value of the demanded shape is refused. -/
inductive Flaw where
  | empty
  | notWhole (got : Binary64.Finite)
  | outside (least greatest got : Int)
  | notListed (names : List String)
  | notPositive
  deriving DecidableEq

namespace Flaw

/-- Refused numbers are written in full, without exponent and without a needless point; of two
equally near decimals the larger is written. -/
def layout : Decimal.Layout := ⟨.up, none, false⟩

def reason : Flaw → String
  | .empty => "cannot be empty"
  | .notWhole got =>
    "must be a whole number that fits in 64 bits, got " ++ String.ofList (layout.text got)
  | .outside least greatest got =>
    "must be between " ++ toString least ++ " and " ++ toString greatest ++ ", got " ++ toString got
  | .notListed names => "must be one of: " ++ String.intercalate ", " names
  | .notPositive => "must be positive"

end Flaw

inductive Violation where
  | typeMismatch (keypath : Keypath) (expected : Demand) (found : Value.Kind)
  | invalidValue (keypath : Keypath) (flaw : Flaw)
  | missingRequired (keypath : Keypath)
  deriving DecidableEq

namespace Violation

def keypath : Violation → Keypath
  | .typeMismatch keypath _ _ => keypath
  | .invalidValue keypath _ => keypath
  | .missingRequired keypath => keypath

def message : Violation → String
  | .typeMismatch keypath expected found =>
    keypath.location ++ " must be " ++ expected.name ++ ", found " ++ found.name
  | .invalidValue keypath flaw => keypath.location ++ " " ++ flaw.reason
  | .missingRequired keypath => keypath.location ++ " must not be undefined"

end Violation
end SiteConfig

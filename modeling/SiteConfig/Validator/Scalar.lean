import SiteConfig.Text.Blank
import SiteConfig.Validator.Basic
import SiteConfig.Violation
/-!
# Scalar validation

Strings, numbers, truth values and whole numbers. A missing or null value becomes the default, which
is not checked itself.
-/
namespace SiteConfig.Validator

def toFloat? : Value → Option Binary64.Finite
  | .number n => some n.toFloat
  | .string s => Decimal.finiteOfText? (Text.trim s.toList)
  | _ => none

def toSigned? : Value → Option Signed64
  | .number n => n.signed?
  | .string s => (Decimal.integerOfText? (Text.trim s.toList)).bind Signed64.ofInt?
  | _ => none

def toBool? : Value → Option Bool
  | .bool b => some b
  | .string s => if s = "true" then some true else if s = "false" then some false else none
  | .number n => n.toFloat.whole?.bind fun n =>
    if n = 1 then some true else if n = 0 then some false else none
  | _ => none

def validateString (default : Option String) (allowEmpty : Bool) (raw : Option Value)
    (keypath : Keypath) : Except Violation (Option String) :=
  match present raw with
  | none => .ok default
  | some (.string s) =>
    if s.isEmpty && !allowEmpty then .error (.invalidValue keypath .empty) else .ok (some s)
  | some other => .error (.typeMismatch keypath .string other.kind)

def validateNumber (default : Option Binary64) (raw : Option Value) (keypath : Keypath) :
    Except Violation (Option Binary64) :=
  match present raw with
  | none => .ok default
  | some value =>
    match toFloat? value with
    | some x => .ok (some x.val)
    | none => .error (.typeMismatch keypath .number value.kind)

def validateBoolean (default : Option Bool) (raw : Option Value) (keypath : Keypath) :
    Except Violation (Option Bool) :=
  match present raw with
  | none => .ok default
  | some value =>
    match toBool? value with
    | some b => .ok (some b)
    | none => .error (.typeMismatch keypath .boolean value.kind)

def checkRange (range : Option (Int × Int)) (n : Signed64) (keypath : Keypath) :
    Except Violation Signed64 :=
  match range with
  | none => .ok n
  | some (least, greatest) =>
    if least ≤ n.val ∧ n.val ≤ greatest then .ok n
    else .error (.invalidValue keypath (.outside least greatest n.val))

/-- Refuses floating-point numbers that are not whole, do not fit or are outside the bounds. -/
def checkWhole (range : Option (Int × Int)) (x : Binary64.Finite) (keypath : Keypath) :
    Except Violation Signed64 :=
  (x.whole?.bind Signed64.ofInt?).elim (.error (.invalidValue keypath (.notWhole x))) fun n =>
    checkRange range n keypath

/-- Reads whole numbers exactly where they are stated exactly, and otherwise through the nearest
floating-point number. -/
def validateInteger (default : Option Signed64) (range : Option (Int × Int)) (raw : Option Value)
    (keypath : Keypath) : Except Violation (Option Signed64) :=
  match present raw with
  | none => .ok default
  | some value =>
    match toSigned? value with
    | some n => (checkRange range n keypath).map some
    | none =>
      match toFloat? value with
      | none => .error (.typeMismatch keypath .integer value.kind)
      | some x => (checkWhole range x keypath).map some

end SiteConfig.Validator

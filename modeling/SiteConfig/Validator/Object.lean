import SiteConfig.Reported
import SiteConfig.Validator.Scalar
/-!
# Object validation

An object is completed by its schema: every declared field is validated, in the order of
declaration, and undeclared entries pass through unchanged, each with an event. The first violation
ends the pass.
-/
namespace SiteConfig.Validator

/-- Reports the undeclared entries of an object, by ascending key. -/
def undeclaredEvents (keypath : Keypath) (undeclared : Object) : List Event :=
  undeclared.map fun (name, _) => .undeclaredOption (keypath.child name)

mutual

def validate : Validator → Option Value → Keypath → Reported Violation Output
  | .string default allowEmpty, raw, keypath =>
    .ofExcept ((validateString default allowEmpty raw keypath).map .string)
  | .number default, raw, keypath => .ofExcept ((validateNumber default raw keypath).map .number)
  | .boolean default, raw, keypath => .ofExcept ((validateBoolean default raw keypath).map .boolean)
  | .integer default range, raw, keypath =>
    .ofExcept ((validateInteger default range raw keypath).map .integer)
  | .object fields, raw, keypath =>
    match present raw with
    | none => (validateFields fields [] keypath).andThen fun declared =>
        ⟨[], .ok (.object (Object.ofEntries declared))⟩
    | some (.object entries) => (validateFields fields entries keypath).andThen fun declared =>
        let undeclared := Object.without (declared.map Prod.fst) entries
        ⟨undeclaredEvents keypath undeclared,
          .ok (.object (Object.ofEntries (declared ++ undeclared)))⟩
    | some other => .fail (.typeMismatch keypath .object other.kind)

def validateFields :
    List (Field Validator) → Object → Keypath → Reported Violation (List (String × Value))
  | [], _, _ => ⟨[], .ok []⟩
  | field :: rest, entries, keypath =>
    let raw := Object.find? field.name entries
    let fieldPath := keypath.child field.name
    if field.required && (present raw).isNone then .fail (.missingRequired fieldPath)
    else (field.validator.validate raw fieldPath).andThen fun output =>
      (validateFields rest entries keypath).andThen fun values =>
        ⟨[], .ok ((field.name, output.toValue) :: values)⟩

end

def validateField (validator : Validator) (raw : Option Value) (keypath : Keypath) :
    Reported Violation Value :=
  (validator.validate raw keypath).andThen fun output => ⟨[], .ok output.toValue⟩

end SiteConfig.Validator

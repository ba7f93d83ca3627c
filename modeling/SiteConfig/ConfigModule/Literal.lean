import SiteConfig.ConfigModule.Error
import SiteConfig.Value
/-!
# Literals

Reading a value from tokens, one token at a time. The state of reading says what may come next and
which arrays and objects are open around it, so that a token is refused as soon as no value can
follow from it.
-/
namespace SiteConfig.ConfigModule

/-- An open array or object that waits for a value, with what it holds so far, the latest first. -/
inductive Frame where
  | array (items : List Value)
  | object (entries : List (String × Value)) (key : String)

inductive Expected where
  /-- A value. -/
  | value
  /-- The number behind a sign. -/
  | magnitude (sign : Char)
  /-- An item of an array, or its end. -/
  | item (items : List Value)
  /-- A key of an object, or its end. -/
  | key (entries : List (String × Value))
  /-- The colon behind a key. -/
  | colon (entries : List (String × Value)) (key : String)
  /-- What continues or ends the innermost open array or object, or the export. -/
  | separator (v : Value)
  /-- Nothing, for the export is complete. -/
  | nothing (v : Value)

/-- The state of reading: what is expected, and what is open, the innermost first. -/
structure Reading where
  expected : Expected
  frames : List Frame

namespace Reading

def start : Reading := ⟨.value, []⟩

def keyOf? : Token → Option String
  | .name s => some s
  | .string s => some s
  | .number n => some n.text
  | .punct _ => none

def namedValue? (name : String) : Option Value :=
  if name = "true" then some (.bool true)
  else if name = "false" then some (.bool false)
  else if name = "null" ∨ name = "undefined" then some .null
  else none

def startValue (frames : List Frame) : Token → Except Complaint Reading
  | .punct '{' => .ok ⟨.key [], frames⟩
  | .punct '[' => .ok ⟨.item [], frames⟩
  | .punct '-' => .ok ⟨.magnitude '-', frames⟩
  | .punct '+' => .ok ⟨.magnitude '+', frames⟩
  | .punct c => .error (.unexpected (.punct c))
  | .string s => .ok ⟨.separator (.string s), frames⟩
  | .number n => .ok ⟨.separator (.number n), frames⟩
  | .name s =>
    match namedValue? s with
    | some v => .ok ⟨.separator v, frames⟩
    | none => .error (.notLiteral s)

/-- The value of an object of which the entries are listed with the latest first. -/
def objectOf (entries : List (String × Value)) : Value := .object (Object.ofEntries entries.reverse)

def continueWith (v : Value) : List Frame → Token → Except Complaint Reading
  | [], token => if token = .punct ';' then .ok ⟨.nothing v, []⟩ else .error (.trailing token)
  | .array items :: frames, token =>
    if token = .punct ',' then .ok ⟨.item (v :: items), frames⟩
    else if token = .punct ']' then .ok ⟨.separator (.array (v :: items).reverse), frames⟩
    else .error (.separatorExpected ']' token)
  | .object entries key :: frames, token =>
    if token = .punct ',' then .ok ⟨.key ((key, v) :: entries), frames⟩
    else if token = .punct '}' then .ok ⟨.separator (objectOf ((key, v) :: entries)), frames⟩
    else .error (.separatorExpected '}' token)

def step (reading : Reading) (token : Token) : Except Complaint Reading :=
  match reading.expected with
  | .value => startValue reading.frames token
  | .magnitude sign =>
    match token with
    | .number n =>
      match if sign = '-' then n.negate? else some n with
      | some n => .ok ⟨.separator (.number n), reading.frames⟩
      | none => .error .numberOutOfRange
    | _ => .error (.numberExpected sign)
  | .item items =>
    if token = .punct ']' then .ok ⟨.separator (.array items.reverse), reading.frames⟩
    else if token = .punct ',' then .error .arrayHole
    else startValue (.array items :: reading.frames) token
  | .key entries =>
    if token = .punct '}' then .ok ⟨.separator (objectOf entries), reading.frames⟩
    else if token = .punct '[' then .error .computedKey
    else
      match keyOf? token with
      | some key => .ok ⟨.colon entries key, reading.frames⟩
      | none => .error (.keyExpected token)
  | .colon entries key =>
    if token = .punct ':' then .ok ⟨.value, .object entries key :: reading.frames⟩
    else if token = .punct ',' ∨ token = .punct '}' then .error (.shorthand key)
    else .error (.colonExpected key token)
  | .separator v => continueWith v reading.frames token
  | .nothing _ => .error (.trailing token)

def finish (reading : Reading) : Except Complaint Value :=
  match reading.expected with
  | .value => .error .valueAtEnd
  | .magnitude sign => .error (.numberExpected sign)
  | .item _ => .error .valueAtEnd
  | .key _ => .error (.punctAtEnd '}')
  | .colon _ _ => .error (.punctAtEnd ':')
  | .separator v =>
    match reading.frames with
    | [] => .ok v
    | .array _ :: _ => .error (.punctAtEnd ']')
    | .object _ _ :: _ => .error (.punctAtEnd '}')
  | .nothing v => .ok v

end Reading

/-- A fault in the order of the tokens, with the number of tokens from its place on; none are left
when it stands at the end of the source. -/
structure Fault where
  complaint : Complaint
  remaining : Nat

/-- The place of a complaint about a token. A missing number is reported at its sign. -/
def Fault.at (complaint : Complaint) (remaining : Nat) : Fault :=
  match complaint with
  | .numberExpected _ => ⟨complaint, remaining + 1⟩
  | _ => ⟨complaint, remaining⟩

def Reading.run (reading : Reading) : List Token → Except Fault Value
  | [] => reading.finish.mapError fun complaint => .at complaint 0
  | token :: rest =>
    match reading.step token with
    | .error complaint => .error (.at complaint (rest.length + 1))
    | .ok next => next.run rest

/-- The value that the tokens of a default export spell. -/
def literal (tokens : List Token) : Except Fault Value := Reading.start.run tokens

end SiteConfig.ConfigModule

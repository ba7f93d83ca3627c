import SiteConfig.ConfigModule.Lexeme
import SiteConfig.ConfigModule.Literal
/-!
# Default exports

Evaluating a configuration module: it consists of a single default export, whose value is a literal.
-/
namespace SiteConfig.ConfigModule

def isExport (first second : Token) : Bool :=
  first == .name "export" && second == .name "default"

def hasExport : List Token → Bool
  | first :: second :: rest => isExport first second || hasExport (second :: rest)
  | _ => false

def firstLine (source : List Char) : String :=
  String.ofList (Text.trim (source.takeWhile (· != '\n')))

def dropBytes : Nat → List Char → List Char
  | 0, text => text
  | _ + 1, [] => []
  | bytes + 1, c :: text => dropBytes (bytes + 1 - c.utf8Size) text
termination_by structural _ text => text

/-- The position of the lexeme from which on a number of lexemes remain, or the end of the source if
none do. -/
def positionOf (stop : Position) (lexemes : List Lexeme) (remaining : Nat) : Position :=
  match lexemes.drop (lexemes.length - remaining) with
  | [] => stop
  | lexeme :: _ => lexeme.place.position

/-- The value that the lexemes behind `export default` spell. -/
def exportedValue (stop : Position) (lexemes : List Lexeme) : Except Error Value :=
  let tokens := lexemes.map Lexeme.token
  if tokens = [] ∨ tokens.head? = some (.punct ';') then .error .emptyExport
  else
    (literal tokens).mapError fun fault =>
      .malformed (positionOf stop lexemes fault.remaining) fault.complaint

def evaluateChars (source : List Char) : Except Error Value :=
  match lexemes source with
  | .error error => .error error
  | .ok (all, stop) =>
    match all with
    | first :: second :: rest =>
      if isExport first.token second.token then exportedValue stop rest
      else if hasExport (all.map Lexeme.token) then
        .error (.unsupportedStatement (firstLine (dropBytes first.place.offset source)))
      else .error .noDefaultExport
    | _ => .error .noDefaultExport

/-- The value that a configuration module exports. -/
def evaluate (source : String) : Except Error Value := evaluateChars source.toList

end SiteConfig.ConfigModule

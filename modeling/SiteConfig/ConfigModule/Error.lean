import SiteConfig.ConfigModule.Position
import SiteConfig.ConfigModule.Token
import SiteConfig.Text.Quoted
/-!
# Errors of configuration modules

Why a source is no configuration module: the causes with their wording.
-/
namespace SiteConfig.ConfigModule

inductive Unfinished where
  | blockComment
  | stringLiteral
  | templateLiteral
  deriving DecidableEq

def Unfinished.name : Unfinished → String
  | .blockComment => "block comment"
  | .stringLiteral => "string literal"
  | .templateLiteral => "template literal"

inductive Complaint where
  | invalidNumber (text : String)
  | interpolation
  | octalEscape
  | invalidHexEscape
  | invalidUnicodeEscape
  | unpairedSurrogate
  | invalidCodePoint (code : Nat)
  | valueAtEnd
  | punctAtEnd (c : Char)
  | unexpected (found : Token)
  | notLiteral (name : String)
  | numberExpected (sign : Char)
  | numberOutOfRange
  | keyExpected (found : Token)
  | computedKey
  | shorthand (key : String)
  | colonExpected (key : String) (found : Token)
  | separatorExpected (close : Char) (found : Token)
  | arrayHole
  | trailing (found : Token)
  deriving DecidableEq

def Complaint.message : Complaint → String
  | .invalidNumber text => "invalid number `" ++ text ++ "`"
  | .interpolation => "template literal interpolation is not supported"
  | .octalEscape => "octal escape sequences are not supported"
  | .invalidHexEscape => "invalid hexadecimal escape"
  | .invalidUnicodeEscape => "invalid unicode escape"
  | .unpairedSurrogate => "unpaired surrogate in unicode escape"
  | .invalidCodePoint code =>
    "invalid code point 0x" ++ String.ofList (Text.hexText code) ++ " in escape"
  | .valueAtEnd => "unexpected end of input, expected a value"
  | .punctAtEnd c => "unexpected end of input, expected `" ++ c.toString ++ "`"
  | .unexpected found => "unexpected " ++ found.description
  | .notLiteral name => "`" ++ name ++ "` is not a literal value; only literals can be exported"
  | .numberExpected sign => "expected a number after `" ++ sign.toString ++ "`"
  | .numberOutOfRange => "number out of range"
  | .keyExpected found => "expected a property key, found " ++ found.description
  | .computedKey => "computed property keys are not supported"
  | .shorthand key => "shorthand property `" ++ key ++ "` is not supported"
  | .colonExpected key found => "expected `:` after `" ++ key ++ "`, found " ++ found.description
  | .separatorExpected close found =>
    "expected `,` or `" ++ close.toString ++ "`, found " ++ found.description
  | .arrayHole => "array holes are not supported"
  | .trailing found => "unexpected " ++ found.description ++ " after the default export"

/-- Why a configuration module cannot be evaluated. -/
inductive Error where
  | noDefaultExport
  | unsupportedStatement (statement : String)
  | emptyExport
  | unterminated (what : Unfinished)
  | malformed (position : Position) (complaint : Complaint)
  deriving DecidableEq

def Error.message : Error → String
  | .noDefaultExport => "module has no default export"
  | .unsupportedStatement statement =>
    "only a default export expression is supported, found `" ++ statement ++ "`"
  | .emptyExport => "default export has no value"
  | .unterminated what => "unterminated " ++ what.name
  | .malformed position complaint =>
    "syntax error in default export at " ++ position.text ++ ": " ++ complaint.message

end SiteConfig.ConfigModule

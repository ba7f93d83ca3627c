import SiteConfig.Number
/-!
# Tokens

The tokens of a configuration module, and how messages name them.
-/
namespace SiteConfig.ConfigModule

inductive Token where
  | punct (c : Char)
  | name (s : String)
  | string (s : String)
  | number (n : Number)
  deriving DecidableEq

/-- A token as messages name it. -/
def Token.description : Token → String
  | .punct c => "`" ++ c.toString ++ "`"
  | .name s => "`" ++ s ++ "`"
  | .string _ => "a string"
  | .number n => "number `" ++ n.text ++ "`"

end SiteConfig.ConfigModule

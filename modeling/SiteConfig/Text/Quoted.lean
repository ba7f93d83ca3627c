import SiteConfig.Text.Printable
/-!
# Quoted text

Text between double quotes. Quotes and backslashes get a backslash, the usual controls a letter, and
every other character that is not printable its code point in braces.
-/
namespace SiteConfig.Text

def hexText (code : Nat) : List Char := Nat.toDigits 16 code

def quotedChar : Char → List Char
  | '\x00' => ['\\', '0']
  | '\t' => ['\\', 't']
  | '\r' => ['\\', 'r']
  | '\n' => ['\\', 'n']
  | '\\' => ['\\', '\\']
  | '"' => ['\\', '"']
  | c => if isPrintable c then [c] else ['\\', 'u', '{'] ++ hexText c.toNat ++ ['}']

def quoted (text : String) : String :=
  String.ofList ('"' :: text.toList.flatMap quotedChar ++ ['"'])

end SiteConfig.Text

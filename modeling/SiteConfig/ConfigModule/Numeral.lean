import SiteConfig.ConfigModule.Cursor
import SiteConfig.ConfigModule.Error
/-!
# Numerals

Numeric literals: decimal with fraction and exponent, or hexadecimal, octal and binary with a
two-character mark, all with separators between their characters. Plain digits stay integers while a
word holds them.
-/
namespace SiteConfig.ConfigModule.Numeral

/-- The radix that the first two characters mark. -/
def radix? : List Char → Option Nat
  | '0' :: 'x' :: _ => some 16
  | '0' :: 'X' :: _ => some 16
  | '0' :: 'o' :: _ => some 8
  | '0' :: 'O' :: _ => some 8
  | '0' :: 'b' :: _ => some 2
  | '0' :: 'B' :: _ => some 2
  | _ => none

/-- The value of a character as a digit of a radix up to sixteen. -/
def digit? (radix : Nat) (c : Char) : Option Nat :=
  let value :=
    if c.isDigit then some (c.toNat - '0'.toNat)
    else if 'a' ≤ c ∧ c ≤ 'f' then some (c.toNat - 'a'.toNat + 10)
    else if 'A' ≤ c ∧ c ≤ 'F' then some (c.toNat - 'A'.toNat + 10)
    else none
  value.filter (· < radix)

/-- The number that digits of a radix spell after those of `start`. -/
def ofDigits? (radix : Nat) (start : Nat) (digits : List Char) : Option Nat :=
  digits.foldlM (fun n c => (digit? radix c).map (radix * n + ·)) start

/-- Whether a numeral goes on with a character behind `last`: a letter, a digit, a point, a separator,
or a sign behind an exponent letter, which a numeral with a radix mark has not. -/
def goesOn (marked : Bool) (last c : Char) : Bool :=
  c.isAlphanum || c == '.' || c == '_' ||
    (c == '+' || c == '-') && (last == 'e' || last == 'E') && !marked

def hasDoubleSeparator : List Char → Bool
  | '_' :: '_' :: _ => true
  | _ :: rest => hasDoubleSeparator rest
  | [] => false

def isMisplaced (text : List Char) : Bool :=
  text.head? == some '_' || text.getLast? == some '_' || hasDoubleSeparator text

def hasLeadingZero : List Char → Bool
  | '0' :: c :: _ => c.isDigit
  | _ => false

def isDecimalChar (c : Char) : Bool :=
  c.isDigit || c == '.' || c == 'e' || c == 'E' || c == '+' || c == '-'

def ofNat? (n : Nat) : Option Number := (WholeNumber.ofInt? n).map .integer

def floatOf? (digits : List Char) : Option Number := (Decimal.finiteOfText? digits).map .float

/-- The number that a numeral without separators spells. -/
def ofPlain? (digits : List Char) : Option Number :=
  match radix? digits with
  | some radix =>
    let digits := digits.drop 2
    if digits.isEmpty then none else (ofDigits? radix 0 digits).bind ofNat?
  | none =>
    if hasLeadingZero digits then none
    else if digits.all Char.isDigit then
      (ofNat? (Decimal.digitsFrom 0 digits)).or (floatOf? digits)
    else if digits.all isDecimalChar then floatOf? digits
    else none

/-- The number that a numeral spells. Separators do not stand at its ends or side by side. -/
def ofText? (text : List Char) : Option Number :=
  if isMisplaced text then none else ofPlain? (text.filter (· != '_'))

def read (place : Place) (first : Char) (rest : List Char) : Except Error (Number × Cursor) :=
  let spanned :=
    Cursor.span (goesOn (radix? (first :: rest)).isSome) first ⟨rest, place.next first⟩
  match ofText? (first :: spanned.1) with
  | some n => .ok (n, spanned.2)
  | none =>
    .error (.malformed place.position (.invalidNumber (String.ofList (first :: spanned.1))))

theorem length_read {place : Place} {first : Char} {rest : List Char} {n : Number}
    {behind : Cursor} (h : read place first rest = .ok (n, behind)) :
    behind.rest.length ≤ rest.length := by
  simp only [read] at h
  split at h
  · cases h
    exact Cursor.length_span ..
  · cases h

end SiteConfig.ConfigModule.Numeral

import SiteConfig.Binary64
/-!
# Decimal numerals

Reading decimal text: an optional sign, digits with an optional fraction, and an optional exponent.
The text denotes an exact decimal, which is rounded once to the nearest binary number.
-/
namespace SiteConfig

attribute [local instance (20000)] instPowNat

/-- The number `coefficient * 10 ^ exponent` with a sign. -/
structure Decimal where
  negative : Bool
  coefficient : Nat
  exponent : Int
  deriving DecidableEq, Repr

namespace Decimal

/-- The number that decimal digits spell after the digits of `start`. -/
def digitsFrom (start : Nat) (digits : List Char) : Nat :=
  digits.foldl (fun n c => 10 * n + (c.toNat - '0'.toNat)) start

/-- Splits an optional sign off; it tells whether the sign is a minus. -/
def splitSign : List Char → Bool × List Char
  | '-' :: rest => (true, rest)
  | '+' :: rest => (false, rest)
  | text => (false, text)

def integerOfText? (text : List Char) : Option Int :=
  let (negative, digits) := splitSign text
  if digits.isEmpty || !digits.all Char.isDigit then none
  else
    let n := digitsFrom 0 digits
    some (if negative then -n else n)

def exponentOfText? : List Char → Option Int
  | [] => some 0
  | c :: text => if c == 'e' || c == 'E' then integerOfText? text else none

def splitFraction : List Char → List Char × List Char
  | '.' :: rest => (rest.takeWhile Char.isDigit, rest.dropWhile Char.isDigit)
  | rest => ([], rest)

/-- The decimal that the text spells. A digit has to stand before or after the point. -/
def ofText? (text : List Char) : Option Decimal :=
  let (negative, unsigned) := splitSign text
  let whole := unsigned.takeWhile Char.isDigit
  let (fraction, rest) := splitFraction (unsigned.dropWhile Char.isDigit)
  if whole.isEmpty && fraction.isEmpty then none
  else
    (exponentOfText? rest).map fun exponent =>
      { negative
        coefficient := digitsFrom (digitsFrom 0 whole) fraction
        exponent := exponent - fraction.length }

/-- A decimal exponent beyond which every number but zero is out of the binary range. -/
def exponentLimit : Int := 400

/-- The nearest binary magnitude. Numbers far out of the binary range are settled without their
power of ten, for a coefficient stays below ten to the number of its bits. -/
def magnitude (d : Decimal) : Nat :=
  if d.coefficient = 0 then 0
  else if exponentLimit < d.exponent then Binary64.infinity
  else if d.exponent + d.coefficient.log2 + 1 < -exponentLimit then 0
  else match d.exponent with
    | .ofNat e => Binary64.nearest (d.coefficient * 10 ^ e * Binary64.unitsPerOne) 1
    | .negSucc e => Binary64.nearest (d.coefficient * Binary64.unitsPerOne) (10 ^ (e + 1))

theorem magnitude_le_infinity (d : Decimal) : d.magnitude ≤ Binary64.infinity := by
  unfold magnitude
  split
  · exact Nat.zero_le _
  · split
    · exact Nat.le_refl _
    · split
      · exact Nat.zero_le _
      · split <;> exact Binary64.nearest_le_infinity _ _

def toBinary64 (d : Decimal) : Binary64 where
  negative := d.negative
  magnitude := d.magnitude
  bounded := Nat.lt_of_le_of_lt (magnitude_le_infinity d) (by decide)

/-- The finite binary number nearest to what the text spells; none if the text is no decimal or its
number is out of range. -/
def finiteOfText? (text : List Char) : Option Binary64.Finite :=
  (ofText? text).bind fun d => Binary64.Finite.ofBinary64? d.toBinary64

end Decimal
end SiteConfig

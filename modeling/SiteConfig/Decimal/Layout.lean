import SiteConfig.Decimal.Shortest
/-!
# Layouts of decimal text

How the shortest digits of a number are set out: where the point stands, when an exponent is
written, and whether a whole number keeps a fraction.
-/
namespace SiteConfig.Decimal

/-- The decisions of one text form of numbers. -/
structure Layout where
  /-- Which of two equally near decimals is written. -/
  tie : Tie
  /-- The exponents of the leading digit, from the first to below the second, that are written
  without an exponent; all of them if there is no such range. -/
  positional : Option (Int × Int)
  /-- Whether a whole number without an exponent gets a zero after the point. -/
  keepsFraction : Bool

namespace Layout

/-- Whether a number whose leading digit stands for `10 ^ exponent` is written without exponent. -/
def isPositional (layout : Layout) (exponent : Int) : Bool :=
  match layout.positional with
  | none => true
  | some (first, beyond) => decide (first ≤ exponent) && decide (exponent < beyond)

/-- Digits with the point after the first `point` of them, filled up with zeros. -/
def positionalText (layout : Layout) (digits : List Char) (point : Int) : List Char :=
  if point ≤ 0 then '0' :: '.' :: List.replicate (-point).toNat '0' ++ digits
  else
    let whole := digits.take point.toNat
    let fraction := digits.drop point.toNat
    let zeros := List.replicate (point.toNat - digits.length) '0'
    if fraction.isEmpty then whole ++ zeros ++ (if layout.keepsFraction then ['.', '0'] else [])
    else whole ++ '.' :: fraction

/-- One digit before the point, the others after it, and the exponent with its sign. -/
def scientificText (digits : List Char) (exponent : Int) : List Char :=
  let sign := if exponent < 0 then '-' else '+'
  let tail := 'e' :: sign :: (toString exponent.natAbs).toList
  match digits with
  | first :: second :: rest => first :: '.' :: second :: rest ++ tail
  | _ => digits ++ tail

def unsignedText (layout : Layout) (d : Decimal) : List Char :=
  if d.coefficient = 0 then if layout.keepsFraction then ['0', '.', '0'] else ['0']
  else
    let digits := (toString d.coefficient).toList
    let point := d.exponent + digits.length
    if layout.isPositional (point - 1) then layout.positionalText digits point
    else scientificText digits (point - 1)

def text (layout : Layout) (x : Binary64.Finite) : List Char :=
  let unsigned := layout.unsignedText (shortest layout.tie x)
  if x.val.negative then '-' :: unsigned else unsigned

end Layout
end SiteConfig.Decimal

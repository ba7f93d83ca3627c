import SiteConfig.Decimal.Basic
/-!
# Shortest decimals

The shortest decimal that reads back as a given finite number: the coarsest grid of multiples of a
power of ten is sought on which a neighbour of the number reads back. The finest grid that is tried
holds every finite number exactly, so the search cannot fail.
-/
namespace SiteConfig.Decimal

attribute [local instance (20000)] instPowNat

/-- Which neighbour is taken when the number stands halfway between two. -/
inductive Tie where
  | toEven
  | up
  deriving DecidableEq

def Tie.takesLow : Tie → Nat → Bool
  | .toEven, low => low % 2 == 0
  | .up, _ => false

/-- Whether a multiple of `10 ^ exponent` reads back as the absolute value of `x`. -/
def readsBack (x : Binary64) (coefficient : Nat) (exponent : Int) : Bool :=
  Decimal.magnitude ⟨false, coefficient, exponent⟩ == x.magnitude

def tenTo : Int → Nat × Nat
  | .ofNat e => (10 ^ e, 1)
  | .negSucc e => (1, 10 ^ (e + 1))

def neighbours (tie : Tie) (dividend divisor : Nat) : Nat × Nat :=
  let low := dividend / divisor
  let excess := 2 * (dividend % divisor)
  if excess < divisor || excess == divisor && tie.takesLow low then (low, low + 1)
  else (low + 1, low)

def readingBack? (x : Binary64) (exponent : Int) (coefficients : Nat × Nat) : Option Nat :=
  if readsBack x coefficients.1 exponent then some coefficients.1
  else if readsBack x coefficients.2 exponent then some coefficients.2
  else none

/-- The multiple of `10 ^ exponent` that reads back as the absolute value of `x`, the nearer one if
both neighbours do. -/
def onGrid? (tie : Tie) (x : Binary64) (exponent : Int) : Option Nat :=
  let power := tenTo exponent
  readingBack? x exponent (neighbours tie (x.units * power.2) (Binary64.unitsPerOne * power.1))

/-- The first grid with a number that reads back, from `10 ^ (n - 1074)` down. -/
def search (tie : Tie) (x : Binary64) : Nat → Nat × Int
  | 0 => (x.units * 5 ^ Binary64.places, -Binary64.places)
  | n + 1 =>
    let exponent : Int := (n + 1 : Nat) - Binary64.places
    ((onGrid? tie x exponent).map (·, exponent)).getD (search tie x n)

def leadingExponent (units : Nat) : Int :=
  ((units.log2 : Int) - Binary64.places) * 30103 / 100000 + 2

/-- The shortest decimal that reads back as `x`. -/
def shortest (tie : Tie) (x : Binary64.Finite) : Decimal :=
  if x.val.units = 0 then ⟨x.val.negative, 0, 0⟩
  else
    let found := search tie x.val (leadingExponent x.val.units + Binary64.places).toNat
    ⟨x.val.negative, found.1, found.2⟩

end SiteConfig.Decimal

import SiteConfig.Decimal.Layout
/-!
# Numbers

A number of a configuration is a whole number that a 64-bit word can hold, signed or unsigned, or a
finite binary floating-point number. The two kinds stay apart: `3000` is not `3000.0`.
-/
namespace SiteConfig

attribute [local instance (20000)] instPowNat

/-- The whole numbers of 64-bit words, signed or unsigned. -/
abbrev WholeNumber := { n : Int // -2 ^ (63 : Nat) ≤ n ∧ n < 2 ^ (64 : Nat) }

abbrev Signed64 := { n : Int // -2 ^ (63 : Nat) ≤ n ∧ n < 2 ^ (63 : Nat) }

def WholeNumber.ofInt? (n : Int) : Option WholeNumber :=
  if h : -2 ^ (63 : Nat) ≤ n ∧ n < 2 ^ (64 : Nat) then some ⟨n, h⟩ else none

def Signed64.ofInt? (n : Int) : Option Signed64 :=
  if h : -2 ^ (63 : Nat) ≤ n ∧ n < 2 ^ (63 : Nat) then some ⟨n, h⟩ else none

def Signed64.toWholeNumber (n : Signed64) : WholeNumber := ⟨n.val, n.property.1, by
  have := n.property.2
  omega⟩

inductive Number where
  | integer (n : WholeNumber)
  | float (x : Binary64.Finite)
  deriving DecidableEq

namespace Number

def toFloat : Number → Binary64.Finite
  | .integer n => Binary64.Finite.ofInt n.val (by
      have := n.property
      omega)
  | .float x => x

def signed? : Number → Option Signed64
  | .integer n => Signed64.ofInt? n.val
  | .float _ => none

def ofSigned (n : Signed64) : Number := .integer n.toWholeNumber

def negateFloat? (n : Number) : Option Number :=
  (Binary64.Finite.ofBinary64? n.toFloat.val.neg).map .float

/-- The number with the opposite sign, an integer if a natural number has one in a signed word. -/
def negate? (n : Number) : Option Number :=
  match n with
  | .integer m =>
    if h : 0 ≤ m.val ∧ m.val ≤ 2 ^ (63 : Nat) then some (.integer ⟨-m.val, by omega⟩)
    else negateFloat? n
  | .float _ => negateFloat? n

/-- Numbers are written without exponent while the leading digit is at the fifth place after the
point or before the seventeenth in front of it; whole floating-point numbers then keep a zero after
the point, and ties go to the even digit. -/
def layout : Decimal.Layout := ⟨.toEven, some (-5, 16), true⟩

/-- The text of a number, which also names the property of a numeric key. -/
def text : Number → String
  | .integer n => toString n.val
  | .float x => String.ofList (layout.text x)

end Number
end SiteConfig

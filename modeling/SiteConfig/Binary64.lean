/-!
# Binary floating point

The 64-bit binary format as data: a sign and a magnitude of 63 bits. Every finite number is a whole
number of units of `2 ^ (-1074)`, so rounding, comparison and the test for whole numbers are exact
arithmetic on natural numbers.
-/
namespace SiteConfig

-- Powers are those of numbers also where monoids are known.
attribute [local instance (20000)] instPowNat

/-- A 64-bit binary floating-point number: its sign bit and its other 63 bits. -/
structure Binary64 where
  negative : Bool
  magnitude : Nat
  bounded : magnitude < 2 ^ (63 : Nat)
  deriving DecidableEq

namespace Binary64

/-- The magnitude of infinity: those below it are finite, those above it are no numbers. -/
def infinity : Nat := 2047 * 2 ^ (52 : Nat)

def IsFinite (x : Binary64) : Prop := x.magnitude < infinity

instance (x : Binary64) : Decidable x.IsFinite := inferInstanceAs (Decidable (_ < _))

/-- A magnitude counts in steps of one unit up to `2 ^ 53` units, and in steps that double with each
further `2 ^ 52` magnitudes; this is the number of doublings. -/
def doublings (magnitude : Nat) : Nat := magnitude / 2 ^ (52 : Nat) - 1

def significand (magnitude : Nat) : Nat := magnitude - doublings magnitude * 2 ^ (52 : Nat)

/-- The absolute value of a finite number, in units of `2 ^ (-1074)`. -/
def units (x : Binary64) : Nat := significand x.magnitude * 2 ^ doublings x.magnitude

@[irreducible] def places : Nat := 1074

theorem places_eq : places = 1074 := by
  unfold places
  rfl

def unitsPerOne : Nat := 2 ^ places

theorem unitsPerOne_pos : 0 < unitsPerOne := Nat.two_pow_pos places

/-- The quotient rounded to the nearest whole number, a half to the even neighbour. -/
def roundDiv (num den : Nat) : Nat :=
  if 2 * (num % den) < den then num / den
  else if den < 2 * (num % den) then num / den + 1
  else num / den + num / den % 2

/-- The magnitude nearest to `num / den` units, a tie to the even one. Beyond the largest finite
number lies infinity. -/
def nearest (num den : Nat) : Nat :=
  let doublings := (num / den).log2 - 52
  min (doublings * 2 ^ (52 : Nat) + roundDiv num (den * 2 ^ doublings)) infinity

theorem nearest_le_infinity (num den : Nat) : nearest num den ≤ infinity := Nat.min_le_right _ _

def ofRatio (negative : Bool) (num den : Nat) : Binary64 where
  negative := negative
  magnitude := nearest (num * unitsPerOne) den
  bounded := Nat.lt_of_le_of_lt (nearest_le_infinity _ _) (by decide)

def neg (x : Binary64) : Binary64 := { x with negative := !x.negative }

theorem neg_isFinite {x : Binary64} (h : x.IsFinite) : x.neg.IsFinite := h

def toBits (x : Binary64) : Nat := (if x.negative then 2 ^ (63 : Nat) else 0) + x.magnitude

def ofBits (bits : Nat) : Binary64 where
  negative := bits / 2 ^ (63 : Nat) % 2 == 1
  magnitude := bits % 2 ^ (63 : Nat)
  bounded := Nat.mod_lt _ (by decide)

abbrev Finite := { x : Binary64 // x.IsFinite }

namespace Finite

def ofBinary64? (x : Binary64) : Option Finite := if h : x.IsFinite then some ⟨x, h⟩ else none

def neg (x : Finite) : Finite := ⟨x.val.neg, neg_isFinite x.property⟩

/-- The whole number that a finite number equals, if there is one. -/
def whole? (x : Finite) : Option Int :=
  if x.val.units % unitsPerOne = 0 then
    let n : Int := x.val.units / unitsPerOne
    some (if x.val.negative then -n else n)
  else none

/-- Zero, of either sign, is not positive. -/
def isPositive (x : Finite) : Bool := !x.val.negative && x.val.units != 0

end Finite

private theorem roundDiv_le (num den : Nat) : roundDiv num den ≤ num / den + 1 := by
  unfold roundDiv
  split
  · omega
  · split
    · omega
    · omega

private theorem mul_unitsPerOne_lt {n a : Nat} (h : n < 2 ^ a) :
    n * unitsPerOne < 2 ^ (a + places) := by
  rw [Nat.pow_add]
  exact Nat.mul_lt_mul_of_pos_right h unitsPerOne_pos

private theorem nearest_lt_infinity {n a : Nat} (h : n < 2 ^ a) (ha : a ≤ 2096) :
    nearest n 1 < infinity := by
  unfold nearest
  simp only [Nat.div_one, Nat.one_mul]
  have hlog : n.log2 ≤ a := by
    by_cases hz : n = 0
    · rw [hz, Nat.log2_zero]
      exact Nat.zero_le a
    · exact Nat.le_of_lt ((Nat.log2_lt hz).mpr h)
  have hquot : n / 2 ^ (n.log2 - 52) < 2 ^ (53 : Nat) := by
    rw [Nat.div_lt_iff_lt_mul (Nat.two_pow_pos _), ← Nat.pow_add]
    exact Nat.lt_of_lt_of_le Nat.lt_log2_self (Nat.pow_le_pow_right (by decide) (by omega))
  have hround : roundDiv n (2 ^ (n.log2 - 52)) ≤ 2 ^ (53 : Nat) := Nat.le_trans (roundDiv_le _ _) hquot
  have hsteps : (n.log2 - 52) * 2 ^ (52 : Nat) ≤ 2044 * 2 ^ (52 : Nat) :=
    Nat.mul_le_mul_right _ (by omega)
  refine Nat.lt_of_le_of_lt (Nat.min_le_left _ _) ?_
  exact Nat.lt_of_le_of_lt (Nat.add_le_add hsteps hround) (by decide)

/-- The finite number nearest to a whole number of at most 64 bits, a tie to the even one. -/
def Finite.ofInt (n : Int) (h : n.natAbs < 2 ^ (64 : Nat)) : Finite :=
  ⟨ofRatio (n < 0) n.natAbs 1,
    nearest_lt_infinity (mul_unitsPerOne_lt h) (by rw [places_eq]; decide)⟩

end Binary64
end SiteConfig

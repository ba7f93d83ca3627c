import Mathlib.Algebra.Group.Nat.Defs
import SiteConfig.Binary64
/-!
# Rounding to the nearest magnitude

Rounding depends on the value of a fraction only, and leaves the magnitudes of finite numbers as
they are.
-/
namespace SiteConfig.Binary64

theorem roundDiv_mul_mul (num den : Nat) {k : Nat} (hk : 0 < k) :
    roundDiv (num * k) (den * k) = roundDiv num den := by
  have hscale (a : Nat) : 2 * (a * k) = 2 * a * k := by rw [Nat.mul_assoc]
  have hlow : (2 * (num % den) * k < den * k) = (2 * (num % den) < den) :=
    propext (Nat.mul_lt_mul_right hk)
  have hhigh : (den * k < 2 * (num % den) * k) = (den < 2 * (num % den)) :=
    propext (Nat.mul_lt_mul_right hk)
  simp only [roundDiv, Nat.mul_div_mul_right _ _ hk, Nat.mul_mod_mul_right, hscale, hlow, hhigh]

theorem roundDiv_mul_self (n : Nat) {den : Nat} (hden : 0 < den) : roundDiv (n * den) den = n := by
  simp [roundDiv, Nat.mul_div_cancel _ hden, hden]

theorem nearest_mul_mul (num den : Nat) {k : Nat} (hk : 0 < k) :
    nearest (num * k) (den * k) = nearest num den := by
  simp only [nearest, Nat.mul_div_mul_right _ _ hk]
  rw [Nat.mul_right_comm den k, roundDiv_mul_mul _ _ hk]

/-- Equal fractions are rounded to the same magnitude. -/
theorem nearest_congr {a b c d : Nat} (hb : 0 < b) (hd : 0 < d) (h : a * d = c * b) :
    nearest a b = nearest c d := by
  rw [← nearest_mul_mul a b hd, h, Nat.mul_comm b d, nearest_mul_mul c d hb]

@[simp] theorem nearest_zero (den : Nat) : nearest 0 den = 0 := by
  simp [nearest, roundDiv]

private theorem log2_mul_pow {s : Nat} (hlow : 2 ^ 52 ≤ s) (hhigh : s < 2 ^ 53) (d : Nat) :
    (s * 2 ^ d).log2 = 52 + d := by
  have hpos := Nat.two_pow_pos d
  have hne : s * 2 ^ d ≠ 0 := Nat.mul_ne_zero (by omega) (by omega)
  rw [Nat.log2_eq_iff hne, Nat.pow_add, Nat.add_right_comm, Nat.pow_add]
  exact ⟨Nat.mul_le_mul_right _ hlow, Nat.mul_lt_mul_of_pos_right hhigh hpos⟩

/-- The units of a finite number are the nearest to its magnitude. -/
theorem nearest_units {x : Binary64} (h : x.IsFinite) : nearest x.units 1 = x.magnitude := by
  have hmax : x.magnitude ≤ infinity := Nat.le_of_lt h
  have hsplit := Nat.div_add_mod x.magnitude (2 ^ 52)
  have hmod := Nat.mod_lt x.magnitude (Nat.two_pow_pos 52)
  by_cases hfine : x.magnitude < 2 ^ 53
  · have hdoublings : doublings x.magnitude = 0 := by
      have hquot : x.magnitude / 2 ^ 52 < 2 := by omega
      simp only [doublings]
      omega
    have hlog : x.magnitude.log2 - 52 = 0 := by
      by_cases hzero : x.magnitude = 0
      · simp [hzero]
      · have := (Nat.log2_lt hzero).mpr hfine
        omega
    have hround := roundDiv_mul_self x.magnitude Nat.one_pos
    rw [Nat.mul_one] at hround
    simp [nearest, units, significand, hdoublings, hlog, hround, hmax]
  · let d := doublings x.magnitude
    let s := significand x.magnitude
    have hquot : x.magnitude / 2 ^ 52 = d + 1 := by
      simp only [d, doublings]
      omega
    have hmagnitude : d * 2 ^ 52 + s = x.magnitude := by
      simp only [s, significand]
      change d * 2 ^ 52 + (x.magnitude - d * 2 ^ 52) = x.magnitude
      omega
    have hlog := log2_mul_pow (s := s) (by omega) (by omega) d
    have hround := roundDiv_mul_self s (Nat.two_pow_pos d)
    have hunits : x.units = s * 2 ^ d := rfl
    simp only [nearest, hunits, Nat.div_one, hlog, Nat.add_sub_cancel_left, Nat.one_mul, hround,
      hmagnitude]
    exact Nat.min_eq_left hmax

theorem div_le_roundDiv (num den : Nat) : num / den ≤ roundDiv num den := by
  simp only [roundDiv]
  split
  · exact Nat.le_refl _
  · split <;> omega

/-- Beyond the largest finite number lies infinity. -/
theorem nearest_of_large {n : Nat} (h : 2 ^ (1024 + places) ≤ n) : nearest n 1 = infinity := by
  have hn : n ≠ 0 := Nat.ne_of_gt (Nat.lt_of_lt_of_le (Nat.two_pow_pos _) h)
  have hlog : 1024 + places ≤ n.log2 := (Nat.le_log2 hn).mpr h
  have hplaces : places = 1074 := places_eq
  have hround : 2 ^ 52 ≤ roundDiv n (2 ^ (n.log2 - 52)) := by
    apply Nat.le_trans _ (div_le_roundDiv _ _)
    rw [Nat.le_div_iff_mul_le (Nat.two_pow_pos _), ← Nat.pow_add]
    have hexponent : 52 + (n.log2 - 52) = n.log2 := by omega
    rw [hexponent]
    exact Nat.log2_self_le hn
  simp only [nearest, Nat.div_one, Nat.one_mul]
  apply Nat.min_eq_right
  have hsteps : 2046 * 2 ^ 52 ≤ (n.log2 - 52) * 2 ^ 52 := Nat.mul_le_mul_right _ (by omega)
  simp only [infinity]
  omega

theorem nearest_of_small {num den : Nat} (h : 2 * num < den) : nearest num den = 0 := by
  have hquot : num / den = 0 := Nat.div_eq_of_lt (by omega)
  have hmod : num % den = num := Nat.mod_eq_of_lt (by omega)
  simp [nearest, roundDiv, hquot, hmod, h]

namespace Finite

def abs (x : Finite) : Finite :=
  ⟨⟨false, x.val.magnitude, x.val.bounded⟩, x.property⟩

theorem eq_abs_of_nonnegative {x : Finite} (h : x.val.negative = false) : x = x.abs := by
  obtain ⟨⟨negative, magnitude, bounded⟩, hfinite⟩ := x
  subst h
  rfl

theorem eq_neg_abs_of_negative {x : Finite} (h : x.val.negative = true) : x = x.abs.neg := by
  obtain ⟨⟨negative, magnitude, bounded⟩, hfinite⟩ := x
  subst h
  rfl

theorem units_of_whole? {x : Finite} {n : Int} (h : x.whole? = some n) :
    x.val.units = n.natAbs * unitsPerOne := by
  unfold whole? at h
  split at h
  · next hdvd =>
    have hnatAbs : n.natAbs = x.val.units / unitsPerOne := by
      have hn := Option.some.inj h
      rw [← Int.natCast_ediv] at hn
      generalize x.val.units / unitsPerOne = quotient at hn ⊢
      split at hn <;> omega
    rw [hnatAbs, Nat.div_mul_cancel (Nat.dvd_of_mod_eq_zero hdvd)]
  · cases h

theorem whole?_of_units {x : Finite} {n : Int} (hunits : x.val.units = n.natAbs * unitsPerOne)
    (hsign : x.val.negative = decide (n < 0)) : x.whole? = some n := by
  have hmod : x.val.units % unitsPerOne = 0 := by rw [hunits, Nat.mul_mod_left]
  have hdiv : (x.val.units : Int) / unitsPerOne = n.natAbs := by
    rw [← Int.natCast_ediv, hunits, Nat.mul_div_cancel _ unitsPerOne_pos]
  rw [whole?, if_pos hmod, hdiv, hsign]
  generalize hm : n.natAbs = m
  by_cases hneg : n < 0
  · simp [hneg]
    omega
  · simp [hneg]
    omega

theorem whole?_ofInt {x : Finite} {n : Int} (h : x.whole? = some n) (hn : n.natAbs < 2 ^ 64) :
    (ofInt n hn).whole? = some n := by
  have hmagnitude : (ofInt n hn).val.magnitude = x.val.magnitude := by
    rw [← nearest_units x.property, units_of_whole? h]
    rfl
  have hunits : (ofInt n hn).val.units = x.val.units := by
    rw [units, units, hmagnitude]
  exact whole?_of_units (hunits.trans (units_of_whole? h)) rfl

end Finite

end SiteConfig.Binary64

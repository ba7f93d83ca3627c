import Mathlib
import SiteConfig.Proofs.Numbers
import SiteConfig.Proofs.Rounding
/-!
# Nearest numbers

The values of finite numbers as fractions, and the numbers that are nearest to a given value. Rounding
gives a number than which none is nearer; of two that are equally near it gives the even one.
-/
namespace SiteConfig.Binary64

section Grid

def unitsOf (magnitude : Nat) : Nat := significand magnitude * 2 ^ doublings magnitude

/-- The significands that occur with a number of doublings, and the one behind the greatest. -/
def Fits (doublings significand : Nat) : Prop :=
  significand ≤ 2 ^ 53 ∧ (doublings = 0 ∨ 2 ^ 52 ≤ significand)

theorem unitsOf_eq {d s : Nat} (h : Fits d s) : unitsOf (d * 2 ^ 52 + s) = s * 2 ^ d := by
  obtain ⟨hle, hnormal⟩ := h
  by_cases htop : s = 2 ^ 53
  · have hd : doublings (d * 2 ^ 52 + s) = d + 1 := by
      simp only [doublings]
      omega
    have hs : significand (d * 2 ^ 52 + s) = 2 ^ 52 := by
      simp only [significand, hd]
      omega
    rw [unitsOf, hd, hs, htop]
    ring
  · have hd : doublings (d * 2 ^ 52 + s) = d := by
      simp only [doublings]
      omega
    have hs : significand (d * 2 ^ 52 + s) = s := by
      simp only [significand, hd]
      omega
    rw [unitsOf, hd, hs]

theorem fits_significand (m : Nat) :
    m = doublings m * 2 ^ 52 + significand m ∧ Fits (doublings m) (significand m) ∧
      significand m < 2 ^ 53 := by
  simp only [Fits, significand, doublings]
  omega

theorem unitsOf_succ (m : Nat) : unitsOf (m + 1) = unitsOf m + 2 ^ doublings m := by
  obtain ⟨hm, ⟨-, hnormal⟩, hlt⟩ := fits_significand m
  have hnext : Fits (doublings m) (significand m + 1) := ⟨hlt, hnormal.imp_right Nat.le_succ_of_le⟩
  have hunits := unitsOf_eq hnext
  rw [← Nat.add_assoc, ← hm] at hunits
  rw [hunits, Nat.succ_mul]
  rfl

theorem strictMono_unitsOf : StrictMono unitsOf := by
  apply strictMono_nat_of_lt_succ
  intro m
  rw [unitsOf_succ]
  exact Nat.lt_add_of_pos_right (Nat.two_pow_pos _)

theorem unitsOf_le_iff {m k : Nat} : unitsOf m ≤ unitsOf k ↔ m ≤ k :=
  strictMono_unitsOf.le_iff_le

theorem fits_div {n d : Nat} (hd : d = n.log2 - 52) : Fits d (n / 2 ^ d) ∧ n / 2 ^ d < 2 ^ 53 := by
  have hlt : n / 2 ^ d < 2 ^ 53 := by
    rw [Nat.div_lt_iff_lt_mul (Nat.two_pow_pos d), ← Nat.pow_add]
    exact Nat.lt_of_lt_of_le Nat.lt_log2_self (Nat.pow_le_pow_right (by decide) (by omega))
  refine ⟨⟨hlt.le, ?_⟩, hlt⟩
  by_cases hzero : d = 0
  · exact .inl hzero
  · right
    have hne : n ≠ 0 := by
      rintro rfl
      rw [Nat.log2_zero] at hd
      omega
    have hexponent : 52 + d = n.log2 := by omega
    rw [Nat.le_div_iff_mul_le (Nat.two_pow_pos d), ← Nat.pow_add, hexponent]
    exact Nat.log2_self_le hne

/-- A fraction lies between two neighbours. The nearest magnitude is the one of them that is not
farther, and if both are equally far the even one, unless they are beyond all finite numbers. -/
theorem nearest_cases (num : Nat) {den : Nat} (hden : 0 < den) :
    ∃ low, unitsOf low * den ≤ num ∧ num < unitsOf (low + 1) * den ∧
      ((nearest num den = min low infinity ∧
          2 * num ≤ (unitsOf low + unitsOf (low + 1)) * den ∧
          (2 * num = (unitsOf low + unitsOf (low + 1)) * den → low % 2 = 0)) ∨
        (nearest num den = min (low + 1) infinity ∧
          (unitsOf low + unitsOf (low + 1)) * den ≤ 2 * num ∧
          (2 * num = (unitsOf low + unitsOf (low + 1)) * den → (low + 1) % 2 = 0))) := by
  obtain ⟨d, hd⟩ : ∃ d, d = (num / den).log2 - 52 := ⟨_, rfl⟩
  obtain ⟨step, hstep⟩ : ∃ step, step = den * 2 ^ d := ⟨_, rfl⟩
  obtain ⟨floor, hfloor⟩ : ∃ floor, floor = num / step := ⟨_, rfl⟩
  have hpos : 0 < step := hstep ▸ Nat.mul_pos hden (Nat.two_pow_pos d)
  have hquot : floor = num / den / 2 ^ d := by rw [hfloor, hstep, Nat.div_div_eq_div_mul]
  obtain ⟨⟨-, hnormal⟩, hlt⟩ := hquot ▸ fits_div hd
  have hlow : unitsOf (d * 2 ^ 52 + floor) * den = floor * step := by
    rw [unitsOf_eq ⟨hlt.le, hnormal⟩, hstep, Nat.mul_assoc, Nat.mul_comm den]
  have hhigh : unitsOf (d * 2 ^ 52 + floor + 1) * den = (floor + 1) * step := by
    rw [Nat.add_assoc, unitsOf_eq ⟨hlt, hnormal.imp_right Nat.le_succ_of_le⟩, hstep, Nat.mul_assoc,
      Nat.mul_comm den]
  have hnearest : nearest num den = min (d * 2 ^ 52 + roundDiv num step) infinity := by
    rw [nearest, ← hd, ← hstep]
  have hsplit : step * floor + num % step = num := by
    rw [hfloor]
    exact Nat.div_add_mod num step
  have hrest := Nat.mod_lt num hpos
  refine ⟨d * 2 ^ 52 + floor, ?_⟩
  rw [Nat.add_mul, hlow, hhigh, hnearest, roundDiv, ← hfloor, Nat.succ_mul, Nat.mul_comm floor]
  generalize step * floor = whole at hsplit
  generalize num % step = rest at hsplit hrest
  refine ⟨by omega, by omega, ?_⟩
  split
  · exact .inl ⟨rfl, by omega, by omega⟩
  · split
    · exact .inr ⟨by rw [Nat.add_assoc], by omega, by omega⟩
    · -- Halfway between the neighbours the even one is taken.
      rcases Nat.mod_two_eq_zero_or_one floor with heven | hodd
      · exact .inl ⟨by rw [heven, Nat.add_zero], by omega, by omega⟩
      · exact .inr ⟨by rw [hodd, Nat.add_assoc], by omega, by omega⟩

theorem nearest_neighbours {num den : Nat} (hden : 0 < den) {v : ℚ} (hv : v = num / den) :
    ∃ low, (unitsOf low : ℚ) ≤ v ∧ v < unitsOf (low + 1) ∧
      ((nearest num den = min low infinity ∧
          2 * v ≤ unitsOf low + unitsOf (low + 1) ∧
          (2 * v = unitsOf low + unitsOf (low + 1) → low % 2 = 0)) ∨
        (nearest num den = min (low + 1) infinity ∧
          (unitsOf low + unitsOf (low + 1) : ℚ) ≤ 2 * v ∧
          (2 * v = unitsOf low + unitsOf (low + 1) → (low + 1) % 2 = 0))) := by
  have hpos : (0 : ℚ) < den := by exact_mod_cast hden
  have hnum : (num : ℚ) = v * den := by rw [hv, div_mul_cancel₀ _ hpos.ne']
  have hle (a b : Nat) : (a : ℚ) ≤ b * v ↔ a * den ≤ b * num := by
    rw [← mul_le_mul_iff_of_pos_right hpos, mul_assoc, ← hnum]
    norm_cast
  have hge (a b : Nat) : (b * v : ℚ) ≤ a ↔ b * num ≤ a * den := by
    rw [← mul_le_mul_iff_of_pos_right hpos, mul_assoc, ← hnum]
    norm_cast
  obtain ⟨low, hlow, hhigh, hnearest⟩ := nearest_cases num hden
  refine ⟨low, ?_, ?_, ?_⟩
  · simpa using (hle (unitsOf low) 1).mpr (by omega)
  · simpa using (hle (unitsOf (low + 1)) 1).not.mpr (by omega)
  · have hle := hle (unitsOf low + unitsOf (low + 1)) 2
    have hge := hge (unitsOf low + unitsOf (low + 1)) 2
    push_cast at hle hge
    refine hnearest.imp (And.imp_right ?_) (And.imp_right ?_) <;> rintro ⟨hhalf, htie⟩
    · exact ⟨hge.mpr hhalf, fun h => htie (hhalf.antisymm (hle.mp h.ge))⟩
    · exact ⟨hle.mpr hhalf, fun h => htie ((hge.mp h.le).antisymm hhalf)⟩

/-- No finite magnitude is nearer to a fraction than the one to which it is rounded. -/
theorem nearest_least {num den k : Nat} (hden : 0 < den) (hfinite : nearest num den < infinity)
    {v : ℚ} (hv : v = num / den) :
    |(unitsOf (nearest num den) : ℚ) - v| ≤ |(unitsOf k : ℚ) - v| ∧
      (|(unitsOf k : ℚ) - v| = |(unitsOf (nearest num den) : ℚ) - v| →
        k = nearest num den ∨ nearest num den % 2 = 0) := by
  obtain ⟨low, hlow, hhigh, hnearest⟩ := nearest_neighbours hden hv
  have hside : (unitsOf k : ℚ) ≤ unitsOf low ∨ (unitsOf (low + 1) : ℚ) ≤ unitsOf k := by
    simp only [Nat.cast_le, unitsOf_le_iff]
    omega
  have heq {m : Nat} (h : (unitsOf k : ℚ) = unitsOf m) : k = m :=
    strictMono_unitsOf.injective (by exact_mod_cast h)
  rcases hnearest with ⟨hm, hhalf, htie⟩ | ⟨hm, hhalf, htie⟩
  · have hm : nearest num den = low := by omega
    rw [hm, abs_of_nonpos (sub_nonpos.mpr hlow)]
    rcases hside with hside | hside
    · rw [abs_of_nonpos (by linarith)]
      exact ⟨by linarith, fun h => .inl (heq (by linarith))⟩
    · rw [abs_of_pos (by linarith)]
      exact ⟨by linarith, fun h => .inr (htie (by linarith))⟩
  · have hm : nearest num den = low + 1 := by omega
    rw [hm, abs_of_pos (sub_pos.mpr hhigh)]
    rcases hside with hside | hside
    · rw [abs_of_nonpos (by linarith)]
      exact ⟨by linarith, fun h => .inr (htie (by linarith))⟩
    · rw [abs_of_pos (by linarith)]
      exact ⟨by linarith, fun h => .inl (heq (by linarith))⟩

theorem le_of_nearest_eq_infinity {num den : Nat} (hden : 0 < den)
    (h : nearest num den = infinity) {v : ℚ} (hv : v = num / den) :
    (unitsOf (infinity - 1) : ℚ) ≤ v := by
  obtain ⟨low, hlow, -, hnearest⟩ := nearest_neighbours hden hv
  have hle : infinity - 1 ≤ low := by omega
  exact le_trans (by exact_mod_cast unitsOf_le_iff.mpr hle) hlow

end Grid

def value (x : Binary64) : ℚ :=
  (if x.negative then -(x.units : ℚ) else x.units) / unitsPerOne

theorem unitsPerOne_pos_rat : (0 : ℚ) < unitsPerOne := by
  exact_mod_cast unitsPerOne_pos

theorem abs_value (x : Binary64) : |x.value| = x.units / unitsPerOne := by
  have hunits : |if x.negative then -(x.units : ℚ) else x.units| = x.units := by
    split <;> simp
  rw [value, abs_div, hunits, abs_of_pos unitsPerOne_pos_rat]

theorem value_nonpos {x : Binary64} (h : x.negative = true) : x.value ≤ 0 := by
  rw [value, if_pos h]
  exact div_nonpos_of_nonpos_of_nonneg (by simp) unitsPerOne_pos_rat.le

theorem value_nonneg {x : Binary64} (h : x.negative = false) : 0 ≤ x.value := by
  rw [value, if_neg (by simp [h])]
  positivity

/-- A finite number than which none is nearer to `q`. If another is as near, it is the even one. -/
structure IsNearest (x : Finite) (q : ℚ) : Prop where
  least : ∀ y : Finite, |x.val.value - q| ≤ |y.val.value - q|
  even : ∀ y : Finite, |y.val.value - q| = |x.val.value - q| →
    y.val.value = x.val.value ∨ x.val.magnitude % 2 = 0

/-- A number does not stand on the other side of zero than a value. -/
def SameSide (x : Binary64) (q : ℚ) : Prop :=
  if x.negative then q ≤ 0 else 0 ≤ q

theorem SameSide.abs_sub {x : Binary64} {q : ℚ} (h : x.SameSide q) :
    |x.value - q| = |(|x.value| - |q|)| := by
  unfold SameSide at h
  split at h
  · next hnegative =>
    rw [abs_of_nonpos (value_nonpos hnegative), abs_of_nonpos h, neg_sub_neg]
    exact abs_sub_comm _ _
  · next hnegative =>
    rw [abs_of_nonneg (value_nonneg (by simpa using hnegative)), abs_of_nonneg h]

theorem units_eq {x : Binary64} {d s : Nat} (h : Fits d s) (hx : x.magnitude = d * 2 ^ 52 + s) :
    x.units = s * 2 ^ d := by
  rw [← unitsOf_eq h, ← hx]
  rfl

theorem units_congr {x y : Binary64} (h : x.magnitude = y.magnitude) : x.units = y.units := by
  rw [units, units, h]

private theorem eq_or_eq_zero {x y q : ℚ} (habs : |y| = |x|) (h : |y - q| = |x - q|) :
    y = x ∨ q = 0 := by
  rcases abs_eq_abs.mp habs with rfl | rfl
  · exact .inl rfl
  · rcases abs_eq_abs.mp h with hzero | hzero
    · exact .inl (by linarith)
    · exact .inr (by linarith)

section Rounded

variable {num den : Nat} {q : ℚ}

private theorem abs_units_sub (hq : |q| * unitsPerOne = num / den) (x : Binary64) :
    |(|x.value| - |q|)| * unitsPerOne = |(unitsOf x.magnitude : ℚ) - num / den| := by
  have hunits : |x.value| * unitsPerOne = unitsOf x.magnitude := by
    rw [abs_value, div_mul_cancel₀ _ unitsPerOne_pos_rat.ne']
    rfl
  rw [← hq, ← hunits, ← sub_mul, abs_mul, abs_of_pos unitsPerOne_pos_rat]

/-- The finite number to which a fraction is rounded is nearest to it. -/
theorem isNearest_of_magnitude {x : Finite} (hden : 0 < den) (hq : |q| * unitsPerOne = num / den)
    (hside : x.val.SameSide q) (hx : x.val.magnitude = nearest num den) : IsNearest x q := by
  have hfinite : nearest num den < infinity := hx ▸ x.property
  have hleast (y : Finite) := @nearest_least num den y.val.magnitude hden hfinite _ rfl
  simp only [← hx, ← abs_units_sub hq, mul_le_mul_iff_of_pos_right unitsPerOne_pos_rat,
    mul_left_inj' unitsPerOne_pos_rat.ne', ← hside.abs_sub] at hleast
  constructor
  · intro y
    exact (hleast y).1.trans (abs_abs_sub_abs_le _ _)
  · intro y hy
    have hy' : |(|y.val.value| - |q|)| = |x.val.value - q| :=
      le_antisymm ((abs_abs_sub_abs_le _ _).trans hy.le) (hleast y).1
    rcases (hleast y).2 hy' with hmagnitude | heven
    · have habs : |y.val.value| = |x.val.value| := by
        rw [abs_value, abs_value, units_congr hmagnitude]
      refine (eq_or_eq_zero habs hy).imp_right fun hzero => ?_
      subst hzero
      have hnum : num = 0 := by
        rw [abs_zero, zero_mul, eq_comm, div_eq_zero_iff] at hq
        exact_mod_cast hq.resolve_right (by exact_mod_cast hden.ne')
      rw [hx, hnum, nearest_zero]
    · exact .inr heven

def greatest (negative : Bool) : Finite :=
  ⟨⟨negative, infinity - 1, by decide⟩, Nat.sub_one_lt (by decide)⟩

/-- The greatest finite number is nearest to what is rounded to infinity. -/
theorem isNearest_greatest (negative : Bool) (hden : 0 < den)
    (hq : |q| * unitsPerOne = num / den) (hside : (greatest negative).val.SameSide q)
    (h : nearest num den = infinity) :
    IsNearest (greatest negative) q ∧ |(greatest negative).val.value| ≤ |q| := by
  have hle (y : Finite) : |y.val.value| ≤ |(greatest negative).val.value| := by
    rw [abs_value, abs_value]
    have hunits : y.val.units ≤ (greatest negative).val.units :=
      unitsOf_le_iff.mpr (Nat.le_sub_one_of_lt y.property)
    gcongr
  have hbeyond : |(greatest negative).val.value| ≤ |q| := by
    rw [abs_value, div_le_iff₀ unitsPerOne_pos_rat]
    exact le_of_nearest_eq_infinity hden h hq
  have hdistance : |(greatest negative).val.value - q| = |q| - |(greatest negative).val.value| := by
    rw [hside.abs_sub, abs_sub_comm, abs_of_nonneg (sub_nonneg.mpr hbeyond)]
  have hother (y : Finite) : |q| - |y.val.value| ≤ |y.val.value - q| := by
    rw [abs_sub_comm]
    exact abs_sub_abs_le_abs_sub _ _
  refine ⟨⟨fun y => ?_, fun y hy => ?_⟩, hbeyond⟩
  · linarith only [hle y, hother y, hdistance]
  · have habs : |y.val.value| = |(greatest negative).val.value| := by
      linarith only [hle y, hother y, hdistance, hy]
    refine .inl ((eq_or_eq_zero habs hy).elim id fun hzero => ?_)
    subst hzero
    have hnone : (greatest negative).val.value = 0 := by simpa using hbeyond
    rw [hnone, abs_zero, abs_eq_zero] at habs
    rw [habs, hnone]

end Rounded

theorem IsNearest.value_eq {x y : Finite} {q : ℚ} (h : IsNearest x q) (hy : y.val.value = q) :
    x.val.value = q := by
  have hdistance := h.least y
  rw [hy, sub_self, abs_zero] at hdistance
  exact sub_eq_zero.mp (abs_nonpos_iff.mp hdistance)

/-- Rounding does not pass a finite number. -/
theorem IsNearest.le {x y : Finite} {q : ℚ} (h : IsNearest x q) (hy : y.val.value ≤ q) :
    y.val.value ≤ x.val.value := by
  have hdistance := h.least y
  rw [abs_of_nonpos (sub_nonpos.mpr hy)] at hdistance
  linarith [neg_le_of_abs_le hdistance]

theorem isNearest_value (x : Finite) : IsNearest x x.val.value := by
  constructor
  · intro y
    rw [sub_self, abs_zero]
    exact abs_nonneg _
  · intro y hy
    rw [sub_self, abs_zero, abs_eq_zero] at hy
    exact .inl (sub_eq_zero.mp hy)

theorem isNearest_ofInt (n : Int) (h : n.natAbs < 2 ^ 64) : IsNearest (Finite.ofInt n h) n := by
  have hq : |(n : ℚ)| * unitsPerOne = (n.natAbs * unitsPerOne : Nat) / (1 : Nat) := by
    rw [Nat.cast_one, div_one, Nat.cast_mul, Nat.cast_natAbs, Int.cast_abs]
  refine isNearest_of_magnitude Nat.one_pos hq ?_ rfl
  change if decide (n < 0) then (n : ℚ) ≤ 0 else 0 ≤ (n : ℚ)
  by_cases hn : n < 0 <;> simp [hn] <;> omega

theorem Finite.whole?_eq_some_iff {x : Finite} {n : Int} :
    x.whole? = some n ↔ x.val.value = n := by
  have hpos := unitsPerOne_pos
  have hvalue : x.val.value = n ↔
      (if x.val.negative then -(x.val.units : Int) else x.val.units) = n * unitsPerOne := by
    rw [value, div_eq_iff unitsPerOne_pos_rat.ne']
    split <;> norm_cast
  rw [hvalue, whole?]
  generalize x.val.units = units
  by_cases hdvd : unitsPerOne ∣ units
  · obtain ⟨k, rfl⟩ := hdvd
    have hquot : ((unitsPerOne * k : Nat) : Int) / unitsPerOne = k := by
      rw [← Int.natCast_ediv, Nat.mul_div_cancel_left _ hpos]
    have hne : (unitsPerOne : Int) ≠ 0 := by exact_mod_cast hpos.ne'
    rw [if_pos (Nat.mul_mod_right _ _), hquot, Nat.cast_mul, Int.mul_comm, ← Int.neg_mul, ← ite_mul,
      Int.mul_eq_mul_right_iff hne, Option.some_inj]
  · rw [if_neg (fun hmod => hdvd (Nat.dvd_of_mod_eq_zero hmod))]
    refine iff_of_false (by simp) fun h => hdvd ?_
    rw [← Int.natCast_dvd_natCast]
    split at h
    · rw [← Int.dvd_neg, h]
      exact Int.dvd_mul_left _ _
    · rw [h]
      exact Int.dvd_mul_left _ _

theorem lt_abs_greatest (negative : Bool) : 2 ^ 64 < |(greatest negative).val.value| := by
  obtain ⟨d, hd⟩ : ∃ d, d = 2045 := ⟨_, rfl⟩
  have hunits : (greatest negative).val.units = (2 ^ 53 - 1) * 2 ^ d :=
    units_eq ⟨by decide, .inr (by decide)⟩ (by rw [hd]; rfl)
  have hpower : 2 ^ 64 * unitsPerOne < (2 ^ 53 - 1) * 2 ^ d := by
    have hplaces := places_eq
    rw [unitsPerOne, ← Nat.pow_add]
    calc
      2 ^ (64 + places) < 2 ^ d := Nat.pow_lt_pow_right (by decide) (by omega)
      _ ≤ (2 ^ 53 - 1) * 2 ^ d := Nat.le_mul_of_pos_left _ (by decide)
  rw [abs_value, hunits, lt_div_iff₀ unitsPerOne_pos_rat]
  exact_mod_cast hpower

theorem exists_value_eq_two_pow : ∃ x : Finite, x.val.value = 2 ^ 63 := by
  refine ⟨⟨⟨false, 1085 * 2 ^ 52 + 2 ^ 52, by decide⟩, by decide⟩, ?_⟩
  obtain ⟨d, hd⟩ : ∃ d, d = 1085 := ⟨_, rfl⟩
  have hunits : units ⟨false, 1085 * 2 ^ 52 + 2 ^ 52, by decide⟩ = 2 ^ 52 * 2 ^ d :=
    units_eq ⟨by decide, .inr (by decide)⟩ (by rw [hd])
  have hpower : 2 ^ 52 * 2 ^ d = 2 ^ 63 * unitsPerOne := by
    have hplaces := places_eq
    have hexponent : 52 + d = 63 + places := by omega
    rw [unitsPerOne, ← Nat.pow_add, ← Nat.pow_add, hexponent]
  rw [value, if_neg Bool.false_ne_true, hunits, hpower, div_eq_iff unitsPerOne_pos_rat.ne']
  push_cast
  rfl

end SiteConfig.Binary64

namespace SiteConfig.Number

def value : Number → ℚ
  | .integer n => n.val
  | .float x => x.val.value

theorem isNearest_toFloat (n : Number) : Binary64.IsNearest n.toFloat n.value := by
  cases n with
  | integer n =>
    have hbounds := n.property
    exact Binary64.isNearest_ofInt n.val (by omega)
  | float x => exact Binary64.isNearest_value x

end SiteConfig.Number

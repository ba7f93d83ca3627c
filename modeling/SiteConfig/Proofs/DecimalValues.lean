import SiteConfig.Proofs.Nearest
import SiteConfig.Proofs.NumeralGrammar
/-!
# The values of decimal text

Decimal numerals with the fractions that they denote. Such a text is read as the finite number
nearest to its fraction, and as an integer exactly if it consists of digits with an optional sign.
-/
namespace SiteConfig.Decimal

open Binary64 ConfigModule ConfigModule.Numeral

def value (d : Decimal) : ℚ :=
  (if d.negative then -1 else 1) * (d.coefficient * (10 : ℚ) ^ d.exponent)

section Nearest

theorem abs_value (d : Decimal) : |d.value| = d.coefficient * (10 : ℚ) ^ d.exponent := by
  rw [value, abs_mul, abs_of_nonneg (by positivity : (0 : ℚ) ≤ d.coefficient * 10 ^ d.exponent)]
  split <;> simp

theorem ten_zpow (e : Int) : (10 : ℚ) ^ e = (10 ^ e.toNat : Nat) / (10 ^ (-e).toNat : Nat) := by
  cases e with
  | ofNat e => simp
  | negSucc e => simp [zpow_negSucc]

theorem sameSide_value (d : Decimal) : d.toBinary64.SameSide d.value := by
  have hpos : (0 : ℚ) ≤ d.coefficient * 10 ^ d.exponent := by positivity
  change if d.negative then d.value ≤ 0 else 0 ≤ d.value
  rw [value]
  split <;> simpa using hpos

/-- A decimal that is in range is rounded to the finite number nearest to it. The greatest finite
number is nearest to the others. -/
theorem exists_isNearest (d : Decimal) : ∃ x, IsNearest x d.value ∧
    (Finite.ofBinary64? d.toBinary64 = some x ∨
      Finite.ofBinary64? d.toBinary64 = none ∧
        2 ^ 64 < |x.val.value| ∧ |x.val.value| ≤ |d.value|) := by
  have hden : 0 < 10 ^ (-d.exponent).toNat := Nat.pow_pos (by decide)
  have hvalue : |d.value| * unitsPerOne =
      (d.coefficient * 10 ^ d.exponent.toNat * unitsPerOne : Nat) /
        (10 ^ (-d.exponent).toNat : Nat) := by
    rw [abs_value, ten_zpow]
    push_cast
    ring
  by_cases hfinite : d.toBinary64.IsFinite
  · exact ⟨⟨d.toBinary64, hfinite⟩, isNearest_of_magnitude hden hvalue (sameSide_value d)
      (magnitude_eq_nearest d), .inl (dif_pos hfinite)⟩
  · have hinfinity : d.magnitude = infinity :=
      (magnitude_le_infinity d).antisymm (Nat.le_of_not_lt hfinite)
    obtain ⟨hnearest, hbeyond⟩ := isNearest_greatest d.negative hden hvalue
      (sameSide_value d) (magnitude_eq_nearest d ▸ hinfinity)
    exact ⟨greatest d.negative, hnearest, .inr ⟨dif_neg hfinite, lt_abs_greatest _, hbeyond⟩⟩

end Nearest

inductive Sign : List Char → Int → Prop
  | none : Sign [] 1
  | plus : Sign ['+'] 1
  | minus : Sign ['-'] (-1)

/-- The numerals of integers: digits with an optional sign. -/
inductive WholeNumeral : List Char → Int → Prop
  | signed {sign text : List Char} {factor : Int} {digits : List Nat} (hsign : Sign sign factor)
      (hdigits : DigitsOf 10 text digits) (hne : digits ≠ []) :
      WholeNumeral (sign ++ text) (factor * placeValue 10 digits)

/-- The numerals of decimal fractions: an optional sign, digits with an optional fraction, and an
optional exponent. A digit stands in front of the point or behind it. -/
inductive DecimalNumeral : List Char → ℚ → Prop
  | signed {sign whole fraction exponent : List Char} {factor e : Int} {digits places : List Nat}
      (hsign : Sign sign factor) (hwhole : DigitsOf 10 whole digits)
      (hfraction : Fraction fraction places) (hexponent : Exponent exponent e)
      (hplain : '_' ∉ fraction ++ exponent) (hne : digits ++ places ≠ []) :
      DecimalNumeral (sign ++ (whole ++ (fraction ++ exponent)))
        (factor * (placeValue 10 (digits ++ places) * (10 : ℚ) ^ (e - places.length)))

section Numerals

variable {text : List Char}

theorem WholeNumeral.decimalNumeral {n : Int} (h : WholeNumeral text n) : DecimalNumeral text n := by
  cases h with
  | @signed sign text factor digits hsign hdigits hne =>
    have hdecimal := DecimalNumeral.signed hsign hdigits .none .none (by simp) (by simpa using hne)
    simpa using hdecimal

theorem splitSign_eq {sign : List Char} {factor : Int} (h : Sign sign factor)
    (htext : ∀ c ∈ text.head?, c ≠ '-' ∧ c ≠ '+') :
    splitSign (sign ++ text) = (decide (factor < 0), text) := by
  cases h with
  | none => exact splitSign_of_head htext
  | plus => rfl
  | minus => rfl

theorem exists_sign (text : List Char) : ∃ sign factor, text = sign ++ (splitSign text).2 ∧
    Sign sign factor ∧ (splitSign text).1 = decide (factor < 0) := by
  unfold splitSign
  split
  · exact ⟨_, _, rfl, .minus, rfl⟩
  · exact ⟨_, _, rfl, .plus, rfl⟩
  · exact ⟨_, _, rfl, .none, rfl⟩

theorem Sign.mul {sign : List Char} {factor : Int} (h : Sign sign factor) (n : Int) :
    (if factor < 0 then -n else n) = factor * n := by
  cases h <;> simp

theorem integerOfText?_eq_some_iff {n : Int} :
    integerOfText? text = some n ↔ WholeNumeral text n := by
  constructor
  · intro h
    obtain ⟨sign, factor, htext, hsign, hnegative⟩ := exists_sign text
    simp only [integerOfText?, Option.ite_none_left_eq_some, Bool.or_eq_true, not_or,
      Bool.not_eq_true, List.isEmpty_eq_false_iff, Bool.not_eq_false', List.all_eq_true,
      Option.some_inj] at h
    obtain ⟨⟨hne, hall⟩, rfl⟩ := h
    obtain ⟨digits, hdigits⟩ := exists_digitsOf hall
    simp only [hnegative, decide_eq_true_eq, hsign.mul, digitsFrom_eq hdigits, ← placeValue_eq]
    nth_rewrite 1 [htext]
    exact .signed hsign hdigits (by rwa [Ne, ← hdigits.eq_nil_iff])
  · rintro @⟨sign, text, factor, digits, hsign, hdigits, hne⟩
    have hfirst : ∀ c ∈ text.head?, c ≠ '-' ∧ c ≠ '+' := fun c hc =>
      ne_sign_of_isDigit (hdigits.isDigit c (List.mem_of_mem_head? hc))
    have hempty : text.isEmpty = false := by simpa [hdigits.eq_nil_iff] using hne
    have hall : text.all Char.isDigit = true := List.all_eq_true.mpr hdigits.isDigit
    simp [integerOfText?, splitSign_eq hsign hfirst, hempty, hall, digitsFrom_eq hdigits,
      ← placeValue_eq, hsign.mul]

theorem ofText?_append_sign {sign : List Char} {factor : Int} {d : Decimal} (hsign : Sign sign factor)
    (hfirst : ∀ c ∈ text.head?, c ≠ '-' ∧ c ≠ '+') (h : ofText? text = some d) :
    ofText? (sign ++ text) = some { d with negative := decide (factor < 0) } := by
  simp only [ofText?, splitSign_of_head hfirst, splitSign_eq hsign hfirst, Option.ite_none_left_eq_some,
    Option.map_eq_some_iff] at h ⊢
  obtain ⟨hne, e, he, rfl⟩ := h
  exact ⟨hne, e, he, rfl⟩

theorem DecimalNumeral.ofText? {q : ℚ} (h : DecimalNumeral text q) :
    ∃ d, ofText? text = some d ∧ d.value = q := by
  obtain ⟨hsign, hwhole, hfraction, hexponent, hplain, hne⟩ := h
  next sign whole fraction exponent factor e digits places =>
  have hfirst : ∀ c ∈ (whole ++ (fraction ++ exponent)).head?, c ≠ '-' ∧ c ≠ '+' := by
    intro c hc
    rw [List.head?_append, Option.mem_def, Option.or_eq_some_iff] at hc
    rcases hc with hc | ⟨-, hc⟩
    · exact ne_sign_of_isDigit (hwhole.isDigit c (List.mem_of_mem_head? hc))
    · have hmem := head_of_fraction hfraction hexponent c hc
      constructor <;> (rintro rfl; revert hmem; decide)
  have hunsigned : '_' ∉ whole ++ (fraction ++ exponent) := by
    rw [List.mem_append, not_or]
    exact ⟨fun hmem => absurd (hwhole.isDigit _ hmem) (by decide), hplain⟩
  have hread := (decimalOfText?_eq_some_iff hunsigned hfirst).mpr
    ⟨whole, digits, fraction, places, exponent, e, rfl, hwhole, hfraction, hexponent, hne, rfl⟩
  refine ⟨_, ofText?_append_sign hsign hfirst hread, ?_⟩
  cases hsign <;> simp [value]

theorem WholeNumeral.not_mem_separator {n : Int} (h : WholeNumeral text n) : '_' ∉ text := by
  obtain ⟨hsign, hdigits, -⟩ := h
  intro hmem
  rcases List.mem_append.mp hmem with hmem | hmem
  · cases hsign <;> simp at hmem
  · exact absurd (hdigits.isDigit _ hmem) (by decide)

theorem not_mem_separator_of_exponentOfText? {e : Int} (h : exponentOfText? text = some e) :
    '_' ∉ text := by
  cases text with
  | nil => simp
  | cons letter text =>
    simp only [exponentOfText?, Option.ite_none_right_eq_some, Bool.or_eq_true, beq_iff_eq,
      integerOfText?_eq_some_iff] at h
    obtain ⟨hletter, h⟩ := h
    have hne : '_' ≠ letter := by rcases hletter with rfl | rfl <;> decide
    simp [hne, h.not_mem_separator]

theorem exists_plain_fraction (tail : List Char) :
    ∃ fraction places, tail = fraction ++ (splitFraction tail).2 ∧ Fraction fraction places ∧
      DigitsOf 10 (splitFraction tail).1 places ∧ '_' ∉ fraction := by
  obtain ⟨fraction, places, htail, hfraction, hplaces⟩ := exists_fraction tail
  refine ⟨fraction, places, htail, hfraction, hplaces, ?_⟩
  cases hfraction with
  | none => simp
  | point => simp
  | @digits text =>
    obtain ⟨rest, hrest⟩ : ∃ rest, rest = (splitFraction tail).2 := ⟨_, rfl⟩
    rw [← hrest] at htail
    subst htail
    change rest = (text ++ rest).dropWhile Char.isDigit at hrest
    have hsplit := @List.takeWhile_append_dropWhile _ Char.isDigit (text ++ rest)
    rw [← hrest, List.append_cancel_right_eq] at hsplit
    intro hmem
    rw [← hsplit, List.mem_cons] at hmem
    exact hmem.elim (by decide) fun hmem => absurd (List.mem_takeWhile_imp hmem) (by decide)

theorem decimalNumeral_of_ofText? {d : Decimal} (h : Decimal.ofText? text = some d) :
    DecimalNumeral text d.value := by
  obtain ⟨sign, factor, htext, hsign, hnegative⟩ := exists_sign text
  obtain ⟨digits, hdigits⟩ := exists_digitsOf_takeWhile (splitSign text).2
  obtain ⟨fraction, places, htail, hfraction, hplaces, hplain⟩ :=
    exists_plain_fraction ((splitSign text).2.dropWhile Char.isDigit)
  have hunsigned := @List.takeWhile_append_dropWhile _ Char.isDigit (splitSign text).2
  rw [htail] at hunsigned
  simp only [Decimal.ofText?, hnegative, Option.ite_none_left_eq_some, Option.map_eq_some_iff,
    Bool.and_eq_true, List.isEmpty_iff, hdigits.eq_nil_iff, hplaces.eq_nil_iff] at h
  obtain ⟨hne, e, he, rfl⟩ := h
  have hplainExponent := not_mem_separator_of_exponentOfText? he
  have hnumeral := DecimalNumeral.signed hsign hdigits hfraction
    ((exponentOfText?_eq_some_iff hplainExponent).mp he)
    (by simp [hplain, hplainExponent]) (by simpa using hne)
  rw [hunsigned, ← htext] at hnumeral
  convert hnumeral using 1
  rw [value, digitsFrom_digitsFrom hdigits hplaces, hplaces.length_eq]
  cases hsign <;> simp

/-- The numerals are the texts that are read as decimals. -/
theorem decimalNumeral_iff {q : ℚ} :
    DecimalNumeral text q ↔ ∃ d, Decimal.ofText? text = some d ∧ d.value = q := by
  constructor
  · exact DecimalNumeral.ofText?
  · rintro ⟨d, hd, rfl⟩
    exact decimalNumeral_of_ofText? hd

theorem DecimalNumeral.unique {q r : ℚ} (hq : DecimalNumeral text q) (hr : DecimalNumeral text r) :
    q = r := by
  obtain ⟨d, hd, rfl⟩ := hq.ofText?
  obtain ⟨e, he, rfl⟩ := hr.ofText?
  rw [Option.some.inj (hd.symm.trans he)]

/-- The text of a numeral is read as the finite number nearest to its value. Out of range it is
read as none, and the greatest finite number is nearest. -/
theorem DecimalNumeral.exists_isNearest {q : ℚ} (h : DecimalNumeral text q) :
    ∃ x, IsNearest x q ∧
      (finiteOfText? text = some x ∨
        finiteOfText? text = none ∧ 2 ^ 64 < |x.val.value| ∧ |x.val.value| ≤ |q|) := by
  obtain ⟨d, hd, rfl⟩ := h.ofText?
  obtain ⟨x, hx⟩ := d.exists_isNearest
  refine ⟨x, ?_⟩
  rwa [finiteOfText?, hd, Option.bind_some]

theorem WholeNumeral.exists_isNearest {n : Int} (h : WholeNumeral text n) (hn : |n| ≤ 2 ^ 64) :
    ∃ x, IsNearest x n ∧ finiteOfText? text = some x := by
  obtain ⟨x, hx, hread | ⟨-, hlarge, hle⟩⟩ := h.decimalNumeral.exists_isNearest
  · exact ⟨x, hx, hread⟩
  · have hn : |(n : ℚ)| ≤ 2 ^ 64 := by exact_mod_cast hn
    exact absurd (hlarge.trans_le hle) (not_lt.mpr hn)

end Numerals

end SiteConfig.Decimal

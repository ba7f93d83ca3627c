import SiteConfig.Decimal.Layout
import SiteConfig.Proofs.Rounding
/-!
# Reading decimal text back

The magnitude of a decimal is the nearest one to its exact value, however the value is split into
coefficient and power of ten. The text of a finite number, in any layout, reads back as that number.
-/
namespace SiteConfig.Decimal

open Binary64

section Magnitude

private theorem two_pow_le_ten_pow {m n : Nat} (h : m ≤ 3 * n) : 2 ^ m ≤ 10 ^ n := calc
  2 ^ m ≤ 2 ^ (3 * n) := Nat.pow_le_pow_right (by decide) h
  _ = 8 ^ n := Nat.pow_mul 2 3 n
  _ ≤ 10 ^ n := Nat.pow_le_pow_left (by decide) n

private theorem large_units {c e : Nat} (hc : c ≠ 0) (he : 401 ≤ e) :
    2 ^ (1024 + places) ≤ c * 10 ^ e * unitsPerOne := by
  rw [Nat.pow_add]
  apply Nat.mul_le_mul_right
  calc
    2 ^ 1024 ≤ 10 ^ e := two_pow_le_ten_pow (by omega)
    _ ≤ c * 10 ^ e := Nat.le_mul_of_pos_left _ (Nat.pos_of_ne_zero hc)

private theorem small_units {c e : Nat} (he : 401 + c.log2 + 1 ≤ e) :
    2 * (c * unitsPerOne) < 10 ^ e := by
  have hplaces : places = 1074 := places_eq
  have hexponent : e = (e - (c.log2 + 1)) + (c.log2 + 1) := by omega
  have hunits : 2 * unitsPerOne ≤ 10 ^ (e - (c.log2 + 1)) := by
    rw [unitsPerOne, Nat.mul_comm, ← Nat.pow_succ]
    exact two_pow_le_ten_pow (by omega)
  have hbits : c < 10 ^ (c.log2 + 1) := calc
    c < 2 ^ (c.log2 + 1) := Nat.lt_log2_self
    _ ≤ 10 ^ (c.log2 + 1) := Nat.pow_le_pow_left (by decide) _
  calc
    2 * (c * unitsPerOne) = 2 * unitsPerOne * c := by rw [Nat.mul_comm c, Nat.mul_assoc]
    _ ≤ 10 ^ (e - (c.log2 + 1)) * c := Nat.mul_le_mul_right c hunits
    _ < 10 ^ (e - (c.log2 + 1)) * 10 ^ (c.log2 + 1) :=
      Nat.mul_lt_mul_of_pos_left hbits (Nat.pow_pos (by decide))
    _ = 10 ^ e := by rw [← Nat.pow_add, ← hexponent]

/-- The magnitude of a decimal is the nearest one to its exact value. -/
theorem magnitude_eq_nearest (d : Decimal) :
    d.magnitude =
      nearest (d.coefficient * 10 ^ d.exponent.toNat * unitsPerOne) (10 ^ (-d.exponent).toNat) := by
  obtain ⟨negative, c, exponent⟩ := d
  by_cases hc : c = 0
  · simp [magnitude, hc]
  · cases exponent with
    | ofNat e =>
        have hlow : ¬((e : Int) + c.log2 + 1 < -exponentLimit) := by
          simp only [exponentLimit]
          omega
        by_cases hlarge : exponentLimit < (e : Int)
        · have he : 401 ≤ e := by
            simp only [exponentLimit] at hlarge
            omega
          have hnearest := nearest_of_large (large_units hc he)
          simpa [magnitude, hc, hlarge] using hnearest.symm
        · simp [magnitude, hc, hlarge, hlow]
    | negSucc e =>
        have hhigh : ¬(exponentLimit < Int.negSucc e) := by
          simp only [exponentLimit]
          omega
        by_cases hsmall : Int.negSucc e + c.log2 + 1 < -exponentLimit
        · have he : 401 + c.log2 + 1 ≤ e + 1 := by
            simp only [exponentLimit] at hsmall
            omega
          simp [magnitude, hc, hhigh, hsmall, nearest_of_small (small_units he)]
        · simp [magnitude, hc, hhigh, hsmall]

theorem magnitude_shift (negative : Bool) (c k : Nat) (e : Int) :
    magnitude ⟨negative, c * 10 ^ k, e - k⟩ = magnitude ⟨negative, c, e⟩ := by
  rw [magnitude_eq_nearest, magnitude_eq_nearest]
  apply nearest_congr (Nat.pow_pos (by decide)) (Nat.pow_pos (by decide))
  have hpowers : k + (e - k).toNat + (-e).toNat = e.toNat + (-(e - k)).toNat := by omega
  generalize unitsPerOne = units
  calc
    c * 10 ^ k * 10 ^ (e - k).toNat * units * 10 ^ (-e).toNat
        = c * 10 ^ (k + (e - k).toNat + (-e).toNat) * units := by
          simp only [Nat.pow_add]
          ac_rfl
    _ = c * 10 ^ e.toNat * units * 10 ^ (-(e - k)).toNat := by
          rw [hpowers, Nat.pow_add]
          ac_rfl

end Magnitude

section Shortest

theorem readsBack_iff (x : Binary64) (c : Nat) (exponent : Int) :
    readsBack x c exponent = true ↔ magnitude ⟨false, c, exponent⟩ = x.magnitude := by
  simp [readsBack]

theorem magnitude_of_readingBack? {x : Binary64} {exponent : Int} {pair : Nat × Nat} {c : Nat}
    (h : readingBack? x exponent pair = some c) :
    magnitude ⟨false, c, exponent⟩ = x.magnitude := by
  rw [← readsBack_iff]
  unfold readingBack? at h
  split at h
  · next hfirst => exact Option.some.inj h ▸ hfirst
  · split at h
    · next hsecond => exact Option.some.inj h ▸ hsecond
    · cases h

private theorem mul_five_pow_mul_two_pow (u n : Nat) : u * 5 ^ n * 2 ^ n = u * 10 ^ n := by
  rw [Nat.mul_assoc, ← Nat.mul_pow]

private theorem magnitude_fraction (c n : Nat) :
    magnitude ⟨false, c, -n⟩ = nearest (c * unitsPerOne) (10 ^ n) := by
  have hpower : (-(-(n : Int))).toNat = n := by omega
  have hzero : (-(n : Int)).toNat = 0 := by omega
  rw [magnitude_eq_nearest]
  simp only [hpower, hzero, Nat.pow_zero, Nat.mul_one]

private theorem magnitude_finest {x : Binary64} (h : x.IsFinite) :
    magnitude ⟨false, x.units * 5 ^ places, -places⟩ = x.magnitude := by
  have hexact : x.units * 5 ^ places * unitsPerOne * 1 = x.units * 10 ^ places := by
    rw [Nat.mul_one]
    exact mul_five_pow_mul_two_pow x.units places
  rw [magnitude_fraction, ← nearest_units h]
  exact nearest_congr (Nat.pow_pos (by decide)) Nat.one_pos hexact

theorem search_readsBack (tie : Tie) {x : Binary64} (h : x.IsFinite) (n : Nat) :
    magnitude ⟨false, (search tie x n).1, (search tie x n).2⟩ = x.magnitude := by
  induction n with
  | zero =>
      rw [search]
      exact magnitude_finest h
  | succ n ih =>
      rw [search]
      cases hgrid : onGrid? tie x ((n + 1 : Nat) - places) with
      | none => exact ih
      | some c => exact magnitude_of_readingBack? hgrid

theorem magnitude_congr_sign (s t : Bool) (c : Nat) (e : Int) :
    magnitude ⟨s, c, e⟩ = magnitude ⟨t, c, e⟩ := by
  simp only [magnitude_eq_nearest]

theorem shortest_zero (tie : Tie) {x : Finite} (h : x.val.units = 0) :
    shortest tie x = ⟨x.val.negative, 0, 0⟩ := by
  rw [shortest, if_pos h]

theorem shortest_nonzero (tie : Tie) {x : Finite} (h : x.val.units ≠ 0) :
    ∃ n, shortest tie x = ⟨x.val.negative, (search tie x.val n).1, (search tie x.val n).2⟩ := by
  rw [shortest, if_neg h]
  exact ⟨_, rfl⟩

/-- The shortest decimal of a number reads back as its magnitude. -/
theorem magnitude_shortest (tie : Tie) (x : Finite) :
    (shortest tie x).magnitude = x.val.magnitude := by
  by_cases hzero : x.val.units = 0
  · rw [shortest_zero tie hzero, ← nearest_units x.property, hzero]
    simp [magnitude]
  · obtain ⟨n, hshortest⟩ := shortest_nonzero tie hzero
    rw [hshortest, magnitude_congr_sign _ false]
    exact search_readsBack tie x.property n

end Shortest

section Digits

theorem digitsFrom_append (start : Nat) (first second : List Char) :
    digitsFrom start (first ++ second) = digitsFrom (digitsFrom start first) second :=
  List.foldl_append

theorem digitsFrom_toDigits (n : Nat) : digitsFrom 0 (Nat.toDigits 10 n) = n :=
  Nat.ofDigitChars_ten_toDigits

theorem digitsFrom_zeros (start k : Nat) :
    digitsFrom start (List.replicate k '0') = start * 10 ^ k := by
  rw [Nat.mul_comm]
  exact Nat.ofDigitChars_replicate_zero

theorem isDigit_of_mem_toDigits {n : Nat} {c : Char} (h : c ∈ Nat.toDigits 10 n) :
    c.isDigit = true :=
  Nat.isDigit_of_mem_toDigits (by decide) (by decide) h

theorem toList_toString (n : Int) :
    (toString n).toList =
      if n < 0 then '-' :: Nat.toDigits 10 n.natAbs else Nat.toDigits 10 n.natAbs := by
  cases n with
  | ofNat n => simp [toString, Int.repr, Nat.toList_repr]
  | negSucc n => simp [toString, Int.repr, Nat.toList_repr, Int.negSucc_lt_zero]

theorem head_toDigits {n : Nat} (hn : n ≠ 0) :
    ∃ c rest, Nat.toDigits 10 n = c :: rest ∧ c ≠ '0' := by
  induction n using Nat.strongRecOn with
  | ind n ih =>
      by_cases hsmall : n < 10
      · refine ⟨_, _, Nat.toDigits_of_lt_base hsmall, ?_⟩
        simpa using hn
      · obtain ⟨c, rest, hdigits, hc⟩ := ih (n / 10) (by omega) (by omega)
        refine ⟨c, rest ++ [Nat.digitChar (n % 10)], ?_, hc⟩
        rw [Nat.toDigits_of_base_le (by decide) (by omega), hdigits]
        rfl

end Digits

/-- A decimal text without sign in its parts: the digits in front of the point, those behind it,
and the exponent. -/
structure Parts where
  whole : List Char
  fraction : List Char
  exponent : Option Int

namespace Parts

def exponentText : Option Int → List Char
  | none => []
  | some e => 'e' :: (if e < 0 then '-' else '+') :: Nat.toDigits 10 e.natAbs

def text (parts : Parts) : List Char :=
  parts.whole ++ ((if parts.fraction = [] then [] else '.' :: parts.fraction) ++
    exponentText parts.exponent)

/-- The parts hold digits, with one in front of the point; no zero stands in front of others. -/
structure Proper (parts : Parts) : Prop where
  leading : parts.whole = ['0'] ∨ ∃ c rest, parts.whole = c :: rest ∧ c ≠ '0'
  whole_digits : ∀ c ∈ parts.whole, c.isDigit = true
  fraction_digits : ∀ c ∈ parts.fraction, c.isDigit = true

theorem Proper.whole_ne_nil {parts : Parts} (h : parts.Proper) : parts.whole ≠ [] := by
  rcases h.leading with hwhole | ⟨c, rest, hwhole, -⟩ <;> simp [hwhole]

theorem proper_toDigits (n : Nat) : Proper ⟨Nat.toDigits 10 n, [], none⟩ := by
  refine ⟨?_, fun c hc => isDigit_of_mem_toDigits hc, by simp⟩
  by_cases hzero : n = 0
  · exact .inl (by rw [hzero]; rfl)
  · exact .inr (head_toDigits hzero)

def marks : List Char := ['+', '-', '.', 'e']

theorem Proper.isDigit_or_mark {parts : Parts} (h : parts.Proper) :
    ∀ c ∈ parts.text, c.isDigit = true ∨ c ∈ marks := by
  have hexponent : ∀ c ∈ exponentText parts.exponent, c.isDigit = true ∨ c ∈ marks := by
    intro c hc
    cases he : parts.exponent with
    | none => simp [he, exponentText] at hc
    | some e =>
      simp only [he, exponentText, List.mem_cons] at hc
      rcases hc with rfl | rfl | hc
      · exact .inr (by decide)
      · right
        split <;> decide
      · exact .inl (isDigit_of_mem_toDigits hc)
  intro c hc
  simp only [text, List.mem_append] at hc
  rcases hc with hc | hc | hc
  · exact .inl (h.whole_digits c hc)
  · split at hc
    · cases hc
    · rcases List.mem_cons.mp hc with rfl | hc
      · exact .inr (by decide)
      · exact .inl (h.fraction_digits c hc)
  · exact hexponent c hc

end Parts

private theorem integerOfText?_signed (e : Int) :
    integerOfText? ((if e < 0 then '-' else '+') :: Nat.toDigits 10 e.natAbs) = some e := by
  have hdigits : (Nat.toDigits 10 e.natAbs).all Char.isDigit = true :=
    List.all_eq_true.mpr fun c hc => isDigit_of_mem_toDigits hc
  generalize hn : e.natAbs = n at hdigits ⊢
  by_cases hneg : e < 0
  · simp [integerOfText?, splitSign, hneg, hdigits, digitsFrom_toDigits]
    omega
  · simp [integerOfText?, splitSign, hneg, hdigits, digitsFrom_toDigits]
    omega

theorem splitSign_of_head {text : List Char} (h : ∀ c ∈ text.head?, c ≠ '-' ∧ c ≠ '+') :
    splitSign text = (false, text) := by
  unfold splitSign
  split
  · exact absurd rfl (h '-' rfl).1
  · exact absurd rfl (h '+' rfl).2
  · rfl

theorem ne_sign_of_isDigit {c : Char} (h : c.isDigit = true) : c ≠ '-' ∧ c ≠ '+' := by
  constructor <;> (rintro rfl; cases h)

theorem splitSign_of_digit {c : Char} (hc : c.isDigit = true) (rest : List Char) :
    splitSign (c :: rest) = (false, c :: rest) := by
  apply splitSign_of_head
  rintro _ ⟨⟩
  exact ne_sign_of_isDigit hc

theorem ofText?_text {parts : Parts} (h : parts.Proper) :
    ofText? parts.text = some ⟨false, digitsFrom 0 (parts.whole ++ parts.fraction),
      parts.exponent.getD 0 - parts.fraction.length⟩ := by
  have hne := h.whole_ne_nil
  obtain ⟨whole, fraction, exponent⟩ := parts
  obtain ⟨-, hwhole, hfraction⟩ := h
  simp only [Parts.text] at hne hwhole hfraction ⊢
  generalize htail : Parts.exponentText exponent = tail
  have hexponent : exponentOfText? tail = some (exponent.getD 0) := by
    subst htail
    cases exponent with
    | none => rfl
    | some e => exact integerOfText?_signed e
  have htake : tail.takeWhile Char.isDigit = [] := by
    subst htail
    cases exponent <;> rfl
  have hdrop : tail.dropWhile Char.isDigit = tail := by
    subst htail
    cases exponent <;> rfl
  have hpoint : splitFraction tail = ([], tail) := by
    subst htail
    cases exponent <;> rfl
  obtain ⟨c, rest, rfl⟩ := List.exists_cons_of_ne_nil hne
  have hsign := splitSign_of_digit (hwhole c List.mem_cons_self)
  by_cases hempty : fraction = []
  · subst hempty
    simp only [ofText?, List.cons_append, hsign]
    rw [← List.cons_append, List.takeWhile_append_of_pos hwhole, List.dropWhile_append_of_pos hwhole]
    simp [htake, hdrop, hpoint, hexponent, digitsFrom]
  · simp only [ofText?, List.cons_append, hsign, hempty, if_false]
    rw [← List.cons_append, List.takeWhile_append_of_pos hwhole, List.dropWhile_append_of_pos hwhole]
    have hsplit : splitFraction ('.' :: (fraction ++ tail)) = (fraction, tail) := by
      simp only [splitFraction, List.takeWhile_append_of_pos hfraction,
        List.dropWhile_append_of_pos hfraction, htake, hdrop, List.append_nil]
    have hdot : ('.' :: (fraction ++ tail)).takeWhile Char.isDigit = [] := rfl
    have hdotDrop : ('.' :: (fraction ++ tail)).dropWhile Char.isDigit =
        '.' :: (fraction ++ tail) := rfl
    rw [hdot, hdotDrop, hsplit]
    simp [hexponent, digitsFrom]

/-- The parts in which a layout sets out a decimal: their digits make the same magnitude, and a
layout that keeps fractions writes one or an exponent. -/
structure Parts.SetOut (parts : Parts) (layout : Layout) (d : Decimal) : Prop where
  proper : parts.Proper
  text_eq : layout.unsignedText d = parts.text
  magnitude_eq : magnitude ⟨false, digitsFrom 0 (parts.whole ++ parts.fraction),
    parts.exponent.getD 0 - parts.fraction.length⟩ = d.magnitude
  marked : layout.keepsFraction = true → parts.fraction = [] → parts.exponent ≠ none

def digits (d : Decimal) : List Char :=
  Nat.toDigits 10 d.coefficient

def point (d : Decimal) : Int :=
  d.exponent + d.digits.length

@[simp] theorem digitsFrom_digits (d : Decimal) : digitsFrom 0 d.digits = d.coefficient :=
  digitsFrom_toDigits d.coefficient

theorem isDigit_of_mem_digits {d : Decimal} {c : Char} (h : c ∈ d.digits) : c.isDigit = true :=
  isDigit_of_mem_toDigits h

section Layouts

variable (layout : Layout) {d : Decimal}

theorem unsignedText_of_coefficient_ne_zero (hc : d.coefficient ≠ 0) :
    layout.unsignedText d =
      if layout.isPositional (d.point - 1) then layout.positionalText d.digits d.point
      else Layout.scientificText d.digits (d.point - 1) := by
  have hdigits : (toString d.coefficient).toList = d.digits := by simp [digits]
  rw [Layout.unsignedText, if_neg hc]
  dsimp only
  rw [hdigits]
  rfl

private theorem setOut_zero (hc : d.coefficient = 0) :
    Parts.SetOut ⟨['0'], if layout.keepsFraction then ['0'] else [], none⟩ layout d := by
  refine ⟨⟨.inl rfl, by simp, ?_⟩, ?_, ?_, ?_⟩
  · cases layout.keepsFraction <;> simp
  · cases hkeeps : layout.keepsFraction <;>
      simp [Layout.unsignedText, hc, hkeeps, Parts.text, Parts.exponentText]
  · have hzero : d.magnitude = 0 := by simp [magnitude, hc]
    rw [hzero]
    cases layout.keepsFraction <;> simp [magnitude, digitsFrom]
  · intro hkeeps
    simp [hkeeps]

private theorem setOut_small (hc : d.coefficient ≠ 0) (hpoint : d.point ≤ 0)
    (hpositional : layout.isPositional (d.point - 1) = true) :
    Parts.SetOut ⟨['0'], List.replicate (-d.point).toNat '0' ++ d.digits, none⟩ layout d := by
  obtain ⟨first, rest, hdigits, -⟩ := head_toDigits hc
  refine ⟨⟨.inl rfl, by simp, ?_⟩, ?_, ?_, ?_⟩
  · intro c hmem
    rcases List.mem_append.mp hmem with hmem | hmem
    · rw [(List.mem_replicate.mp hmem).2]
      rfl
    · exact isDigit_of_mem_digits hmem
  · have hne : d.digits ≠ [] := by simp [digits, hdigits]
    simp [unsignedText_of_coefficient_ne_zero layout hc, hpositional, Layout.positionalText, hpoint,
      Parts.text, Parts.exponentText, hne]
  · have hcoefficient : digitsFrom 0
        (['0'] ++ (List.replicate (-d.point).toNat '0' ++ d.digits)) = d.coefficient := by
      have hzero : digitsFrom 0 ['0'] = 0 := rfl
      rw [digitsFrom_append, digitsFrom_append, digitsFrom_zeros, hzero, Nat.zero_mul,
        digitsFrom_digits]
    have hexponent : (0 : Int) -
        (List.replicate (-d.point).toNat '0' ++ d.digits).length = d.exponent := by
      rw [List.length_append, List.length_replicate]
      simp only [point] at hpoint ⊢
      omega
    simp only [hcoefficient, Option.getD_none, hexponent]
    exact magnitude_congr_sign _ _ _ _
  · intro _ hempty
    simp [digits, hdigits] at hempty

private theorem magnitude_zeros (d : Decimal) (n : Nat) :
    magnitude ⟨false, digitsFrom 0 (d.digits ++ List.replicate n '0'), d.exponent - n⟩ =
      d.magnitude := by
  rw [digitsFrom_append, digitsFrom_digits, digitsFrom_zeros]
  exact (magnitude_congr_sign _ _ _ _).trans
    (magnitude_shift d.negative d.coefficient n d.exponent)

private theorem setOut_whole (hc : d.coefficient ≠ 0) (he : 0 ≤ d.exponent)
    (hpositional : layout.isPositional (d.point - 1) = true) :
    Parts.SetOut ⟨d.digits ++ List.replicate d.exponent.toNat '0',
      if layout.keepsFraction then ['0'] else [], none⟩ layout d := by
  obtain ⟨first, rest, hdigits, hfirst⟩ := head_toDigits hc
  refine ⟨⟨.inr ⟨first, rest ++ List.replicate d.exponent.toNat '0', ?_, hfirst⟩, ?_, ?_⟩,
    ?_, ?_, ?_⟩
  · simp [digits, hdigits]
  · intro c hmem
    rcases List.mem_append.mp hmem with hmem | hmem
    · exact isDigit_of_mem_digits hmem
    · rw [(List.mem_replicate.mp hmem).2]
      rfl
  · cases layout.keepsFraction <;> simp
  · have hlength : 0 < d.digits.length := by simp [digits, hdigits]
    have hpoint : ¬(d.point ≤ 0) := by
      simp only [point]
      omega
    have hall : d.digits.length ≤ d.point.toNat := by
      simp only [point]
      omega
    have hzeros : d.point.toNat - d.digits.length = d.exponent.toNat := by
      simp only [point]
      omega
    cases hkeeps : layout.keepsFraction <;>
      simp [unsignedText_of_coefficient_ne_zero layout hc, hpositional, Layout.positionalText,
        hpoint, Parts.text, Parts.exponentText, List.take_of_length_le hall,
        List.drop_of_length_le hall, hzeros, hkeeps]
  · cases layout.keepsFraction with
    | false =>
        have hexponent : d.exponent - d.exponent.toNat = 0 := by omega
        have hzeros := magnitude_zeros d d.exponent.toNat
        rw [hexponent] at hzeros
        simpa using hzeros
    | true =>
        have hexponent : d.exponent - (d.exponent.toNat + 1 : Nat) = 0 - (1 : Nat) := by omega
        have hzeros := magnitude_zeros d (d.exponent.toNat + 1)
        rw [hexponent, List.replicate_succ', ← List.append_assoc] at hzeros
        exact hzeros
  · intro hkeeps
    simp [hkeeps]

private theorem setOut_split (hc : d.coefficient ≠ 0) (he : d.exponent < 0) (hpoint : 0 < d.point)
    (hpositional : layout.isPositional (d.point - 1) = true) :
    Parts.SetOut ⟨d.digits.take d.point.toNat, d.digits.drop d.point.toNat, none⟩ layout d := by
  obtain ⟨first, rest, hdigits, hfirst⟩ := head_toDigits hc
  have hdrop : d.digits.drop d.point.toNat ≠ [] := by
    rw [ne_eq, List.drop_eq_nil_iff]
    simp only [point] at hpoint ⊢
    omega
  obtain ⟨k, hk⟩ : ∃ k, d.point.toNat = k + 1 := ⟨d.point.toNat - 1, by omega⟩
  have htake : d.digits.take d.point.toNat = first :: rest.take k := by simp [hk, digits, hdigits]
  refine ⟨⟨.inr ⟨first, rest.take k, htake, hfirst⟩, ?_, ?_⟩, ?_, ?_,
    fun _ hempty => absurd hempty hdrop⟩
  · exact fun c hmem => isDigit_of_mem_digits (List.mem_of_mem_take hmem)
  · exact fun c hmem => isDigit_of_mem_digits (List.mem_of_mem_drop hmem)
  · have hpositive : ¬(d.point ≤ 0) := by omega
    simp only [unsignedText_of_coefficient_ne_zero layout hc, hpositional, if_true,
      Layout.positionalText, hpositive, if_false, Parts.text, Parts.exponentText, List.isEmpty_iff,
      hdrop, List.append_nil]
  · have hexponent : (0 : Int) - (d.digits.drop d.point.toNat).length = d.exponent := by
      rw [List.length_drop]
      simp only [point] at hpoint ⊢
      omega
    simp only [List.take_append_drop, digitsFrom_digits, Option.getD_none, hexponent]
    exact magnitude_congr_sign _ _ _ _

private theorem setOut_scientific (hc : d.coefficient ≠ 0)
    (hpositional : layout.isPositional (d.point - 1) = false) :
    Parts.SetOut ⟨d.digits.take 1, d.digits.drop 1, some (d.point - 1)⟩ layout d := by
  obtain ⟨first, rest, hdigits, hfirst⟩ := head_toDigits hc
  have hcons : d.digits = first :: rest := hdigits
  refine ⟨⟨.inr ⟨first, [], by simp [hcons], hfirst⟩, ?_, ?_⟩, ?_, ?_, by simp⟩
  · exact fun c hmem => isDigit_of_mem_digits (List.mem_of_mem_take hmem)
  · exact fun c hmem => isDigit_of_mem_digits (List.mem_of_mem_drop hmem)
  · simp only [unsignedText_of_coefficient_ne_zero layout hc, hpositional, Parts.text,
      Parts.exponentText, hcons]
    cases rest <;> simp [Layout.scientificText]
  · have hexponent : d.point - 1 - (d.digits.drop 1).length = d.exponent := by
      rw [List.length_drop, hcons, List.length_cons, point, hcons, List.length_cons]
      omega
    simp only [List.take_append_drop, digitsFrom_digits, Option.getD_some, hexponent]
    exact magnitude_congr_sign _ _ _ _

/-- Every layout sets every decimal out in parts. -/
theorem exists_setOut (d : Decimal) : ∃ parts : Parts, parts.SetOut layout d := by
  by_cases hc : d.coefficient = 0
  · exact ⟨_, setOut_zero layout hc⟩
  · cases hpositional : layout.isPositional (d.point - 1) with
    | false => exact ⟨_, setOut_scientific layout hc hpositional⟩
    | true =>
        by_cases hpoint : d.point ≤ 0
        · exact ⟨_, setOut_small layout hc hpoint hpositional⟩
        · by_cases he : 0 ≤ d.exponent
          · exact ⟨_, setOut_whole layout hc he hpositional⟩
          · exact ⟨_, setOut_split layout hc (by omega) (by omega) hpositional⟩

end Layouts

private theorem ofBinary64?_toBinary64 {d : Decimal} {x : Finite} (hsign : d.negative = false)
    (hmagnitude : d.magnitude = x.val.magnitude) :
    Finite.ofBinary64? d.toBinary64 = some x.abs := by
  have hvalue : d.toBinary64 = x.abs.val := by
    simp only [toBinary64, Finite.abs, Binary64.mk.injEq]
    exact ⟨hsign, hmagnitude⟩
  rw [hvalue, Finite.ofBinary64?, dif_pos x.abs.property]

/-- The parts that set out the shortest decimal of a number read back as its absolute value. -/
theorem finiteOfText?_text {parts : Parts} {layout : Layout} {x : Finite}
    (h : parts.SetOut layout (shortest layout.tie x)) : finiteOfText? parts.text = some x.abs := by
  rw [finiteOfText?, ofText?_text h.proper, Option.bind_some]
  exact ofBinary64?_toBinary64 rfl (h.magnitude_eq.trans (magnitude_shortest layout.tie x))

end SiteConfig.Decimal

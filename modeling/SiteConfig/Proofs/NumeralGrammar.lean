import SiteConfig.Proofs.DecimalText
import SiteConfig.Proofs.Digits
import SiteConfig.Proofs.Numbers
import SiteConfig.Proofs.Spellings
/-!
# The grammar of numeric literals

The numeric literals of JavaScript with what they denote: plain digits, a fraction or an exponent
behind them, or digits of a marked radix, with separators between digits only. The reading of a
numeral without separators accepts exactly these literals, as far as their number is in range.
-/
namespace SiteConfig.ConfigModule.Numeral

/-- Digits of a radix with their values; single separators may stand between two of them. -/
inductive Run (radix : Nat) : List Char → List Nat → Prop
  | last {c : Char} {d : Nat} (h : DigitOf radix c d) : Run radix [c] [d]
  | cons {c : Char} {d : Nat} {text : List Char} {digits : List Nat} (h : DigitOf radix c d)
      (rest : Run radix text digits) : Run radix (c :: text) (d :: digits)
  | apart {c : Char} {d : Nat} {text : List Char} {digits : List Nat} (h : DigitOf radix c d)
      (rest : Run radix text digits) : Run radix (c :: '_' :: text) (d :: digits)

/-- The digits in front of a point, if any: a zero, or digits that do not start with one. -/
inductive Whole : List Char → List Nat → Prop
  | none : Whole [] []
  | zero : Whole ['0'] [0]
  | digits {text : List Char} {digits : List Nat} (h : Run 10 text digits)
      (hzero : text.head? ≠ some '0') : Whole text digits

/-- The point with the digits behind it, if any. -/
inductive Fraction : List Char → List Nat → Prop
  | none : Fraction [] []
  | point : Fraction ['.'] []
  | digits {text : List Char} {digits : List Nat} (h : Run 10 text digits) :
      Fraction ('.' :: text) digits

/-- The exponent, if any: a letter and digits with an optional sign. -/
inductive Exponent : List Char → Int → Prop
  | none : Exponent [] 0
  | unsigned {letter : Char} {text : List Char} {digits : List Nat} (hletter : letter ∈ ['e', 'E'])
      (h : Run 10 text digits) : Exponent (letter :: text) (placeValue 10 digits)
  | plus {letter : Char} {text : List Char} {digits : List Nat} (hletter : letter ∈ ['e', 'E'])
      (h : Run 10 text digits) : Exponent (letter :: '+' :: text) (placeValue 10 digits)
  | minus {letter : Char} {text : List Char} {digits : List Nat} (hletter : letter ∈ ['e', 'E'])
      (h : Run 10 text digits) : Exponent (letter :: '-' :: text) (-(placeValue 10 digits : Int))

def marks : List (Char × Nat) := [('x', 16), ('X', 16), ('o', 8), ('O', 8), ('b', 2), ('B', 2)]

/-- What a literal denotes: a whole number, by plain digits or in a marked radix, or a decimal. -/
inductive Denoted where
  | plain (n : Nat)
  | marked (n : Nat)
  | decimal (coefficient : Nat) (exponent : Int)

/-- The numeric literals, with what they denote. -/
inductive Literal : List Char → Denoted → Prop
  | plain {text : List Char} {digits : List Nat} (h : Whole text digits) (hne : digits ≠ []) :
      Literal text (.plain (placeValue 10 digits))
  | marked {mark : Char} {radix : Nat} {text : List Char} {digits : List Nat}
      (hmark : (mark, radix) ∈ marks) (h : Run radix text digits) :
      Literal ('0' :: mark :: text) (.marked (placeValue radix digits))
  | decimal {whole fraction exponent : List Char} {digits places : List Nat} {e : Int}
      (hwhole : Whole whole digits) (hfraction : Fraction fraction places)
      (hexponent : Exponent exponent e) (hdigits : digits ++ places ≠ [])
      (hpoint : fraction ++ exponent ≠ []) :
      Literal (whole ++ (fraction ++ exponent))
        (.decimal (placeValue 10 (digits ++ places)) (e - places.length))

def nearest? (d : Decimal) : Option Binary64.Finite := Binary64.Finite.ofBinary64? d.toBinary64

def Denoted.decimal? : Denoted → Option Decimal
  | .plain n => some ⟨false, n, 0⟩
  | .marked _ => none
  | .decimal c e => some ⟨false, c, e⟩

/-- The number of a literal: the whole number that it denotes while a word holds it, else the
nearest floating-point number. Digits of a marked radix have no floating-point number. -/
def Denoted.number? : Denoted → Option Number
  | .plain n =>
    if h : n < 2 ^ 64 then some (.integer ⟨n, by omega⟩)
    else (nearest? ⟨false, n, 0⟩).map .float
  | .marked n => if h : n < 2 ^ 64 then some (.integer ⟨n, by omega⟩) else none
  | .decimal c e => (nearest? ⟨false, c, e⟩).map .float

def unseparated (text : List Char) : List Char := text.filter (· != '_')

section Separators

variable {radix : Nat} {text : List Char} {digits : List Nat}

@[simp] theorem unseparated_append (text more : List Char) :
    unseparated (text ++ more) = unseparated text ++ unseparated more :=
  List.filter_append ..

theorem unseparated_cons {c : Char} (h : c ≠ '_') (text : List Char) :
    unseparated (c :: text) = c :: unseparated text :=
  List.filter_cons_of_pos (by simpa using h)

theorem unseparated_separator (text : List Char) : unseparated ('_' :: text) = unseparated text :=
  rfl

theorem not_mem_unseparated (text : List Char) : '_' ∉ unseparated text := by
  simp [unseparated]

theorem DigitOf.ne_separator {c : Char} {d : Nat} (hradix : radix ≤ 16)
    (h : DigitOf radix c d) : c ≠ '_' := by
  rintro rfl
  cases h.isAlphanum hradix

theorem radix_le_of_mem_marks {mark : Char} (h : (mark, radix) ∈ marks) : radix ≤ 16 := by
  have hmarks : ∀ entry ∈ marks, entry.2 ≤ 16 := by decide
  exact hmarks _ h

theorem radix_pos_of_mem_marks {mark : Char} (h : (mark, radix) ∈ marks) : 0 < radix := by
  have hmarks : ∀ entry ∈ marks, 0 < entry.2 := by decide
  exact hmarks _ h

theorem isAlphanum_of_mem_marks {mark : Char} (h : (mark, radix) ∈ marks) :
    mark.isAlphanum = true := by
  simp only [marks, List.mem_cons, Prod.mk.injEq, List.not_mem_nil, or_false] at h
  rcases h with ⟨rfl, -⟩ | ⟨rfl, -⟩ | ⟨rfl, -⟩ | ⟨rfl, -⟩ | ⟨rfl, -⟩ | ⟨rfl, -⟩ <;> rfl

theorem ne_separator_of_mem_marks {mark : Char} (h : (mark, radix) ∈ marks) : mark ≠ '_' := by
  rintro rfl
  cases isAlphanum_of_mem_marks h

theorem Run.stripped (hradix : radix ≤ 16) (h : Run radix text digits) :
    Run radix (unseparated text) digits := by
  induction h with
  | last h =>
    rw [unseparated_cons (DigitOf.ne_separator hradix h)]
    exact .last h
  | cons h _ ih =>
    rw [unseparated_cons (DigitOf.ne_separator hradix h)]
    exact .cons h ih
  | apart h _ ih =>
    rw [unseparated_cons (DigitOf.ne_separator hradix h), unseparated_separator]
    exact .cons h ih

theorem Run.exists_head (h : Run radix text digits) :
    ∃ c rest, text = c :: rest ∧ ∃ d, DigitOf radix c d := by
  cases h with
  | last h => exact ⟨_, _, rfl, _, h⟩
  | cons h => exact ⟨_, _, rfl, _, h⟩
  | apart h => exact ⟨_, _, rfl, _, h⟩

theorem Whole.stripped (h : Whole text digits) : Whole (unseparated text) digits := by
  cases h with
  | none => exact .none
  | zero => exact .zero
  | digits h hzero =>
    refine .digits (h.stripped (by decide)) ?_
    obtain ⟨c, rest, rfl, d, hd⟩ := h.exists_head
    rwa [unseparated_cons (DigitOf.ne_separator (by decide) hd)]

theorem Fraction.stripped (h : Fraction text digits) : Fraction (unseparated text) digits := by
  cases h with
  | none => exact .none
  | point => exact .point
  | digits h => exact .digits (h.stripped (by decide))

theorem head_of_fraction {fraction exponent : List Char} {places : List Nat} {e : Int}
    (hfraction : Fraction fraction places) (hexponent : Exponent exponent e) :
    ∀ c ∈ (fraction ++ exponent).head?, c ∈ ['.', 'e', 'E'] := by
  intro c hc
  cases hfraction with
  | none =>
    cases hexponent with
    | none => cases hc
    | unsigned hletter | plus hletter | minus hletter =>
      cases hc
      exact List.mem_cons_of_mem _ hletter
  | point | digits =>
    cases hc
    exact List.mem_cons_self

theorem ne_separator_of_letter {letter : Char} (h : letter ∈ ['e', 'E']) : letter ≠ '_' := by
  rintro rfl
  revert h
  decide

theorem Exponent.stripped {e : Int} (h : Exponent text e) : Exponent (unseparated text) e := by
  cases h with
  | none => exact .none
  | unsigned hletter h =>
    rw [unseparated_cons (ne_separator_of_letter hletter)]
    exact .unsigned hletter (h.stripped (by decide))
  | plus hletter h =>
    rw [unseparated_cons (ne_separator_of_letter hletter), unseparated_cons (by decide)]
    exact .plus hletter (h.stripped (by decide))
  | minus hletter h =>
    rw [unseparated_cons (ne_separator_of_letter hletter), unseparated_cons (by decide)]
    exact .minus hletter (h.stripped (by decide))

/-- Without its separators a literal denotes the same. -/
theorem Literal.stripped {denoted : Denoted} (h : Literal text denoted) :
    Literal (unseparated text) denoted := by
  cases h with
  | plain h hne => exact .plain h.stripped hne
  | marked hmark h =>
    rw [unseparated_cons (by decide), unseparated_cons (ne_separator_of_mem_marks hmark)]
    exact .marked hmark (h.stripped (radix_le_of_mem_marks hmark))
  | @decimal _ fraction exponent _ _ _ hwhole hfraction hexponent hdigits hpoint =>
    have hhead := head_of_fraction hfraction hexponent
    have hne : unseparated (fraction ++ exponent) ≠ [] := by
      obtain ⟨c, rest, hrest⟩ := List.exists_cons_of_ne_nil hpoint
      rw [hrest] at hhead ⊢
      have hc : c ≠ '_' := by
        rintro rfl
        exact absurd (hhead '_' rfl) (by decide)
      rw [unseparated_cons hc]
      exact List.cons_ne_nil _ _
    rw [unseparated_append] at hne ⊢
    rw [unseparated_append]
    exact .decimal hwhole.stripped hfraction.stripped hexponent.stripped hdigits hne

end Separators

section Plain

variable {radix : Nat} {text : List Char} {digits : List Nat}

theorem Run.digitsOf (h : Run radix text digits) (hplain : '_' ∉ text) :
    DigitsOf radix text digits := by
  induction h with
  | last h => exact .cons h .nil
  | cons h _ ih => exact .cons h (ih fun hmem => hplain (List.mem_cons_of_mem _ hmem))
  | apart => simp at hplain

theorem Run.of_digitsOf (h : DigitsOf radix text digits) (hne : text ≠ []) :
    Run radix text digits := by
  induction h with
  | nil => exact absurd rfl hne
  | cons hd hrest ih =>
    cases hrest with
    | nil => exact .last hd
    | cons => exact .cons hd (ih (List.cons_ne_nil _ _))

theorem Run.ne_nil (h : Run radix text digits) : text ≠ [] ∧ digits ≠ [] := by
  cases h <;> simp

theorem Whole.digitsOf (h : Whole text digits) (hplain : '_' ∉ text) :
    DigitsOf 10 text digits := by
  cases h with
  | none => exact .nil
  | zero => exact .cons (by decide) .nil
  | digits h => exact h.digitsOf hplain

theorem Fraction.digitsOf (h : Fraction text digits) (hplain : '_' ∉ text) :
    DigitsOf 10 (text.drop 1) digits := by
  cases h with
  | none => exact .nil
  | point => exact .nil
  | digits h => exact h.digitsOf fun hmem => hplain (List.mem_cons_of_mem _ hmem)

theorem integerOfText?_run (h : Run 10 text digits) (hplain : '_' ∉ text) :
    Decimal.integerOfText? text = some (placeValue 10 digits : Int) ∧
    Decimal.integerOfText? ('+' :: text) = some (placeValue 10 digits : Int) ∧
    Decimal.integerOfText? ('-' :: text) = some (-(placeValue 10 digits : Int)) := by
  have hdigits := h.digitsOf hplain
  have hall : text.all Char.isDigit = true := List.all_eq_true.mpr hdigits.isDigit
  have hempty : text.isEmpty = false := by simpa using h.ne_nil.1
  have hvalue : Decimal.digitsFrom 0 text = placeValue 10 digits := by
    rw [digitsFrom_eq hdigits, placeValue_eq]
  have hsign : Decimal.splitSign text = (false, text) := by
    obtain ⟨c, rest, rfl⟩ := List.exists_cons_of_ne_nil h.ne_nil.1
    exact Decimal.splitSign_of_digit (hdigits.isDigit c List.mem_cons_self) rest
  refine ⟨?_, ?_, ?_⟩
  · simp [Decimal.integerOfText?, hsign, hall, hempty, hvalue]
  · simp [Decimal.integerOfText?, Decimal.splitSign, hall, hempty, hvalue]
  · simp [Decimal.integerOfText?, Decimal.splitSign, hall, hempty, hvalue]

theorem exists_run_of_integerOfText? {e : Int} (h : Decimal.integerOfText? text = some e) :
    ∃ unsigned digits, Run 10 unsigned digits ∧
      (text = unsigned ∧ e = placeValue 10 digits ∨
        text = '+' :: unsigned ∧ e = placeValue 10 digits ∨
        text = '-' :: unsigned ∧ e = -(placeValue 10 digits : Int)) := by
  obtain ⟨⟨negative, unsigned⟩, hsplit⟩ : ∃ split, Decimal.splitSign text = split := ⟨_, rfl⟩
  simp only [Decimal.integerOfText?, hsplit, Option.ite_none_left_eq_some, Bool.not_eq_true,
    Option.some.injEq, Bool.or_eq_false_iff, Bool.not_eq_false', List.all_eq_true] at h
  obtain ⟨⟨hempty, hall⟩, rfl⟩ := h
  obtain ⟨digits, hdigits⟩ := exists_digitsOf hall
  refine ⟨unsigned, digits, .of_digitsOf hdigits (by simpa using hempty), ?_⟩
  rw [digitsFrom_eq hdigits, ← placeValue_eq]
  unfold Decimal.splitSign at hsplit
  split at hsplit
  · cases hsplit
    exact .inr (.inr ⟨rfl, rfl⟩)
  · cases hsplit
    exact .inr (.inl ⟨rfl, rfl⟩)
  · cases hsplit
    exact .inl ⟨rfl, rfl⟩

theorem exponentOfText?_eq_some_iff {e : Int} (hplain : '_' ∉ text) :
    Decimal.exponentOfText? text = some e ↔ Exponent text e := by
  constructor
  · intro h
    cases text with
    | nil =>
      cases h
      exact .none
    | cons letter text =>
      simp only [Decimal.exponentOfText?, Option.ite_none_right_eq_some, Bool.or_eq_true,
        beq_iff_eq] at h
      obtain ⟨hletter, h⟩ := h
      have hmem : letter ∈ ['e', 'E'] := by simpa using hletter
      obtain ⟨unsigned, digits, hrun, ⟨rfl, rfl⟩ | ⟨rfl, rfl⟩ | ⟨rfl, rfl⟩⟩ :=
        exists_run_of_integerOfText? h
      · exact .unsigned hmem hrun
      · exact .plus hmem hrun
      · exact .minus hmem hrun
  · intro h
    have hletters : ∀ {letter : Char}, letter ∈ ['e', 'E'] →
        (letter == 'e' || letter == 'E') = true := by
      simp
    cases h with
    | none => rfl
    | unsigned hletter h =>
      rw [Decimal.exponentOfText?, if_pos (hletters hletter)]
      exact (integerOfText?_run h fun hmem => hplain (by simp [hmem])).1
    | plus hletter h =>
      rw [Decimal.exponentOfText?, if_pos (hletters hletter)]
      exact (integerOfText?_run h fun hmem => hplain (by simp [hmem])).2.1
    | minus hletter h =>
      rw [Decimal.exponentOfText?, if_pos (hletters hletter)]
      exact (integerOfText?_run h fun hmem => hplain (by simp [hmem])).2.2

theorem not_isDigit_of_head {tail : List Char} (h : ∀ c ∈ tail.head?, c ∈ ['.', 'e', 'E']) :
    ∀ c ∈ tail.head?, c.isDigit = false := by
  have hchars : ∀ c ∈ ['.', 'e', 'E'], c.isDigit = false := by
    simp only [List.forall_mem_cons, List.not_mem_nil, false_implies, implies_true]
    decide
  intro c hc
  exact hchars c (h c hc)

theorem takeWhile_dropWhile_append {p : Char → Bool} {kept tail : List Char} (hkept : ∀ c ∈ kept, p c = true)
    (htail : ∀ c ∈ tail.head?, p c = false) :
    (kept ++ tail).takeWhile p = kept ∧ (kept ++ tail).dropWhile p = tail := by
  rw [List.takeWhile_append_of_pos hkept, List.dropWhile_append_of_pos hkept]
  cases tail with
  | nil => simp
  | cons c tail => simp [htail c rfl]

theorem splitFraction_append {fraction exponent : List Char} {places : List Nat} {e : Int}
    (hplain : '_' ∉ fraction) (hfraction : Fraction fraction places)
    (hexponent : Exponent exponent e) :
    Decimal.splitFraction (fraction ++ exponent) = (fraction.drop 1, exponent) := by
  have hdigits := hfraction.digitsOf hplain
  have hstop := not_isDigit_of_head (head_of_fraction .none hexponent)
  obtain ⟨htake, hdrop⟩ := takeWhile_dropWhile_append hdigits.isDigit hstop
  cases hfraction with
  | none =>
    have hpoint : '.' ∉ exponent.head? := by
      intro hmem
      cases hexponent with
      | none => cases hmem
      | unsigned hletter | plus hletter | minus hletter =>
        cases hmem
        exact absurd hletter (by decide)
    unfold Decimal.splitFraction
    split
    · next heq =>
      rw [List.nil_append] at heq
      exact absurd (by rw [heq]; rfl) hpoint
    · rfl
  | point => exact Prod.ext htake hdrop
  | digits => exact Prod.ext htake hdrop

theorem exists_digitsOf_takeWhile (text : List Char) :
    ∃ digits, DigitsOf 10 (text.takeWhile Char.isDigit) digits :=
  exists_digitsOf (List.all_eq_true.mp List.all_takeWhile)

theorem exists_fraction (tail : List Char) :
    ∃ fraction places, tail = fraction ++ (Decimal.splitFraction tail).2 ∧
      Fraction fraction places ∧ DigitsOf 10 (Decimal.splitFraction tail).1 places := by
  unfold Decimal.splitFraction
  split
  · next rest =>
    obtain ⟨places, hplaces⟩ := exists_digitsOf_takeWhile rest
    refine ⟨'.' :: rest.takeWhile Char.isDigit, places, by simp, ?_, hplaces⟩
    by_cases hempty : rest.takeWhile Char.isDigit = []
    · rw [hempty] at hplaces ⊢
      cases hplaces
      exact .point
    · exact .digits (.of_digitsOf hplaces hempty)
  · exact ⟨[], [], rfl, .none, .nil⟩

theorem digitsFrom_digitsFrom {whole places : List Char} {digits more : List Nat}
    (hwhole : DigitsOf 10 whole digits) (hplaces : DigitsOf 10 places more) :
    Decimal.digitsFrom (Decimal.digitsFrom 0 whole) places = placeValue 10 (digits ++ more) := by
  rw [digitsFrom_eq hwhole, digitsFrom_eq hplaces, placeValue_eq, appendDigits, appendDigits,
    appendDigits, List.foldl_append]

/-- A decimal is read off digits, a fraction and an exponent; it has a digit somewhere in front of
the exponent. -/
theorem decimalOfText?_eq_some_iff {d : Decimal} (hplain : '_' ∉ text)
    (hsign : ∀ c ∈ text.head?, c ≠ '-' ∧ c ≠ '+') :
    Decimal.ofText? text = some d ↔ ∃ whole digits fraction places exponent e,
      text = whole ++ (fraction ++ exponent) ∧ DigitsOf 10 whole digits ∧
      Fraction fraction places ∧ Exponent exponent e ∧ digits ++ places ≠ [] ∧
      d = ⟨false, placeValue 10 (digits ++ places), e - places.length⟩ := by
  have hunsigned := Decimal.splitSign_of_head hsign
  constructor
  · intro h
    obtain ⟨digits, hdigits⟩ := exists_digitsOf_takeWhile text
    obtain ⟨fraction, places, htail, hfraction, hplaces⟩ :=
      exists_fraction (text.dropWhile Char.isDigit)
    have htext := @List.takeWhile_append_dropWhile _ Char.isDigit text
    rw [htail] at htext
    simp only [Decimal.ofText?, hunsigned, Option.ite_none_left_eq_some, Option.map_eq_some_iff,
      digitsFrom_digitsFrom hdigits hplaces, Bool.and_eq_true, List.isEmpty_iff, not_and_or] at h
    obtain ⟨hne, e, he, rfl⟩ := h
    have hplainExponent : '_' ∉ (Decimal.splitFraction (text.dropWhile Char.isDigit)).2 := by
      intro hmem
      apply hplain
      rw [← htext]
      simp [hmem]
    refine ⟨_, digits, fraction, places, _, e, htext.symm, hdigits, hfraction,
      (exponentOfText?_eq_some_iff hplainExponent).mp he, ?_, by rw [hplaces.length_eq]⟩
    rw [Ne, List.append_eq_nil_iff, not_and_or, ← hdigits.eq_nil_iff, ← hplaces.eq_nil_iff]
    exact hne
  · rintro ⟨whole, digits, fraction, places, exponent, e, rfl, hdigits, hfraction, hexponent, hne,
      rfl⟩
    simp only [List.mem_append, not_or] at hplain
    obtain ⟨-, hplainFraction, hplainExponent⟩ := hplain
    have hstop := not_isDigit_of_head (head_of_fraction hfraction hexponent)
    obtain ⟨htake, hdrop⟩ := takeWhile_dropWhile_append hdigits.isDigit hstop
    have hplaces := hfraction.digitsOf hplainFraction
    have hexponent' := (exponentOfText?_eq_some_iff hplainExponent).mpr hexponent
    have hsome : (whole.isEmpty && (fraction.drop 1).isEmpty) = false := by
      rw [Ne, List.append_eq_nil_iff, ← hdigits.eq_nil_iff, ← hplaces.eq_nil_iff] at hne
      simpa [not_and] using hne
    simp only [Decimal.ofText?, hunsigned, htake, hdrop,
      splitFraction_append hplainFraction hfraction hexponent,
      digitsFrom_digitsFrom hdigits hplaces, hexponent', hsome, Option.map_some,
      hplaces.length_eq, Bool.false_eq_true, if_false]

end Plain

section Unmarked

variable {whole fraction exponent rest : List Char} {digits places : List Nat} {e : Int}

theorem exists_head (hwhole : Whole whole digits) (hfraction : Fraction fraction places)
    (hexponent : Exponent exponent e) (hdigits : digits ++ places ≠ [])
    (hrest : ∀ c ∈ rest.head?, c.isAlphanum = false) :
    ∃ first tail, whole ++ (fraction ++ exponent) = first :: tail ∧
      Lexeme.startsNumeral first (tail ++ rest) = true ∧
      (first = '0' → ∀ c ∈ (tail ++ rest).head?, c.isDigit = false ∧ c ∉ marks.map Prod.fst) := by
  cases hwhole with
  | none =>
    cases hfraction with
    | none | point => exact absurd rfl hdigits
    | digits h =>
      obtain ⟨c, tail, rfl, d, hd⟩ := h.exists_head
      refine ⟨'.', _, rfl, ?_, ?_⟩
      · simp [Lexeme.startsNumeral, hd.isDigit.1]
      · intro hzero
        cases hzero
  | zero =>
    refine ⟨'0', fraction ++ exponent, rfl, rfl, ?_⟩
    rintro - c hc
    rw [List.head?_append, Option.mem_def, Option.or_eq_some_iff] at hc
    rcases hc with hc | ⟨-, hc⟩
    · have hchars : ∀ c ∈ ['.', 'e', 'E'], c.isDigit = false ∧ c ∉ marks.map Prod.fst := by
        simp only [List.forall_mem_cons, List.not_mem_nil, false_implies, implies_true]
        decide
      exact hchars c (head_of_fraction hfraction hexponent c hc)
    · have halnum := hrest c hc
      refine ⟨?_, ?_⟩
      · simp only [Char.isAlphanum, Bool.or_eq_false_iff] at halnum
        exact halnum.2
      · intro hmem
        obtain ⟨entry, hentry, rfl⟩ := List.mem_map.mp hmem
        rw [isAlphanum_of_mem_marks hentry] at halnum
        cases halnum
  | digits h hzero =>
    obtain ⟨c, tail, rfl, d, hd⟩ := h.exists_head
    refine ⟨c, tail ++ (fraction ++ exponent), rfl, ?_, ?_⟩
    · simp [Lexeme.startsNumeral, hd.isDigit.1]
    · rintro rfl
      exact absurd rfl hzero

theorem radix?_eq_none_of_not_mem {first : Char} {more : List Char}
    (h : first = '0' → ∀ c ∈ more.head?, c ∉ marks.map Prod.fst) :
    radix? (first :: more) = none := by
  unfold radix?
  split
  case h_7 => rfl
  all_goals
    next heq =>
    obtain ⟨rfl, rfl⟩ := List.cons.inj heq
    exact absurd (by decide) (h rfl _ rfl)

theorem hasLeadingZero_eq_false_of_head {first : Char} {more : List Char}
    (h : first = '0' → ∀ c ∈ more.head?, c.isDigit = false) :
    hasLeadingZero (first :: more) = false := by
  unfold hasLeadingZero
  split
  · next heq =>
    obtain ⟨rfl, rfl⟩ := List.cons.inj heq
    exact h rfl _ rfl
  · rfl

theorem unmarked (hwhole : Whole whole digits) (hfraction : Fraction fraction places)
    (hexponent : Exponent exponent e) (hdigits : digits ++ places ≠ []) :
    radix? (whole ++ (fraction ++ exponent)) = none ∧
      hasLeadingZero (whole ++ (fraction ++ exponent)) = false := by
  obtain ⟨first, more, htext, -, hmore⟩ :=
    @exists_head _ _ _ [] _ _ _ hwhole hfraction hexponent hdigits (by simp)
  rw [List.append_nil] at hmore
  rw [htext]
  exact ⟨radix?_eq_none_of_not_mem fun hzero c hc => (hmore hzero c hc).2,
    hasLeadingZero_eq_false_of_head fun hzero c hc => (hmore hzero c hc).1⟩

theorem radix?_mark {mark : Char} {radix : Nat} (h : (mark, radix) ∈ marks) (text : List Char) :
    radix? ('0' :: mark :: text) = some radix := by
  simp only [marks, List.mem_cons, Prod.mk.injEq, List.not_mem_nil, or_false] at h
  rcases h with ⟨rfl, rfl⟩ | ⟨rfl, rfl⟩ | ⟨rfl, rfl⟩ | ⟨rfl, rfl⟩ | ⟨rfl, rfl⟩ | ⟨rfl, rfl⟩ <;> rfl

theorem ofNat?_eq (n : Nat) :
    ofNat? n = if h : n < 2 ^ 64 then some (.integer ⟨n, by omega⟩) else none := by
  split
  · next h =>
    rw [ofNat?, (WholeNumber.ofInt?_eq_some_iff n ⟨n, by omega⟩).mpr rfl]
    rfl
  · next h =>
    rw [ofNat?, (WholeNumber.ofInt?_eq_none_iff n).mpr (by omega)]
    rfl

theorem not_isDigit_of_mem_marks {mark : Char} {radix : Nat} (h : (mark, radix) ∈ marks) :
    mark.isDigit = false := by
  simp only [marks, List.mem_cons, Prod.mk.injEq, List.not_mem_nil, or_false] at h
  rcases h with ⟨rfl, -⟩ | ⟨rfl, -⟩ | ⟨rfl, -⟩ | ⟨rfl, -⟩ | ⟨rfl, -⟩ | ⟨rfl, -⟩ <;> rfl

theorem Literal.not_hasLeadingZero {text : List Char} {denoted : Denoted}
    (h : Literal text denoted) : hasLeadingZero text = false := by
  cases h with
  | plain h hne => simpa using (unmarked h .none .none (by simpa using hne)).2
  | marked hmark => exact not_isDigit_of_mem_marks hmark
  | decimal hwhole hfraction hexponent hdigits =>
    exact (unmarked hwhole hfraction hexponent hdigits).2

theorem floatOf?_eq {text : List Char} {d : Decimal} (h : Decimal.ofText? text = some d) :
    floatOf? text = (nearest? d).map .float := by
  rw [floatOf?, Decimal.finiteOfText?, h]
  rfl

end Unmarked

section Readings

variable {text : List Char} {denoted : Denoted}

theorem Literal.decimalOfText? (h : Literal text denoted) (hplain : '_' ∉ text) :
    ∀ d ∈ denoted.decimal?, Decimal.ofText? text = some d := by
  have hparts : ∀ {whole fraction exponent : List Char} {digits places : List Nat} {e : Int},
      text = whole ++ (fraction ++ exponent) → Whole whole digits → Fraction fraction places →
        Exponent exponent e → digits ++ places ≠ [] → Decimal.ofText? text =
          some ⟨false, placeValue 10 (digits ++ places), e - places.length⟩ := by
    rintro whole fraction exponent digits places e rfl hwhole hfraction hexponent hdigits
    obtain ⟨first, more, htext, hstarts, -⟩ :=
      @exists_head _ _ _ [] _ _ _ hwhole hfraction hexponent hdigits (by simp)
    refine (decimalOfText?_eq_some_iff hplain ?_).mpr ⟨whole, digits, fraction, places, exponent, e,
      rfl, hwhole.digitsOf fun hmem => hplain (by simp [hmem]), hfraction, hexponent, hdigits, rfl⟩
    intro c hc
    rw [htext] at hc
    cases hc
    constructor <;> (rintro rfl; simp [Lexeme.startsNumeral] at hstarts)
  intro d hd
  cases h with
  | plain hwhole hne =>
    cases hd
    simpa using hparts (by simp) hwhole .none .none (by simpa using hne)
  | marked => cases hd
  | decimal hwhole hfraction hexponent hdigits =>
    cases hd
    exact hparts rfl hwhole hfraction hexponent hdigits

theorem isDecimalChar_of_isDigit {c : Char} (h : c.isDigit = true) : isDecimalChar c = true := by
  simp [isDecimalChar, h]

theorem isDecimalChar_of_letter {letter : Char} (h : letter ∈ ['e', 'E']) :
    isDecimalChar letter = true := by
  have hletter : letter = 'e' ∨ letter = 'E' := by simpa using h
  rcases hletter with rfl | rfl <;> rfl

theorem Run.isDecimalChar {digits : List Nat} (h : Run 10 text digits) (hplain : '_' ∉ text) :
    ∀ c ∈ text, isDecimalChar c = true := by
  intro c hc
  exact isDecimalChar_of_isDigit ((h.digitsOf hplain).isDigit c hc)

theorem Whole.isDecimalChar {digits : List Nat} (h : Whole text digits) (hplain : '_' ∉ text) :
    ∀ c ∈ text, isDecimalChar c = true := by
  intro c hc
  exact isDecimalChar_of_isDigit ((h.digitsOf hplain).isDigit c hc)

theorem Fraction.isDecimalChar {places : List Nat} (h : Fraction text places)
    (hplain : '_' ∉ text) : ∀ c ∈ text, isDecimalChar c = true := by
  cases h with
  | none => simp
  | point => simp [Numeral.isDecimalChar]
  | digits h =>
    exact List.forall_mem_cons.mpr ⟨rfl, h.isDecimalChar fun hmem => hplain (by simp [hmem])⟩

theorem Exponent.isDecimalChar {e : Int} (h : Exponent text e) (hplain : '_' ∉ text) :
    ∀ c ∈ text, isDecimalChar c = true := by
  cases h with
  | none => simp
  | unsigned hletter h =>
    exact List.forall_mem_cons.mpr ⟨isDecimalChar_of_letter hletter,
      h.isDecimalChar fun hmem => hplain (by simp [hmem])⟩
  | plus hletter h | minus hletter h =>
    exact List.forall_mem_cons.mpr ⟨isDecimalChar_of_letter hletter,
      List.forall_mem_cons.mpr ⟨rfl, h.isDecimalChar fun hmem => hplain (by simp [hmem])⟩⟩

/-- A literal without separators is read as its number. -/
theorem Literal.ofPlain? (h : Literal text denoted) (hplain : '_' ∉ text) :
    ofPlain? text = denoted.number? := by
  have hdecimal := h.decimalOfText? hplain
  cases h with
  | @marked mark radix text digits hmark hrun =>
    have hdigits := hrun.digitsOf fun hmem => hplain (by simp [hmem])
    have hvalue : ofDigits? radix 0 text = some (placeValue radix digits) := by
      rw [ofDigits?_eq_some_iff (radix_le_of_mem_marks hmark)]
      exact ⟨digits, hdigits, placeValue_eq radix digits⟩
    have hempty : text.isEmpty = false := by simpa using hrun.ne_nil.1
    simp [Numeral.ofPlain?, radix?_mark hmark, hempty, hvalue, ofNat?_eq, Denoted.number?]
  | @plain _ digits hwhole hne =>
    have hdigits := hwhole.digitsOf hplain
    obtain ⟨hradix, hzero⟩ := unmarked hwhole .none .none (by simpa using hne)
    have hvalue : Decimal.digitsFrom 0 text = placeValue 10 digits := by
      rw [digitsFrom_eq hdigits, placeValue_eq]
    have hall : text.all Char.isDigit = true := List.all_eq_true.mpr hdigits.isDigit
    simp only [List.append_nil] at hradix hzero
    simp only [Numeral.ofPlain?, hradix, hzero, hall, hvalue, ofNat?_eq,
      floatOf?_eq (hdecimal _ rfl), Denoted.number?, Bool.false_eq_true, if_false, if_true]
    split <;> rfl
  | @decimal whole fraction exponent _ _ _ hwhole hfraction hexponent hdigits hpoint =>
    obtain ⟨hradix, hzero⟩ := unmarked hwhole hfraction hexponent hdigits
    obtain ⟨c, tail, htail⟩ := List.exists_cons_of_ne_nil hpoint
    have hmark : c.isDigit = false := by
      apply not_isDigit_of_head (head_of_fraction hfraction hexponent)
      rw [htail]
      rfl
    have hall : (whole ++ (fraction ++ exponent)).all Char.isDigit = false := by
      simp [htail, hmark]
    have hchars : (whole ++ (fraction ++ exponent)).all isDecimalChar = true := by
      simp only [List.mem_append, not_or] at hplain
      simp only [List.all_append, Bool.and_eq_true, List.all_eq_true]
      exact ⟨hwhole.isDecimalChar hplain.1, hfraction.isDecimalChar hplain.2.1,
        hexponent.isDecimalChar hplain.2.2⟩
    simp only [Numeral.ofPlain?, hradix, hzero, hall, hchars, floatOf?_eq (hdecimal _ rfl),
      Denoted.number?, Bool.false_eq_true, if_false, if_true]

theorem exists_mark {radix : Nat} (h : radix? text = some radix) :
    ∃ mark rest, text = '0' :: mark :: rest ∧ (mark, radix) ∈ marks := by
  unfold radix? at h
  split at h
  case h_7 => cases h
  all_goals
    cases h
    exact ⟨_, _, rfl, by decide⟩

theorem whole_of_digitsOf {digits : List Nat} (h : DigitsOf 10 text digits)
    (hzero : hasLeadingZero text = false) : Whole text digits := by
  cases h with
  | nil => exact .none
  | @cons c d rest digits hd hrest =>
    by_cases hc : c = '0'
    · subst hc
      cases hrest with
      | nil =>
        obtain rfl : 0 = d := hd.isDigit.2
        exact .zero
      | cons hnext =>
        rw [hasLeadingZero, hnext.isDigit.1] at hzero
        cases hzero
    · refine .digits (.of_digitsOf (.cons hd hrest) (List.cons_ne_nil _ _)) ?_
      rintro ⟨⟩
      exact hc rfl

theorem hasLeadingZero_of_append {text more : List Char}
    (h : hasLeadingZero (text ++ more) = false) : hasLeadingZero text = false := by
  unfold hasLeadingZero
  split
  · exact h
  · rfl

/-- What is read as a number without separators is a literal. -/
theorem exists_literal {n : Number} (hplain : '_' ∉ text)
    (hstart : ∃ c ∈ text.head?, c.isDigit = true ∨ c = '.') (h : ofPlain? text = some n) :
    ∃ denoted, Literal text denoted := by
  obtain ⟨first, hfirst, hchar⟩ := hstart
  have hne : text ≠ [] := by
    rintro rfl
    cases hfirst
  unfold ofPlain? at h
  split at h
  · next radix hradix =>
    obtain ⟨mark, rest, rfl, hmark⟩ := exists_mark hradix
    simp only [List.drop_succ_cons, List.drop_zero, Option.ite_none_left_eq_some,
      List.isEmpty_iff, Option.bind_eq_some_iff] at h
    obtain ⟨hrest, value, hvalue, -⟩ := h
    obtain ⟨digits, hdigits, -⟩ :=
      (ofDigits?_eq_some_iff (radix_le_of_mem_marks hmark)).mp hvalue
    exact ⟨_, .marked hmark (.of_digitsOf hdigits hrest)⟩
  · rw [Option.ite_none_left_eq_some, Bool.not_eq_true] at h
    obtain ⟨hzero, h⟩ := h
    split at h
    · next hall =>
      obtain ⟨digits, hdigits⟩ := exists_digitsOf (List.all_eq_true.mp hall)
      refine ⟨_, .plain (whole_of_digitsOf hdigits hzero) ?_⟩
      rwa [Ne, ← hdigits.eq_nil_iff]
    · next hall =>
      rw [Option.ite_none_right_eq_some, floatOf?, Decimal.finiteOfText?,
        Option.map_eq_some_iff] at h
      obtain ⟨-, x, hx, -⟩ := h
      obtain ⟨d, hd, -⟩ := Option.bind_eq_some_iff.mp hx
      have hsign : ∀ c ∈ text.head?, c ≠ '-' ∧ c ≠ '+' := by
        intro c hc
        obtain rfl := Option.mem_unique hfirst hc
        constructor <;> (rintro rfl; simp at hchar)
      obtain ⟨whole, digits, fraction, places, exponent, e, rfl, hdigits, hfraction, hexponent,
        hsome, -⟩ := (decimalOfText?_eq_some_iff hplain hsign).mp hd
      have hwhole := whole_of_digitsOf hdigits (hasLeadingZero_of_append hzero)
      refine ⟨_, .decimal hwhole hfraction hexponent hsome ?_⟩
      intro hempty
      rw [hempty, List.append_nil] at hall
      exact hall (List.all_eq_true.mpr hdigits.isDigit)

end Readings

end SiteConfig.ConfigModule.Numeral

import SiteConfig.Proofs.Separators
/-!
# Numerals as tokens

A literal in front of a text with which no numeral goes on is one token of its number. The texts of
numbers are such literals.
-/
namespace SiteConfig.ConfigModule

open Numeral

section Spans

variable {text rest kept : List Char} {digits : List Nat} {radix : Nat}

/-- The characters that belong to a numeral wherever they stand. -/
def IsInner (c : Char) : Prop := c.isAlphanum = true ∨ c = '.' ∨ c = '_'

theorem goesOn_of_isInner {c : Char} (h : IsInner c) (marked : Bool) (last : Char) :
    goesOn marked last c = true := by
  rcases h with h | rfl | rfl
  · simp [goesOn, h]
  · simp [goesOn]
  · simp [goesOn]

theorem spans_append {marked : Bool} (htext : ∀ c ∈ text, IsInner c)
    (hrest : ∀ last, Spans (goesOn marked) last kept rest) (last : Char) :
    Spans (goesOn marked) last (text ++ kept) rest := by
  induction text generalizing last with
  | nil => exact hrest last
  | cons c text ih =>
    obtain ⟨hc, htext⟩ := List.forall_mem_cons.mp htext
    exact .next (goesOn_of_isInner hc marked last) (ih htext c)

theorem Numeral.Run.isInner (hradix : radix ≤ 16) (h : Run radix text digits) :
    ∀ c ∈ text, IsInner c := by
  induction h with
  | last hd => exact List.forall_mem_cons.mpr ⟨.inl (hd.isAlphanum hradix), by simp⟩
  | cons hd _ ih => exact List.forall_mem_cons.mpr ⟨.inl (hd.isAlphanum hradix), ih⟩
  | apart hd _ ih =>
    exact List.forall_mem_cons.mpr ⟨.inl (hd.isAlphanum hradix),
      List.forall_mem_cons.mpr ⟨.inr (.inr rfl), ih⟩⟩

theorem Numeral.Whole.isInner (h : Whole text digits) : ∀ c ∈ text, IsInner c := by
  cases h with
  | none => simp
  | zero => exact List.forall_mem_cons.mpr ⟨.inl rfl, by simp⟩
  | digits h => exact h.isInner (by decide)

theorem Numeral.Fraction.isInner (h : Fraction text digits) : ∀ c ∈ text, IsInner c := by
  cases h with
  | none => simp
  | point => exact List.forall_mem_cons.mpr ⟨.inr (.inl rfl), by simp⟩
  | digits h => exact List.forall_mem_cons.mpr ⟨.inr (.inl rfl), h.isInner (by decide)⟩

def Ends (rest : List Char) : Prop := ∀ c ∈ rest.head?, endsToken c = true

theorem spans_ends (h : Ends rest) (marked : Bool) (last : Char) :
    Spans (goesOn marked) last [] rest :=
  .stop fun c hc => goesOn_of_endsToken marked last c (h c hc)

theorem Numeral.Exponent.spans {e : Int} (h : Exponent text e) (hrest : Ends rest) (last : Char) :
    Spans (goesOn false) last text rest := by
  have hrun : ∀ {text digits}, Run 10 text digits → ∀ last,
      Spans (goesOn false) last text rest := by
    intro text digits h last
    simpa using spans_append (h.isInner (by decide)) (spans_ends hrest false) last
  have hletter : ∀ {letter}, letter ∈ ['e', 'E'] → goesOn false last letter = true := by
    intro letter hletter
    have hletter : letter = 'e' ∨ letter = 'E' := by simpa using hletter
    rcases hletter with rfl | rfl <;> exact goesOn_of_isInner (.inl rfl) false last
  have hsign : ∀ {letter}, letter ∈ ['e', 'E'] →
      goesOn false letter '+' = true ∧ goesOn false letter '-' = true := by
    intro letter hletter
    have hletter : letter = 'e' ∨ letter = 'E' := by simpa using hletter
    rcases hletter with rfl | rfl <;> exact ⟨rfl, rfl⟩
  cases h with
  | none => exact spans_ends hrest false last
  | unsigned h hdigits => exact .next (hletter h) (hrun hdigits _)
  | plus h hdigits => exact .next (hletter h) (.next (hsign h).1 (hrun hdigits _))
  | minus h hdigits => exact .next (hletter h) (.next (hsign h).2 (hrun hdigits _))

theorem spans_tail {marked : Bool} {last first : Char} {tail : List Char}
    (h : Spans (goesOn marked) last (first :: tail) rest) :
    Spans (goesOn marked) first tail rest := by
  cases h with
  | next _ more => exact more

/-- A literal starts as a numeral, which is spanned up to where no numeral goes on. -/
theorem Numeral.Literal.exists_spans {denoted : Denoted} (h : Literal text denoted)
    (hrest : Ends rest) : ∃ first tail, text = first :: tail ∧
      Lexeme.startsNumeral first (tail ++ rest) = true ∧
      Spans (goesOn (radix? (first :: (tail ++ rest))).isSome) first tail rest := by
  have hends : ∀ c ∈ rest.head?, c.isAlphanum = false := fun c hc =>
    isAlphanum_of_endsToken (hrest c hc)
  have hunmarked : ∀ {whole fraction exponent : List Char} {digits places : List Nat} {e : Int},
      text = whole ++ (fraction ++ exponent) → Whole whole digits → Fraction fraction places →
        Exponent exponent e → digits ++ places ≠ [] → ∃ first tail, text = first :: tail ∧
          Lexeme.startsNumeral first (tail ++ rest) = true ∧
          Spans (goesOn (radix? (first :: (tail ++ rest))).isSome) first tail rest := by
    rintro whole fraction exponent digits places e rfl hwhole hfraction hexponent hdigits
    obtain ⟨first, tail, htext, hstarts, hmore⟩ :=
      exists_head hwhole hfraction hexponent hdigits hends
    have hradix : radix? (first :: (tail ++ rest)) = none :=
      radix?_eq_none_of_not_mem fun hzero c hc => (hmore hzero c hc).2
    have hspans := spans_append hwhole.isInner
      (spans_append hfraction.isInner (hexponent.spans hrest)) first
    rw [htext] at hspans
    refine ⟨first, tail, htext, hstarts, ?_⟩
    rw [hradix]
    exact spans_tail hspans
  cases h with
  | plain h hne => exact hunmarked (by simp) h .none .none (by simpa using hne)
  | @marked mark _ text _ hmark h =>
    have hinner : ∀ c ∈ '0' :: mark :: text, IsInner c :=
      List.forall_mem_cons.mpr ⟨.inl rfl, List.forall_mem_cons.mpr
        ⟨.inl (isAlphanum_of_mem_marks hmark), h.isInner (radix_le_of_mem_marks hmark)⟩⟩
    have hspans : ∀ marked, Spans (goesOn marked) '0' ('0' :: mark :: text) rest := by
      intro marked
      simpa using spans_append hinner (spans_ends hrest marked) '0'
    exact ⟨'0', _, rfl, rfl, spans_tail (hspans _)⟩
  | decimal hwhole hfraction hexponent hdigits =>
    exact hunmarked rfl hwhole hfraction hexponent hdigits

end Spans

section Tokens

variable {text rest : List Char} {denoted : Denoted}

theorem skip_numeral {first : Char} {more : List Char}
    (h : Lexeme.startsNumeral first more = true) (place : Place) :
    Lexeme.isQuote first = false ∧
      Gap.between.skip ⟨first :: more, place⟩ = some ⟨first :: more, place⟩ := by
  have hchar : first.isDigit = true ∨ first = '.' := by
    simp only [Lexeme.startsNumeral, Bool.or_eq_true, Bool.and_eq_true, beq_iff_eq] at h
    exact h.imp_right And.left
  rcases hchar with hdigit | rfl
  · have hne : ∀ c : Char, c.isDigit = false → first ≠ c := by
      rintro c hc rfl
      rw [hdigit] at hc
      cases hc
    have hblank := isBlank_of_isAlphanum (by simp [Char.isAlphanum, hdigit] : first.isAlphanum)
    refine ⟨by simp [Lexeme.isQuote, hne '"' rfl, hne '\'' rfl, hne '`' rfl], ?_⟩
    exact skip_between hblank (hne '/' rfl) more place
  · exact ⟨rfl, skip_between (by decide +kernel) (by decide) more place⟩

/-- A literal is one token of its number, or it is refused where no number is in range. -/
theorem Numeral.Literal.lexemesFrom (h : Literal text denoted) (hrest : Ends rest)
    (place : Place) : ConfigModule.lexemesFrom ⟨text ++ rest, place⟩ =
      match denoted.number? with
      | some n => (ConfigModule.lexemesFrom ⟨rest, place.after text⟩).map
          (Prod.map (⟨.number n, place⟩ :: ·) id)
      | none => .error (.malformed place.position (.invalidNumber (String.ofList text))) := by
  obtain ⟨first, tail, rfl, hstarts, hspans⟩ := h.exists_spans hrest
  obtain ⟨hquote, hskip⟩ := skip_numeral hstarts place
  rw [lexemesFrom_eq, List.cons_append, hskip]
  simp only [Lexeme.readToken, hquote, hstarts, Numeral.read, hspans.span, h.ofText?, if_true,
    Bool.false_eq_true, if_false]
  cases denoted.number? <;> rfl

end Tokens

section Texts

open Decimal

variable {rest : List Char}

/-- The number that parts spell: an integer, if they are digits only and a word holds it. -/
def numberOfParts? (parts : Parts) : Option Number :=
  if parts.fraction = [] ∧ parts.exponent = none then
    (ofNat? (digitsFrom 0 parts.whole)).or (floatOf? parts.text)
  else floatOf? parts.text

private theorem text_of_whole {parts : Parts} (hfraction : parts.fraction = [])
    (hexponent : parts.exponent = none) : parts.text = parts.whole := by
  simp [Parts.text, hfraction, hexponent, Parts.exponentText]

theorem exists_run_toDigits (n : Nat) :
    ∃ digits, Run 10 (Nat.toDigits 10 n) digits ∧ placeValue 10 digits = n := by
  have hall : ∀ c ∈ Nat.toDigits 10 n, c.isDigit = true := fun c hc => isDigit_of_mem_toDigits hc
  obtain ⟨digits, hdigits⟩ := exists_digitsOf hall
  refine ⟨digits, .of_digitsOf hdigits Nat.toDigits_ne_nil, ?_⟩
  rw [placeValue_eq, ← digitsFrom_eq hdigits, digitsFrom_toDigits]

theorem exponent_exponentText (exponent : Option Int) :
    Exponent (Parts.exponentText exponent) (exponent.getD 0) := by
  cases exponent with
  | none => exact .none
  | some e =>
    obtain ⟨digits, hrun, hvalue⟩ := exists_run_toDigits e.natAbs
    rw [Parts.exponentText, Option.getD_some]
    split
    · have he : e = -(placeValue 10 digits : Int) := by omega
      rw [he] at hrun ⊢
      exact .minus (by decide) hrun
    · have he : e = (placeValue 10 digits : Int) := by omega
      rw [he] at hrun ⊢
      exact .plus (by decide) hrun

theorem not_mem_text {parts : Parts} (h : parts.Proper) : '_' ∉ parts.text :=
  fun hmem => absurd (h.isDigit_or_mark '_' hmem) (by decide)

theorem whole_of_parts {parts : Parts} {digits : List Nat} (h : parts.Proper)
    (hdigits : DigitsOf 10 parts.whole digits) : Whole parts.whole digits := by
  apply whole_of_digitsOf hdigits
  rcases h.leading with hzero | ⟨c, rest, hrest, hc⟩
  · rw [hzero]
    rfl
  · rw [hrest]
    exact hasLeadingZero_eq_false_of_head fun hzero => absurd hzero hc

theorem fraction_of_digitsOf {text : List Char} {places : List Nat}
    (hplaces : DigitsOf 10 text places) :
    Fraction (if text = [] then [] else '.' :: text) places := by
  split
  · next hempty =>
    rw [hempty] at hplaces
    cases hplaces
    exact .none
  · next hsome => exact .digits (.of_digitsOf hplaces hsome)

theorem marks_ne_nil {parts : Parts} (h : ¬(parts.fraction = [] ∧ parts.exponent = none)) :
    (if parts.fraction = [] then [] else '.' :: parts.fraction) ++
      Parts.exponentText parts.exponent ≠ [] := by
  intro hempty
  obtain ⟨hfraction, hexponent⟩ := List.append_eq_nil_iff.mp hempty
  apply h
  constructor
  · by_contra hsome
    simp [hsome] at hfraction
  · cases hparts : parts.exponent with
    | none => rfl
    | some e => simp [hparts, Parts.exponentText] at hexponent

/-- The text of proper parts is a literal of the number that they spell. -/
theorem exists_literal_of_parts {parts : Parts} (h : parts.Proper) :
    ∃ denoted, Literal parts.text denoted ∧ denoted.number? = numberOfParts? parts := by
  have hplain := not_mem_text h
  obtain ⟨digits, hdigits⟩ := exists_digitsOf h.whole_digits
  obtain ⟨places, hplaces⟩ := exists_digitsOf h.fraction_digits
  have hwhole := whole_of_parts h hdigits
  have hne : digits ≠ [] := by
    rw [Ne, ← hdigits.eq_nil_iff]
    exact h.whole_ne_nil
  have hexponent := exponent_exponentText parts.exponent
  by_cases hinteger : parts.fraction = [] ∧ parts.exponent = none
  · have htext := text_of_whole hinteger.1 hinteger.2
    have hliteral : Literal parts.text (.plain (placeValue 10 digits)) := htext ▸ .plain hwhole hne
    refine ⟨_, hliteral, ?_⟩
    have hvalue : digitsFrom 0 parts.whole = placeValue 10 digits := by
      rw [digitsFrom_eq hdigits, placeValue_eq]
    rw [numberOfParts?, if_pos hinteger, hvalue, ofNat?_eq,
      floatOf?_eq (hliteral.decimalOfText? hplain _ rfl), Denoted.number?]
    split <;> rfl
  · have hliteral : Literal parts.text (.decimal (placeValue 10 (digits ++ places))
        (parts.exponent.getD 0 - places.length)) :=
      .decimal hwhole (fraction_of_digitsOf hplaces) hexponent (by simp [hne])
        (marks_ne_nil hinteger)
    refine ⟨_, hliteral, ?_⟩
    rw [numberOfParts?, if_neg hinteger, floatOf?_eq (hliteral.decimalOfText? hplain _ rfl)]
    rfl

theorem tokensOf_parts {parts : Parts} {n : Number} {more : List Token} (h : parts.Proper)
    (hn : numberOfParts? parts = some n) (hrest : Delimited rest)
    (hafter : tokensOf rest = some more) :
    tokensOf (parts.text ++ rest) = some (.number n :: more) := by
  obtain ⟨denoted, hliteral, hnumber⟩ := exists_literal_of_parts h
  have hlexemes := hliteral.lexemesFrom hrest.endsToken .start
  rw [hnumber, hn] at hlexemes
  have htokens := tokensFrom_of_map hlexemes
  rw [hafter] at htokens
  exact htokens

theorem tokensOf_digits {n : WholeNumber} {more : List Token} (hn : 0 ≤ n.val)
    (hrest : Delimited rest) (hafter : tokensOf rest = some more) :
    tokensOf (Nat.toDigits 10 n.val.natAbs ++ rest) = some (.number (.integer n) :: more) := by
  have hparts := Parts.proper_toDigits n.val.natAbs
  have hnumber : numberOfParts? ⟨Nat.toDigits 10 n.val.natAbs, [], none⟩ = some (.integer n) := by
    have hword : WholeNumber.ofInt? (n.val.natAbs : Int) = some n := by
      rw [WholeNumber.ofInt?_eq_some_iff]
      omega
    generalize n.val.natAbs = digits at hword ⊢
    simp [numberOfParts?, ofNat?, digitsFrom_toDigits, hword]
  have htokens := tokensOf_parts hparts hnumber hrest hafter
  rwa [text_of_whole rfl rfl] at htokens

theorem tokensOf_unsignedText (layout : Layout) (hkeeps : layout.keepsFraction = true)
    (x : Binary64.Finite) {more : List Token} (hrest : Delimited rest)
    (hafter : tokensOf rest = some more) :
    tokensOf (layout.unsignedText (shortest layout.tie x) ++ rest) =
      some (.number (.float x.abs) :: more) := by
  obtain ⟨parts, hparts⟩ := exists_setOut layout (shortest layout.tie x)
  have hnumber : numberOfParts? parts = some (.float x.abs) := by
    have hmarked : ¬(parts.fraction = [] ∧ parts.exponent = none) :=
      fun hwhole => hparts.marked hkeeps hwhole.1 hwhole.2
    simp [numberOfParts?, hmarked, floatOf?, finiteOfText?_text hparts]
  rw [hparts.text_eq]
  exact tokensOf_parts hparts.proper hnumber hrest hafter

end Texts

end SiteConfig.ConfigModule

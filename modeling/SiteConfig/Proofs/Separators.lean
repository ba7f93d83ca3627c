import SiteConfig.Proofs.NumeralGrammar
import SiteConfig.Proofs.Spacing
/-!
# Separators in numerals

Where separators may stand. The reading of a numeral asks less than the grammar does: no separator
stands at an end of the numeral or next to another one. What is read is a literal once the
separators are taken out, and it is one as it stands exactly if each of them has a digit on both
sides.
-/
namespace SiteConfig.ConfigModule

namespace Numeral

/-- Each separator stands between two characters with a property. -/
def Separated (p : Char → Prop) (text : List Char) : Prop :=
  ∀ before behind, text = before ++ '_' :: behind →
    (∃ c ∈ before.getLast?, p c) ∧ ∃ c ∈ behind.head?, p c

def IsDigit (radix : Nat) (c : Char) : Prop := ∃ d, DigitOf radix c d

/-- The radix of a numeral, ten if none is marked. -/
def radixOf (text : List Char) : Nat := (radix? text).getD 10

section Placement

variable {p : Char → Prop} {text u v : List Char}

theorem Separated.imp {q : Char → Prop} (h : Separated p text) (himp : ∀ c, p c → q c) :
    Separated q text := by
  intro before behind htext
  obtain ⟨⟨c, hc, hpc⟩, d, hd, hpd⟩ := h before behind htext
  exact ⟨⟨c, hc, himp c hpc⟩, d, hd, himp d hpd⟩

theorem separated_of_not_mem (h : '_' ∉ text) : Separated p text := by
  rintro before behind rfl
  simp at h

theorem Separated.append (hu : Separated p u) (hv : Separated p v) : Separated p (u ++ v) := by
  intro before behind heq
  rcases List.append_eq_append_iff.mp heq with ⟨rest, rfl, hrest⟩ | ⟨rest, rfl, hrest⟩
  · obtain ⟨⟨c, hc, hpc⟩, hbehind⟩ := hv rest behind hrest
    refine ⟨⟨c, ?_, hpc⟩, hbehind⟩
    rw [List.getLast?_append, Option.mem_def.mp hc]
    rfl
  · cases rest with
    | nil =>
      obtain ⟨⟨c, hc, -⟩, -⟩ := hv [] behind hrest.symm
      cases hc
    | cons first rest =>
      obtain ⟨rfl, hbehind⟩ := List.cons.inj hrest
      obtain ⟨hbefore, c, hc, hpc⟩ := hu before rest rfl
      refine ⟨hbefore, c, ?_, hpc⟩
      rw [hbehind]
      exact List.mem_head?_append_of_mem_head? hc

theorem Separated.front (h : Separated p (u ++ v)) (hlast : '_' ∉ u.getLast?) : Separated p u := by
  rintro before behind rfl
  obtain ⟨hbefore, c, hc, hpc⟩ := h before (behind ++ v) (by simp)
  refine ⟨hbefore, c, ?_, hpc⟩
  cases behind with
  | nil => simp at hlast
  | cons => exact hc

theorem Separated.back (h : Separated p (u ++ v)) (hhead : '_' ∉ v.head?) : Separated p v := by
  rintro before behind rfl
  obtain ⟨⟨c, hc, hpc⟩, hbehind⟩ := h (u ++ before) behind (by simp)
  refine ⟨⟨c, ?_, hpc⟩, hbehind⟩
  cases before with
  | nil => simp at hhead
  | cons =>
    rw [List.getLast?_append, Option.mem_def, Option.or_eq_some_iff] at hc
    rcases hc with hc | ⟨hnone, -⟩
    · exact hc
    · simp at hnone

theorem Separated.head (h : Separated p text) : '_' ∉ text.head? := by
  intro hmem
  obtain ⟨rest, rfl⟩ := List.head?_eq_some_iff.mp hmem
  obtain ⟨⟨c, hc, -⟩, -⟩ := h [] rest rfl
  cases hc

theorem Separated.eq_nil (h : Separated p text) (hnil : unseparated text = []) : text = [] := by
  cases text with
  | nil => rfl
  | cons c text =>
    have hc : c ≠ '_' := by
      rintro rfl
      exact h.head rfl
    rw [unseparated_cons hc] at hnil
    cases hnil

theorem hasDoubleSeparator_iff :
    hasDoubleSeparator text = true ↔ ∃ before behind, text = before ++ '_' :: '_' :: behind := by
  fun_induction hasDoubleSeparator text with
  | case1 rest => simpa using ⟨[], rest, rfl⟩
  | case2 c rest hdouble ih =>
    rw [ih]
    constructor
    · rintro ⟨before, behind, rfl⟩
      exact ⟨c :: before, behind, rfl⟩
    · rintro ⟨before, behind, heq⟩
      cases before with
      | nil =>
        obtain ⟨rfl, rfl⟩ := List.cons.inj heq
        exact absurd rfl (hdouble behind rfl)
      | cons d before =>
        obtain ⟨rfl, rfl⟩ := List.cons.inj heq
        exact ⟨before, behind, rfl⟩
  | case3 => simp

theorem isMisplaced_eq_false_iff : isMisplaced text = false ↔ Separated (· ≠ '_') text := by
  simp only [isMisplaced, Bool.or_eq_false_iff, beq_eq_false_iff_ne]
  rw [← Bool.not_eq_true, hasDoubleSeparator_iff]
  constructor
  · rintro ⟨⟨hhead, hlast⟩, hdouble⟩ before behind rfl
    constructor
    · rcases List.eq_nil_or_concat before with rfl | ⟨front, c, rfl⟩
      · exact absurd rfl hhead
      · refine ⟨c, by simp, ?_⟩
        rintro rfl
        exact hdouble ⟨front, behind, by simp⟩
    · cases behind with
      | nil => simp at hlast
      | cons c behind =>
        refine ⟨c, rfl, ?_⟩
        rintro rfl
        exact hdouble ⟨before, behind, rfl⟩
  · intro h
    refine ⟨⟨h.head, ?_⟩, ?_⟩
    · intro hlast
      obtain ⟨before, rfl⟩ := List.getLast?_eq_some_iff.mp hlast
      obtain ⟨-, c, hc, -⟩ := h before [] rfl
      cases hc
    · rintro ⟨before, behind, rfl⟩
      obtain ⟨-, c, hc, hne⟩ := h before ('_' :: behind) rfl
      cases hc
      exact hne rfl

end Placement

section Literals

variable {radix : Nat} {text : List Char} {digits : List Nat}

theorem IsDigit.ne_separator {c : Char} (hradix : radix ≤ 16) (h : IsDigit radix c) : c ≠ '_' :=
  DigitOf.ne_separator hradix h.choose_spec

theorem Run.separated (hradix : radix ≤ 16) (h : Run radix text digits) :
    Separated (IsDigit radix) text := by
  have hdigit : ∀ {c : Char} {d : Nat}, DigitOf radix c d → Separated (IsDigit radix) [c] :=
    fun h => separated_of_not_mem (by simpa using (DigitOf.ne_separator hradix h).symm)
  induction h with
  | last h => exact hdigit h
  | cons h _ ih => exact (hdigit h).append ih
  | @apart c d text _ h hrest ih =>
    intro before behind heq
    rcases before with _ | ⟨first, _ | ⟨second, before⟩⟩
    · exact absurd (List.cons.inj heq).1 (DigitOf.ne_separator hradix h)
    · simp only [List.cons_append, List.nil_append, List.cons.injEq, true_and] at heq
      obtain ⟨rfl, rfl⟩ := heq
      obtain ⟨c', rest, rfl, hc'⟩ := hrest.exists_head
      exact ⟨⟨c, rfl, d, h⟩, c', rfl, hc'⟩
    · simp only [List.cons_append, List.cons.injEq] at heq
      obtain ⟨-, -, rfl⟩ := heq
      obtain ⟨⟨c', hc', hdigit'⟩, hbehind⟩ := ih before behind rfl
      refine ⟨⟨c', ?_, hdigit'⟩, hbehind⟩
      rw [List.getLast?_cons, List.getLast?_cons, Option.mem_def.mp hc']
      rfl

theorem Whole.separated (h : Whole text digits) : Separated (IsDigit 10) text := by
  cases h with
  | none => exact separated_of_not_mem (by simp)
  | zero => exact separated_of_not_mem (by simp)
  | digits h => exact h.separated (by decide)

theorem Fraction.separated (h : Fraction text digits) : Separated (IsDigit 10) text := by
  have hpoint : Separated (IsDigit 10) ['.'] := separated_of_not_mem (by simp)
  cases h with
  | none => exact separated_of_not_mem (by simp)
  | point => exact hpoint
  | digits h => exact hpoint.append (h.separated (by decide))

theorem Exponent.separated {e : Int} (h : Exponent text e) : Separated (IsDigit 10) text := by
  have hletters : ∀ {letter : Char}, letter ∈ ['e', 'E'] → Separated (IsDigit 10) [letter] :=
    fun h => separated_of_not_mem (by simpa using (ne_separator_of_letter h).symm)
  cases h with
  | none => exact separated_of_not_mem (by simp)
  | unsigned hletter h => exact (hletters hletter).append (h.separated (by decide))
  | plus hletter h =>
    have hsign : Separated (IsDigit 10) ['+'] := separated_of_not_mem (by simp)
    exact (hletters hletter).append (hsign.append (h.separated (by decide)))
  | minus hletter h =>
    have hsign : Separated (IsDigit 10) ['-'] := separated_of_not_mem (by simp)
    exact (hletters hletter).append (hsign.append (h.separated (by decide)))

theorem radixOf_mark {mark : Char} (h : (mark, radix) ∈ marks) (text : List Char) :
    radixOf ('0' :: mark :: text) = radix := by
  rw [radixOf, radix?_mark h, Option.getD_some]

theorem radixOf_le (text : List Char) : radixOf text ≤ 16 := by
  unfold radixOf radix?
  split <;> decide

theorem radixOf_unmarked {whole fraction exponent : List Char} {places : List Nat} {e : Int}
    (hwhole : Whole whole digits) (hfraction : Fraction fraction places)
    (hexponent : Exponent exponent e) (hdigits : digits ++ places ≠ []) :
    radixOf (whole ++ (fraction ++ exponent)) = 10 := by
  rw [radixOf, (unmarked hwhole hfraction hexponent hdigits).1, Option.getD_none]

theorem radixOf_whole (h : Whole text digits) (hne : digits ≠ []) : radixOf text = 10 := by
  simpa using radixOf_unmarked h .none .none (by simpa using hne)

/-- In a literal each separator stands between two digits of its radix. -/
theorem Literal.separated {denoted : Denoted} (h : Literal text denoted) :
    Separated (IsDigit (radixOf text)) text := by
  cases h with
  | plain h hne =>
    rw [radixOf_whole h hne]
    exact h.separated
  | @marked mark radix text _ hmark h =>
    have hle := radix_le_of_mem_marks hmark
    have hprefix : Separated (IsDigit radix) ['0', mark] := by
      apply separated_of_not_mem
      simpa using (ne_separator_of_mem_marks hmark).symm
    rw [radixOf_mark hmark]
    exact hprefix.append (h.separated hle)
  | decimal hwhole hfraction hexponent hdigits =>
    rw [radixOf_unmarked hwhole hfraction hexponent hdigits]
    exact hwhole.separated.append (hfraction.separated.append hexponent.separated)

theorem Literal.radixOf_unseparated {denoted : Denoted} (h : Literal text denoted) :
    radixOf text = radixOf (unseparated text) := by
  cases h with
  | plain h hne => rw [radixOf_whole h hne, radixOf_whole h.stripped hne]
  | marked hmark h =>
    rw [unseparated_cons (by decide), unseparated_cons (ne_separator_of_mem_marks hmark),
      radixOf_mark hmark, radixOf_mark hmark]
  | decimal hwhole hfraction hexponent hdigits =>
    rw [unseparated_append, unseparated_append, radixOf_unmarked hwhole hfraction hexponent hdigits,
      radixOf_unmarked hwhole.stripped hfraction.stripped hexponent.stripped hdigits]

theorem ofText?_eq (hplaced : Separated (· ≠ '_') text) :
    ofText? text = ofPlain? (unseparated text) := by
  rw [ofText?, isMisplaced_eq_false_iff.mpr hplaced]
  rfl

theorem Literal.ofText? {denoted : Denoted} (h : Literal text denoted) :
    ofText? text = denoted.number? := by
  have hplaced := h.separated.imp fun c hc => hc.ne_separator (radixOf_le text)
  rw [ofText?_eq hplaced, h.stripped.ofPlain? (not_mem_unseparated text)]

/-- What is read as a number: a literal with separators put between any two of its characters. -/
theorem ofText?_eq_some_iff {n : Number} (hstart : ∃ c ∈ text.head?, c.isDigit = true ∨ c = '.') :
    Numeral.ofText? text = some n ↔ Separated (· ≠ '_') text ∧
      ∃ denoted, Literal (unseparated text) denoted ∧ denoted.number? = some n := by
  obtain ⟨c, hc, hchar⟩ := hstart
  have hne : c ≠ '_' := by
    rintro rfl
    simp at hchar
  have hstart : ∃ c ∈ (unseparated text).head?, c.isDigit = true ∨ c = '.' := by
    obtain ⟨rest, rfl⟩ := List.head?_eq_some_iff.mp hc
    rw [unseparated_cons hne]
    exact ⟨c, rfl, hchar⟩
  constructor
  · intro h
    have hplaced : Separated (· ≠ '_') text := by
      rw [← isMisplaced_eq_false_iff, ← Bool.not_eq_true]
      intro hmisplaced
      rw [Numeral.ofText?, if_pos hmisplaced] at h
      cases h
    rw [ofText?_eq hplaced] at h
    obtain ⟨denoted, hliteral⟩ := exists_literal (not_mem_unseparated text) hstart h
    rw [hliteral.ofPlain? (not_mem_unseparated text)] at h
    exact ⟨hplaced, denoted, hliteral, h⟩
  · rintro ⟨hplaced, denoted, hliteral, hn⟩
    rw [ofText?_eq hplaced, hliteral.ofPlain? (not_mem_unseparated text), hn]

end Literals

section Restoring

variable {radix : Nat} {text a b : List Char} {digits : List Nat} {p : Char → Prop}

theorem Separated.exists_split (h : Separated p text) (heq : unseparated text = a ++ b)
    (hb : ∀ c ∈ b.head?, ¬p c) : ∃ u v, text = u ++ v ∧ unseparated u = a ∧ unseparated v = b ∧
      Separated p u ∧ Separated p v := by
  cases b with
  | nil =>
    rw [List.append_nil] at heq
    exact ⟨text, [], by simp, heq, rfl, h, separated_of_not_mem (by simp)⟩
  | cons c b =>
    have hc : ¬p c := hb c rfl
    obtain ⟨u, w, rfl, hu, hw⟩ := List.filter_eq_append_iff.mp heq
    obtain ⟨s, v, rfl, hs, hne, hv⟩ := List.filter_eq_cons_iff.mp hw
    have hlast : '_' ∉ (u ++ s).getLast? := by
      intro hmem
      obtain ⟨before, hbefore⟩ := List.getLast?_eq_some_iff.mp hmem
      obtain ⟨-, d, hd, hpd⟩ := h before (c :: v) (by rw [← List.append_assoc, hbefore]; simp)
      cases hd
      exact hc hpd
    have hhead : '_' ∉ (c :: v).head? := by
      rintro ⟨⟩
      simp at hne
    rw [← List.append_assoc] at h ⊢
    refine ⟨u ++ s, c :: v, rfl, ?_, ?_, h.front hlast, h.back hhead⟩
    · have hnil : unseparated s = [] := List.filter_eq_nil_iff.mpr hs
      rw [unseparated_append, hnil, List.append_nil]
      exact hu
    · rw [unseparated_cons (by simpa using hne)]
      exact congrArg _ hv

theorem Separated.exists_cons {c : Char} (h : Separated p text) (heq : unseparated text = c :: b)
    (hc : ¬p c) : ∃ v, text = c :: v ∧ unseparated v = b ∧ Separated p v := by
  have hne : c ≠ '_' := by
    rintro rfl
    have hmem : '_' ∈ unseparated text := by simp [heq]
    exact not_mem_unseparated text hmem
  cases text with
  | nil => cases heq
  | cons d v =>
    have hd : d ≠ '_' := by
      rintro rfl
      exact h.head rfl
    rw [unseparated_cons hd] at heq
    obtain ⟨rfl, rfl⟩ := List.cons.inj heq
    refine ⟨v, rfl, rfl, ?_⟩
    apply @Separated.back _ [d] v h
    intro hmem
    obtain ⟨rest, rfl⟩ := List.head?_eq_some_iff.mp hmem
    obtain ⟨⟨d', hd', hpd⟩, -⟩ := h [d] rest rfl
    cases hd'
    exact hc hpd

theorem Run.of_separated (hradix : radix ≤ 16) (h : Separated (IsDigit radix) text)
    (hdigits : DigitsOf radix (unseparated text) digits) (hne : text ≠ []) :
    Run radix text digits := by
  induction digits generalizing text with
  | nil => exact absurd (h.eq_nil (hdigits.eq_nil_iff.mpr rfl)) hne
  | cons d digits ih =>
    obtain ⟨c, v, rfl⟩ := List.exists_cons_of_ne_nil hne
    have hc : c ≠ '_' := by
      rintro rfl
      exact h.head rfl
    rw [unseparated_cons hc] at hdigits
    cases hdigits with
    | cons hd hrest =>
      cases v with
      | nil =>
        cases hrest
        exact .last hd
      | cons x w =>
        by_cases hx : x = '_'
        · subst hx
          obtain ⟨-, y, hy, hdigit⟩ := h [c] w rfl
          obtain ⟨w, rfl⟩ := List.head?_eq_some_iff.mp hy
          have hback : Separated (IsDigit radix) (y :: w) := by
            apply @Separated.back _ [c, '_'] _ h
            rintro ⟨⟩
            exact hdigit.ne_separator hradix rfl
          exact .apart hd (ih hback hrest (List.cons_ne_nil _ _))
        · have hback : Separated (IsDigit radix) (x :: w) := by
            apply @Separated.back _ [c] _ h
            rintro ⟨⟩
            exact hx rfl
          exact .cons hd (ih hback hrest (List.cons_ne_nil _ _))

theorem Run.restored (hradix : radix ≤ 16) (h : Separated (IsDigit radix) text)
    (hrun : Run radix (unseparated text) digits) : Run radix text digits := by
  refine .of_separated hradix h (hrun.digitsOf (not_mem_unseparated text)) ?_
  rintro rfl
  exact hrun.ne_nil.1 rfl

theorem Separated.eq_zero (hradix : radix ≤ 16) (hpos : 0 < radix)
    (h : Separated (IsDigit radix) text) (heq : unseparated text = ['0']) : text = ['0'] := by
  have hrun : Run radix text [0] := by
    apply Run.restored hradix h
    rw [heq]
    exact .last ⟨hpos, .inl rfl⟩
  cases hrun with
  | last hc => rwa [unseparated_cons (DigitOf.ne_separator hradix hc)] at heq
  | cons _ hrest | apart _ hrest => exact absurd rfl hrest.ne_nil.2

theorem Whole.of_separated (h : Separated (IsDigit 10) text)
    (hwhole : Whole (unseparated text) digits) : Whole text digits := by
  generalize hplain : unseparated text = plain at hwhole
  cases hwhole with
  | none =>
    rw [h.eq_nil hplain]
    exact .none
  | zero =>
    rw [h.eq_zero (by decide) (by decide) hplain]
    exact .zero
  | digits hrun hzero =>
    subst hplain
    have hrun := hrun.restored (by decide) h
    obtain ⟨c, rest, rfl, hc⟩ := hrun.exists_head
    rw [unseparated_cons (IsDigit.ne_separator (by decide) hc)] at hzero
    exact .digits hrun hzero

theorem IsDigit.isDigit {c : Char} (h : IsDigit 10 c) : c.isDigit = true :=
  h.choose_spec.isDigit.1

theorem not_isDigit_of_letter {letter : Char} (h : letter ∈ ['e', 'E']) : ¬IsDigit 10 letter := by
  intro hdigit
  have hletter : letter = 'e' ∨ letter = 'E' := by simpa using h
  rcases hletter with rfl | rfl <;> exact absurd hdigit.isDigit (by decide)

theorem not_isDigit_of_mark {mark : Char} (h : (mark, radix) ∈ marks) : ¬IsDigit radix mark := by
  rintro ⟨d, hd⟩
  rw [← digit?_eq_some_iff (radix_le_of_mem_marks h)] at hd
  simp only [marks, List.mem_cons, Prod.mk.injEq, List.not_mem_nil, or_false] at h
  rcases h with ⟨rfl, rfl⟩ | ⟨rfl, rfl⟩ | ⟨rfl, rfl⟩ | ⟨rfl, rfl⟩ | ⟨rfl, rfl⟩ | ⟨rfl, rfl⟩ <;>
    cases hd

theorem Fraction.of_separated (h : Separated (IsDigit 10) text)
    (hfraction : Fraction (unseparated text) digits) : Fraction text digits := by
  have hpoint : ¬IsDigit 10 '.' := fun hdigit => absurd hdigit.isDigit (by decide)
  generalize hplain : unseparated text = plain at hfraction
  cases hfraction with
  | none =>
    rw [h.eq_nil hplain]
    exact .none
  | point =>
    obtain ⟨v, rfl, hv, hseparated⟩ := h.exists_cons hplain hpoint
    rw [hseparated.eq_nil hv]
    exact .point
  | digits hrun =>
    obtain ⟨v, rfl, rfl, hseparated⟩ := h.exists_cons hplain hpoint
    exact .digits (hrun.restored (by decide) hseparated)

theorem Exponent.of_separated {e : Int} (h : Separated (IsDigit 10) text)
    (hexponent : Exponent (unseparated text) e) : Exponent text e := by
  have hsign : ∀ sign ∈ ['+', '-'], ¬IsDigit 10 sign := by
    simp only [List.forall_mem_cons, List.not_mem_nil, false_implies, implies_true, and_true]
    exact ⟨fun hdigit => absurd hdigit.isDigit (by decide),
      fun hdigit => absurd hdigit.isDigit (by decide)⟩
  generalize hplain : unseparated text = plain at hexponent
  cases hexponent with
  | none =>
    rw [h.eq_nil hplain]
    exact .none
  | unsigned hletter hrun =>
    obtain ⟨v, rfl, rfl, hseparated⟩ := h.exists_cons hplain (not_isDigit_of_letter hletter)
    exact .unsigned hletter (hrun.restored (by decide) hseparated)
  | plus hletter hrun =>
    obtain ⟨v, rfl, hv, hseparated⟩ := h.exists_cons hplain (not_isDigit_of_letter hletter)
    obtain ⟨w, rfl, rfl, hseparated⟩ := hseparated.exists_cons hv (hsign _ (by simp))
    exact .plus hletter (hrun.restored (by decide) hseparated)
  | minus hletter hrun =>
    obtain ⟨v, rfl, hv, hseparated⟩ := h.exists_cons hplain (not_isDigit_of_letter hletter)
    obtain ⟨w, rfl, rfl, hseparated⟩ := hseparated.exists_cons hv (hsign _ (by simp))
    exact .minus hletter (hrun.restored (by decide) hseparated)

/-- A literal into which separators are put between digits is a literal. -/
theorem Literal.of_separated {denoted : Denoted} (hliteral : Literal (unseparated text) denoted)
    (h : Separated (IsDigit (radixOf (unseparated text))) text) : Literal text denoted := by
  generalize hplain : unseparated text = plain at hliteral h
  cases hliteral with
  | plain hwhole hne =>
    rw [radixOf_whole hwhole hne] at h
    subst hplain
    exact .plain (hwhole.of_separated h) hne
  | @marked mark radix rest _ hmark hrun =>
    rw [radixOf_mark hmark] at h
    have hdigit := not_isDigit_of_mark hmark
    have hmarked : unseparated text = ['0'] ++ mark :: rest := hplain
    obtain ⟨u, v, rfl, hu, hv, hfront, hback⟩ :=
      h.exists_split hmarked (by rintro c ⟨⟩; exact hdigit)
    obtain ⟨w, rfl, rfl, hseparated⟩ := hback.exists_cons hv hdigit
    obtain rfl := hfront.eq_zero (radix_le_of_mem_marks hmark) (radix_pos_of_mem_marks hmark) hu
    exact .marked hmark (hrun.restored (radix_le_of_mem_marks hmark) hseparated)
  | decimal hwhole hfraction hexponent hdigits hpoint =>
    rw [radixOf_unmarked hwhole hfraction hexponent hdigits] at h
    have hhead : ∀ {tail : List Char}, (∀ c ∈ tail.head?, c ∈ ['.', 'e', 'E']) →
        ∀ c ∈ tail.head?, ¬IsDigit 10 c := by
      intro tail htail c hc hdigit
      have hnot := not_isDigit_of_head htail c hc
      rw [hdigit.isDigit] at hnot
      cases hnot
    obtain ⟨u, v, rfl, rfl, hv, hfront, hback⟩ :=
      h.exists_split hplain (hhead (head_of_fraction hfraction hexponent))
    obtain ⟨w, x, rfl, rfl, rfl, hw, hx⟩ :=
      hback.exists_split hv (hhead (head_of_fraction .none hexponent))
    refine .decimal (hwhole.of_separated hfront) (hfraction.of_separated hw)
      (hexponent.of_separated hx) hdigits ?_
    intro hempty
    rw [← unseparated_append, hempty] at hpoint
    exact hpoint rfl

end Restoring

end Numeral

open Numeral

theorem Lexeme.SpelledBy.ofText? {lexeme : Lexeme} {spelling behind : List Char} {n : Number}
    (h : lexeme.SpelledBy spelling behind) (hn : lexeme.token = .number n) :
    (∃ c ∈ spelling.head?, c.isDigit = true ∨ c = '.') ∧ Numeral.ofText? spelling = some n := by
  cases h with
  | @intro first spelled _ hread =>
    rw [hn] at hread
    unfold readToken at hread
    split at hread
    · obtain ⟨⟨text, after⟩, -, heq⟩ := map_eq_ok_iff.mp hread
      cases heq
    · split at hread
      · next hstarts =>
        obtain ⟨⟨m, after⟩, hnumeral, heq⟩ := map_eq_ok_iff.mp hread
        cases heq
        obtain ⟨kept, after, hspan, htakes, -⟩ := Cursor.exists_spans
          (goesOn (radix? (first :: (spelled ++ behind))).isSome) first
          ⟨spelled ++ behind, lexeme.place.next first⟩
        simp only [Numeral.read, hspan] at hnumeral
        split at hnumeral
        · next hm =>
          cases hnumeral
          obtain rfl := List.append_cancel_right htakes.rest_eq
          refine ⟨⟨first, rfl, ?_⟩, hm⟩
          simp only [startsNumeral, Bool.or_eq_true, Bool.and_eq_true, beq_iff_eq] at hstarts
          exact hstarts.imp_right And.left
        · cases hnumeral
      · split at hread <;> cases hread

/-- In a source that has tokens, each separator of a number stands between two other characters of
its spelling. Without separators the spelling is a literal of the same number; with them it is a
literal exactly if each stands between two digits of the radix. -/
theorem separated_of_lexemes {source : List Char} {all : List Lexeme} {stop : Position}
    (h : lexemes source = .ok (all, stop)) :
    ∀ lexeme ∈ all, ∀ n, lexeme.token = .number n →
      ∃ before spelling behind, source = before ++ (spelling ++ behind) ∧
        lexeme.place = Place.start.after before ∧ lexeme.SpelledBy spelling behind ∧
        Separated (· ≠ '_') spelling ∧
        (∃ denoted, Literal (unseparated spelling) denoted ∧ denoted.number? = some n) ∧
        ((∃ denoted, Literal spelling denoted) ↔
          Separated (IsDigit (radixOf (unseparated spelling))) spelling) := by
  intro lexeme hmem n hn
  obtain ⟨earlier, later, rfl⟩ := List.append_of_mem hmem
  obtain ⟨before, spelling, behind, hsource, hplace, hspelled, -, -⟩ := exists_seam h
  obtain ⟨hstart, hnumber⟩ := hspelled.ofText? hn
  obtain ⟨hplaced, denoted, hliteral, hdenoted⟩ := (ofText?_eq_some_iff hstart).mp hnumber
  refine ⟨before, spelling, behind, hsource, hplace, hspelled, hplaced,
    ⟨denoted, hliteral, hdenoted⟩, ?_, ?_⟩
  · rintro ⟨other, hother⟩
    rw [← hother.radixOf_unseparated]
    exact hother.separated
  · intro hseparated
    exact ⟨denoted, hliteral.of_separated hseparated⟩

section Sample

theorem not_separated_mark : ¬Separated (IsDigit 16) "0_x10".toList := by
  intro h
  obtain ⟨-, c, hc, d, hd⟩ := h ['0'] "x10".toList rfl
  cases hc
  rw [← digit?_eq_some_iff (by decide)] at hd
  cases hd

theorem separated_of_lexemes_sample :
    lexemes "0_x10".toList = .ok ([⟨.number (.integer ⟨16, by decide⟩), .start⟩], ⟨1, 6⟩) ∧
    Separated (· ≠ '_') "0_x10".toList ∧ ¬∃ denoted, Literal "0_x10".toList denoted := by
  have hlexemes : lexemes "0_x10".toList =
      .ok ([⟨.number (.integer ⟨16, by decide⟩), .start⟩], ⟨1, 6⟩) := by
    cbv
  obtain ⟨before, spelling, behind, hsource, hplace, hspelled, hplaced, -, hliteral⟩ :=
    separated_of_lexemes hlexemes _ List.mem_cons_self _ rfl
  have hbefore : Place.start.after [] = Place.start.after before := hplace
  have htext : [] ++ ("0_x10".toList ++ []) = before ++ (spelling ++ behind) := hsource
  obtain rfl := Place.eq_of_after_eq hbefore htext
  have hread : Lexeme.readToken .start '0' ("_x10".toList ++ []) =
      .ok (.number (.integer ⟨16, by decide⟩), ⟨[], Place.start.after "0_x10".toList⟩) := by
    cbv
  have hintro : Lexeme.SpelledBy ⟨.number (.integer ⟨16, by decide⟩), .start⟩ "0_x10".toList [] :=
    .intro hread
  obtain ⟨rfl, -⟩ := hintro.unique hspelled (List.append_cancel_left htext)
  exact ⟨hlexemes, hplaced, fun h => not_separated_mark (hliteral.mp h)⟩

/-- A module with a separator inside the mark of a radix is evaluated. -/
theorem evaluate_separated_mark :
    evaluate "export default 0_x10" = .ok (.number (.integer ⟨16, by decide⟩)) ∧
      ¬Separated (IsDigit 16) "0_x10".toList ∧ ¬∃ denoted, Literal "0_x10".toList denoted := by
  refine ⟨by cbv, not_separated_mark, ?_⟩
  rintro ⟨denoted, h⟩
  have hseparated := h.separated
  rw [h.radixOf_unseparated] at hseparated
  exact not_separated_mark hseparated

end Sample

end SiteConfig.ConfigModule

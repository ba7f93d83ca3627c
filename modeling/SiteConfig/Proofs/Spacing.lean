import SiteConfig.Proofs.Tiling
/-!
# Spacing

Blanks and comments between tokens do not count. Behind a token, or in front of the first one, any
of them may stand that start with a blank, and any two neighbours may have a single space between
them: the source keeps its tokens, and what it exports or what is wrong with it.
-/
namespace SiteConfig

namespace Text

def disjointRanges (ranges others : List (Nat × Nat)) : Bool :=
  ranges.all fun range => others.all fun other =>
    decide (range.2 < other.1) || decide (other.2 < range.1)

theorem inRanges_eq_false {ranges others : List (Nat × Nat)} {code : Nat}
    (hdisjoint : disjointRanges ranges others = true) (h : inRanges ranges code = true) :
    inRanges others code = false := by
  simp only [inRanges, List.any_eq_true, Bool.and_eq_true, decide_eq_true_eq] at h
  obtain ⟨range, hrange, hlow, hhigh⟩ := h
  simp only [disjointRanges, List.all_eq_true, Bool.or_eq_true, decide_eq_true_eq] at hdisjoint
  simp only [inRanges, List.any_eq_false, Bool.and_eq_true, decide_eq_true_eq, not_and]
  intro other hother hfirst
  have := hdisjoint range hrange other hother
  omega

end Text

namespace ConfigModule

section Blanks

variable {c : Char}

theorem not_isAlphanum_of_isBlank (h : Text.isBlank c = true) : c.isAlphanum = false := by
  simp [Text.isBlank, Text.inRanges, Text.blankRanges] at h
  simp [Char.isAlphanum, Char.isAlpha, Char.isUpper, Char.isLower, Char.isDigit,
    UInt32.le_iff_toNat_le]
  omega

theorem not_isNamePart_of_isBlank (h : Text.isBlank c = true) : Lexeme.isNamePart c = false := by
  have halphabetic : Text.disjointRanges Text.blankRanges Text.alphabeticRanges = true := by
    decide +kernel
  have hnumeric : Text.disjointRanges Text.blankRanges Text.numericRanges = true := by
    decide +kernel
  have halnum := not_isAlphanum_of_isBlank h
  simp only [Char.isAlphanum, Bool.or_eq_false_iff] at halnum
  have hsigns : c ≠ '_' ∧ c ≠ '$' := by
    constructor <;> rintro rfl <;> revert h <;> decide
  simp [Lexeme.isNamePart, Lexeme.isNameStart, Text.isAlphabetic, Text.isNumeric, halnum, hsigns,
    Text.inRanges_eq_false halphabetic h, Text.inRanges_eq_false hnumeric h]

theorem endsToken_of_isBlank (h : Text.isBlank c = true) : endsToken c = true := by
  have hsigns : c ≠ '.' ∧ c ≠ '+' ∧ c ≠ '-' := by
    refine ⟨?_, ?_, ?_⟩ <;> rintro rfl <;> revert h <;> decide
  simp [endsToken, not_isNamePart_of_isBlank h, not_isAlphanum_of_isBlank h, hsigns]

theorem ne_of_isBlank (h : Text.isBlank c = true) : c ≠ '/' ∧ c ≠ '*' := by
  constructor <;> rintro rfl <;> revert h <;> decide

end Blanks

section Gaps

theorem Gap.skip_line {body : List Char} (hbody : '\n' ∉ body) (behind : List Char)
    (place : Place) : skip.go .lineComment (body ++ '\n' :: behind) place =
      skip.go .between behind (place.after (body ++ ['\n'])) := by
  induction body generalizing place with
  | nil => rfl
  | cons c body ih =>
    have hc : c ≠ '\n' := fun heq => hbody (heq ▸ List.mem_cons_self)
    rw [List.cons_append, skip.go, if_neg hc]
    exact ih (fun hmem => hbody (List.mem_cons_of_mem c hmem)) _

theorem Gap.skip_block {body : List Char} (hbody : ¬['*', '/'] <:+: body) (behind : List Char)
    (place : Place) : skip.go .blockComment (body ++ '*' :: '/' :: behind) place =
      skip.go .between behind (place.after (body ++ ['*', '/'])) := by
  induction body generalizing place with
  | nil => rfl
  | cons c body ih =>
    rw [List.cons_append, skip.go]
    · exact ih (fun hinfix => hbody (List.infix_cons_iff.mpr (.inr hinfix))) _
    · rintro text rfl hslash
      cases body with
      | nil => cases hslash
      | cons d body =>
        obtain ⟨rfl, -⟩ := List.cons.inj hslash
        exact hbody ⟨[], body, rfl⟩

/-- Blanks and comments are skipped, whatever stands behind them. -/
theorem Gap.skip_trivia {w : List Char} (h : Trivia false w) (rest : List Char) (place : Place) :
    Gap.between.skip ⟨w ++ rest, place⟩ = Gap.between.skip ⟨rest, place.after w⟩ := by
  induction h generalizing place with
  | nil => rfl
  | @blank c w hblank _ ih =>
    have hc := ne_of_isBlank hblank
    have hskip : skip.go .between (c :: (w ++ rest)) place =
        skip.go .between (w ++ rest) (place.next c) := by
      rw [skip.go, if_pos hblank]
      · exact fun _ hslash => absurd hslash hc.1
      · exact fun _ hslash => absurd hslash hc.1
    exact hskip.trans (ih _)
  | @line body w hbody _ ih =>
    rw [List.cons_append, List.cons_append, List.append_assoc, List.cons_append]
    have hbehind := ih (((place.next '/').next '/').after (body ++ ['\n']))
    refine (skip_line hbody (w ++ rest) ((place.next '/').next '/')).trans (hbehind.trans ?_)
    simp
  | @block body w hbody _ ih =>
    rw [List.cons_append, List.cons_append, List.append_assoc, List.cons_append, List.cons_append]
    have hbehind := ih (((place.next '/').next '*').after (body ++ ['*', '/']))
    refine (skip_block hbody (w ++ rest) ((place.next '/').next '*')).trans (hbehind.trans ?_)
    simp
  | lastLine hended => cases hended

theorem Gap.skip_skipped {gap : Gap} {cursor behind : Cursor} (h : gap.skip cursor = some behind) :
    Gap.between.skip behind = some behind := by
  obtain ⟨source, place⟩ := cursor
  unfold skip at h
  dsimp only at h
  fun_induction skip.go gap source place with
  | case1 => cases h
  | case2 =>
    cases h
    rfl
  | case6 c source place hline hblock hblank =>
    cases h
    unfold skip
    dsimp only
    rw [skip.go, if_neg hblank]
    · exact hline
    · exact hblock
  | _ =>
    rename_i ih
    exact ih h

theorem Gap.skip_slash_iff (rest : List Char) (place : Place) :
    Gap.between.skip ⟨'/' :: rest, place⟩ = some ⟨'/' :: rest, place⟩ ↔
      ∀ c ∈ rest.head?, c ≠ '/' ∧ c ≠ '*' := by
  constructor
  · intro h c hc
    obtain ⟨rest, rfl⟩ := List.head?_eq_some_iff.mp hc
    constructor
    · rintro rfl
      have hle := @Gap.length_skip .lineComment ⟨rest, _⟩ _ h
      simp at hle
    · rintro rfl
      have hle := @Gap.length_skip .blockComment ⟨rest, _⟩ _ h
      simp at hle
  · intro h
    have hblank : ¬Text.isBlank '/' = true := by simp [Lexeme.not_isBlank_slash]
    unfold skip
    dsimp only
    rw [skip.go, if_neg hblank]
    · rintro rest - rfl
      exact (h '/' rfl).1 rfl
    · rintro rest - rfl
      exact (h '*' rfl).2 rfl

end Gaps

/-- A lexeme with its spelling, which reading the token takes off the source, and what it leaves. -/
inductive Lexeme.SpelledBy (lexeme : Lexeme) : List Char → List Char → Prop
  | intro {first : Char} {spelled rest : List Char}
      (hread : readToken lexeme.place first (spelled ++ rest) =
        .ok (lexeme.token, ⟨rest, lexeme.place.after (first :: spelled)⟩)) :
      SpelledBy lexeme (first :: spelled) rest

/-- A text may stand apart behind a token in place of the rest: it is empty, or starts as the rest
does, or with a blank. -/
def Parted (rest tail : List Char) : Prop :=
  ∀ c ∈ tail.head?, c ∈ rest.head? ∨ Text.isBlank c = true

theorem Parted.endsLike {rest tail : List Char} (h : Parted rest tail) : EndsLike rest tail := by
  intro c hc
  exact (h c hc).imp_right endsToken_of_isBlank

open Lexeme (SpelledBy)

section Seams

variable {cursor : Cursor} {stop : Position}

theorem tokensOf_trivia {w : List Char} (h : Trivia false w) (rest : List Char) :
    tokensOf (w ++ rest) = tokensOf rest := by
  have hskip := Gap.skip_trivia h rest .start
  rw [tokensOf, Cursor.start, tokensFrom, lexemesFrom_congr hskip]
  exact tokensFrom_eq rest _

theorem Lexeme.SpelledBy.unique {lexeme : Lexeme} {spelling other rest more : List Char}
    (h : lexeme.SpelledBy spelling rest) (hother : lexeme.SpelledBy other more)
    (heq : spelling ++ rest = other ++ more) : spelling = other ∧ rest = more := by
  cases h with
  | @intro first spelled _ hread =>
    cases hother with
    | @intro _ spelled' _ hread' =>
      obtain ⟨rfl, htext⟩ : first = _ ∧ spelled ++ rest = spelled' ++ more := List.cons.inj heq
      rw [htext, hread'] at hread
      obtain rfl := (Cursor.mk.inj (Prod.mk.inj (Except.ok.inj hread)).2).1
      exact ⟨List.append_cancel_right heq, rfl⟩

theorem exists_spelled {first : Lexeme} {later : List Lexeme}
    (h : lexemesFrom cursor = .ok (first :: later, stop)) :
    ∃ gap spelling rest, cursor.rest = gap ++ (spelling ++ rest) ∧ Trivia false gap ∧
      first.place = cursor.place.after gap ∧ first.SpelledBy spelling rest ∧
      Gap.between.skip ⟨spelling ++ rest, first.place⟩ =
        some ⟨spelling ++ rest, first.place⟩ ∧
      lexemesFrom ⟨rest, first.place.after spelling⟩ = .ok (later, stop) := by
  rw [lexemesFrom_eq] at h
  split at h
  · cases h
  · cases h
  · next c text place hskip =>
    split at h
    · cases h
    · next token behind hread =>
      obtain ⟨⟨others, stop⟩, hothers, heq⟩ := map_eq_ok_iff.mp h
      cases heq
      obtain ⟨gap, hgap, htrivia⟩ := Gap.exists_trivia hskip
      obtain ⟨spelled, htakes, -⟩ := Lexeme.readToken_spelled hread
      obtain ⟨rest, start, hcursor, rfl⟩ := htakes.exists_eq
      cases hcursor
      exact ⟨gap, c :: spelled, rest, hgap.rest_eq, htrivia, hgap.place_eq, .intro hread,
        Gap.skip_skipped hskip, hothers⟩

/-- A token is read off its spelling, with a gap in front and a text apart behind it. -/
theorem tokensOf_spelled {lexeme : Lexeme} {gap spelling rest tail : List Char}
    (hgap : Trivia false gap) (hspelled : lexeme.SpelledBy spelling rest)
    (hstart : Gap.between.skip ⟨spelling ++ rest, lexeme.place⟩ =
      some ⟨spelling ++ rest, lexeme.place⟩) (htail : Parted rest tail) :
    tokensOf (gap ++ (spelling ++ tail)) = (tokensOf tail).map (lexeme.token :: ·) := by
  cases hspelled with
  | @intro first spelled _ hread =>
    obtain ⟨spelled', htakes, hlocal⟩ := Lexeme.readToken_spelled hread
    obtain rfl := List.append_cancel_right htakes.rest_eq
    have hread' := hlocal tail .start htail.endsLike
    have hskip : Gap.between.skip (.start (first :: (spelled ++ tail))) =
        some ⟨first :: (spelled ++ tail), .start⟩ := by
      by_cases hslash : first = '/'
      · subst hslash
        rw [Lexeme.readToken_slash] at hread
        obtain ⟨-, hrest⟩ := Prod.mk.inj (Except.ok.inj hread)
        obtain rfl := List.append_left_eq_self.mp (Cursor.mk.inj hrest).1
        rw [List.nil_append] at hread' ⊢
        refine (Gap.skip_slash_iff tail .start).mpr ?_
        intro c hc
        rcases htail c hc with hsame | hblank
        · exact (Gap.skip_slash_iff _ lexeme.place).mp hstart c hsame
        · exact ne_of_isBlank hblank
      · exact skip_between (Gap.not_isBlank_of_skip hstart) hslash _ .start
    rw [List.cons_append, tokensOf_trivia hgap, tokensOf, tokensFrom_cons hskip hread']

/-- The source can be cut behind any of its tokens: the tokens up to there stay, whatever text
stands apart behind them. -/
theorem exists_seam {earlier later : List Lexeme} {lexeme : Lexeme}
    (h : lexemesFrom cursor = .ok (earlier ++ lexeme :: later, stop)) :
    ∃ before spelling rest, cursor.rest = before ++ (spelling ++ rest) ∧
      lexeme.place = cursor.place.after before ∧ lexeme.SpelledBy spelling rest ∧
      lexemesFrom ⟨rest, lexeme.place.after spelling⟩ = .ok (later, stop) ∧
      ∀ tail, Parted rest tail → tokensOf (before ++ (spelling ++ tail)) =
        (tokensOf tail).map ((earlier ++ [lexeme]).map Lexeme.token ++ ·) := by
  induction earlier generalizing cursor with
  | nil =>
    obtain ⟨gap, spelling, rest, hrest, hgap, hplace, hspelled, hstart, hlater⟩ :=
      exists_spelled h
    refine ⟨gap, spelling, rest, hrest, hplace, hspelled, hlater, ?_⟩
    intro tail htail
    exact tokensOf_spelled hgap hspelled hstart htail
  | cons first earlier ih =>
    obtain ⟨gap, word, text, htext, hgap, hfirst, hword, hstart, hlexemes⟩ := exists_spelled h
    obtain ⟨before, spelling, rest, hrest, hplace, hspelled, hlater, hseam⟩ := ih hlexemes
    obtain rfl : text = before ++ (spelling ++ rest) := hrest
    refine ⟨gap ++ (word ++ before), spelling, rest, by simp [htext], ?_, hspelled, hlater, ?_⟩
    · rw [hplace, hfirst]
      simp
    · intro tail htail
      have hparted : Parted (before ++ (spelling ++ rest)) (before ++ (spelling ++ tail)) := by
        intro c hc
        left
        cases hspelled with
        | intro => cases before <;> exact hc
      have htokens := tokensOf_spelled hgap hword hstart hparted
      rw [hseam tail htail] at htokens
      rw [List.append_assoc, List.append_assoc, htokens]
      cases tokensOf tail <;> rfl

end Seams

section Outcomes

/-- An error without its place, and without the statement that it shows. -/
def Error.unplaced : Error → Error
  | .unsupportedStatement _ => .unsupportedStatement ""
  | .malformed _ complaint => .malformed .start complaint
  | error => error

def outcome (source : List Char) : Except Error Value :=
  (evaluate (String.ofList source)).mapError Error.unplaced

/-- What the tokens of a module export, or what is wrong with them. -/
def outcomeOf : List Token → Except Error Value
  | first :: second :: rest =>
    if isExport first second then
      if rest = [] ∨ rest.head? = some (.punct ';') then .error .emptyExport
      else (literal rest).mapError fun fault => .malformed .start fault.complaint
    else if hasExport (first :: second :: rest) then .error (.unsupportedStatement "")
    else .error .noDefaultExport
  | _ => .error .noDefaultExport

/-- But for places, the outcome depends on the tokens only. -/
theorem outcome_eq_outcomeOf {source : List Char} {tokens : List Token}
    (h : tokensOf source = some tokens) : outcome source = outcomeOf tokens := by
  obtain ⟨all, stop, hall, rfl⟩ := exists_lexemes_of_tokensOf h
  rw [outcome, evaluate, String.toList_ofList, evaluateChars, hall]
  rcases all with _ | ⟨first, _ | ⟨second, rest⟩⟩
  · rfl
  · rfl
  · simp only [List.map_cons, outcomeOf, exportedValue]
    split
    · split
      · rfl
      · cases literal (rest.map Lexeme.token) <;> rfl
    · split <;> rfl

end Outcomes

/-- A source that differs from another one in its gaps only: the tokens are the same, and so is the
outcome but for places. -/
structure Respaced (source other : List Char) : Prop where
  tokensOf_eq : tokensOf other = tokensOf source
  outcome_eq : outcome other = outcome source

theorem respaced_of_tokensOf {source other : List Char} {tokens : List Token}
    (h : tokensOf source = some tokens) (hother : tokensOf other = some tokens) :
    Respaced source other :=
  ⟨hother.trans h.symm, (outcome_eq_outcomeOf hother).trans (outcome_eq_outcomeOf h).symm⟩

/-- Blanks and comments that start with a blank, as they may be put behind a token. -/
structure Spacing (w : List Char) : Prop where
  isGap : Trivia false w
  starts : ∃ c ∈ w.head?, Text.isBlank c = true

/-- A source keeps its tokens and its outcome when spacing is put behind one of its tokens or in
front of the first one, and when a single space takes the place of the gap between two. -/
theorem respaced_of_lexemes {source : List Char} {all : List Lexeme} {stop : Position}
    (h : lexemes source = .ok (all, stop)) :
    (∀ lexeme ∈ all, ∃ before spelling rest, source = before ++ (spelling ++ rest) ∧
      lexeme.place = Place.start.after before ∧ lexeme.SpelledBy spelling rest ∧
      ∀ w, Spacing w → Respaced source (before ++ (spelling ++ (w ++ rest)))) ∧
    (∀ first ∈ all.head?, ∃ gap rest, source = gap ++ rest ∧ Trivia false gap ∧
      first.place = Place.start.after gap ∧
      ∀ w, Spacing w → Respaced source (gap ++ (w ++ rest))) ∧
    ∀ earlier left right later, all = earlier ++ left :: right :: later →
      ∃ before spelling gap rest, source = before ++ (spelling ++ (gap ++ rest)) ∧
        left.place = Place.start.after before ∧ left.SpelledBy spelling (gap ++ rest) ∧
        Trivia false gap ∧ right.place = Place.start.after (before ++ (spelling ++ gap)) ∧
        Respaced source (before ++ (spelling ++ ' ' :: rest)) := by
  have htokens : tokensOf source = some (all.map Lexeme.token) := tokensOf_of_lexemes h
  refine ⟨?_, ?_, ?_⟩
  · intro lexeme hmem
    obtain ⟨earlier, later, rfl⟩ := List.append_of_mem hmem
    obtain ⟨before, spelling, rest, hsource, hplace, hspelled, hlater, hseam⟩ := exists_seam h
    refine ⟨before, spelling, rest, hsource, hplace, hspelled, ?_⟩
    intro w hw
    apply respaced_of_tokensOf htokens
    have hparted : Parted rest (w ++ rest) := by
      intro c hc
      obtain ⟨d, hd, hblank⟩ := hw.starts
      obtain ⟨more, rfl⟩ := List.head?_eq_some_iff.mp hd
      cases hc
      exact .inr hblank
    rw [hseam _ hparted, tokensOf_trivia hw.isGap, ← tokensFrom_eq, tokensFrom_of_lexemes hlater]
    simp
  · intro first hfirst
    obtain ⟨later, rfl⟩ := List.head?_eq_some_iff.mp hfirst
    obtain ⟨gap, spelling, rest, hsource, hgap, hplace, -⟩ := exists_spelled h
    refine ⟨gap, spelling ++ rest, hsource, hgap, hplace, ?_⟩
    intro w hw
    apply respaced_of_tokensOf htokens
    obtain rfl : source = gap ++ (spelling ++ rest) := hsource
    rw [tokensOf_trivia hgap] at htokens
    rw [tokensOf_trivia hgap, tokensOf_trivia hw.isGap, htokens]
  · rintro earlier left right later rfl
    obtain ⟨before, spelling, behind, hsource, hplace, hspelled, hright, hseam⟩ := exists_seam h
    obtain ⟨gap, word, rest, hbehind, hgap, hstart, -⟩ := exists_spelled hright
    obtain rfl : behind = gap ++ (word ++ rest) := hbehind
    refine ⟨before, spelling, gap, word ++ rest, hsource, hplace, hspelled, hgap, ?_, ?_⟩
    · rw [hstart, hplace]
      simp
    · apply respaced_of_tokensOf htokens
      have hparted : Parted (gap ++ (word ++ rest)) (' ' :: (word ++ rest)) := by
        intro c hc
        cases hc
        exact .inr (by decide)
      rw [hseam _ hparted, tokensOf_blank, ← tokensOf_trivia hgap, ← tokensFrom_eq,
        tokensFrom_of_lexemes hright]
      simp

section Sample

def sampleSpacing : List Char := " /*/ '**/// export default \\\n".toList

theorem spacing_sampleSpacing : Spacing sampleSpacing := by
  refine ⟨?_, ' ', rfl, by decide⟩
  apply Trivia.blank (by decide)
  have hblock : ¬['*', '/'] <:+: "/ '*".toList := by decide
  have hline : '\n' ∉ " export default \\".toList := by decide
  exact .block hblock (.line hline .nil)

theorem respaced_of_lexemes_sample :
    lexemes "export default/2".toList = .ok ([
      ⟨.name "export", .start⟩, ⟨.name "default", ⟨1, 8⟩, 7⟩, ⟨.punct '/', ⟨1, 15⟩, 14⟩,
      ⟨.number (.integer ⟨2, by decide⟩), ⟨1, 16⟩, 15⟩], ⟨1, 17⟩) ∧
    Spacing sampleSpacing ∧
    Respaced "export default/2".toList
      ("export default/".toList ++ (sampleSpacing ++ "2".toList)) ∧
    Respaced "export default/2".toList (sampleSpacing ++ "export default/2".toList) ∧
    Respaced "export default/2".toList "export default/ 2".toList := by
  have hlexemes : lexemes "export default/2".toList = .ok ([
      ⟨.name "export", .start⟩, ⟨.name "default", ⟨1, 8⟩, 7⟩, ⟨.punct '/', ⟨1, 15⟩, 14⟩,
      ⟨.number (.integer ⟨2, by decide⟩), ⟨1, 16⟩, 15⟩], ⟨1, 17⟩) := by
    cbv
  have hspelled : SpelledBy ⟨.punct '/', ⟨1, 15⟩, 14⟩ ['/'] "2".toList :=
    .intro (Lexeme.readToken_slash ⟨⟨1, 15⟩, 14⟩ "2".toList)
  obtain ⟨hbehind, hfront, hgap⟩ := respaced_of_lexemes hlexemes
  refine ⟨hlexemes, spacing_sampleSpacing, ?_, ?_, ?_⟩
  · obtain ⟨before, spelling, rest, hsource, hplace, hslash, hrespaced⟩ :=
      hbehind ⟨.punct '/', ⟨1, 15⟩, 14⟩ (by simp)
    have hbefore : Place.start.after "export default".toList = Place.start.after before := hplace
    have htext : "export default".toList ++ "/2".toList = before ++ (spelling ++ rest) := hsource
    obtain rfl := Place.eq_of_after_eq hbefore htext
    obtain ⟨rfl, rfl⟩ := hspelled.unique hslash (List.append_cancel_left htext)
    exact hrespaced _ spacing_sampleSpacing
  · obtain ⟨gap, rest, hsource, -, hplace, hrespaced⟩ := hfront _ rfl
    have hgap : Place.start.after [] = Place.start.after gap := hplace
    have htext : [] ++ "export default/2".toList = gap ++ rest := hsource
    obtain rfl := Place.eq_of_after_eq hgap htext
    obtain rfl := List.append_cancel_left htext
    exact hrespaced _ spacing_sampleSpacing
  · obtain ⟨before, spelling, gap, rest, hsource, hplace, hslash, -, hnumber, hrespaced⟩ :=
      hgap [⟨.name "export", .start⟩, ⟨.name "default", ⟨1, 8⟩, 7⟩] ⟨.punct '/', ⟨1, 15⟩, 14⟩
        ⟨.number (.integer ⟨2, by decide⟩), ⟨1, 16⟩, 15⟩ [] rfl
    have hbefore : Place.start.after "export default".toList = Place.start.after before := hplace
    have htext : "export default".toList ++ "/2".toList = before ++ (spelling ++ (gap ++ rest)) :=
      hsource
    obtain rfl := Place.eq_of_after_eq hbefore htext
    obtain ⟨rfl, hrest⟩ := hspelled.unique hslash (List.append_cancel_left htext)
    have hgap : Place.start.after "export default/".toList =
        Place.start.after ("export default".toList ++ (['/'] ++ gap)) :=
      hnumber
    have hempty : "export default/".toList ++ "2".toList =
        "export default".toList ++ (['/'] ++ gap) ++ rest := by
      rw [hrest]
      simp
    have hnil : "export default/".toList ++ [] = "export default/".toList ++ gap :=
      Place.eq_of_after_eq hgap hempty
    obtain rfl := List.append_cancel_left hnil
    obtain rfl : "2".toList = rest := hrest
    exact hrespaced

end Sample

end ConfigModule

end SiteConfig

import SiteConfig.Proofs.Spellings
/-!
# Reading tokens off a text

A name in front of a delimiter and a character are read as one token each, and the reading goes on
behind it.
-/
namespace SiteConfig.ConfigModule

/-- The tokens from a cursor on, if all of them can be read. -/
def tokensFrom (cursor : Cursor) : Option (List Token) :=
  (lexemesFrom cursor).toOption.map fun found => found.1.map Lexeme.token

def tokensOf (source : List Char) : Option (List Token) := tokensFrom (.start source)

theorem tokensFrom_of_lexemes {cursor : Cursor} {all : List Lexeme} {stop : Position}
    (h : lexemesFrom cursor = .ok (all, stop)) :
    tokensFrom cursor = some (all.map Lexeme.token) := by
  rw [tokensFrom, h]
  rfl

theorem tokensOf_of_lexemes {source : List Char} {all : List Lexeme} {stop : Position}
    (h : lexemes source = .ok (all, stop)) : tokensOf source = some (all.map Lexeme.token) :=
  tokensFrom_of_lexemes h

theorem exists_lexemes_of_tokensOf {source : List Char} {tokens : List Token}
    (h : tokensOf source = some tokens) :
    ∃ all stop, lexemes source = .ok (all, stop) ∧ all.map Lexeme.token = tokens := by
  rw [tokensOf, tokensFrom, ← lexemes] at h
  cases hall : lexemes source with
  | error =>
    rw [hall] at h
    cases h
  | ok found =>
    rw [hall] at h
    exact ⟨found.1, found.2, rfl, Option.some.inj h⟩

def delimiters : List Char := [' ', ',', ']', '}']

/-- Nothing that continues a name or a numeral follows. -/
def Delimited (rest : List Char) : Prop := ∀ c ∈ rest.head?, c ∈ delimiters

theorem delimited_nil : Delimited [] := by
  intro c hc
  cases hc

theorem delimited_cons {c : Char} (h : c ∈ delimiters) (rest : List Char) :
    Delimited (c :: rest) := by
  intro d hd
  cases hd
  exact h

theorem Delimited.endsToken {rest : List Char} (h : Delimited rest) :
    ∀ c ∈ rest.head?, ConfigModule.endsToken c = true := by
  have hends : ∀ c ∈ delimiters, ConfigModule.endsToken c = true := by
    simp only [delimiters, List.forall_mem_cons, List.not_mem_nil, false_implies, implies_true]
    decide +kernel
  intro c hc
  exact hends c (h c hc)

theorem lexemesFrom_eq (cursor : Cursor) :
    lexemesFrom cursor =
      match Gap.between.skip cursor with
      | none => .error (.unterminated .blockComment)
      | some ⟨[], place⟩ => .ok ([], place.position)
      | some ⟨first :: rest, place⟩ =>
        match Lexeme.readToken place first rest with
        | .error error => .error error
        | .ok (token, behind) => (lexemesFrom behind).map (Prod.map (⟨token, place⟩ :: ·) id) := by
  rw [lexemesFrom]
  split
  · next hskip => rw [hskip]
  · next hskip => rw [hskip]
  · next hskip =>
    split <;> next hread => simp only [hskip, hread]

section Steps

variable {cursor behind : Cursor} {first : Char} {rest : List Char} {place : Place}
  {token : Token} {more tokens : List Token}

theorem lexemesFrom_cons (hskip : Gap.between.skip cursor = some ⟨first :: rest, place⟩)
    (hread : Lexeme.readToken place first rest = .ok (token, behind)) :
    lexemesFrom cursor = (lexemesFrom behind).map (Prod.map (⟨token, place⟩ :: ·) id) := by
  rw [lexemesFrom_eq, hskip]
  simp only [hread]

theorem lexemesFrom_congr {other : Cursor}
    (h : Gap.between.skip cursor = Gap.between.skip other) :
    lexemesFrom cursor = lexemesFrom other := by
  rw [lexemesFrom_eq, h, ← lexemesFrom_eq]

theorem tokensFrom_eq_nil_iff :
    tokensFrom cursor = some [] ↔ ∃ place, Gap.between.skip cursor = some ⟨[], place⟩ := by
  rw [tokensFrom, lexemesFrom_eq]
  split
  · next hskip => simp [hskip, Except.toOption]
  · next hskip => simp [hskip, Except.toOption]
  · next hskip =>
    rw [hskip]
    split
    · simp [Except.toOption]
    · next behind _ => cases lexemesFrom behind <;> simp [Except.toOption, Except.map]

theorem tokensFrom_eq_cons_iff :
    tokensFrom cursor = some (token :: more) ↔ ∃ first rest place behind,
      Gap.between.skip cursor = some ⟨first :: rest, place⟩ ∧
        Lexeme.readToken place first rest = .ok (token, behind) ∧
          tokensFrom behind = some more := by
  constructor
  · intro h
    rw [tokensFrom, lexemesFrom_eq] at h
    split at h
    · cases h
    · cases h
    · next first rest place hskip =>
      split at h
      · cases h
      · next behind hread =>
        refine ⟨first, rest, place, behind, hskip, ?_⟩
        rw [tokensFrom, hread]
        cases hlater : lexemesFrom behind with
        | error => simp [hlater, Except.map, Except.toOption] at h
        | ok later =>
          rw [hlater] at h
          obtain ⟨rfl, rfl⟩ := List.cons.inj (Option.some.inj h)
          exact ⟨rfl, rfl⟩
  · rintro ⟨first, rest, place, behind, hskip, hread, h⟩
    rw [tokensFrom] at h ⊢
    rw [lexemesFrom_cons hskip hread]
    cases hlater : lexemesFrom behind with
    | error =>
      rw [hlater] at h
      cases h
    | ok later =>
      rw [hlater] at h
      cases h
      rfl

theorem Gap.skip_takes {gap : Gap} (h : gap.skip cursor = some behind) :
    ∃ w, Takes cursor w behind ∧
      ∀ place, gap.skip ⟨cursor.rest, place⟩ = some ⟨behind.rest, place.after w⟩ := by
  obtain ⟨source, place⟩ := cursor
  unfold skip at h ⊢
  dsimp only at h ⊢
  fun_induction skip.go gap source place with
  | case1 => cases h
  | case2 gap place hgap =>
    cases h
    refine ⟨[], .nil _, ?_⟩
    intro place
    cases gap with
    | blockComment => exact (hgap rfl).elim
    | _ => rfl
  | case5 c source place hline hblock hblank ih =>
    obtain ⟨w, hw, hplace⟩ := ih h
    refine ⟨c :: w, hw.cons, ?_⟩
    intro place
    rw [skip.go, if_pos hblank]
    · exact hplace _
    · exact hline
    · exact hblock
  | case6 c source place hline hblock hblank =>
    cases h
    refine ⟨[], .nil _, ?_⟩
    intro place
    rw [skip.go, if_neg hblank]
    · rfl
    · exact hline
    · exact hblock
  | case7 c source place ih =>
    obtain ⟨w, hw, hplace⟩ := ih h
    exact ⟨c :: w, hw.cons, fun place => hplace _⟩
  | case9 c source place hclosed ih =>
    obtain ⟨w, hw, hplace⟩ := ih h
    refine ⟨c :: w, hw.cons, ?_⟩
    intro place
    rw [skip.go]
    · exact hplace _
    · exact hclosed
  | _ =>
    rename_i ih
    obtain ⟨w, hw, hplace⟩ := ih h
    exact ⟨_ :: _ :: w, hw.cons.cons, fun place => hplace _⟩

/-- The tokens do not depend on the place at which they are read. -/
theorem tokensFrom_place (h : tokensFrom cursor = some tokens) (place : Place) :
    tokensFrom ⟨cursor.rest, place⟩ = some tokens := by
  induction tokens generalizing cursor place with
  | nil =>
    obtain ⟨stop, hskip⟩ := tokensFrom_eq_nil_iff.mp h
    obtain ⟨w, -, hplaces⟩ := Gap.skip_takes hskip
    exact tokensFrom_eq_nil_iff.mpr ⟨_, hplaces place⟩
  | cons token tokens ih =>
    obtain ⟨first, rest, start, behind, hskip, hread, hmore⟩ := tokensFrom_eq_cons_iff.mp h
    obtain ⟨w, -, hplaces⟩ := Gap.skip_takes hskip
    obtain ⟨spelled, htakes, hspelled⟩ := Lexeme.readToken_spelled hread
    have hread' := hspelled behind.rest (place.after w) (endsLike_of_head rfl)
    rw [← show rest = spelled ++ behind.rest from htakes.rest_eq] at hread'
    exact tokensFrom_eq_cons_iff.mpr ⟨first, rest, _, _, hplaces place, hread', ih hmore _⟩

theorem tokensFrom_eq (text : List Char) (place : Place) :
    tokensFrom ⟨text, place⟩ = tokensOf text := by
  ext tokens
  exact ⟨fun h => tokensFrom_place h .start, fun h => tokensFrom_place h place⟩

theorem tokensFrom_of_map
    (h : lexemesFrom cursor = (lexemesFrom behind).map (Prod.map (⟨token, place⟩ :: ·) id)) :
    tokensFrom cursor = (tokensOf behind.rest).map (token :: ·) := by
  rw [← tokensFrom_eq _ behind.place, tokensFrom, tokensFrom, h]
  cases lexemesFrom behind <;> rfl

theorem tokensFrom_cons (hskip : Gap.between.skip cursor = some ⟨first :: rest, place⟩)
    (hread : Lexeme.readToken place first rest = .ok (token, behind)) :
    tokensFrom cursor = (tokensOf behind.rest).map (token :: ·) :=
  tokensFrom_of_map (lexemesFrom_cons hskip hread)

theorem tokensOf_nil : tokensOf [] = some [] :=
  tokensFrom_eq_nil_iff.mpr ⟨.start, rfl⟩

theorem tokensOf_blank (rest : List Char) : tokensOf (' ' :: rest) = tokensOf rest := by
  have hskip : Gap.between.skip (.start (' ' :: rest)) =
      Gap.between.skip ⟨rest, Place.start.next ' '⟩ :=
    rfl
  rw [tokensOf, tokensFrom, lexemesFrom_congr hskip]
  exact tokensFrom_eq rest _

theorem skip_between (hblank : Text.isBlank first = false) (hslash : first ≠ '/')
    (rest : List Char) (place : Place) :
    Gap.between.skip ⟨first :: rest, place⟩ = some ⟨first :: rest, place⟩ := by
  unfold Gap.skip Gap.skip.go
  dsimp only
  split
  case h_5 heq =>
    obtain ⟨rfl, rfl⟩ := List.cons.inj heq
    simp [hblank]
  all_goals simp_all

theorem tokensOf_cons (hblank : Text.isBlank first = false) (hslash : first ≠ '/')
    (hread : Lexeme.readToken .start first rest = .ok (token, behind))
    (hafter : tokensOf behind.rest = some more) :
    tokensOf (first :: rest) = some (token :: more) := by
  have htokens := tokensFrom_cons (skip_between hblank hslash rest .start) hread
  rw [hafter] at htokens
  exact htokens

end Steps

section Names

theorem isBlank_of_isAlphanum {c : Char} (h : c.isAlphanum = true) :
    Text.isBlank c = false := by
  simp [Char.isAlphanum, Char.isAlpha, Char.isUpper, Char.isLower, Char.isDigit,
    UInt32.le_iff_toNat_le] at h
  simp [Text.isBlank, Text.inRanges, Text.blankRanges]
  omega

private theorem not_isDigit_of_isAlpha {c : Char} (h : c.isAlpha = true) : c.isDigit = false := by
  simp [Char.isAlpha, Char.isUpper, Char.isLower, UInt32.le_iff_toNat_le] at h
  simp [Char.isDigit, UInt32.le_iff_toNat_le]
  omega

private theorem isNameStart_of_isAlpha {c : Char} (h : c.isAlpha = true) :
    Lexeme.isNameStart c = true := by
  have hascii : c.toNat < 0x80 := by
    simp [Char.isAlpha, Char.isUpper, Char.isLower, UInt32.le_iff_toNat_le] at h
    have htoNat : c.toNat = c.val.toNat := rfl
    omega
  simp [Lexeme.isNameStart, Text.isAlphabetic, hascii, h]

theorem readToken_name {first : Char} {word rest : List Char} (hfirst : first.isAlpha = true)
    (hword : ∀ c ∈ word, c.isAlpha = true) (hrest : Delimited rest) (place : Place) :
    Lexeme.readToken place first (word ++ rest) =
      .ok (.name (String.ofList (first :: word)), ⟨rest, (place.next first).after word⟩) := by
  have hne : ∀ c : Char, c.isAlpha = false → first ≠ c := by
    rintro c hc rfl
    rw [hfirst] at hc
    cases hc
  have hpart : ∀ c ∈ word, Lexeme.isNamePart c = true := fun c hc => by
    simp [Lexeme.isNamePart, isNameStart_of_isAlpha (hword c hc)]
  have hstop : ∀ c ∈ rest.head?, Lexeme.isNamePart c = false := fun c hc =>
    Lexeme.isNamePart_of_endsToken (hrest.endsToken c hc)
  have hquote : Lexeme.isQuote first = false := by
    simp [Lexeme.isQuote, hne '"' rfl, hne '\'' rfl, hne '`' rfl]
  have hnumeral : Lexeme.startsNumeral first (word ++ rest) = false := by
    simp [Lexeme.startsNumeral, not_isDigit_of_isAlpha hfirst, hne '.' rfl]
  exact Lexeme.readToken_identifier hquote (isNameStart_of_isAlpha hfirst) hnumeral
    (Lexeme.spans_name hpart hstop) (endsLike_of_head rfl) place

theorem skip_letter {first : Char} (hfirst : first.isAlpha = true) (rest : List Char)
    (place : Place) : Gap.between.skip ⟨first :: rest, place⟩ = some ⟨first :: rest, place⟩ := by
  apply skip_between (isBlank_of_isAlphanum (by simp [Char.isAlphanum, hfirst]))
  rintro rfl
  cases hfirst

theorem tokensOf_name {first : Char} {word rest : List Char} {more : List Token}
    (hfirst : first.isAlpha = true) (hword : ∀ c ∈ word, c.isAlpha = true)
    (hrest : Delimited rest) (hafter : tokensOf rest = some more) :
    tokensOf (first :: (word ++ rest)) =
      some (.name (String.ofList (first :: word)) :: more) := by
  apply tokensOf_cons (isBlank_of_isAlphanum (by simp [Char.isAlphanum, hfirst])) _
    (readToken_name hfirst hword hrest .start) hafter
  rintro rfl
  cases hfirst

end Names

section Punctuation

/-- The characters between the literals of nested arrays and objects, and the sign. -/
def punctuation : List Char := ['{', '}', '[', ']', ',', ':', '-']

theorem tokensOf_punct {c : Char} {rest : List Char} {more : List Token} (hc : c ∈ punctuation)
    (hrest : tokensOf rest = some more) : tokensOf (c :: rest) = some (.punct c :: more) := by
  have hplain : ∀ c ∈ punctuation, Text.isBlank c = false ∧ c ≠ '/' ∧ c ≠ '.' ∧
      Lexeme.isQuote c = false ∧ c.isDigit = false ∧ Lexeme.isNameStart c = false := by
    simp only [punctuation, List.forall_mem_cons, List.not_mem_nil, false_implies, implies_true]
    decide +kernel
  obtain ⟨hblank, hslash, hpoint, hquote, hdigit, hname⟩ := hplain c hc
  have hread : Lexeme.readToken .start c rest =
      .ok (.punct c, ⟨rest, Place.start.next c⟩) := by
    simp [Lexeme.readToken, hquote, Lexeme.startsNumeral, hdigit, hpoint, hname]
  exact tokensOf_cons hblank hslash hread hrest

end Punctuation

end SiteConfig.ConfigModule

import SiteConfig.Proofs.Spacing
/-!
# Spellings of strings

Every spelling of a string between quotes is one token of the string. An escape that denotes half
of a surrogate pair without the other half, or no code point, is part of no spelling, so no source
has a literal with it.
-/
namespace SiteConfig.ConfigModule

namespace Quotation

/-- Characters between quotes one by one, each alone or with a backslash in front. -/
inductive Units (quote : Char) : List Char → Prop
  | nil : Units quote []
  | plain {c : Char} {behind : List Char} (hquote : c ≠ quote) (hslash : c ≠ '\\')
      (rest : Units quote behind) : Units quote (c :: behind)
  | escaped (c : Char) {behind : List Char} (rest : Units quote behind) :
      Units quote ('\\' :: c :: behind)

/-- A code that a Unicode escape gives, with what stands in front of the escape and behind it, and
that denotes no character: it is out of range, or a half of a surrogate pair of which no escape next
to it gives the other half. -/
inductive DenotesNone (quote : Char) (before : List Char) (code : Nat) (behind : List Char) : Prop
  | beyond (h : 0x10FFFF < code)
  | high (h : isHighSurrogate code = true)
      (hlone : ∀ low n rest, behind = '\\' :: 'u' :: (low ++ rest) → SpellsCode low n →
        isLowSurrogate n = false)
  | low (h : isLowSurrogate code = true)
      (hlone : ∀ earlier high n, before = earlier ++ '\\' :: 'u' :: high → Units quote earlier →
        SpellsCode high n → isHighSurrogate n = false)

section Refusals

variable {quote : Char} {before behind : List Char} {code : Nat}

theorem Units.append {text more : List Char} (h : Units quote text) (hmore : Units quote more) :
    Units quote (text ++ more) := by
  induction h with
  | nil => exact hmore
  | plain hquote hslash _ ih => exact .plain hquote hslash ih
  | escaped c _ ih => exact .escaped c ih

theorem Units.split {text more : List Char} (hslash : '\\' ∉ text)
    (h : Units quote (text ++ more)) : Units quote text ∧ Units quote more := by
  induction text with
  | nil => exact ⟨.nil, h⟩
  | cons c text ih =>
    simp only [List.mem_cons, not_or] at hslash
    rw [List.cons_append] at h
    generalize hrest : text ++ more = rest at h
    cases h with
    | plain hquote hc rest =>
      obtain ⟨htext, hmore⟩ := ih hslash.2 (hrest ▸ rest)
      exact ⟨.plain hquote hc htext, hmore⟩
    | escaped => exact absurd rfl hslash.1

theorem exists_of_append_eq {text more before behind : List Char} (hslash : '\\' ∉ text)
    (h : text ++ more = before ++ '\\' :: behind) :
    ∃ rest, before = text ++ rest ∧ more = rest ++ '\\' :: behind := by
  rcases List.append_eq_append_iff.mp h with ⟨rest, hbefore, hmore⟩ | ⟨rest, htext, hbehind⟩
  · exact ⟨rest, hbefore, hmore⟩
  · cases rest with
    | nil => exact ⟨[], by simpa using htext.symm, hbehind.symm⟩
    | cons c rest =>
      obtain ⟨rfl, -⟩ := List.cons.inj hbehind
      simp [htext] at hslash

theorem SpellsCode.not_slash {text : List Char} (h : SpellsCode text code) : '\\' ∉ text := by
  have hdigits : ∀ {text digits}, DigitsOf 16 text digits → '\\' ∉ text := fun h hmem =>
    absurd (h.isAlphanum (by decide) _ hmem) (by decide)
  cases h with
  | four h => exact hdigits h
  | braced h => simpa using hdigits h

theorem SpellsCode.unique {text other rest more : List Char} {n : Nat} (h : SpellsCode text code)
    (hother : SpellsCode other n) (heq : text ++ rest = other ++ more) :
    text = other ∧ code = n ∧ rest = more := by
  have hcode := unicodeCode_append h rest .start
  rw [heq, unicodeCode_append hother] at hcode
  obtain ⟨rfl, hcursor⟩ := Prod.mk.inj (Except.ok.inj hcode)
  obtain ⟨rfl, -⟩ := Cursor.mk.inj hcursor
  exact ⟨List.append_cancel_right heq, rfl, rfl⟩

/-- An escape has no further backslash, unless it is a surrogate pair. -/
theorem Escapes.not_slash_or_pair {next char : Option Char} {first : Char} {tail : List Char}
    (h : Escapes next (first :: tail) char) : '\\' ∉ tail ∨ ∃ high low n m, first = 'u' ∧
      tail = high ++ '\\' :: 'u' :: low ∧ SpellsCode high n ∧ SpellsCode low m ∧
        isHighSurrogate n = true ∧ isLowSurrogate m = true := by
  cases h with
  | byte hdigits =>
    left
    intro hmem
    exact absurd (hdigits.isAlphanum (by decide) _ hmem) (by decide)
  | code h => exact .inl h.not_slash
  | pair hwide hhigh hlow =>
    exact .inr ⟨_, _, _, _, rfl, rfl, hhigh, hlow, isHighSurrogate_highHalf hwide,
      isLowSurrogate_lowHalf _⟩
  | _ => simp

theorem DenotesNone.of_append {text : List Char} (htext : Units quote text)
    (h : DenotesNone quote (text ++ before) code behind) :
    DenotesNone quote before code behind := by
  cases h with
  | beyond h => exact .beyond h
  | high h hlone => exact .high h hlone
  | low h hlone =>
    refine .low h ?_
    intro earlier high n hbefore hearlier
    exact hlone (text ++ earlier) high n (by simp [hbefore]) (htext.append hearlier)

theorem Escapes.not_denotesNone {next char : Option Char} {piece spelled more : List Char}
    (h : Escapes next piece char) (hspelled : SpellsCode spelled code)
    (heq : piece ++ more = 'u' :: (spelled ++ behind)) : ¬DenotesNone quote [] code behind := by
  intro hnone
  cases h with
  | short h =>
    obtain ⟨rfl, -⟩ := List.cons.inj heq
    simp [shortEscapes] at h
  | itself h =>
    obtain ⟨rfl, -⟩ := List.cons.inj heq
    simp [reserved] at h
  | separator h =>
    obtain ⟨rfl, -⟩ := List.cons.inj heq
    simp at h
  | @code c _ h =>
    obtain ⟨-, rfl, -⟩ := h.unique hspelled (List.cons.inj heq).2
    have hbounds := toNat_bounds c
    cases hnone with
    | beyond h => omega
    | high h =>
      rw [isHighSurrogate_iff] at h
      omega
    | low h =>
      rw [isLowSurrogate_iff] at h
      omega
  | @pair c high low hwide hhigh hlow =>
    simp only [List.cons_append, List.append_assoc, List.cons.injEq, true_and] at heq
    obtain ⟨-, rfl, rfl⟩ := hhigh.unique hspelled heq
    have hisHigh := isHighSurrogate_highHalf hwide
    cases hnone with
    | beyond h =>
      rw [isHighSurrogate_iff] at hisHigh
      omega
    | high _ hlone =>
      have hisLow := isLowSurrogate_lowHalf c
      rw [hlone low _ more rfl hlow] at hisLow
      cases hisLow
    | low h =>
      rw [isHighSurrogate_iff] at hisHigh
      rw [isLowSurrogate_iff] at h
      omega
  | _ => cases heq

theorem not_denotesNone_low {high : List Char} {first second : Nat}
    (hhigh : SpellsCode high first) (hfirst : isHighSurrogate first = true)
    (hsecond : isLowSurrogate second = true) :
    ¬DenotesNone quote ('\\' :: 'u' :: high) second behind := by
  intro hnone
  have hlow := (isLowSurrogate_iff second).mp hsecond
  cases hnone with
  | beyond h => omega
  | high h =>
    rw [isHighSurrogate_iff] at h
    omega
  | low _ hlone =>
    rw [hlone [] high first rfl .nil hhigh] at hfirst
    cases hfirst

/-- An escape in front of which one half of a pair stands is the other half, or stands behind the
pair. -/
theorem low_or_behind_pair {high low spelled rest behind : List Char}
    (hhigh : SpellsCode high code) (hbefore : Units quote (high ++ before))
    {second n : Nat} (hlow : SpellsCode low second) (hspelled : SpellsCode spelled n)
    (heq : '\\' :: 'u' :: (low ++ rest) = before ++ '\\' :: 'u' :: (spelled ++ behind)) :
    (before = [] ∧ second = n) ∨
      ∃ between, before = '\\' :: 'u' :: (low ++ between) ∧ Units quote between ∧
        Units quote ('\\' :: 'u' :: (high ++ '\\' :: 'u' :: low)) ∧
          rest = between ++ '\\' :: 'u' :: (spelled ++ behind) := by
  obtain ⟨hhighUnits, hunits⟩ := hbefore.split hhigh.not_slash
  cases hunits with
  | nil =>
    simp only [List.nil_append, List.cons.injEq, true_and] at heq
    obtain ⟨-, rfl, -⟩ := hlow.unique hspelled heq
    exact .inl ⟨rfl, rfl⟩
  | plain _ hslash => exact absurd (List.cons.inj heq).1.symm hslash
  | @escaped d behindPair hunits =>
    simp only [List.cons_append, List.cons.injEq, true_and] at heq
    obtain ⟨rfl, heq⟩ := heq
    obtain ⟨between, rfl, hrest⟩ := exists_of_append_eq hlow.not_slash heq
    obtain ⟨hlowUnits, hunits⟩ := hunits.split hlow.not_slash
    exact .inr ⟨between, rfl, hunits, .escaped 'u' (hhighUnits.append (.escaped 'u' hlowUnits)),
      hrest⟩

/-- No spelling of a text has an escape that denotes no character. -/
theorem Writes.not_denotesNone {text body spelled after : List Char} (h : Writes quote text body)
    (hquote : '\\' ≠ quote) (hbefore : Units quote before) (hspelled : SpellsCode spelled code)
    (heq : body ++ quote :: after = before ++ '\\' :: 'u' :: (spelled ++ behind)) :
    ¬DenotesNone quote before code behind := by
  intro hnone
  induction h generalizing before with
  | nil =>
    cases hbefore with
    | nil => exact hquote (List.cons.inj heq).1.symm
    | plain hne => exact hne (List.cons.inj heq).1.symm
    | escaped => exact hquote (List.cons.inj heq).1.symm
  | @plain c _ _ _ hslash _ _ _ ih =>
    cases hbefore with
    | nil => exact hslash (List.cons.inj heq).1
    | plain hne hc rest =>
      rw [List.cons_append, List.cons_append] at heq
      obtain ⟨rfl, hrest⟩ := List.cons.inj heq
      exact ih rest hrest (hnone.of_append (.plain hne hc .nil))
    | escaped => exact hslash (List.cons.inj heq).1
  | @escaped piece _ body char hescapes _ ih =>
    rw [List.cons_append, List.append_assoc] at heq
    cases hbefore with
    | nil =>
      obtain ⟨-, heq⟩ := List.cons.inj heq
      exact hescapes.not_denotesNone hspelled heq hnone
    | plain _ hslash => exact hslash (List.cons.inj heq).1.symm
    | @escaped c before hbefore =>
      obtain ⟨first, tail, rfl⟩ : ∃ first tail, piece = first :: tail := by
        cases hescapes <;> exact ⟨_, _, rfl⟩
      simp only [List.cons_append, List.cons.injEq, true_and] at heq
      obtain ⟨rfl, heq⟩ := heq
      rcases hescapes.not_slash_or_pair with hslash |
        ⟨high, low, n, m, rfl, rfl, hhigh, hlow, hisHigh, hisLow⟩
      · obtain ⟨rest, rfl, hrest⟩ := exists_of_append_eq hslash heq
        obtain ⟨htail, hunits⟩ := hbefore.split hslash
        exact ih hunits hrest (hnone.of_append (.escaped first htail))
      · rw [List.append_assoc] at heq
        obtain ⟨rest, rfl, hrest⟩ := exists_of_append_eq hhigh.not_slash heq
        rcases low_or_behind_pair hhigh hbefore hlow hspelled hrest with ⟨rfl, rfl⟩ |
          ⟨between, rfl, hunits, hpair, hbehind⟩
        · rw [List.append_nil] at hnone
          exact not_denotesNone_low hhigh hisHigh hisLow hnone
        · exact ih hunits hbehind (.of_append hpair (by simpa using hnone))

end Refusals

section Tokens

variable {quote : Char}

theorem skip_quote (h : Lexeme.isQuote quote = true) (rest : List Char) (place : Place) :
    Gap.between.skip ⟨quote :: rest, place⟩ = some ⟨quote :: rest, place⟩ := by
  simp only [Lexeme.isQuote, Bool.or_eq_true, beq_iff_eq] at h
  obtain ⟨hblank, hslash⟩ : Text.isBlank quote = false ∧ quote ≠ '/' := by
    rcases h with (rfl | rfl) | rfl <;> decide +kernel
  exact skip_between hblank hslash rest place

theorem readToken_quote (h : Lexeme.isQuote quote = true) (rest : List Char) (place : Place) :
    Lexeme.readToken place quote rest = (read quote ⟨rest, place.next quote⟩).map
      (Prod.map (fun text => .string (String.ofList text)) id) := by
  rw [Lexeme.readToken, if_pos h]

theorem readToken_ne_ok {before spelled behind : List Char} {code : Nat}
    (hquote : Lexeme.isQuote quote = true) (hbefore : Units quote before)
    (hspelled : SpellsCode spelled code) (hnone : DenotesNone quote before code behind)
    (place : Place) (found : Token × Cursor) :
    Lexeme.readToken place quote (before ++ '\\' :: 'u' :: (spelled ++ behind)) ≠ .ok found := by
  rw [readToken_quote hquote]
  intro h
  obtain ⟨⟨text, after⟩, hread, -⟩ := map_eq_ok_iff.mp h
  have hslash := ne_slash_of_isQuote hquote
  obtain ⟨body, htakes, hwrites⟩ := (read_eq_ok_iff hslash).mp hread
  have hbody := htakes.rest_eq
  rw [List.append_assoc] at hbody
  exact hwrites.not_denotesNone hslash hbefore hspelled hbody.symm hnone

/-- Every spelling of a text between quotes is read as the one token of the text, up to the closing
quote. No source has a literal in which an escape denotes no character. -/
theorem lexemes_of_spelling (hquote : Lexeme.isQuote quote = true) :
    (∀ text body, Writes quote text body → ∀ after place,
      lexemesFrom ⟨quote :: (body ++ quote :: after), place⟩ =
        (lexemesFrom ⟨after, place.after (quote :: (body ++ [quote]))⟩).map
          (Prod.map (⟨.string (String.ofList text), place⟩ :: ·) id)) ∧
    ∀ before spelled code behind, Units quote before → SpellsCode spelled code →
      DenotesNone quote before code behind →
        (∀ place, ∃ fault,
          lexemesFrom ⟨quote :: (before ++ '\\' :: 'u' :: (spelled ++ behind)), place⟩ =
            .error fault) ∧
        ∀ source all stop, lexemes source = .ok (all, stop) →
          ∀ front, source = front ++ quote :: (before ++ '\\' :: 'u' :: (spelled ++ behind)) →
            ∀ lexeme ∈ all, lexeme.place ≠ Place.start.after front := by
  constructor
  · intro text body h after place
    have hread : Lexeme.readToken place quote (body ++ quote :: after) =
        .ok (.string (String.ofList text),
          ⟨after, place.after (quote :: (body ++ [quote]))⟩) := by
      rw [readToken_quote hquote, h.read (ne_slash_of_isQuote hquote) after (place.next quote)]
      rfl
    exact lexemesFrom_cons (skip_quote hquote _ place) hread
  · intro before spelled code behind hbefore hspelled hnone
    have hrefused := readToken_ne_ok hquote hbefore hspelled hnone
    constructor
    · intro place
      rw [lexemesFrom_eq, skip_quote hquote]
      dsimp only
      split
      · exact ⟨_, rfl⟩
      · next hread => exact absurd hread (hrefused place _)
    · intro source all stop hall front hsource lexeme hmem hplace
      obtain ⟨earlier, later, rfl⟩ := List.append_of_mem hmem
      obtain ⟨left, spelling, rest, hleft, hstart, hspelledBy, -, -⟩ := exists_seam hall
      have hcut : left ++ (spelling ++ rest) =
          front ++ quote :: (before ++ '\\' :: 'u' :: (spelled ++ behind)) :=
        hleft.symm.trans hsource
      obtain rfl := Place.eq_of_after_eq (hstart.symm.trans hplace) hcut
      cases hspelledBy with
      | intro hread =>
        have hspelling := List.append_cancel_left hcut
        rw [List.cons_append] at hspelling
        obtain ⟨rfl, hrest⟩ := List.cons.inj hspelling
        rw [hrest] at hread
        exact hrefused _ _ hread

def sampleBody : List Char := "\\ud83D\\u{0dE00}\\0\\\r\n$".toList

theorem writes_sampleBody : Writes '`' ['😀', '\x00', '$'] sampleBody := by
  have hhigh : SpellsCode ['d', '8', '3', 'D'] (highHalf '😀') := by
    have hvalue : highHalf '😀' = placeValue 16 [13, 8, 3, 13] := by
      unfold highHalf
      decide
    rw [hvalue]
    exact .four (by decide) rfl
  have hlow : SpellsCode ['{', '0', 'd', 'E', '0', '0', '}'] (lowHalf '😀') := by
    have hvalue : lowHalf '😀' = placeValue 16 [0, 13, 14, 0, 0] := by
      unfold lowHalf
      decide
    rw [hvalue]
    exact @SpellsCode.braced ['0', 'd', 'E', '0', '0'] _ (by decide) (by decide) (by decide)
  apply Writes.escaped (.pair (by decide) hhigh hlow)
  apply Writes.escaped (.null (by rintro d ⟨⟩; rfl))
  apply Writes.escaped .returnAndFeed
  exact .plain (by decide) (by decide) (by decide) (by decide) .nil

theorem lexemes_of_spelling_sample :
    Lexeme.isQuote '`' = true ∧ Writes '`' ['😀', '\x00', '$'] sampleBody ∧
    lexemes ('`' :: (sampleBody ++ "`;".toList)) =
      .ok ([⟨.string "😀\x00$", .start⟩, ⟨.punct ';', ⟨2, 3⟩, 23⟩], ⟨2, 4⟩) ∧
    ∃ fault, lexemes "`\\ud83d\\ud83d\\ude00`".toList = .error fault := by
  have hquote : Lexeme.isQuote '`' = true := rfl
  have hspelled : SpellsCode ['d', '8', '3', 'd'] (placeValue 16 [13, 8, 3, 13]) :=
    .four (by decide) rfl
  have hnone : DenotesNone '`' [] (placeValue 16 [13, 8, 3, 13]) "\\ud83d\\ude00`".toList := by
    apply DenotesNone.high (by decide)
    rintro low n rest hbehind hlow
    obtain ⟨-, rfl, -⟩ := hspelled.unique hlow (List.cons.inj (List.cons.inj hbehind).2).2
    decide
  obtain ⟨hspelling, hrefused⟩ := lexemes_of_spelling hquote
  have hread := hspelling _ _ writes_sampleBody [';'] .start
  refine ⟨hquote, writes_sampleBody, hread.trans (by cbv), ?_⟩
  exact (hrefused [] _ _ _ .nil hspelled hnone).1 .start

end Tokens

end Quotation

end SiteConfig.ConfigModule

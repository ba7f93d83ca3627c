import SiteConfig.Proofs.StringGrammar
/-!
# Spellings

What reading a token takes off a source is its spelling: the same spelling in front of another text
is read as the same token, unless that text goes on with a character of the token.
-/
namespace SiteConfig.ConfigModule

/-- A character with which no name and no numeral goes on. -/
def endsToken (c : Char) : Bool :=
  !(Lexeme.isNamePart c || c.isAlphanum || c == '.' || c == '+' || c == '-')

/-- A text may stand behind a token in place of the rest: it is empty, starts with the same
character, or with one that ends every token. -/
def EndsLike (rest tail : List Char) : Prop :=
  ∀ c ∈ tail.head?, c ∈ rest.head? ∨ endsToken c = true

theorem endsLike_nil (rest : List Char) : EndsLike rest [] := by
  intro c hc
  cases hc

theorem endsLike_of_head {rest tail : List Char} (h : tail.head? = rest.head?) :
    EndsLike rest tail := by
  intro c hc
  exact .inl (h ▸ hc)

theorem EndsLike.stops {rest tail : List Char} (h : EndsLike rest tail) {p : Char → Bool}
    (hends : ∀ c, endsToken c = true → p c = false) (hrest : ∀ c ∈ rest.head?, p c = false) :
    ∀ c ∈ tail.head?, p c = false := by
  intro c hc
  rcases h c hc with hsame | hend
  · exact hrest c hsame
  · exact hends c hend

theorem Spans.congr {goesOn : Char → Char → Bool} {last : Char} {kept rest tail : List Char}
    (h : Spans goesOn last kept rest)
    (hends : ∀ last c, endsToken c = true → goesOn last c = false) (htail : EndsLike rest tail) :
    Spans goesOn last kept tail := by
  induction h with
  | @stop last _ h => exact .stop (htail.stops (hends last) h)
  | next h _ ih => exact .next h (ih htail)

namespace Quotation

theorem read_spelled {quote : Char} {cursor behind : Cursor} {text : List Char}
    (hquote : Lexeme.isQuote quote = true) (h : read quote cursor = .ok (text, behind)) :
    ∃ spelled, Takes cursor spelled behind ∧ ∀ tail place,
      read quote ⟨spelled ++ tail, place⟩ = .ok (text, ⟨tail, place.after spelled⟩) := by
  have hslash := ne_slash_of_isQuote hquote
  obtain ⟨body, htakes, hbody⟩ := (read_eq_ok_iff hslash).mp h
  refine ⟨body ++ [quote], htakes, ?_⟩
  intro tail place
  rw [List.append_assoc]
  exact hbody.read hslash tail place

end Quotation

namespace Numeral

theorem goesOn_of_endsToken (marked : Bool) (last c : Char) (h : endsToken c = true) :
    goesOn marked last c = false := by
  simp [endsToken, Lexeme.isNamePart, Lexeme.isNameStart] at h
  simp [goesOn, h]

theorem radix?_eq_none_of_head {first : Char} {rest : List Char}
    (h : ∀ c ∈ rest.head?, c.isAlphanum = false) : radix? (first :: rest) = none := by
  unfold radix?
  split
  case h_7 => rfl
  all_goals
    next heq =>
    obtain ⟨rfl, rfl⟩ := List.cons.inj heq
    cases h _ rfl

theorem radix?_cons_cons (first second : Char) (rest : List Char) :
    radix? (first :: second :: rest) = radix? [first, second] := by
  unfold radix?
  split <;> simp_all

theorem isAlphanum_of_not_goesOn {marked : Bool} {last c : Char}
    (h : goesOn marked last c = false) : c.isAlphanum = false := by
  simp only [goesOn, Bool.or_eq_false_iff] at h
  exact h.1.1.1

theorem isAlphanum_of_endsToken {c : Char} (h : endsToken c = true) : c.isAlphanum = false :=
  isAlphanum_of_not_goesOn (goesOn_of_endsToken true c c h)

theorem radix?_spelled {first last : Char} {marked : Bool} {kept rest tail : List Char}
    (h : Spans (goesOn marked) last kept rest) (htail : EndsLike rest tail) :
    radix? (first :: (kept ++ tail)) = radix? (first :: (kept ++ rest)) := by
  cases h with
  | stop h =>
    have hstop : ∀ c ∈ rest.head?, c.isAlphanum = false := by
      intro c hc
      exact isAlphanum_of_not_goesOn (h c hc)
    have hstop' := htail.stops (fun c hc => isAlphanum_of_endsToken hc) hstop
    rw [List.nil_append, List.nil_append, radix?_eq_none_of_head hstop,
      radix?_eq_none_of_head hstop']
  | @next _ c kept _ _ _ =>
    rw [List.cons_append, List.cons_append, radix?_cons_cons, radix?_cons_cons first c (kept ++ _)]

theorem read_spelled {place : Place} {first : Char} {rest : List Char} {n : Number}
    {behind : Cursor} (h : read place first rest = .ok (n, behind)) :
    ∃ kept, Takes ⟨rest, place.next first⟩ kept behind ∧
      (kept = [] → ∀ c ∈ behind.rest.head?, c.isDigit = false) ∧
      ∀ tail place, EndsLike behind.rest tail → read place first (kept ++ tail) =
        .ok (n, ⟨tail, (place.next first).after kept⟩) := by
  obtain ⟨kept, after, hspan, htakes, hspans⟩ := Cursor.exists_spans
    (goesOn (radix? (first :: rest)).isSome) first ⟨rest, place.next first⟩
  simp only [read, hspan] at h
  split at h
  · next m hm =>
    cases h
    refine ⟨kept, htakes, ?_, ?_⟩
    · rintro rfl c hc
      cases hspans with
      | stop hstop =>
        have halnum := isAlphanum_of_not_goesOn (hstop c hc)
        simp only [Char.isAlphanum, Bool.or_eq_false_iff] at halnum
        exact halnum.2
    · intro tail place hends
      have hradix : radix? (first :: (kept ++ tail)) = radix? (first :: (kept ++ behind.rest)) :=
        radix?_spelled hspans hends
      rw [← htakes.rest_eq] at hradix
      simp only [read, hradix, (hspans.congr (goesOn_of_endsToken _) hends).span, hm]
  · cases h

end Numeral

namespace Lexeme

theorem isNamePart_of_endsToken {c : Char} (h : endsToken c = true) : isNamePart c = false := by
  simp only [endsToken, Bool.not_eq_true', Bool.or_eq_false_iff] at h
  exact h.1.1.1.1

theorem isDigit_of_endsToken {c : Char} (h : endsToken c = true) : c.isDigit = false := by
  have halnum := Numeral.isAlphanum_of_endsToken h
  simp only [Char.isAlphanum, Bool.or_eq_false_iff] at halnum
  exact halnum.2

theorem startsNumeral_congr {first : Char} {rest tail : List Char} (htail : EndsLike rest tail)
    (h : startsNumeral first rest = false) : startsNumeral first tail = false := by
  simp only [startsNumeral, Bool.or_eq_false_iff, Bool.and_eq_false_iff, Option.any_eq_false] at h ⊢
  refine ⟨h.1, ?_⟩
  rcases h.2 with hpoint | hdigit
  · exact .inl hpoint
  · right
    have hstops := htail.stops (fun c hc => isDigit_of_endsToken hc) (by simpa using hdigit)
    simpa using hstops

theorem spans_name {last : Char} {kept rest : List Char} (hkept : ∀ c ∈ kept, isNamePart c = true)
    (hrest : ∀ c ∈ rest.head?, isNamePart c = false) :
    Spans (fun _ => isNamePart) last kept rest := by
  induction kept generalizing last with
  | nil => exact .stop hrest
  | cons c kept ih =>
    obtain ⟨hc, hkept⟩ := List.forall_mem_cons.mp hkept
    exact .next hc (ih hkept)

theorem startsNumeral_of_ne_point {first : Char} (h : first ≠ '.') (rest : List Char) :
    startsNumeral first rest = first.isDigit := by
  simp [startsNumeral, h]

theorem ne_point_of_isNameStart {first : Char} (h : isNameStart first = true) : first ≠ '.' := by
  rintro rfl
  exact absurd h (by decide)

theorem not_isBlank_slash : Text.isBlank '/' = false := by
  decide +kernel

theorem readToken_slash (place : Place) (rest : List Char) :
    readToken place '/' rest = .ok (.punct '/', ⟨rest, place.next '/'⟩) := by
  have hquote : isQuote '/' = false := by decide
  have hname : isNameStart '/' = false := by decide +kernel
  simp [readToken, hquote, hname, startsNumeral]

theorem startsNumeral_spelled {first : Char} {kept after : List Char}
    (hnumeral : startsNumeral first (kept ++ after) = true)
    (hdigit : kept = [] → ∀ c ∈ after.head?, c.isDigit = false) (tail : List Char) :
    startsNumeral first (kept ++ tail) = true := by
  cases kept with
  | cons c kept => exact hnumeral
  | nil =>
    have hnone : after.head?.any Char.isDigit = false := by
      rw [Option.any_eq_false]
      intro c hc
      simpa using hdigit rfl c hc
    rw [List.nil_append, startsNumeral, hnone, Bool.and_false, Bool.or_false] at hnumeral
    simp [startsNumeral, hnumeral]

theorem readToken_identifier {first : Char} {kept rest tail : List Char}
    (hquote : isQuote first = false) (hname : isNameStart first = true)
    (hnumeral : startsNumeral first (kept ++ rest) = false)
    (h : Spans (fun _ => isNamePart) first kept rest) (hends : EndsLike rest tail)
    (place : Place) : readToken place first (kept ++ tail) =
      .ok (.name (String.ofList (first :: kept)), ⟨tail, (place.next first).after kept⟩) := by
  have hstarts : startsNumeral first (kept ++ tail) = false := by
    rw [startsNumeral_of_ne_point (ne_point_of_isNameStart hname)] at hnumeral ⊢
    exact hnumeral
  have hspans := h.congr (fun _ _ hc => isNamePart_of_endsToken hc) hends
  simp [readToken, hquote, hstarts, hname, hspans.span]

/-- A token is read off its spelling, whatever stands behind it that does not go on with it. -/
theorem readToken_spelled {place : Place} {first : Char} {rest : List Char} {token : Token}
    {behind : Cursor} (h : readToken place first rest = .ok (token, behind)) :
    ∃ spelled, Takes ⟨rest, place.next first⟩ spelled behind ∧
      ∀ tail place, EndsLike behind.rest tail → readToken place first (spelled ++ tail) =
        .ok (token, ⟨tail, (place.next first).after spelled⟩) := by
  unfold readToken at h
  split at h
  · next hquote =>
    obtain ⟨⟨s, after⟩, hread, heq⟩ := map_eq_ok_iff.mp h
    cases heq
    obtain ⟨spelled, htakes, htail⟩ := Quotation.read_spelled hquote hread
    refine ⟨spelled, htakes, ?_⟩
    intro tail place _
    simp [readToken, hquote, htail, Except.map]
  · next hquote =>
    split at h
    · next hnumeral =>
      obtain ⟨⟨n, after⟩, hread, heq⟩ := map_eq_ok_iff.mp h
      cases heq
      obtain ⟨kept, htakes, hdigit, htail⟩ := Numeral.read_spelled hread
      rw [show rest = kept ++ after.rest from htakes.rest_eq] at hnumeral
      refine ⟨kept, htakes, ?_⟩
      intro tail place hends
      have hstarts := startsNumeral_spelled hnumeral hdigit tail
      simp [readToken, hquote, hstarts, htail tail place hends, Except.map]
    · next hnumeral =>
      rw [Bool.not_eq_true] at hquote hnumeral
      split at h
      · next hname =>
        obtain ⟨kept, after, hspan, htakes, hspans⟩ :=
          Cursor.exists_spans (fun _ => isNamePart) first ⟨rest, place.next first⟩
        rw [hspan] at h
        cases h
        rw [show rest = kept ++ after.rest from htakes.rest_eq] at hnumeral
        refine ⟨kept, htakes, ?_⟩
        intro tail place hends
        exact readToken_identifier hquote hname hnumeral hspans hends place
      · next hname =>
        cases h
        refine ⟨[], .nil _, ?_⟩
        intro tail place hends
        have hstarts := startsNumeral_congr hends hnumeral
        simp [readToken, hquote, hstarts, hname]

/-- A token that does not end with the text is the same if the text goes on. -/
theorem readToken_append {place : Place} {first : Char} {rest : List Char} {token : Token}
    {behind : Cursor} (h : readToken place first rest = .ok (token, behind))
    (hbehind : behind.rest ≠ []) (more : List Char) :
    readToken place first (rest ++ more) = .ok (token, ⟨behind.rest ++ more, behind.place⟩) := by
  obtain ⟨spelled, htakes, hspelled⟩ := readToken_spelled h
  rw [show rest = spelled ++ behind.rest from htakes.rest_eq, htakes.place_eq, List.append_assoc]
  apply hspelled
  apply endsLike_of_head
  obtain ⟨c, after, hrest⟩ := List.exists_cons_of_ne_nil hbehind
  rw [hrest]
  rfl

end Lexeme

end SiteConfig.ConfigModule

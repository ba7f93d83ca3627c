import SiteConfig.Proofs.Grammar
import SiteConfig.Proofs.Lexing
/-!
# Tilings

A source that has tokens is a row of gaps and spellings. The place that is recorded with a token, and
that of an error, is counted on the text in front of it.
-/
namespace SiteConfig.ConfigModule

/-- Blanks and comments in a row. At the end of a source a line comment needs no line feed. -/
inductive Trivia (atEnd : Bool) : List Char → Prop
  | nil : Trivia atEnd []
  | blank {c : Char} {behind : List Char} (isBlank : Text.isBlank c = true)
      (rest : Trivia atEnd behind) : Trivia atEnd (c :: behind)
  | line {body behind : List Char} (sameLine : '\n' ∉ body) (rest : Trivia atEnd behind) :
      Trivia atEnd ('/' :: '/' :: (body ++ '\n' :: behind))
  | block {body behind : List Char} (unclosed : ¬['*', '/'] <:+: body)
      (rest : Trivia atEnd behind) : Trivia atEnd ('/' :: '*' :: (body ++ '*' :: '/' :: behind))
  | lastLine {body : List Char} (ended : atEnd = true) (sameLine : '\n' ∉ body) :
      Trivia atEnd ('/' :: '/' :: body)

/-- A token with its spelling, and the gap in front of it. -/
structure Tile where
  gap : List Char
  spelling : List Char
  token : Token
  isGap : Trivia false gap
  spelling_ne_nil : spelling ≠ []
  lexemes_spelling : lexemes spelling = .ok ([⟨token, .start⟩], .counted spelling)

def Tile.text (tile : Tile) : List Char := tile.gap ++ tile.spelling

/-- The lexemes of tiles in a row that starts at a place. -/
def Tile.lexemes : Place → List Tile → List Lexeme
  | _, [] => []
  | place, tile :: tiles => ⟨tile.token, place.after tile.gap⟩ :: lexemes (place.after tile.text) tiles

section Gaps

variable {atEnd : Bool} {c : Char} {w : List Char}

theorem Trivia.line_cons (hc : c ≠ '\n') (h : Trivia atEnd ('/' :: '/' :: w)) :
    Trivia atEnd ('/' :: '/' :: c :: w) := by
  cases h with
  | blank hblank =>
    rw [Lexeme.not_isBlank_slash] at hblank
    cases hblank
  | @line body behind hbody hrest =>
    have hsame : '\n' ∉ c :: body := by simp [hbody, Ne.symm hc]
    exact .line hsame hrest
  | lastLine hended hbody =>
    have hsame : '\n' ∉ c :: w := by simp [hbody, Ne.symm hc]
    exact .lastLine hended hsame

theorem Trivia.block_cons (hc : c = '*' → w.head? ≠ some '/')
    (h : Trivia atEnd ('/' :: '*' :: w)) : Trivia atEnd ('/' :: '*' :: c :: w) := by
  cases h with
  | blank hblank =>
    rw [Lexeme.not_isBlank_slash] at hblank
    cases hblank
  | @block body behind hbody hrest =>
    have hunclosed : ¬['*', '/'] <:+: c :: body := by
      intro hclosed
      rcases List.infix_cons_iff.mp hclosed with hstart | hlater
      · obtain ⟨rfl, hslash⟩ := List.cons_prefix_cons.mp hstart
        obtain ⟨more, rfl⟩ := hslash
        exact hc rfl rfl
      · exact hbody hlater
    exact .block hunclosed hrest

def Gap.opening : Gap → List Char
  | .between => []
  | .lineComment => ['/', '/']
  | .blockComment => ['/', '*']

/-- What is skipped are blanks and comments, up to a character that starts neither. -/
theorem Gap.exists_trivia {gap : Gap} {cursor behind : Cursor}
    (h : gap.skip cursor = some behind) :
    ∃ w, Takes cursor w behind ∧ Trivia behind.rest.isEmpty (gap.opening ++ w) := by
  obtain ⟨source, place⟩ := cursor
  unfold skip at h
  dsimp only at h
  fun_induction skip.go gap source place with
  | case1 => cases h
  | case2 gap place hgap =>
    cases h
    refine ⟨[], .nil _, ?_⟩
    cases gap with
    | between => exact .nil
    | lineComment => exact .lastLine rfl (by simp)
    | blockComment => exact (hgap rfl).elim
  | case3 source place ih =>
    obtain ⟨w, htakes, hw⟩ := ih h
    exact ⟨'/' :: '/' :: w, htakes.cons.cons, hw⟩
  | case4 source place ih =>
    obtain ⟨w, htakes, hw⟩ := ih h
    exact ⟨'/' :: '*' :: w, htakes.cons.cons, hw⟩
  | case5 c source place _ _ hblank ih =>
    obtain ⟨w, htakes, hw⟩ := ih h
    exact ⟨c :: w, htakes.cons, .blank hblank hw⟩
  | case6 =>
    cases h
    exact ⟨[], .nil _, .nil⟩
  | case7 c source place ih =>
    obtain ⟨w, htakes, hw⟩ := ih h
    refine ⟨c :: w, htakes.cons, ?_⟩
    by_cases hc : c = '\n'
    · rw [if_pos hc] at hw
      subst hc
      exact .line (by simp) hw
    · rw [if_neg hc] at hw
      exact hw.line_cons hc
  | case8 source place ih =>
    obtain ⟨w, htakes, hw⟩ := ih h
    exact ⟨'*' :: '/' :: w, htakes.cons.cons, .block (by simp) hw⟩
  | case9 c source place hclosed ih =>
    obtain ⟨w, htakes, hw⟩ := ih h
    refine ⟨c :: w, htakes.cons, hw.block_cons ?_⟩
    intro hc hhead
    obtain ⟨more, rfl⟩ := List.head?_eq_some_iff.mp hhead
    exact hclosed _ hc htakes.rest_eq

theorem Gap.not_isBlank_of_skip {gap : Gap} {cursor : Cursor} {first : Char} {rest : List Char}
    {place : Place} (h : gap.skip cursor = some ⟨first :: rest, place⟩) :
    Text.isBlank first = false := by
  obtain ⟨source, start⟩ := cursor
  unfold skip at h
  dsimp only at h
  fun_induction skip.go gap source start with
  | case1 => cases h
  | case2 => cases h
  | case6 c source _ _ _ hblank =>
    cases h
    simpa using hblank
  | _ =>
    rename_i ih
    exact ih h

end Gaps

section Spellings

/-- A token is spelled alone as it is in front of the rest. -/
theorem exists_spelling {first : Char} {rest : List Char} {place : Place} {token : Token}
    {behind : Cursor} (hblank : Text.isBlank first = false)
    (h : Lexeme.readToken place first rest = .ok (token, behind)) :
    ∃ spelled, Takes ⟨first :: rest, place⟩ (first :: spelled) behind ∧
      lexemes (first :: spelled) = .ok ([⟨token, .start⟩], .counted (first :: spelled)) := by
  obtain ⟨spelled, htakes, htail⟩ := Lexeme.readToken_spelled h
  refine ⟨spelled, htakes.cons, ?_⟩
  have hskip : Gap.between.skip (.start (first :: spelled)) = some ⟨first :: spelled, .start⟩ := by
    by_cases hslash : first = '/'
    · subst hslash
      rw [Lexeme.readToken_slash] at h
      cases h
      obtain rfl := List.self_eq_append_left.mp htakes.rest_eq
      rfl
    · exact skip_between hblank hslash spelled .start
  have hread := htail [] .start (endsLike_nil behind.rest)
  rw [List.append_nil, ← Place.after_cons, Place.after_start] at hread
  have hend : ∀ place : Place, lexemesFrom ⟨[], place⟩ = .ok ([], place.position) := by
    intro place
    rw [lexemesFrom_eq]
    rfl
  rw [lexemes, lexemesFrom_cons hskip hread, hend]
  rfl

end Spellings

section Tiles

open Tile

variable {tiles : List Tile} {last : List Char}

theorem Tile.length_lexemes (place : Place) (tiles : List Tile) :
    (lexemes place tiles).length = tiles.length := by
  induction tiles generalizing place with
  | nil => rfl
  | cons tile tiles ih => rw [lexemes, List.length_cons, ih, List.length_cons]

theorem Tile.getElem?_lexemes (place : Place) (before : List Tile) (tile : Tile)
    (behind : List Tile) : (lexemes place (before ++ tile :: behind))[before.length]? =
      some ⟨tile.token, place.after (before.flatMap Tile.text ++ tile.gap)⟩ := by
  induction before generalizing place with
  | nil => rfl
  | cons first before ih =>
    rw [List.flatMap_cons, List.append_assoc, Place.after_append]
    exact ih (place.after first.text)

theorem Tile.exists_of_mem_lexemes {place : Place} {lexeme : Lexeme}
    (h : lexeme ∈ lexemes place tiles) : ∃ before tile behind,
      tiles = before ++ tile :: behind ∧
        lexeme.place = place.after (before.flatMap Tile.text ++ tile.gap) := by
  induction tiles generalizing place with
  | nil => cases h
  | cons first tiles ih =>
    rcases List.mem_cons.mp h with rfl | h
    · exact ⟨[], first, tiles, rfl, rfl⟩
    · obtain ⟨before, tile, behind, rfl, hplace⟩ := ih h
      exact ⟨first :: before, tile, behind, rfl, by simpa using hplace⟩

/-- The lexemes from a cursor on are those of tiles that fill the rest of the source, and the end is
behind all of them. -/
theorem exists_tiles {cursor : Cursor} {all : List Lexeme} {stop : Position}
    (h : lexemesFrom cursor = .ok (all, stop)) :
    ∃ tiles last, cursor.rest = tiles.flatMap Tile.text ++ last ∧ Trivia true last ∧
      all = Tile.lexemes cursor.place tiles ∧
      stop = (cursor.place.after cursor.rest).position := by
  fun_induction lexemesFrom cursor generalizing all stop with
  | case1 => cases h
  | case2 cursor place hskip =>
    cases h
    obtain ⟨w, htakes, hw⟩ := Gap.exists_trivia hskip
    refine ⟨[], w, by simp [htakes.rest_eq], hw, rfl, ?_⟩
    rw [htakes.rest_eq, List.append_nil, ← htakes.place_eq]
  | case3 => cases h
  | case4 cursor first rest place hskip token behind hread _ ih =>
    obtain ⟨⟨later, stop⟩, hlater, heq⟩ := map_eq_ok_iff.mp h
    cases heq
    obtain ⟨tiles, last, hrest, hlast, rfl, rfl⟩ := ih hlater
    obtain ⟨gap, hgap, htrivia⟩ := Gap.exists_trivia hskip
    obtain ⟨spelled, hspelled, hlexemes⟩ := exists_spelling (Gap.not_isBlank_of_skip hskip) hread
    let tile : Tile := ⟨gap, first :: spelled, token, htrivia, by simp, hlexemes⟩
    have htile : Takes cursor tile.text behind := hgap.append hspelled
    refine ⟨tile :: tiles, last, ?_, hlast, ?_, ?_⟩
    · rw [htile.rest_eq, hrest, List.flatMap_cons, List.append_assoc]
    · rw [Tile.lexemes, ← htile.place_eq, ← hgap.place_eq]
    · rw [htile.rest_eq, Place.after_append, ← htile.place_eq]
      rfl

end Tiles

section Faults

variable {cursor behind : Cursor} {position : Position} {complaint : Complaint}

/-- A position that the cursor reaches when it goes over some of the rest of the source. -/
def Cursor.Reaches (cursor : Cursor) (position : Position) : Prop :=
  ∃ text behind, Takes cursor text behind ∧ position = behind.place.position

theorem Cursor.reaches_self (cursor : Cursor) : cursor.Reaches cursor.place.position :=
  ⟨[], cursor, .nil cursor, rfl⟩

theorem Cursor.Reaches.of_takes {text : List Char} (h : behind.Reaches position)
    (htakes : Takes cursor text behind) : cursor.Reaches position := by
  obtain ⟨more, last, hmore, hposition⟩ := h
  exact ⟨text ++ more, last, htakes.append hmore, hposition⟩

theorem Quotation.reaches_of_read {quote : Char}
    (h : read quote cursor = .error (.malformed position complaint)) : cursor.Reaches position := by
  fun_induction read quote cursor with
  | case4 =>
    cases h
    exact Cursor.reaches_self _
  | case5 place first rest found _ hescape _ ih =>
    obtain ⟨spelled, htakes, -⟩ := escape_eq_ok_iff.mp hescape
    exact (ih (map_eq_error_iff.mp h)).of_takes htakes.cons.cons
  | case7 =>
    cases h
    exact Cursor.reaches_self _
  | case8 c rest place _ _ _ _ ih =>
    exact (ih (map_eq_error_iff.mp h)).of_takes (.next c rest place)
  | _ => cases h

theorem Lexeme.reaches_of_readToken {place : Place} {first : Char} {rest : List Char}
    (h : readToken place first rest = .error (.malformed position complaint)) :
    Cursor.Reaches ⟨first :: rest, place⟩ position := by
  unfold readToken at h
  split at h
  · exact (Quotation.reaches_of_read (map_eq_error_iff.mp h)).of_takes (.next first rest place)
  · split at h
    · have hnumeral := map_eq_error_iff.mp h
      simp only [Numeral.read] at hnumeral
      split at hnumeral <;> cases hnumeral
      exact Cursor.reaches_self _
    · split at h <;> cases h

theorem reaches_of_lexemesFrom (h : lexemesFrom cursor = .error (.malformed position complaint)) :
    cursor.Reaches position := by
  fun_induction lexemesFrom cursor with
  | case1 => cases h
  | case2 => cases h
  | case3 cursor first rest place hskip error hread =>
    cases h
    obtain ⟨gap, hgap, -⟩ := Gap.exists_trivia hskip
    exact (Lexeme.reaches_of_readToken hread).of_takes hgap
  | case4 cursor first rest place hskip token behind hread _ ih =>
    obtain ⟨gap, hgap, -⟩ := Gap.exists_trivia hskip
    obtain ⟨spelled, htakes, -⟩ := Lexeme.readToken_spelled hread
    exact ((ih (map_eq_error_iff.mp h)).of_takes htakes.cons).of_takes hgap

theorem Cursor.Reaches.exists_counted {source : List Char} (h : (start source).Reaches position) :
    ∃ before rest, source = before ++ rest ∧ position = .counted before := by
  obtain ⟨before, behind, htakes, rfl⟩ := h
  refine ⟨before, behind.rest, htakes.rest_eq, ?_⟩
  rw [htakes.place_eq]
  exact congrArg Place.position (Place.after_start before)

end Faults

section Places

variable {source : List Char} {all : List Lexeme} {stop : Position}

theorem stop_eq_counted (h : lexemes source = .ok (all, stop)) : stop = .counted source := by
  obtain ⟨_, _, -, -, -, rfl⟩ := exists_tiles h
  exact congrArg Place.position (Place.after_start source)

theorem exists_place_of_mem (h : lexemes source = .ok (all, stop)) {lexeme : Lexeme}
    (hmem : lexeme ∈ all) :
    ∃ before rest, source = before ++ rest ∧ lexeme.place = Place.start.after before := by
  obtain ⟨tiles, last, hsource, -, rfl, -⟩ := exists_tiles h
  obtain ⟨before, tile, behind, rfl, hplace⟩ := Tile.exists_of_mem_lexemes hmem
  refine ⟨_, tile.spelling ++ (behind.flatMap Tile.text ++ last), ?_, hplace⟩
  simpa [Tile.text] using hsource

theorem positionOf_cases (stop : Position) (rest : List Lexeme) (remaining : Nat) :
    positionOf stop rest remaining = stop ∨
      ∃ lexeme ∈ rest, positionOf stop rest remaining = lexeme.place.position := by
  unfold positionOf
  split
  · exact .inl rfl
  · next lexeme later hdrop =>
    right
    refine ⟨lexeme, ?_, rfl⟩
    apply List.mem_of_mem_drop (i := rest.length - remaining)
    rw [hdrop]
    exact List.mem_cons_self

theorem exists_counted_of_malformed {position : Position} {complaint : Complaint}
    (h : evaluateChars source = .error (.malformed position complaint)) :
    ∃ before rest, source = before ++ rest ∧ position = .counted before := by
  rcases malformed_cases h with hlexemes | ⟨first, second, rest, stop, fault, hall, -, rfl, -⟩
  · exact (reaches_of_lexemesFrom hlexemes).exists_counted
  · rcases positionOf_cases stop rest fault.remaining with hstop | ⟨lexeme, hmem, hposition⟩
    · exact ⟨source, [], by simp, hstop.trans (stop_eq_counted hall)⟩
    · obtain ⟨before, behind, hsource, hplace⟩ :=
        exists_place_of_mem hall (List.mem_cons_of_mem _ (List.mem_cons_of_mem _ hmem))
      refine ⟨before, behind, hsource, ?_⟩
      rw [hposition, hplace, Place.after_start]

end Places

/-- A source that has tokens is tiled by gaps and spellings. What is recorded with a lexeme are the
bytes, the lines and the columns of the text in front of it, and with the end of the source those of
all of it. A fault of the tokens is placed in the same way, and every malformed export somewhere in
the source. -/
theorem lexemes_tile_source :
    (∀ source all stop, lexemes source = .ok (all, stop) →
      ∃ (tiles : List Tile) (last : List Char),
        source = tiles.flatMap Tile.text ++ last ∧ Trivia true last ∧ tiles.length = all.length ∧
        (∀ before tile behind, tiles = before ++ tile :: behind → ∃ lexeme,
          all[before.length]? = some lexeme ∧ lexeme.token = tile.token ∧
          lexeme.place.offset =
            (String.ofList (before.flatMap Tile.text ++ tile.gap)).utf8ByteSize ∧
          lexeme.place.position = .counted (before.flatMap Tile.text ++ tile.gap)) ∧
        stop = .counted source) ∧
    (∀ source position complaint, lexemes source = .error (.malformed position complaint) →
      ∃ before rest, source = before ++ rest ∧ position = .counted before) ∧
    ∀ source position complaint, evaluate source = .error (.malformed position complaint) →
      ∃ count ≤ source.length, position = .counted (source.toList.take count) := by
  refine ⟨?_, ?_, ?_⟩
  · intro source all stop h
    obtain ⟨tiles, last, hsource, hlast, rfl, -⟩ := exists_tiles h
    refine ⟨tiles, last, hsource, hlast, (Tile.length_lexemes _ tiles).symm, ?_,
      stop_eq_counted h⟩
    rintro before tile behind rfl
    refine ⟨_, Tile.getElem?_lexemes _ before tile behind, rfl, ?_⟩
    have hplace := Place.after_start (before.flatMap Tile.text ++ tile.gap)
    exact ⟨congrArg Place.offset hplace, congrArg Place.position hplace⟩
  · intro source position complaint h
    exact (reaches_of_lexemesFrom h).exists_counted
  · intro source position complaint h
    obtain ⟨before, rest, hsource, hposition⟩ := exists_counted_of_malformed h
    refine ⟨before.length, ?_, ?_⟩
    · rw [← String.length_toList, hsource]
      simp
    · rw [hsource, List.take_left, hposition]

theorem lexemes_tile_source_samples :
    (lexemes "/* é **/a\n.// b".toList =
        .ok ([⟨.name "a", ⟨1, 9⟩, 9⟩, ⟨.punct '.', ⟨2, 1⟩, 11⟩], ⟨2, 6⟩) ∧
      ∃ (tiles : List Tile) (last : List Char),
        "/* é **/a\n.// b".toList = tiles.flatMap Tile.text ++ last ∧ Trivia true last ∧
          tiles.length = 2) ∧
    (lexemes "a\n 0x".toList = .error (.malformed ⟨2, 2⟩ (.invalidNumber "0x")) ∧
      ∃ before rest, "a\n 0x".toList = before ++ rest ∧ ⟨2, 2⟩ = Position.counted before) ∧
    evaluate "export default\n [,]" = .error (.malformed ⟨2, 3⟩ .arrayHole) ∧
    ∃ count ≤ "export default\n [,]".length,
      ⟨2, 3⟩ = Position.counted ("export default\n [,]".toList.take count) := by
  have hlexemes : lexemes "/* é **/a\n.// b".toList =
      .ok ([⟨.name "a", ⟨1, 9⟩, 9⟩, ⟨.punct '.', ⟨2, 1⟩, 11⟩], ⟨2, 6⟩) := by
    cbv
  have hfault : lexemes "a\n 0x".toList =
      .error (.malformed ⟨2, 2⟩ (.invalidNumber "0x")) := by
    cbv
  have herror : evaluate "export default\n [,]" = .error (.malformed ⟨2, 3⟩ .arrayHole) := by
    cbv
  obtain ⟨tiles, last, hsource, hlast, hlength, -⟩ := lexemes_tile_source.1 _ _ _ hlexemes
  exact ⟨⟨hlexemes, tiles, last, hsource, hlast, hlength⟩,
    ⟨hfault, lexemes_tile_source.2.1 _ _ _ hfault⟩,
    herror, lexemes_tile_source.2.2 _ _ _ herror⟩

end SiteConfig.ConfigModule

import SiteConfig.Proofs.NumeralTokens
/-!
# Values of numeric literals

A module that exports a numeric literal, with or without a sign, evaluates to the number that the
literal denotes by the places of its digits: the exact integer where a word holds it, else the
nearest floating-point number, if that is finite.
-/
namespace SiteConfig.ConfigModule

open Numeral

/-- The outcome for a literal that starts in a column of the first line, by its number. -/
def outcomeAt (column : Nat) (text : List Char) : Option Number → Except Error Value
  | some n => .ok (.number n)
  | none => .error (.malformed ⟨1, column⟩ (.invalidNumber (String.ofList text)))

/-- The opposite of a whole number, a floating-point number where no signed word holds it. -/
def oppositeWord (n : Nat) (h : n < 2 ^ 64) : Number :=
  if hsigned : n ≤ 2 ^ 63 then .integer ⟨-n, by omega⟩
  else .float (Binary64.Finite.ofInt n (by omega)).neg

def Numeral.Denoted.opposite? : Denoted → Option Number
  | .plain n =>
    if h : n < 2 ^ 64 then some (oppositeWord n h)
    else (nearest? ⟨false, n, 0⟩).map fun x => .float x.neg
  | .marked n => if h : n < 2 ^ 64 then some (oppositeWord n h) else none
  | .decimal c e => (nearest? ⟨false, c, e⟩).map fun x => .float x.neg

theorem neg_integer {n : Nat} (h : n < 2 ^ 64) {m : WholeNumber} (hm : m.val = n) :
    Number.neg (.integer m) = oppositeWord n h := by
  obtain ⟨_, hrange⟩ := m
  obtain rfl := hm
  unfold oppositeWord
  simp only [Number.neg]
  split
  · next hsigned => rw [dif_pos (by omega)]
  · next hsigned =>
    rw [dif_neg (by omega)]
    rfl

theorem opposite?_eq (denoted : Denoted) :
    denoted.opposite? = denoted.number?.map Number.neg := by
  cases denoted with
  | plain n =>
    simp only [Denoted.opposite?, Denoted.number?]
    split
    · next h => rw [Option.map_some, neg_integer h rfl]
    · rw [Option.map_map]
      rfl
  | marked n =>
    simp only [Denoted.opposite?, Denoted.number?]
    split
    · next h => rw [Option.map_some, neg_integer h rfl]
    · rfl
  | decimal c e =>
    rw [Denoted.opposite?, Denoted.number?, Option.map_map]
    rfl

section Exports

variable {text : List Char}

def signs : List (List Char) := [[], ['+'], ['-']]

def exporting (sign text : List Char) : String :=
  String.ofList ("export default ".toList ++ (sign ++ text))

theorem lexemesFrom_nil (place : Place) : lexemesFrom ⟨[], place⟩ = .ok ([], place.position) := by
  rw [lexemesFrom_eq]
  rfl

theorem lexemesFrom_word {first : Char} {word : List Char} (hfirst : first.isAlpha = true)
    (hword : word.all Char.isAlpha = true) (rest : List Char) (place : Place) :
    lexemesFrom ⟨first :: (word ++ ' ' :: rest), place⟩ =
      (lexemesFrom ⟨rest, place.after (first :: word ++ [' '])⟩).map
        (Prod.map (⟨.name (String.ofList (first :: word)), place⟩ :: ·) id) := by
  have hdelimited : Delimited (' ' :: rest) := delimited_cons (by decide) rest
  have hread := readToken_name hfirst (List.all_eq_true.mp hword) hdelimited place
  have hblank : Gap.between.skip ⟨' ' :: rest, (place.next first).after word⟩ =
      Gap.between.skip ⟨rest, place.after (first :: word ++ [' '])⟩ := by
    rw [List.cons_append, Place.after_cons, Place.after_append]
    rfl
  rw [lexemesFrom_cons (skip_letter hfirst _ place) hread, lexemesFrom_congr hblank]

def exportPlace : Place := ⟨⟨1, 16⟩, 15⟩

theorem lexemes_export (rest : List Char) :
    lexemes ("export default ".toList ++ rest) = (lexemesFrom ⟨rest, exportPlace⟩).map
      (Prod.map (fun all => ⟨.name "export", .start⟩ :: ⟨.name "default", ⟨1, 8⟩, 7⟩ :: all) id) := by
  have hexport := @lexemesFrom_word 'e' ['x', 'p', 'o', 'r', 't'] rfl rfl
    ("default ".toList ++ rest) .start
  have hdefault := @lexemesFrom_word 'd' ['e', 'f', 'a', 'u', 'l', 't'] rfl rfl rest ⟨⟨1, 8⟩, 7⟩
  refine Eq.trans hexport ?_
  refine (congrArg (Except.map _) hdefault).trans ?_
  rw [show Place.after ⟨⟨1, 8⟩, 7⟩ ('d' :: ['e', 'f', 'a', 'u', 'l', 't'] ++ [' ']) = exportPlace
    from rfl]
  cases lexemesFrom ⟨rest, exportPlace⟩ <;> rfl

theorem lexemesFrom_sign {sign : Char} (h : sign = '+' ∨ sign = '-') (rest : List Char)
    (place : Place) : lexemesFrom ⟨sign :: rest, place⟩ =
      (lexemesFrom ⟨rest, place.next sign⟩).map (Prod.map (⟨.punct sign, place⟩ :: ·) id) := by
  obtain ⟨hblank, hslash, hpoint, hquote, hdigit, hname⟩ : Text.isBlank sign = false ∧
      sign ≠ '/' ∧ sign ≠ '.' ∧ Lexeme.isQuote sign = false ∧ sign.isDigit = false ∧
        Lexeme.isNameStart sign = false := by
    rcases h with rfl | rfl <;> decide +kernel
  apply lexemesFrom_cons (skip_between hblank hslash rest place)
  simp [Lexeme.readToken, Lexeme.startsNumeral, hpoint, hquote, hdigit, hname]

theorem evaluate_exporting (sign text : List Char) :
    evaluate (exporting sign text) =
      evaluateChars ("export default ".toList ++ (sign ++ text)) := by
  have hchars : (exporting sign text).toList = "export default ".toList ++ (sign ++ text) :=
    String.toList_ofList
  rw [evaluate, hchars]

theorem evaluate_of_fault {sign : List Char} {complaint : Complaint} (hsign : sign ∈ signs)
    (h : ∀ place : Place,
      lexemesFrom ⟨text, place⟩ = .error (.malformed place.position complaint)) :
    evaluate (exporting sign text) = .error (.malformed ⟨1, 16 + sign.length⟩ complaint) := by
  simp only [signs, List.mem_cons, List.not_mem_nil, or_false] at hsign
  rw [evaluate_exporting, evaluateChars, lexemes_export]
  rcases hsign with rfl | rfl | rfl
  · rw [List.nil_append, h]
    rfl
  · rw [List.singleton_append, lexemesFrom_sign (.inl rfl), h]
    rfl
  · rw [List.singleton_append, lexemesFrom_sign (.inr rfl), h]
    rfl

theorem evaluate_of_number {n : Number} {stop : Place → Position}
    (h : ∀ place, lexemesFrom ⟨text, place⟩ = .ok ([⟨.number n, place⟩], stop place)) :
    evaluate (exporting [] text) = .ok (.number n) ∧
    evaluate (exporting ['+'] text) = .ok (.number n) ∧
    evaluate (exporting ['-'] text) = .ok (.number n.neg) := by
  simp only [evaluate_exporting, evaluateChars_eq_ok_iff, lexemes_export, List.nil_append,
    List.singleton_append, lexemesFrom_sign (.inl rfl : '+' = '+' ∨ _),
    lexemesFrom_sign (.inr rfl : '-' = '+' ∨ _), h]
  exact ⟨⟨_, _, rfl, .bare (.number n)⟩, ⟨_, _, rfl, .bare (.positive n)⟩,
    ⟨_, _, rfl, .bare (.negative ((opposite_iff n _).mpr rfl))⟩⟩

/-- An exported literal evaluates to its number, behind a minus sign to the opposite. -/
theorem Numeral.Literal.evaluate {denoted : Denoted} (h : Literal text denoted) :
    ConfigModule.evaluate (exporting [] text) = outcomeAt 16 text denoted.number? ∧
    ConfigModule.evaluate (exporting ['+'] text) = outcomeAt 17 text denoted.number? ∧
    ConfigModule.evaluate (exporting ['-'] text) = outcomeAt 17 text denoted.opposite? := by
  have hends : Ends [] := by
    intro c hc
    cases hc
  have hlexemes := h.lexemesFrom hends
  simp only [List.append_nil, lexemesFrom_nil] at hlexemes
  rw [opposite?_eq]
  cases hn : denoted.number? with
  | some n =>
    rw [hn] at hlexemes
    exact evaluate_of_number hlexemes
  | none =>
    rw [hn] at hlexemes
    exact ⟨evaluate_of_fault (by decide) hlexemes, evaluate_of_fault (by decide) hlexemes,
      evaluate_of_fault (by decide) hlexemes⟩

end Exports

section LeadingZeros

theorem ofText?_leadingZero {d : Char} (hd : d.isDigit = true) (kept : List Char) :
    Numeral.ofText? ('0' :: d :: kept) = none := by
  rw [Option.eq_none_iff_forall_ne_some]
  intro n hn
  have hstart : ∃ c ∈ ('0' :: d :: kept).head?, c.isDigit = true ∨ c = '.' :=
    ⟨'0', rfl, .inl rfl⟩
  obtain ⟨-, denoted, hliteral, -⟩ := (ofText?_eq_some_iff hstart).mp hn
  have hne : d ≠ '_' := by
    rintro rfl
    cases hd
  rw [unseparated_cons (by decide), unseparated_cons hne] at hliteral
  have hzero : d.isDigit = false := hliteral.not_hasLeadingZero
  rw [hd] at hzero
  cases hzero

theorem lexemesFrom_leadingZero {d : Char} (hd : d.isDigit = true) (more : List Char) :
    ∃ text, ∀ place : Place, lexemesFrom ⟨'0' :: d :: more, place⟩ =
      .error (.malformed place.position (.invalidNumber text)) := by
  have hstarts : Lexeme.startsNumeral '0' (d :: more) = true := rfl
  obtain ⟨kept, rest, rfl, hspans⟩ := exists_spans_append
    (goesOn (radix? ('0' :: d :: more)).isSome) d more
  have hspans : Spans (goesOn (radix? ('0' :: d :: (kept ++ rest))).isSome) '0' (d :: kept) rest :=
    .next (goesOn_of_isInner (.inl (by simp [Char.isAlphanum, hd])) _ '0') hspans
  refine ⟨String.ofList ('0' :: d :: kept), ?_⟩
  intro place
  obtain ⟨hquote, hskip⟩ := skip_numeral hstarts place
  have hread : Numeral.read place '0' (d :: (kept ++ rest)) = .error (.malformed place.position
      (.invalidNumber (String.ofList ('0' :: d :: kept)))) := by
    have hspan := hspans.span (place.next '0')
    rw [List.cons_append] at hspan
    simp only [Numeral.read, hspan, ofText?_leadingZero hd kept]
  rw [lexemesFrom_eq, hskip]
  simp only [Lexeme.readToken, hquote, hstarts, hread, Except.map, if_true, Bool.false_eq_true,
    if_false]

end LeadingZeros

/-- A module that exports a literal evaluates to the number that the literal denotes, behind a minus
sign to its opposite; the literal is refused if its number is not finite, or too large for a marked
radix. Wherever numbers stand in a source, they are finite, and none has a zero in front of another
digit. -/
theorem evaluate_literal :
    (∀ text denoted, Literal text denoted →
      (∀ d ∈ denoted.decimal?, Decimal.ofText? (unseparated text) = some d) ∧
      evaluate (exporting [] text) = outcomeAt 16 text denoted.number? ∧
      evaluate (exporting ['+'] text) = outcomeAt 17 text denoted.number? ∧
      evaluate (exporting ['-'] text) = outcomeAt 17 text denoted.opposite? ∧
      ∀ n, denoted.number? = some n → ∀ rest, Ends rest → ∀ place,
        lexemesFrom ⟨text ++ rest, place⟩ = (lexemesFrom ⟨rest, place.after text⟩).map
          (Prod.map (⟨.number n, place⟩ :: ·) id)) ∧
    (∀ source all stop, lexemes source = .ok (all, stop) →
      ∀ lexeme ∈ all, ∀ n, lexeme.token = .number n →
        (∀ x, n = .float x ∨ n.negate? = some (.float x) → x.val.IsFinite) ∧
        ∃ before spelling behind, source = before ++ (spelling ++ behind) ∧
          lexeme.place = Place.start.after before ∧ lexeme.SpelledBy spelling behind ∧
          hasLeadingZero (unseparated spelling) = false) ∧
    ∀ sign ∈ signs, ∀ d more, d.isDigit = true →
      ∃ text, evaluate (exporting sign ('0' :: d :: more)) =
        .error (.malformed ⟨1, 16 + sign.length⟩ (.invalidNumber text)) := by
  refine ⟨?_, ?_, ?_⟩
  · intro text denoted h
    obtain ⟨hbare, hplus, hminus⟩ := h.evaluate
    refine ⟨h.stripped.decimalOfText? (not_mem_unseparated text), hbare, hplus, hminus, ?_⟩
    intro n hn rest hrest place
    rw [h.lexemesFrom hrest, hn]
  · intro source all stop hall lexeme hmem n hn
    obtain ⟨earlier, later, rfl⟩ := List.append_of_mem hmem
    obtain ⟨before, spelling, behind, hsource, hplace, hspelled, -, -⟩ := exists_seam hall
    obtain ⟨hstart, hnumber⟩ := hspelled.ofText? hn
    obtain ⟨-, denoted, hliteral, -⟩ := (ofText?_eq_some_iff hstart).mp hnumber
    exact ⟨fun x _ => x.property, before, spelling, behind, hsource, hplace, hspelled,
      hliteral.not_hasLeadingZero⟩
  · intro sign hsign d more hd
    obtain ⟨text, htext⟩ := lexemesFrom_leadingZero hd more
    exact ⟨text, evaluate_of_fault hsign htext⟩

section Sample

def half : Binary64.Finite := ⟨⟨false, 0x3fe0000000000000, by decide⟩, by decide⟩

theorem evaluate_literal_sample :
    Literal "0x8000000000000000".toList (.marked (2 ^ 63)) ∧
    evaluate (exporting ['-'] "0x8000000000000000".toList) =
      .ok (.number (.integer ⟨-2 ^ 63, by decide⟩)) ∧
    Literal "1_0".toList (.plain 10) ∧
    evaluate (exporting [] "1_0".toList) = .ok (.number (.integer ⟨10, by decide⟩)) ∧
    Literal ".5".toList (.decimal 5 (-1)) ∧
    evaluate (exporting ['-'] ".5".toList) = .ok (.number (.float half.neg)) := by
  have hmarked : Literal "0x8000000000000000".toList (.marked (2 ^ 63)) := by
    have hrun : Run 16 "8000000000000000".toList (8 :: List.replicate 15 0) :=
      .of_digitsOf (by decide) (by decide)
    have hvalue : placeValue 16 (8 :: List.replicate 15 0) = 2 ^ 63 := by decide
    rw [← hvalue]
    exact .marked (by decide) hrun
  have hplain : Literal "1_0".toList (.plain 10) := by
    have hrun : Run 10 "1_0".toList [1, 0] := .apart (by decide) (.last (by decide))
    exact .plain (.digits hrun (by decide)) (by decide)
  have hdecimal : Literal ".5".toList (.decimal 5 (-1)) := by
    have hrun : Run 10 ['5'] [5] := .last (by decide)
    exact .decimal .none (.digits hrun) .none (by decide) (by decide)
  have hhalf : nearest? ⟨false, 5, -1⟩ = some half := by decide +kernel
  obtain ⟨hliteral, -, -⟩ := evaluate_literal
  refine ⟨hmarked, ?_, hplain, ?_, hdecimal, ?_⟩
  · rw [(hliteral _ _ hmarked).2.2.2.1]
    rfl
  · rw [(hliteral _ _ hplain).2.1]
    rfl
  · rw [(hliteral _ _ hdecimal).2.2.2.1, Denoted.opposite?, hhalf]
    rfl

end Sample

section Overflow

def powerOfTen (k : Nat) : List Char := '1' :: List.replicate k '0'

theorem literal_powerOfTen (k : Nat) : Literal (powerOfTen k) (.plain (10 ^ k)) := by
  have hzeros : DigitsOf 10 (List.replicate k '0') (List.replicate k 0) := by
    induction k with
    | zero => exact .nil
    | succ k ih => exact .cons (by decide) ih
  have hdigits : DigitsOf 10 (powerOfTen k) (1 :: List.replicate k 0) := .cons (by decide) hzeros
  have hvalue : placeValue 10 (1 :: List.replicate k 0) = 10 ^ k := by
    rw [placeValue_eq, ← digitsFrom_eq hdigits]
    have hzeros := Decimal.digitsFrom_zeros 1 k
    rw [Nat.one_mul] at hzeros
    exact hzeros
  rw [← hvalue]
  have hrun : Run 10 (powerOfTen k) (1 :: List.replicate k 0) :=
    .of_digitsOf hdigits (List.cons_ne_nil _ _)
  exact .plain (.digits hrun (by rintro ⟨⟩)) (List.cons_ne_nil _ _)

/-- Plain digits whose nearest floating-point number is infinite are refused. -/
theorem evaluate_powerOfTen :
    Literal (powerOfTen 309) (.plain (10 ^ 309)) ∧ 2 ^ 64 ≤ 10 ^ 309 ∧
    Decimal.ofText? (powerOfTen 309) = some ⟨false, 10 ^ 309, 0⟩ ∧
    (Decimal.toBinary64 ⟨false, 10 ^ 309, 0⟩).magnitude = Binary64.infinity ∧
    evaluate (exporting [] (powerOfTen 309)) =
      .error (.malformed ⟨1, 16⟩ (.invalidNumber (String.ofList (powerOfTen 309)))) := by
  have hliteral := literal_powerOfTen 309
  have hplain : '_' ∉ powerOfTen 309 := by
    intro hmem
    rcases List.mem_cons.mp hmem with hone | hzero
    · cases hone
    · cases List.eq_of_mem_replicate hzero
  have hlarge : 2 ^ 64 ≤ 10 ^ 309 := by decide +kernel
  have hinfinite : (Decimal.toBinary64 ⟨false, 10 ^ 309, 0⟩).magnitude = Binary64.infinity := by
    decide +kernel
  have hnone : (Denoted.plain (10 ^ 309)).number? = none := by
    have hnearest : nearest? ⟨false, 10 ^ 309, 0⟩ = none := by
      rw [nearest?, Binary64.Finite.ofBinary64?, dif_neg]
      rw [Binary64.IsFinite, hinfinite]
      exact Nat.lt_irrefl _
    rw [Denoted.number?, dif_neg (Nat.not_lt.mpr hlarge), hnearest]
    rfl
  refine ⟨hliteral, hlarge, hliteral.decimalOfText? hplain _ rfl, hinfinite, ?_⟩
  rw [hliteral.evaluate.1, hnone]
  rfl

end Overflow

end SiteConfig.ConfigModule

import SiteConfig.ConfigModule.Lexeme
import SiteConfig.Proofs.Digits
import SiteConfig.Proofs.Places
/-!
# The grammar of string literals

A string has many spellings between quotes, for each character may be written in several ways. The
reading of a literal accepts exactly these spellings and gives back the string.
-/
namespace SiteConfig.ConfigModule

theorem map_eq_ok_iff {ε α β : Type} {result : Except ε α} {f : α → β} {b : β} :
    result.map f = .ok b ↔ ∃ a, result = .ok a ∧ f a = b := by
  cases result <;> simp [Except.map]

theorem map_eq_error_iff {ε α β : Type} {result : Except ε α} {f : α → β} {e : ε} :
    result.map f = .error e ↔ result = .error e := by
  cases result <;> simp [Except.map]

namespace Quotation

def shortEscapes : List (Char × Char) :=
  [('n', '\n'), ('t', '\t'), ('r', '\r'), ('b', '\x08'), ('f', '\x0c'), ('v', '\x0b')]

/-- The characters that do not stand for themselves behind a backslash; nor do the digits. -/
def reserved : List Char :=
  ['n', 't', 'r', 'b', 'f', 'v', 'x', 'u', '\r', '\n', '\u2028', '\u2029']

/-- What denotes a code in a Unicode escape: four hexadecimal digits, or one to six in braces. -/
inductive SpellsCode : List Char → Nat → Prop
  | four {text : List Char} {digits : List Nat} (hdigits : DigitsOf 16 text digits)
      (hlength : text.length = 4) : SpellsCode text (placeValue 16 digits)
  | braced {text : List Char} {digits : List Nat} (hdigits : DigitsOf 16 text digits)
      (hne : text ≠ []) (hlength : text.length ≤ 6) :
      SpellsCode ('{' :: (text ++ ['}'])) (placeValue 16 digits)

@[irreducible] def highHalf (c : Char) : Nat := 0xD800 + (c.toNat - 0x10000) / 0x400

@[irreducible] def lowHalf (c : Char) : Nat := 0xDC00 + (c.toNat - 0x10000) % 0x400

/-- What may stand behind a backslash, and the character that it stands for, none if it continues
the line, in front of the next character of the source. -/
inductive Escapes (next : Option Char) : List Char → Option Char → Prop
  | short {letter c : Char} (h : (letter, c) ∈ shortEscapes) : Escapes next [letter] (some c)
  | null (h : ∀ d ∈ next, d.isDigit = false) : Escapes next ['0'] (some '\x00')
  | itself {c : Char} (hreserved : c ∉ reserved) (hdigit : c.isDigit = false) :
      Escapes next [c] (some c)
  | byte {c : Char} {text : List Char} {digits : List Nat} (hdigits : DigitsOf 16 text digits)
      (hlength : text.length = 2) (hc : c.toNat = placeValue 16 digits) :
      Escapes next ('x' :: text) (some c)
  | code {c : Char} {text : List Char} (h : SpellsCode text c.toNat) :
      Escapes next ('u' :: text) (some c)
  | pair {c : Char} {high low : List Char} (hwide : 0xFFFF < c.toNat)
      (hhigh : SpellsCode high (highHalf c)) (hlow : SpellsCode low (lowHalf c)) :
      Escapes next ('u' :: (high ++ '\\' :: 'u' :: low)) (some c)
  | lineFeed : Escapes next ['\n'] none
  | carriageReturn (h : next ≠ some '\n') : Escapes next ['\r'] none
  | returnAndFeed : Escapes next ['\r', '\n'] none
  | separator {c : Char} (h : c = '\u2028' ∨ c = '\u2029') : Escapes next [c] none

/-- The texts with their spellings between quotes. -/
inductive Writes (quote : Char) : List Char → List Char → Prop
  | nil : Writes quote [] []
  | plain {c : Char} {text body : List Char} (hquote : c ≠ quote) (hslash : c ≠ '\\')
      (hline : quote ≠ '`' → c ≠ '\n' ∧ c ≠ '\r')
      (hdollar : quote = '`' → c = '$' → body.head? ≠ some '{') (rest : Writes quote text body) :
      Writes quote (c :: text) (c :: body)
  | escaped {piece text body : List Char} {char : Option Char}
      (h : Escapes (body ++ [quote]).head? piece char) (rest : Writes quote text body) :
      Writes quote (char.toList ++ text) ('\\' :: (piece ++ body))

section Codes

variable {cursor behind : Cursor}

theorem hexCode?_eq_some_iff {count code n : Nat} :
    hexCode? count code cursor = some (n, behind) ↔ ∃ spelled digits,
      Takes cursor spelled behind ∧ spelled.length = count ∧ DigitsOf 16 spelled digits ∧
        n = appendDigits 16 code digits := by
  induction count generalizing code cursor with
  | zero =>
    constructor
    · intro h
      cases h
      exact ⟨[], [], .nil _, rfl, .nil, rfl⟩
    · rintro ⟨spelled, digits, htakes, hlength, hdigits, rfl⟩
      obtain rfl := List.length_eq_zero_iff.mp hlength
      obtain ⟨rest, place, rfl, rfl⟩ := htakes.exists_eq
      cases hdigits
      rfl
  | succ count ih =>
    constructor
    · intro h
      obtain ⟨_ | ⟨c, rest⟩, place⟩ := cursor
      · cases h
      · rw [hexCode?] at h
        split at h
        · next d hd =>
          obtain ⟨spelled, digits, htakes, hlength, hdigits, rfl⟩ := ih.mp h
          have hc := (Numeral.digit?_eq_some_iff (by decide)).mp hd
          exact ⟨c :: spelled, d :: digits, htakes.cons, by simp [hlength], .cons hc hdigits, rfl⟩
        · cases h
    · rintro ⟨spelled, digits, htakes, hlength, hdigits, rfl⟩
      obtain ⟨rest, place, rfl, rfl⟩ := htakes.exists_eq
      cases hdigits with
      | nil => cases hlength
      | cons hd hdigits =>
        rw [List.cons_append, hexCode?, (Numeral.digit?_eq_some_iff (by decide)).mpr hd]
        exact ih.mpr ⟨_, _, .intro _ rest _, Nat.succ.inj hlength, hdigits, rfl⟩

theorem bracedCode?_eq_some_iff {left code n : Nat} :
    bracedCode? left code cursor = some (n, behind) ↔ ∃ spelled digits,
      Takes cursor (spelled ++ ['}']) behind ∧ spelled.length ≤ left ∧
        left < 6 + spelled.length ∧ DigitsOf 16 spelled digits ∧
          n = appendDigits 16 code digits := by
  constructor
  · intro h
    fun_induction bracedCode? left code cursor with
    | case2 left code rest place hleft =>
      cases h
      exact ⟨[], [], .next '}' rest place, Nat.zero_le _, hleft, .nil, rfl⟩
    | case4 code c rest place _ left d hd ih =>
      obtain ⟨spelled, digits, htakes, hle, hlt, hdigits, rfl⟩ := ih h
      have hc := (Numeral.digit?_eq_some_iff (by decide)).mp hd
      refine ⟨c :: spelled, d :: digits, htakes.cons, ?_, ?_, .cons hc hdigits, rfl⟩
      · simpa using hle
      · simp only [List.length_cons]
        omega
    | _ => cases h
  · rintro ⟨spelled, digits, htakes, hle, hlt, hdigits, rfl⟩
    obtain ⟨rest, place, rfl, rfl⟩ := htakes.exists_eq
    clear htakes
    induction hdigits generalizing left code place with
    | nil =>
      rw [bracedCode?.eq_def]
      simp [show left < 6 from hlt, appendDigits]
    | @cons c d spelled digits hd _ ih =>
      have hclose : c ≠ '}' := by
        rintro rfl
        cases hd.isAlphanum (by decide)
      cases left with
      | zero => cases hle
      | succ left =>
        simp only [List.length_cons] at hle hlt
        have hvalue := (Numeral.digit?_eq_some_iff (by decide)).mpr hd
        simp only [List.cons_append, bracedCode?.eq_2 _ _ _ _ _ _ hvalue, if_neg hclose]
        exact ih (by omega) (by omega) _

theorem spellsCode_of_unicodeCode {n : Nat} (h : unicodeCode cursor = .ok (n, behind)) :
    ∃ spelled, Takes cursor spelled behind ∧ SpellsCode spelled n := by
  unfold unicodeCode at h
  split at h
  · split at h
    · next hcode =>
      cases h
      obtain ⟨spelled, digits, htakes, hle, hlt, hdigits, rfl⟩ := bracedCode?_eq_some_iff.mp hcode
      refine ⟨'{' :: (spelled ++ ['}']), htakes.cons, ?_⟩
      rw [← placeValue_eq]
      have hne : spelled ≠ [] := by
        rintro rfl
        simp at hlt
      exact .braced hdigits hne hle
    · cases h
  · split at h
    · next hcode =>
      cases h
      obtain ⟨spelled, digits, htakes, hlength, hdigits, rfl⟩ := hexCode?_eq_some_iff.mp hcode
      refine ⟨spelled, htakes, ?_⟩
      rw [← placeValue_eq]
      exact .four hdigits hlength
    · cases h

theorem unicodeCode_append {n : Nat} {spelled : List Char} (h : SpellsCode spelled n)
    (rest : List Char) (place : Place) :
    unicodeCode ⟨spelled ++ rest, place⟩ = .ok (n, ⟨rest, place.after spelled⟩) := by
  cases h with
  | four hdigits hlength =>
    have hcode := (@hexCode?_eq_some_iff ⟨spelled ++ rest, place⟩ _ 4 0 _).mpr
      ⟨spelled, _, .intro spelled rest place, hlength, hdigits, placeValue_eq 16 _⟩
    unfold unicodeCode
    split
    · next heq =>
      cases hdigits with
      | nil => cases hlength
      | cons hd =>
        obtain ⟨rfl, -⟩ := List.cons.inj (Cursor.mk.inj heq).1
        cases hd.isAlphanum (by decide)
    · rw [hcode]
  | @braced text digits hdigits hne hlength =>
    have hpos := List.length_pos_iff.mpr hne
    have hcode := (@bracedCode?_eq_some_iff ⟨text ++ ['}'] ++ rest, place.next '{'⟩ _ 6 0 _).mpr
      ⟨text, digits, .intro _ rest _, hlength, by omega, hdigits, placeValue_eq 16 _⟩
    simp only [List.cons_append, unicodeCode, hcode, Place.after_cons]

theorem unicodeCode_eq_ok_iff {n : Nat} :
    unicodeCode cursor = .ok (n, behind) ↔
      ∃ spelled, Takes cursor spelled behind ∧ SpellsCode spelled n := by
  constructor
  · exact spellsCode_of_unicodeCode
  · rintro ⟨spelled, htakes, h⟩
    obtain ⟨rest, place, rfl, rfl⟩ := htakes.exists_eq
    exact unicodeCode_append h rest place

theorem charOf_eq_ok_iff {code : Nat} {c : Char} : charOf code = .ok c ↔ code = c.toNat := by
  unfold charOf
  split
  · next hvalid =>
    rw [Except.ok.injEq]
    constructor
    · rintro rfl
      exact (Char.toNat_ofNatAux hvalid).symm
    · rintro rfl
      rfl
  · next hvalid =>
    constructor
    · exact nofun
    · rintro rfl
      exact absurd c.valid hvalid

end Codes

section Surrogates

theorem isHighSurrogate_iff (code : Nat) :
    isHighSurrogate code = true ↔ 0xD800 ≤ code ∧ code ≤ 0xDBFF := by
  simp [isHighSurrogate]

theorem isLowSurrogate_iff (code : Nat) :
    isLowSurrogate code = true ↔ 0xDC00 ≤ code ∧ code ≤ 0xDFFF := by
  simp [isLowSurrogate]

theorem toNat_bounds (c : Char) :
    c.toNat < 0xD800 ∨ 0xDFFF < c.toNat ∧ c.toNat < 0x110000 := by
  have hvalid : c.toNat.isValidChar := c.valid
  unfold Nat.isValidChar at hvalid
  exact hvalid

/-- The halves of a pair make up the character, and they are the only ones that do. -/
theorem joinSurrogates_eq_iff {c : Char} {high low : Nat} (hhigh : isHighSurrogate high = true)
    (hlow : isLowSurrogate low = true) :
    joinSurrogates high low = c.toNat ↔
      0xFFFF < c.toNat ∧ high = highHalf c ∧ low = lowHalf c := by
  rw [isHighSurrogate_iff] at hhigh
  rw [isLowSurrogate_iff] at hlow
  have hbounds := toNat_bounds c
  unfold joinSurrogates highHalf lowHalf
  generalize c.toNat = n at *
  omega

theorem isHighSurrogate_highHalf {c : Char} (h : 0xFFFF < c.toNat) :
    isHighSurrogate (highHalf c) = true := by
  have hbounds := toNat_bounds c
  rw [isHighSurrogate_iff]
  unfold highHalf
  omega

theorem isLowSurrogate_lowHalf (c : Char) : isLowSurrogate (lowHalf c) = true := by
  rw [isLowSurrogate_iff]
  unfold lowHalf
  omega

theorem not_isHighSurrogate_toNat (c : Char) : isHighSurrogate c.toNat = false := by
  have hbounds := toNat_bounds c
  rw [← Bool.not_eq_true, isHighSurrogate_iff]
  omega

theorem lowEscape_eq_ok_iff {high : Nat} {cursor behind : Cursor} {char : Option Char} :
    lowEscape high cursor = .ok ⟨char, behind⟩ ↔ ∃ low code c,
      Takes cursor ('\\' :: 'u' :: low) behind ∧ SpellsCode low code ∧
        isLowSurrogate code = true ∧ joinSurrogates high code = c.toNat ∧ char = some c := by
  constructor
  · intro h
    unfold lowEscape at h
    split at h
    · split at h
      · next code rest hcode =>
        split at h
        · next hlow =>
          obtain ⟨c, hc, heq⟩ := map_eq_ok_iff.mp h
          cases heq
          obtain ⟨low, htakes, hspelled⟩ := unicodeCode_eq_ok_iff.mp hcode
          exact ⟨low, code, c, htakes.cons.cons, hspelled, hlow, charOf_eq_ok_iff.mp hc, rfl⟩
        · cases h
      · cases h
    · cases h
  · rintro ⟨low, code, c, htakes, hspelled, hlow, hjoin, rfl⟩
    obtain ⟨rest, place, rfl, rfl⟩ := htakes.exists_eq
    simp only [lowEscape, List.cons_append, unicodeCode_append hspelled, Place.after_cons]
    rw [if_pos hlow]
    exact map_eq_ok_iff.mpr ⟨c, charOf_eq_ok_iff.mpr hjoin, rfl⟩

end Surrogates

section Reading

variable {cursor behind : Cursor} {char : Option Char}

theorem unicodeEscape_eq_ok_iff :
    unicodeEscape cursor = .ok ⟨char, behind⟩ ↔ ∃ spelled, Takes cursor spelled behind ∧
      Escapes behind.rest.head? ('u' :: spelled) char := by
  constructor
  · intro h
    unfold unicodeEscape at h
    split at h
    · next code middle hcode =>
      obtain ⟨spelled, htakes, hspelled⟩ := unicodeCode_eq_ok_iff.mp hcode
      split at h
      · next hhigh =>
        obtain ⟨low, n, c, hmore, hlow, hisLow, hjoin, rfl⟩ := lowEscape_eq_ok_iff.mp h
        obtain ⟨hwide, hfirst, hsecond⟩ := (joinSurrogates_eq_iff hhigh hisLow).mp hjoin
        rw [hfirst] at hspelled
        rw [hsecond] at hlow
        exact ⟨spelled ++ '\\' :: 'u' :: low, htakes.append hmore, .pair hwide hspelled hlow⟩
      · obtain ⟨c, hc, heq⟩ := map_eq_ok_iff.mp h
        cases heq
        obtain rfl := charOf_eq_ok_iff.mp hc
        exact ⟨spelled, htakes, .code hspelled⟩
    · cases h
  · rintro ⟨spelled, htakes, h⟩
    obtain ⟨rest, place, rfl, rfl⟩ := htakes.exists_eq
    cases h with
    | short h => simp [shortEscapes] at h
    | itself hreserved => simp [reserved] at hreserved
    | separator h => simp at h
    | @code c _ hspelled =>
      have hchar : charOf c.toNat = .ok c := charOf_eq_ok_iff.mpr rfl
      simp only [unicodeEscape, unicodeCode_append hspelled, not_isHighSurrogate_toNat, hchar,
        Except.map, Bool.false_eq_true, if_false]
    | @pair c high low hwide hhigh hlow =>
      have hisHigh := isHighSurrogate_highHalf hwide
      have hisLow := isLowSurrogate_lowHalf c
      have hjoin := (joinSurrogates_eq_iff hisHigh hisLow).mpr ⟨hwide, rfl, rfl⟩
      simp only [unicodeEscape, List.append_assoc, unicodeCode_append hhigh, hisHigh, if_true,
        Place.after_append]
      exact lowEscape_eq_ok_iff.mpr ⟨low, _, c, .intro _ rest _, hlow, hisLow, hjoin, rfl⟩

theorem escapes_short {letter c : Char} (h : (letter, c) ∈ shortEscapes) (cursor : Cursor) :
    escape letter cursor = .ok ⟨some c, cursor⟩ := by
  simp only [shortEscapes, List.mem_cons, Prod.mk.injEq, List.not_mem_nil, or_false] at h
  rcases h with ⟨rfl, rfl⟩ | ⟨rfl, rfl⟩ | ⟨rfl, rfl⟩ | ⟨rfl, rfl⟩ | ⟨rfl, rfl⟩ | ⟨rfl, rfl⟩ <;> rfl

theorem escape_of_not_reserved {first : Char} (h : first ∉ reserved) (cursor : Cursor) :
    escape first cursor =
      if first = '0' ∧ ¬cursor.rest.head?.any Char.isDigit then .ok ⟨some '\x00', cursor⟩
      else if first.isDigit then .error .octalEscape
      else .ok ⟨some first, cursor⟩ := by
  simp only [reserved, List.mem_cons, List.not_mem_nil, or_false, not_or] at h
  unfold escape
  split <;> simp_all

theorem escapes_of_reserved {first : Char} (hreserved : first ∈ reserved)
    (h : escape first cursor = .ok ⟨char, behind⟩) :
    ∃ spelled, Takes cursor spelled behind ∧ Escapes behind.rest.head? (first :: spelled) char := by
  unfold escape at h
  split at h
  case h_7 =>
    split at h
    · next hcode =>
      obtain ⟨c, hc, heq⟩ := map_eq_ok_iff.mp h
      cases heq
      obtain ⟨spelled, digits, htakes, hlength, hdigits, rfl⟩ := hexCode?_eq_some_iff.mp hcode
      rw [← placeValue_eq, charOf_eq_ok_iff] at hc
      exact ⟨spelled, htakes, .byte hdigits hlength hc.symm⟩
    · cases h
  case h_8 => exact unicodeEscape_eq_ok_iff.mp h
  case h_9 =>
    split at h
    · next rest place =>
      cases h
      exact ⟨['\n'], .next '\n' rest place, .returnAndFeed⟩
    · next hfeed =>
      cases h
      refine ⟨[], .nil cursor, .carriageReturn ?_⟩
      intro hhead
      obtain ⟨text, place⟩ := cursor
      obtain ⟨rest, rfl⟩ := List.head?_eq_some_iff.mp hhead
      exact hfeed rest place rfl
  case h_10 =>
    cases h
    exact ⟨[], .nil cursor, .lineFeed⟩
  case h_11 =>
    cases h
    exact ⟨[], .nil cursor, .separator (.inl rfl)⟩
  case h_12 =>
    cases h
    exact ⟨[], .nil cursor, .separator (.inr rfl)⟩
  case h_13 => simp_all [reserved]
  all_goals
    cases h
    exact ⟨[], .nil cursor, .short (by decide)⟩

theorem escapes_of_not_reserved {first : Char} (hreserved : first ∉ reserved)
    (h : escape first cursor = .ok ⟨char, behind⟩) :
    ∃ spelled, Takes cursor spelled behind ∧ Escapes behind.rest.head? (first :: spelled) char := by
  rw [escape_of_not_reserved hreserved] at h
  split at h
  · next hzero =>
    obtain ⟨rfl, hdigit⟩ := hzero
    cases h
    refine ⟨[], .nil cursor, .null ?_⟩
    simpa [Option.any_eq_false] using hdigit
  · split at h
    · cases h
    · next hdigit =>
      cases h
      exact ⟨[], .nil cursor, .itself hreserved (by simpa using hdigit)⟩

theorem Escapes.escape {first : Char} {spelled rest : List Char}
    (h : Escapes rest.head? (first :: spelled) char) (place : Place) :
    Quotation.escape first ⟨spelled ++ rest, place⟩ =
      .ok ⟨char, ⟨rest, place.after spelled⟩⟩ := by
  cases h with
  | short h => exact escapes_short h ⟨rest, place⟩
  | null h =>
    rw [escape_of_not_reserved (by decide), if_pos ⟨rfl, by simpa [Option.any_eq_false] using h⟩]
    rfl
  | itself hreserved hdigit =>
    have hzero : first ≠ '0' := by
      rintro rfl
      cases hdigit
    simp [escape_of_not_reserved hreserved, hzero, hdigit]
  | @byte c _ digits hdigits hlength hc =>
    have hcode := (@hexCode?_eq_some_iff ⟨spelled ++ rest, place⟩ _ 2 0 _).mpr
      ⟨spelled, digits, .intro spelled rest place, hlength, hdigits, rfl⟩
    rw [← placeValue_eq, ← hc] at hcode
    simp only [Quotation.escape, hcode]
    exact map_eq_ok_iff.mpr ⟨c, charOf_eq_ok_iff.mpr rfl, rfl⟩
  | code h => exact unicodeEscape_eq_ok_iff.mpr ⟨spelled, .intro spelled rest place, .code h⟩
  | pair hwide hhigh hlow =>
    exact unicodeEscape_eq_ok_iff.mpr ⟨_, .intro _ rest place, .pair hwide hhigh hlow⟩
  | lineFeed => rfl
  | carriageReturn h =>
    simp only [Quotation.escape, List.nil_append]
    split
    · next heq =>
      cases heq
      exact absurd rfl h
    · rfl
  | returnAndFeed => rfl
  | separator h => rcases h with rfl | rfl <;> rfl

/-- An escape is read exactly if it is one of the escapes that may be written. -/
theorem escape_eq_ok_iff {first : Char} :
    escape first cursor = .ok ⟨char, behind⟩ ↔ ∃ spelled, Takes cursor spelled behind ∧
      Escapes behind.rest.head? (first :: spelled) char := by
  constructor
  · intro h
    by_cases hreserved : first ∈ reserved
    · exact escapes_of_reserved hreserved h
    · exact escapes_of_not_reserved hreserved h
  · rintro ⟨spelled, htakes, h⟩
    obtain ⟨rest, place, rfl, rfl⟩ := htakes.exists_eq
    exact h.escape place

theorem head?_closed (body : List Char) (quote : Char) (after : List Char) :
    (body ++ quote :: after).head? = (body ++ [quote]).head? := by
  cases body <;> rfl

theorem not_endsLine_iff {quote c : Char} :
    endsLine quote c = false ↔ (quote ≠ '`' → c ≠ '\n' ∧ c ≠ '\r') := by
  simp [endsLine]

theorem not_interpolates_iff {quote c : Char} {body after : List Char} :
    interpolates quote c (body ++ quote :: after) = false ↔
      (quote = '`' → c = '$' → body.head? ≠ some '{') := by
  rw [interpolates, head?_closed]
  cases body with
  | nil =>
    simp
    rintro rfl -
    decide
  | cons d body => simp

theorem read_escaped {quote first : Char} {rest : List Char} {place : Place} {found : Escape}
    (hquote : '\\' ≠ quote)
    (h : escape first ⟨rest, (place.next '\\').next first⟩ = .ok found) :
    read quote ⟨'\\' :: first :: rest, place⟩ =
      (read quote found.behind).map (Prod.map (found.char.toList ++ ·) id) := by
  rw [read.eq_def]
  simp only [hquote, if_false, if_true]
  split
  · next heq =>
    rw [h] at heq
    cases heq
  · next heq =>
    rw [h] at heq
    cases heq
    rfl

/-- A spelling in front of its closing quote is read as its text. -/
theorem Writes.read {quote : Char} {text body : List Char} (h : Writes quote text body)
    (hquote : '\\' ≠ quote) (after : List Char) (place : Place) :
    Quotation.read quote ⟨body ++ quote :: after, place⟩ =
      .ok (text, ⟨after, place.after (body ++ [quote])⟩) := by
  induction h generalizing place with
  | nil =>
    rw [List.nil_append, Quotation.read.eq_def]
    exact if_pos rfl
  | plain hne hslash hline hdollar _ ih =>
    rw [List.cons_append, Quotation.read.eq_def]
    simp only [if_neg hne, if_neg hslash, not_endsLine_iff.mpr hline,
      not_interpolates_iff.mpr hdollar, ih, Except.map, Bool.false_eq_true, if_false]
    rfl
  | @escaped piece _ body char h _ ih =>
    rw [← head?_closed body quote after] at h
    have hne : piece ≠ [] := by
      rintro rfl
      cases h
    obtain ⟨first, spelled, rfl⟩ := List.exists_cons_of_ne_nil hne
    have hescape := h.escape ((place.next '\\').next first)
    rw [List.cons_append, List.cons_append, List.cons_append, List.append_assoc,
      read_escaped hquote hescape, ih, Except.map]
    simp

/-- A literal is read exactly if it spells a string between its quotes, up to the closing one. -/
theorem read_eq_ok_iff {quote : Char} {text : List Char} (hquote : '\\' ≠ quote) :
    read quote cursor = .ok (text, behind) ↔
      ∃ body, Takes cursor (body ++ [quote]) behind ∧ Writes quote text body := by
  constructor
  · intro h
    fun_induction read quote cursor generalizing text with
    | case2 rest place =>
      cases h
      exact ⟨[], .next quote rest place, .nil⟩
    | case5 place first rest found _ hescape _ ih =>
      obtain ⟨⟨inner, after⟩, hread, heq⟩ := map_eq_ok_iff.mp h
      cases heq
      obtain ⟨body, hbody, hwrites⟩ := ih hread
      obtain ⟨spelled, hspelled, hescapes⟩ := escape_eq_ok_iff.mp hescape
      rw [hbody.rest_eq, List.append_assoc, List.singleton_append, head?_closed] at hescapes
      refine ⟨'\\' :: (first :: spelled ++ body), ?_, .escaped hescapes hwrites⟩
      simpa using (hspelled.append hbody).cons.cons
    | case8 c rest place hne hslash hline hinterpolates ih =>
      obtain ⟨⟨inner, after⟩, hread, heq⟩ := map_eq_ok_iff.mp h
      cases heq
      obtain ⟨body, hbody, hwrites⟩ := ih hread
      rw [Bool.not_eq_true, not_endsLine_iff] at hline
      rw [Bool.not_eq_true, show rest = body ++ quote :: after.rest by simpa using hbody.rest_eq,
        not_interpolates_iff] at hinterpolates
      exact ⟨c :: body, hbody.cons, .plain hne hslash hline hinterpolates hwrites⟩
    | _ => cases h
  · rintro ⟨body, htakes, h⟩
    obtain ⟨rest, place, rfl, rfl⟩ := htakes.exists_eq
    rw [List.append_assoc]
    exact h.read hquote rest place

end Reading

theorem ne_slash_of_isQuote {quote : Char} (h : Lexeme.isQuote quote = true) : '\\' ≠ quote := by
  rintro rfl
  revert h
  decide

end Quotation

end SiteConfig.ConfigModule

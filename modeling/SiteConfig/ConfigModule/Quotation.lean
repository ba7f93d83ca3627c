import SiteConfig.ConfigModule.Numeral
/-!
# Quotations

String and template literals. A backslash starts an escape: a letter for a control character, a code
in hexadecimal digits, a pair of such codes for one character, a line break that is left out, or any
other character for itself.
-/
namespace SiteConfig.ConfigModule.Quotation

/-- A decoded escape, none if it stands for nothing, and the cursor behind it. -/
structure Escape where
  char : Option Char
  behind : Cursor

/-- The code of a number of hexadecimal digits, after the digits of `code`. -/
def hexCode? : Nat → Nat → Cursor → Option (Nat × Cursor)
  | 0, code, cursor => some (code, cursor)
  | count + 1, code, ⟨c :: rest, place⟩ =>
    match Numeral.digit? 16 c with
    | some d => hexCode? count (16 * code + d) ⟨rest, place.next c⟩
    | none => none
  | _ + 1, _, ⟨[], _⟩ => none

/-- The code of one to six hexadecimal digits and a closing brace; `left` digits may still come. -/
def bracedCode? : Nat → Nat → Cursor → Option (Nat × Cursor)
  | _, _, ⟨[], _⟩ => none
  | left, code, ⟨c :: rest, place⟩ =>
    if c = '}' then if left < 6 then some (code, ⟨rest, place.next c⟩) else none
    else
      match left, Numeral.digit? 16 c with
      | left + 1, some d => bracedCode? left (16 * code + d) ⟨rest, place.next c⟩
      | _, _ => none

def unicodeCode : Cursor → Except Complaint (Nat × Cursor)
  | ⟨'{' :: rest, place⟩ =>
    match bracedCode? 6 0 ⟨rest, place.next '{'⟩ with
    | some found => .ok found
    | none => .error .invalidUnicodeEscape
  | cursor =>
    match hexCode? 4 0 cursor with
    | some found => .ok found
    | none => .error .invalidHexEscape

def charOf (code : Nat) : Except Complaint Char :=
  if h : code.isValidChar then .ok (Char.ofNatAux code h) else .error (.invalidCodePoint code)

def isHighSurrogate (code : Nat) : Bool := decide (0xD800 ≤ code) && decide (code ≤ 0xDBFF)

def isLowSurrogate (code : Nat) : Bool := decide (0xDC00 ≤ code) && decide (code ≤ 0xDFFF)

def joinSurrogates (high low : Nat) : Nat := 0x10000 + (high - 0xD800) * 0x400 + (low - 0xDC00)

def lowEscape (high : Nat) : Cursor → Except Complaint Escape
  | ⟨'\\' :: 'u' :: rest, place⟩ =>
    match unicodeCode ⟨rest, (place.next '\\').next 'u'⟩ with
    | .ok (low, behind) =>
      if isLowSurrogate low then (charOf (joinSurrogates high low)).map fun c => ⟨some c, behind⟩
      else .error .unpairedSurrogate
    | .error complaint => .error complaint
  | _ => .error .unpairedSurrogate

/-- Decodes a Unicode escape. A high surrogate needs the escape of a low one behind it. -/
def unicodeEscape (cursor : Cursor) : Except Complaint Escape :=
  match unicodeCode cursor with
  | .ok (code, behind) =>
    if isHighSurrogate code then lowEscape code behind
    else (charOf code).map fun c => ⟨some c, behind⟩
  | .error complaint => .error complaint

/-- Decodes the escape that starts with a character behind its backslash. -/
def escape (first : Char) (cursor : Cursor) : Except Complaint Escape :=
  match first with
  | 'n' => .ok ⟨some '\n', cursor⟩
  | 't' => .ok ⟨some '\t', cursor⟩
  | 'r' => .ok ⟨some '\r', cursor⟩
  | 'b' => .ok ⟨some '\x08', cursor⟩
  | 'f' => .ok ⟨some '\x0c', cursor⟩
  | 'v' => .ok ⟨some '\x0b', cursor⟩
  | 'x' =>
    match hexCode? 2 0 cursor with
    | some (code, behind) => (charOf code).map fun c => ⟨some c, behind⟩
    | none => .error .invalidHexEscape
  | 'u' => unicodeEscape cursor
  | '\r' =>
    match cursor with
    | ⟨'\n' :: rest, place⟩ => .ok ⟨none, ⟨rest, place.next '\n'⟩⟩
    | cursor => .ok ⟨none, cursor⟩
  | '\n' => .ok ⟨none, cursor⟩
  | '\u2028' => .ok ⟨none, cursor⟩
  | '\u2029' => .ok ⟨none, cursor⟩
  | c =>
    if c = '0' ∧ ¬cursor.rest.head?.any Char.isDigit then .ok ⟨some '\x00', cursor⟩
    else if c.isDigit then .error .octalEscape
    else .ok ⟨some c, cursor⟩

theorem length_hexCode? {count code : Nat} {cursor : Cursor} {found : Nat × Cursor}
    (h : hexCode? count code cursor = some found) :
    found.2.rest.length ≤ cursor.rest.length := by
  fun_induction hexCode? count code cursor with
  | case1 =>
    cases h
    exact Nat.le_refl _
  | case2 _ _ _ _ _ _ _ ih => exact Nat.le_succ_of_le (ih h)
  | case3 => cases h
  | case4 => cases h

theorem length_bracedCode? {left code : Nat} {cursor : Cursor} {found : Nat × Cursor}
    (h : bracedCode? left code cursor = some found) :
    found.2.rest.length ≤ cursor.rest.length := by
  fun_induction bracedCode? left code cursor with
  | case2 =>
    cases h
    exact Nat.le_succ _
  | case4 _ _ _ _ _ _ _ _ ih => exact Nat.le_succ_of_le (ih h)
  | _ => cases h

theorem length_unicodeCode {cursor : Cursor} {found : Nat × Cursor}
    (h : unicodeCode cursor = .ok found) : found.2.rest.length ≤ cursor.rest.length := by
  unfold unicodeCode at h
  split at h
  · split at h
    · cases h
      exact Nat.le_succ_of_le (length_bracedCode? (by assumption))
    · cases h
  · split at h
    · cases h
      exact length_hexCode? (by assumption)
    · cases h

private theorem behind_of_map {result : Except Complaint Char} {behind : Cursor} {found : Escape}
    (h : result.map (fun c => (⟨some c, behind⟩ : Escape)) = .ok found) :
    found.behind = behind := by
  cases result with
  | error => cases h
  | ok c =>
    cases h
    rfl

theorem length_lowEscape {high : Nat} {cursor : Cursor} {found : Escape}
    (h : lowEscape high cursor = .ok found) :
    found.behind.rest.length ≤ cursor.rest.length := by
  unfold lowEscape at h
  split at h
  · split at h
    · next hcode =>
      split at h
      · rw [behind_of_map h]
        exact Nat.le_succ_of_le (Nat.le_succ_of_le (length_unicodeCode hcode))
      · cases h
    · cases h
  · cases h

theorem length_unicodeEscape {cursor : Cursor} {found : Escape}
    (h : unicodeEscape cursor = .ok found) : found.behind.rest.length ≤ cursor.rest.length := by
  unfold unicodeEscape at h
  split at h
  · next hcode =>
    split at h
    · exact Nat.le_trans (length_lowEscape h) (length_unicodeCode hcode)
    · rw [behind_of_map h]
      exact length_unicodeCode hcode
  · cases h

theorem length_escape {first : Char} {cursor : Cursor} {found : Escape}
    (h : escape first cursor = .ok found) : found.behind.rest.length ≤ cursor.rest.length := by
  unfold escape at h
  split at h
  case h_7 =>
    split at h
    · next hcode =>
      rw [behind_of_map h]
      exact length_hexCode? hcode
    · cases h
  case h_8 => exact length_unicodeEscape h
  case h_9 =>
    split at h
    · cases h
      exact Nat.le_succ _
    · cases h
      exact Nat.le_refl _
  case h_13 =>
    split at h
    · cases h
      exact Nat.le_refl _
    · split at h
      · cases h
      · cases h
        exact Nat.le_refl _
  all_goals
    cases h
    exact Nat.le_refl _

def kind (quote : Char) : Unfinished := if quote = '`' then .templateLiteral else .stringLiteral

/-- Whether a line break may not stand in a literal. -/
def endsLine (quote c : Char) : Bool := quote != '`' && (c == '\n' || c == '\r')

def interpolates (quote c : Char) (rest : List Char) : Bool :=
  quote == '`' && c == '$' && rest.head? == some '{'

/-- Decodes a literal behind its opening quote, up to the cursor behind the closing one. -/
def read (quote : Char) (cursor : Cursor) : Except Error (List Char × Cursor) :=
  match cursor with
  | ⟨[], _⟩ => .error (.unterminated (kind quote))
  | ⟨c :: rest, place⟩ =>
    if c = quote then .ok ([], ⟨rest, place.next c⟩)
    else if c = '\\' then
      match rest with
      | [] => .error (.unterminated .stringLiteral)
      | first :: rest =>
        match h : escape first ⟨rest, (place.next c).next first⟩ with
        | .error complaint => .error (.malformed place.position complaint)
        | .ok found =>
          have : found.behind.rest.length ≤ rest.length := length_escape h
          (read quote found.behind).map (Prod.map (found.char.toList ++ ·) id)
    else if endsLine quote c then .error (.unterminated (kind quote))
    else if interpolates quote c rest then .error (.malformed place.position .interpolation)
    else (read quote ⟨rest, place.next c⟩).map (Prod.map (c :: ·) id)
termination_by cursor.rest.length

private theorem read_of_mapped {result : Except Error (List Char × Cursor)}
    {f : List Char → List Char} {found : List Char × Cursor}
    (h : result.map (Prod.map f id) = .ok found) : ∃ text, result = .ok (text, found.2) := by
  cases result with
  | error => cases h
  | ok pair =>
    cases h
    exact ⟨pair.1, rfl⟩

theorem length_read {quote : Char} {cursor : Cursor} {found : List Char × Cursor}
    (h : read quote cursor = .ok found) : found.2.rest.length ≤ cursor.rest.length := by
  fun_induction read quote cursor generalizing found with
  | case2 =>
    cases h
    exact Nat.le_succ _
  | case5 _ _ _ _ _ _ _ ih =>
    obtain ⟨text, hread⟩ := read_of_mapped h
    have hle := ih hread
    simp only [List.length_cons] at hle ⊢
    omega
  | case8 _ _ _ _ _ _ _ ih =>
    obtain ⟨text, hread⟩ := read_of_mapped h
    have hle := ih hread
    exact Nat.le_succ_of_le hle
  | _ => cases h

end SiteConfig.ConfigModule.Quotation

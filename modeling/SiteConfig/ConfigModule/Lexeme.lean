import SiteConfig.ConfigModule.Quotation
import SiteConfig.Text.Blank
import SiteConfig.Text.Letter
/-!
# Lexemes

The source as its tokens, each with the place at which it starts. Blanks and comments stand between
tokens and do not count.
-/
namespace SiteConfig.ConfigModule

/-- A token and the place of its first character. -/
structure Lexeme where
  token : Token
  place : Place

/-- Where the skipping of blanks and comments stands. -/
inductive Gap where
  | between
  | lineComment
  | blockComment

/-- Skips blanks and comments. None if a comment stays open. -/
def Gap.skip (gap : Gap) (cursor : Cursor) : Option Cursor :=
  go gap cursor.rest cursor.place
where
  go : Gap → List Char → Place → Option Cursor
    | .blockComment, [], _ => none
    | _, [], place => some ⟨[], place⟩
    | .between, '/' :: '/' :: rest, place => go .lineComment rest ((place.next '/').next '/')
    | .between, '/' :: '*' :: rest, place => go .blockComment rest ((place.next '/').next '*')
    | .between, c :: rest, place =>
      if Text.isBlank c then go .between rest (place.next c) else some ⟨c :: rest, place⟩
    | .lineComment, c :: rest, place =>
      go (if c = '\n' then .between else .lineComment) rest (place.next c)
    | .blockComment, '*' :: '/' :: rest, place => go .between rest ((place.next '*').next '/')
    | .blockComment, c :: rest, place => go .blockComment rest (place.next c)

namespace Lexeme

def isNameStart (c : Char) : Bool := Text.isAlphabetic c || c == '_' || c == '$'

def isNamePart (c : Char) : Bool := isNameStart c || Text.isNumeric c

def isQuote (c : Char) : Bool := c == '"' || c == '\'' || c == '`'

/-- Whether a numeral starts: with a digit, or with a point in front of one. -/
def startsNumeral (first : Char) (rest : List Char) : Bool :=
  first.isDigit || first == '.' && rest.head?.any Char.isDigit

def readToken (place : Place) (first : Char) (rest : List Char) : Except Error (Token × Cursor) :=
  if isQuote first then
    (Quotation.read first ⟨rest, place.next first⟩).map
      (Prod.map (fun text => .string (String.ofList text)) id)
  else if startsNumeral first rest then
    (Numeral.read place first rest).map (Prod.map Token.number id)
  else if isNameStart first then
    let spanned := Cursor.span (fun _ => isNamePart) first ⟨rest, place.next first⟩
    .ok (.name (String.ofList (first :: spanned.1)), spanned.2)
  else .ok (.punct first, ⟨rest, place.next first⟩)

theorem length_readToken {place : Place} {first : Char} {rest : List Char}
    {found : Token × Cursor} (h : readToken place first rest = .ok found) :
    found.2.rest.length ≤ rest.length := by
  unfold readToken at h
  split at h
  · cases hread : Quotation.read first ⟨rest, place.next first⟩ with
    | error => simp [hread, Except.map] at h
    | ok pair =>
      simp only [hread, Except.map, Except.ok.injEq] at h
      subst h
      exact Quotation.length_read hread
  · split at h
    · cases hread : Numeral.read place first rest with
      | error => simp [hread, Except.map] at h
      | ok pair =>
        simp only [hread, Except.map, Except.ok.injEq] at h
        subst h
        exact Numeral.length_read hread
    · split at h
      · cases h
        exact Cursor.length_span ..
      · cases h
        exact Nat.le_refl _

end Lexeme

theorem Gap.length_skip {gap : Gap} {cursor behind : Cursor} (h : gap.skip cursor = some behind) :
    behind.rest.length ≤ cursor.rest.length := by
  obtain ⟨rest, place⟩ := cursor
  unfold skip at h
  dsimp only at h ⊢
  fun_induction skip.go gap rest place with
  | case1 => cases h
  | case2 => exact Nat.le_of_eq (congrArg (·.rest.length) (Option.some.inj h).symm)
  | case6 => exact Nat.le_of_eq (congrArg (·.rest.length) (Option.some.inj h).symm)
  | _ =>
    rename_i ih
    have := ih h
    simp only [List.length_cons]
    omega

/-- The lexemes from a cursor on, and the position of the end of the source. -/
def lexemesFrom (cursor : Cursor) : Except Error (List Lexeme × Position) :=
  match hskip : Gap.between.skip cursor with
  | none => .error (.unterminated .blockComment)
  | some ⟨[], place⟩ => .ok ([], place.position)
  | some ⟨first :: rest, place⟩ =>
    match hread : Lexeme.readToken place first rest with
    | .error error => .error error
    | .ok (token, behind) =>
      have : behind.rest.length < cursor.rest.length := by
        have hrest : behind.rest.length ≤ rest.length := Lexeme.length_readToken hread
        have hgap := Gap.length_skip hskip
        simp only [List.length_cons] at hgap
        omega
      (lexemesFrom behind).map (Prod.map (⟨token, place⟩ :: ·) id)
termination_by cursor.rest.length

def lexemes (source : List Char) : Except Error (List Lexeme × Position) :=
  lexemesFrom (.start source)

end SiteConfig.ConfigModule

import SiteConfig.ConfigModule.Position
/-!
# Cursors

Going over a source from its start to its end. A cursor holds the characters that are left and counts
the lines, the columns and the bytes of those that it has passed.
-/
namespace SiteConfig.ConfigModule

/-- A position, and the number of bytes in front of it. -/
structure Place where
  position : Position
  offset : Nat
  deriving DecidableEq

namespace Place

def start : Place := ⟨.start, 0⟩

def next (p : Place) (c : Char) : Place := ⟨p.position.next c, p.offset + c.utf8Size⟩

end Place

/-- The rest of a source, with the place at which it starts. -/
structure Cursor where
  rest : List Char
  place : Place

namespace Cursor

def start (source : List Char) : Cursor := ⟨source, .start⟩

/-- Takes characters as long as each one goes on behind the one before it. -/
def span (goesOn : Char → Char → Bool) (last : Char) (cursor : Cursor) : List Char × Cursor :=
  go last cursor.rest cursor.place
where
  go : Char → List Char → Place → List Char × Cursor
    | _, [], place => ([], ⟨[], place⟩)
    | last, c :: rest, place =>
      if goesOn last c then
        let spanned := go c rest (place.next c)
        (c :: spanned.1, spanned.2)
      else ([], ⟨c :: rest, place⟩)

theorem length_span (goesOn : Char → Char → Bool) (last : Char) (cursor : Cursor) :
    (span goesOn last cursor).2.rest.length ≤ cursor.rest.length := by
  obtain ⟨rest, place⟩ := cursor
  unfold span
  fun_induction span.go goesOn last rest place with
  | case2 _ _ _ _ _ _ ih => exact Nat.le_succ_of_le ih
  | _ => exact Nat.le_refl _

end Cursor

end SiteConfig.ConfigModule

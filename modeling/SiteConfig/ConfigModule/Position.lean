/-!
# Positions

Lines and columns of a source text.
-/
namespace SiteConfig.ConfigModule

/-- A place in the source; lines and columns count from one. -/
structure Position where
  line : Nat
  column : Nat
  deriving DecidableEq

namespace Position

def start : Position := ⟨1, 1⟩

/-- The position behind a character; only a line feed starts a line. -/
def next (p : Position) (c : Char) : Position :=
  if c = '\n' then ⟨p.line + 1, 1⟩ else ⟨p.line, p.column + 1⟩

def text (p : Position) : String := "line " ++ toString p.line ++ ", column " ++ toString p.column

end Position

end SiteConfig.ConfigModule

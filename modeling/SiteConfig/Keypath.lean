/-!
# Keypaths

Locations of values in a configuration tree, used to say where a violation stands.
-/
namespace SiteConfig

/-- The field names that lead from the root to a value. -/
structure Keypath where
  segments : List String
  deriving DecidableEq

namespace Keypath

def root : Keypath := ⟨[]⟩

def child (keypath : Keypath) (name : String) : Keypath := ⟨keypath.segments ++ [name]⟩

def isRoot (keypath : Keypath) : Bool := keypath.segments.isEmpty

/-- Each segment after a point, so that the text of the root is empty. -/
def text (keypath : Keypath) : String := String.join (keypath.segments.map ("." ++ ·))

def location (keypath : Keypath) : String :=
  if keypath.isRoot then "configuration" else keypath.text

end Keypath
end SiteConfig

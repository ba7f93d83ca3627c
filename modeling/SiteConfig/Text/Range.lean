/-!
# Character ranges

Sets of characters given by ranges of code points.
-/
namespace SiteConfig.Text

/-- Whether a code point lies in one of the ranges, whose bounds belong to them. -/
def inRanges (ranges : List (Nat × Nat)) (code : Nat) : Bool :=
  ranges.any fun (first, last) => decide (first ≤ code) && decide (code ≤ last)

end SiteConfig.Text

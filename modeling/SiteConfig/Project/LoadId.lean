/-!
# Load identifiers

Every load of a configuration module gets a number above all earlier ones: the time in milliseconds,
or the successor of the last number where the clock has not moved past it.
-/
namespace SiteConfig.LoadId

/-- The greatest load identifier, at which the numbers stop growing. -/
def greatest : Nat := UInt64.size - 1

/-- What the clock reads at a time in milliseconds, counted from the epoch on: nothing before the
epoch, and never more than the greatest identifier. -/
def reading (milliseconds : Int) : Nat := min milliseconds.toNat greatest

/-- The identifier that follows the last one at a time. -/
def next (now last : Nat) : Nat := max now (min (last + 1) greatest)

theorem lt_next {now last : Nat} (h : last < greatest) : last < next now last := by
  unfold next
  omega

theorem le_next (now last : Nat) : now ≤ next now last := Nat.le_max_left _ _

end SiteConfig.LoadId

import Mathlib.Algebra.Group.Int.Defs
import SiteConfig.Number
/-!
# Numbers

When an integer is one of the whole numbers that a word holds, and which one it is then. Every number
has an opposite one.
-/
namespace SiteConfig

theorem WholeNumber.ofInt?_eq_some_iff (n : Int) (m : WholeNumber) :
    ofInt? n = some m ↔ m.val = n := by
  constructor
  · intro h
    simp only [ofInt?, Option.dite_none_right_eq_some, Option.some.injEq] at h
    obtain ⟨_, rfl⟩ := h
    rfl
  · intro h
    subst h
    exact dif_pos m.property

theorem WholeNumber.ofInt?_eq_none_iff (n : Int) :
    ofInt? n = none ↔ n < -2 ^ 63 ∨ 2 ^ 64 ≤ n := by
  simp only [ofInt?, dite_eq_right_iff, reduceCtorEq, imp_false]
  omega

theorem Signed64.ofInt?_eq_some_iff (n : Int) (m : Signed64) :
    ofInt? n = some m ↔ m.val = n := by
  constructor
  · intro h
    simp only [ofInt?, Option.dite_none_right_eq_some, Option.some.injEq] at h
    obtain ⟨_, rfl⟩ := h
    rfl
  · intro h
    subst h
    exact dif_pos m.property

theorem Signed64.ofInt?_eq_none_iff (n : Int) :
    ofInt? n = none ↔ n < -2 ^ 63 ∨ 2 ^ 63 ≤ n := by
  simp only [ofInt?, dite_eq_right_iff, reduceCtorEq, imp_false]
  omega

namespace Number

theorem signed?_ofSigned (n : Signed64) : (Number.ofSigned n).signed? = some n := by
  rw [ofSigned, signed?, Signed64.ofInt?_eq_some_iff]
  rfl

theorem neg_bounds (n : WholeNumber) (h : 0 ≤ n.val ∧ n.val ≤ 2 ^ 63) :
    -2 ^ 63 ≤ -n.val ∧ -n.val < 2 ^ 64 := by
  omega

def neg (n : Number) : Number :=
  match n with
  | .integer m =>
    if h : 0 ≤ m.val ∧ m.val ≤ 2 ^ 63 then .integer ⟨-m.val, neg_bounds m h⟩
    else .float n.toFloat.neg
  | .float x => .float x.neg

theorem negateFloat?_eq (n : Number) : n.negateFloat? = some (.float n.toFloat.neg) := by
  have hfinite : n.toFloat.val.neg.IsFinite := Binary64.neg_isFinite n.toFloat.property
  simp only [negateFloat?, Binary64.Finite.ofBinary64?, dif_pos hfinite, Option.map_some]
  rfl

theorem negate?_eq (n : Number) : n.negate? = some n.neg := by
  cases n with
  | integer m =>
    simp only [negate?, neg]
    split
    · rfl
    · exact negateFloat?_eq _
  | float x => exact negateFloat?_eq (.float x)

end Number

end SiteConfig

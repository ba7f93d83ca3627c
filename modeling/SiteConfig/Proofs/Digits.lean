import Mathlib
import SiteConfig.ConfigModule.Numeral
/-!
# Digits

Digits of a radix and the numbers that they spell by their places. The reading of a digit accepts
these digits, and the reading of a row of digits gives these numbers.
-/
namespace SiteConfig.ConfigModule

/-- A character that is a digit of a radix, in lower or upper case, with its value. -/
structure DigitOf (radix : Nat) (c : Char) (d : Nat) : Prop where
  lt : d < radix
  char : c = Nat.digitChar d ∨ c = (Nat.digitChar d).toUpper

instance (radix : Nat) (c : Char) (d : Nat) : Decidable (DigitOf radix c d) :=
  decidable_of_iff (d < radix ∧ (c = Nat.digitChar d ∨ c = (Nat.digitChar d).toUpper))
    ⟨fun h => ⟨h.1, h.2⟩, fun h => ⟨h.lt, h.char⟩⟩

abbrev DigitsOf (radix : Nat) : List Char → List Nat → Prop := List.Forall₂ (DigitOf radix)

theorem DigitsOf.eq_nil_iff {radix : Nat} {text : List Char} {digits : List Nat}
    (h : DigitsOf radix text digits) : text = [] ↔ digits = [] := by
  rw [← List.length_eq_zero_iff, h.length_eq, List.length_eq_zero_iff]

/-- The number that values of digits make up by their places, the last one counting once. -/
def placeValue (radix : Nat) (digits : List Nat) : Nat := Nat.ofDigits radix digits.reverse

def appendDigits (radix n : Nat) (digits : List Nat) : Nat :=
  digits.foldl (fun n d => radix * n + d) n

theorem placeValue_eq (radix : Nat) (digits : List Nat) :
    placeValue radix digits = appendDigits radix 0 digits := by
  rw [placeValue, Nat.ofDigits_eq_foldr, List.foldr_reverse, appendDigits]
  simp [Nat.add_comm]

theorem DigitOf.isAlphanum {radix : Nat} {c : Char} {d : Nat} (hradix : radix ≤ 16)
    (h : DigitOf radix c d) : c.isAlphanum = true := by
  have hchars : ∀ d < 16, (Nat.digitChar d).isAlphanum = true ∧
      (Nat.digitChar d).toUpper.isAlphanum = true := by
    decide
  rcases h.char with rfl | rfl
  · exact (hchars d (h.lt.trans_le hradix)).1
  · exact (hchars d (h.lt.trans_le hradix)).2

theorem DigitsOf.isAlphanum {radix : Nat} {text : List Char} {digits : List Nat}
    (hradix : radix ≤ 16) (h : DigitsOf radix text digits) : ∀ c ∈ text, c.isAlphanum = true := by
  induction h with
  | nil => simp
  | cons hd _ ih => exact List.forall_mem_cons.mpr ⟨hd.isAlphanum hradix, ih⟩

theorem DigitOf.isDigit {c : Char} {d : Nat} (h : DigitOf 10 c d) :
    c.isDigit = true ∧ c.toNat - '0'.toNat = d := by
  have hchars : ∀ d < 10,
      ((Nat.digitChar d).isDigit = true ∧ (Nat.digitChar d).toNat - '0'.toNat = d) ∧
        (Nat.digitChar d).toUpper.isDigit = true ∧
          (Nat.digitChar d).toUpper.toNat - '0'.toNat = d := by
    decide
  rcases h.char with rfl | rfl
  · exact (hchars d h.lt).1
  · exact (hchars d h.lt).2

theorem DigitsOf.isDigit {text : List Char} {digits : List Nat} (h : DigitsOf 10 text digits) :
    ∀ c ∈ text, c.isDigit = true := by
  induction h with
  | nil => simp
  | cons hd _ ih => exact List.forall_mem_cons.mpr ⟨hd.isDigit.1, ih⟩

theorem digitsFrom_eq {text : List Char} {digits : List Nat} (h : DigitsOf 10 text digits)
    (start : Nat) : Decimal.digitsFrom start text = appendDigits 10 start digits := by
  induction h generalizing start with
  | nil => rfl
  | cons hd _ ih =>
    rw [Decimal.digitsFrom, List.foldl_cons, hd.isDigit.2]
    exact ih _

namespace Numeral

variable {radix : Nat} {c : Char} {d : Nat}

private theorem eq_of_rank {first count : Nat} {chars : Nat → Char}
    (hchars : ∀ d < count, Char.ofNat (first + d) = chars d)
    (h : first ≤ c.toNat ∧ c.toNat < first + count) : c = chars (c.toNat - first) := by
  have hchar := hchars (c.toNat - first) (by omega)
  rw [Nat.add_sub_cancel' h.1, Char.ofNat_toNat] at hchar
  exact hchar

theorem digit?_eq_some_iff (hradix : radix ≤ 16) : digit? radix c = some d ↔ DigitOf radix c d := by
  constructor
  · intro h
    rw [digit?, Option.filter_eq_some_iff, decide_eq_true_eq] at h
    obtain ⟨hvalue, hlt⟩ := h
    refine ⟨hlt, ?_⟩
    split_ifs at hvalue with hdigit hlower hupper <;> cases hvalue
    · simp only [Char.isDigit, Bool.and_eq_true, decide_eq_true_eq, UInt32.le_iff_toNat_le]
        at hdigit
      change 48 ≤ c.toNat ∧ c.toNat ≤ 57 at hdigit
      have hchars : ∀ d < 10, Char.ofNat (48 + d) = Nat.digitChar d := by decide
      exact .inl (@eq_of_rank c 48 10 Nat.digitChar hchars (by omega))
    · change 97 ≤ c.toNat ∧ c.toNat ≤ 102 at hlower
      have hchars : ∀ d < 6, Char.ofNat (97 + d) = Nat.digitChar (d + 10) := by decide
      exact .inl (eq_of_rank hchars (by omega))
    · change 65 ≤ c.toNat ∧ c.toNat ≤ 70 at hupper
      have hchars : ∀ d < 6, Char.ofNat (65 + d) = (Nat.digitChar (d + 10)).toUpper := by decide
      exact .inr (eq_of_rank hchars (by omega))
  · intro h
    have hdigits : ∀ d < 16, digit? 16 (Nat.digitChar d) = some d ∧
        digit? 16 (Nat.digitChar d).toUpper = some d := by
      decide
    have hsixteen : digit? 16 c = some d := by
      rcases h.char with rfl | rfl
      · exact (hdigits d (h.lt.trans_le hradix)).1
      · exact (hdigits d (h.lt.trans_le hradix)).2
    rw [digit?, Option.filter_eq_some_iff, decide_eq_true_eq] at hsixteen ⊢
    exact ⟨hsixteen.1, h.lt⟩

/-- Digits are read by their places behind those of the start. -/
theorem ofDigits?_eq_some_iff (hradix : radix ≤ 16) {start n : Nat} {text : List Char} :
    ofDigits? radix start text = some n ↔
      ∃ digits, DigitsOf radix text digits ∧ n = appendDigits radix start digits := by
  induction text generalizing start with
  | nil => simp [ofDigits?, appendDigits, eq_comm]
  | cons c text ih =>
    simp only [ofDigits?, List.foldlM_cons, Option.bind_eq_bind, Option.bind_eq_some_iff,
      Option.map_eq_some_iff] at ih ⊢
    constructor
    · rintro ⟨_, ⟨d, hd, rfl⟩, hrest⟩
      obtain ⟨digits, hdigits, rfl⟩ := ih.mp hrest
      exact ⟨d :: digits, .cons ((digit?_eq_some_iff hradix).mp hd) hdigits, rfl⟩
    · rintro ⟨_, hdigits, rfl⟩
      cases hdigits with
      | cons hd hrest =>
        exact ⟨_, ⟨_, (digit?_eq_some_iff hradix).mpr hd, rfl⟩, ih.mpr ⟨_, hrest, rfl⟩⟩

theorem exists_digitsOf {text : List Char} (h : ∀ c ∈ text, c.isDigit = true) :
    ∃ digits, DigitsOf 10 text digits := by
  induction text with
  | nil => exact ⟨[], .nil⟩
  | cons c text ih =>
    obtain ⟨hc, htext⟩ := List.forall_mem_cons.mp h
    obtain ⟨digits, hdigits⟩ := ih htext
    have hlt : c.toNat - 48 < 10 := by
      have hrange := hc
      simp only [Char.isDigit, Bool.and_eq_true, decide_eq_true_eq, UInt32.le_iff_toNat_le]
        at hrange
      change 48 ≤ c.toNat ∧ c.toNat ≤ 57 at hrange
      omega
    have hd : digit? 10 c = some (c.toNat - 48) := by
      simp [digit?, hc, hlt]
    exact ⟨_ :: digits, .cons ((digit?_eq_some_iff (by decide)).mp hd) hdigits⟩

end Numeral

end SiteConfig.ConfigModule

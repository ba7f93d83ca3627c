import SiteConfig.Proofs.DecimalValues
import SiteConfig.Validator.Scalar
/-!
# Integer options

What integer options accept, compared with what number options make of the same value, and the
numerals that they read without changing their value.
-/
namespace SiteConfig.Validator

open Binary64 Decimal

def InRange (range : Option (Int × Int)) (n : Int) : Prop :=
  ∀ bounds ∈ range, bounds.1 ≤ n ∧ n ≤ bounds.2

/-- The values that state a whole number of a signed word exactly: integers and their numerals. -/
inductive States : Value → Signed64 → Prop
  | number {n : WholeNumber} {m : Signed64} (h : m.val = n.val) : States (.number (.integer n)) m
  | text {s : String} {m : Signed64} (h : WholeNumeral (Text.trim s.toList) m.val) :
      States (.string s) m

/-- The whole numbers that integer options read: what a value states exactly, or else its nearest
floating-point number if that is whole. -/
inductive Reads (value : Value) (m : Signed64) : Prop
  | exact (h : States value m)
  | nearest {x : Finite} (hexact : ∀ m, ¬States value m) (hx : toFloat? value = some x)
      (hm : x.val.value = m.val)

def IsMismatch {α : Type} (result : Except Violation α) : Prop :=
  ∃ keypath expected found, result = .error (.typeMismatch keypath expected found)

def IsInvalid {α : Type} (result : Except Violation α) : Prop :=
  ∃ keypath flaw, result = .error (.invalidValue keypath flaw)

theorem isMismatch_map_iff {α β : Type} {f : α → β} {result : Except Violation α} :
    IsMismatch (result.map f) ↔ IsMismatch result := by
  cases result <;> simp [IsMismatch, Except.map]

theorem isInvalid_map_iff {α β : Type} {f : α → β} {result : Except Violation α} :
    IsInvalid (result.map f) ↔ IsInvalid result := by
  cases result <;> simp [IsInvalid, Except.map]

section Reading

variable {value : Value}

theorem toSigned?_eq_some_iff {m : Signed64} : toSigned? value = some m ↔ States value m := by
  constructor
  · intro h
    unfold toSigned? at h
    split at h
    · next n =>
      cases n with
      | integer n => exact .number ((Signed64.ofInt?_eq_some_iff _ _).mp h)
      | float x => cases h
    · obtain ⟨n, hn, hm⟩ := Option.bind_eq_some_iff.mp h
      obtain rfl := (Signed64.ofInt?_eq_some_iff _ _).mp hm
      exact .text (integerOfText?_eq_some_iff.mp hn)
    · cases h
  · intro h
    cases h with
    | number h => exact (Signed64.ofInt?_eq_some_iff _ _).mpr h
    | text h =>
      rw [toSigned?, integerOfText?_eq_some_iff.mpr h, Option.bind_some,
        Signed64.ofInt?_eq_some_iff]

theorem states_string_iff {s : String} {m : Signed64} :
    States (.string s) m ↔ WholeNumeral (Text.trim s.toList) m.val := by
  constructor
  · rintro (_ | h)
    exact h
  · exact .text

theorem toSigned?_eq_none_iff : toSigned? value = none ↔ ∀ m, ¬States value m := by
  simp only [← toSigned?_eq_some_iff, Option.eq_none_iff_forall_ne_some, ne_eq]

theorem States.exists_isNearest {m : Signed64} (h : States value m) :
    ∃ x, IsNearest x m.val ∧ toFloat? value = some x := by
  have hbounds := m.property
  cases h with
  | @number n _ h =>
    rw [h]
    exact ⟨_, (Number.integer n).isNearest_toFloat, rfl⟩
  | text h => exact h.exists_isNearest (by rw [abs_le]; omega)

theorem bind_whole?_eq_some_iff {x : Finite} {m : Signed64} :
    x.whole?.bind Signed64.ofInt? = some m ↔ x.val.value = m.val := by
  simp [Option.bind_eq_some_iff, Signed64.ofInt?_eq_some_iff, Finite.whole?_eq_some_iff]

theorem reads_iff {m : Signed64} : Reads value m ↔ ((toSigned? value).or
    ((toFloat? value).bind fun x => x.whole?.bind Signed64.ofInt?)) = some m := by
  rw [Option.or_eq_some_iff, toSigned?_eq_some_iff, toSigned?_eq_none_iff, Option.bind_eq_some_iff]
  simp only [bind_whole?_eq_some_iff]
  constructor
  · rintro (h | ⟨hexact, hx, hm⟩)
    · exact .inl h
    · exact .inr ⟨hexact, _, hx, hm⟩
  · rintro (h | ⟨hexact, x, hx, hm⟩)
    · exact .exact h
    · exact .nearest hexact hx hm

theorem States.unique {m n : Signed64} (hm : States value m) (hn : States value n) : m = n := by
  rw [← toSigned?_eq_some_iff] at hm hn
  exact Option.some.inj (hm.symm.trans hn)

theorem States.reads_iff {m n : Signed64} (h : States value n) : Reads value m ↔ m = n := by
  constructor
  · rintro (hm | ⟨hexact, -, -⟩)
    · exact hm.unique h
    · exact absurd h (hexact n)
  · rintro rfl
    exact .exact h

theorem reads_iff_of_not_states {m : Signed64} (hexact : ∀ m, ¬States value m) :
    Reads value m ↔ ∃ x, toFloat? value = some x ∧ x.val.value = m.val := by
  constructor
  · rintro (h | ⟨-, hx, hm⟩)
    · exact absurd h (hexact m)
    · exact ⟨_, hx, hm⟩
  · rintro ⟨x, hx, hm⟩
    exact .nearest hexact hx hm

instance (value : Value) (m : Signed64) : Decidable (Reads value m) := decidable_of_iff _ reads_iff.symm

end Reading

section Outcomes

variable {value : Value} {raw : Option Value} {keypath : Keypath} {range : Option (Int × Int)}

theorem checkRange_eq_ok_iff {n m : Signed64} :
    checkRange range n keypath = .ok m ↔ m = n ∧ InRange range m.val := by
  cases range with
  | none => simp [checkRange, InRange, eq_comm]
  | some bounds =>
    simp only [checkRange, InRange, Option.mem_def, Option.some_inj, forall_eq']
    split
    · next h =>
      rw [Except.ok.injEq, eq_comm, iff_self_and]
      rintro rfl
      exact h
    · next h =>
      refine iff_of_false (by simp) ?_
      rintro ⟨rfl, hrange⟩
      exact h hrange

theorem checkWhole_eq_ok_iff {x : Finite} {m : Signed64} :
    checkWhole range x keypath = .ok m ↔ x.val.value = m.val ∧ InRange range m.val := by
  rw [checkWhole, ← bind_whole?_eq_some_iff]
  cases x.whole?.bind Signed64.ofInt? with
  | none => simp
  | some n => simp [checkRange_eq_ok_iff, eq_comm]

theorem not_isMismatch_checkRange (n : Signed64) : ¬IsMismatch (checkRange range n keypath) := by
  unfold checkRange
  split
  · simp [IsMismatch]
  · split <;> simp [IsMismatch]

theorem not_isMismatch_checkWhole (x : Finite) : ¬IsMismatch (checkWhole range x keypath) := by
  unfold checkWhole
  cases x.whole?.bind Signed64.ofInt? with
  | none => simp [IsMismatch]
  | some n => exact not_isMismatch_checkRange n

theorem isInvalid_checkWhole_iff (x : Finite) : IsInvalid (checkWhole none x keypath) ↔
    (¬∃ k : Int, x.val.value = k) ∨ x.val.value < -2 ^ 63 ∨ 2 ^ 63 ≤ x.val.value := by
  rw [checkWhole]
  cases hwhole : x.whole? with
  | none =>
    have hfraction : ¬∃ k : Int, x.val.value = k := by
      rintro ⟨k, hk⟩
      rw [Finite.whole?_eq_some_iff.mpr hk] at hwhole
      cases hwhole
    simp [IsInvalid, hfraction]
  | some k =>
    rw [Finite.whole?_eq_some_iff] at hwhole
    have hbounds : (k < -2 ^ 63 ∨ 2 ^ 63 ≤ k) ↔
        ((k : ℚ) < -2 ^ 63 ∨ (2 : ℚ) ^ 63 ≤ k) := by
      norm_cast
    rw [hwhole, ← hbounds, ← Signed64.ofInt?_eq_none_iff, Option.bind_some]
    cases Signed64.ofInt? k <;> simp [IsInvalid, checkRange]

/-- The outcomes of reading an integer: another kind of value, a whole number that is stated exactly,
or a floating-point number. -/
theorem validateInteger_cases (default : Option Signed64) (range : Option (Int × Int))
    (keypath : Keypath) (hpresent : present raw = some value) :
    (toFloat? value = none ∧ validateInteger default range raw keypath =
        .error (.typeMismatch keypath .integer value.kind)) ∨
      (∃ m, States value m ∧ validateInteger default range raw keypath =
        (checkRange range m keypath).map some) ∨
      ∃ x, (∀ m, ¬States value m) ∧ toFloat? value = some x ∧
        validateInteger default range raw keypath = (checkWhole range x keypath).map some := by
  simp only [validateInteger, hpresent]
  cases hsigned : toSigned? value with
  | some m => exact .inr (.inl ⟨m, toSigned?_eq_some_iff.mp hsigned, rfl⟩)
  | none =>
    cases toFloat? value with
    | none => exact .inl ⟨rfl, rfl⟩
    | some x => exact .inr (.inr ⟨x, toSigned?_eq_none_iff.mp hsigned, rfl, rfl⟩)

theorem validateNumber_cases (default : Option Binary64) (keypath : Keypath)
    (hpresent : present raw = some value) :
    (toFloat? value = none ∧ validateNumber default raw keypath =
        .error (.typeMismatch keypath .number value.kind)) ∨
      ∃ x, toFloat? value = some x ∧ validateNumber default raw keypath = .ok (some x.val) := by
  simp only [validateNumber, hpresent]
  cases toFloat? value with
  | none => exact .inl ⟨rfl, rfl⟩
  | some x => exact .inr ⟨x, rfl, rfl⟩

/-- Integer options accept the whole numbers that they read and that are in range. -/
theorem validateInteger_eq_ok_iff (default : Option Signed64) (hpresent : present raw = some value)
    {o : Option Signed64} :
    validateInteger default range raw keypath = .ok o ↔
      ∃ m, o = some m ∧ Reads value m ∧ InRange range m.val := by
  have hmap {result : Except Violation Signed64} :
      result.map some = .ok o ↔ ∃ m, o = some m ∧ result = .ok m := by
    cases result <;> simp [Except.map, eq_comm]
  obtain ⟨hnone, hresult⟩ | ⟨n, hn, hresult⟩ | ⟨x, hexact, hx, hresult⟩ :=
    validateInteger_cases default range keypath hpresent
  · refine iff_of_false (by simp [hresult]) ?_
    rintro ⟨m, -, ⟨hm⟩ | ⟨-, hx, -⟩, -⟩
    · obtain ⟨x, -, hx⟩ := hm.exists_isNearest
      simp [hnone] at hx
    · simp [hnone] at hx
  · rw [hresult, hmap]
    simp only [checkRange_eq_ok_iff, hn.reads_iff]
  · rw [hresult, hmap]
    simp only [checkWhole_eq_ok_iff, reads_iff_of_not_states hexact, hx, Option.some_inj,
      exists_eq_left']

theorem isMismatch_validateInteger_iff (default : Option Signed64)
    (hpresent : present raw = some value) :
    IsMismatch (validateInteger default range raw keypath) ↔ toFloat? value = none := by
  obtain ⟨hnone, hresult⟩ | ⟨m, hm, hresult⟩ | ⟨x, -, hx, hresult⟩ :=
    validateInteger_cases default range keypath hpresent
  · simp [hresult, hnone, IsMismatch]
  · obtain ⟨x, -, hx⟩ := hm.exists_isNearest
    rw [hresult, isMismatch_map_iff, hx]
    exact iff_of_false (not_isMismatch_checkRange m) (by simp)
  · rw [hresult, isMismatch_map_iff, hx]
    exact iff_of_false (not_isMismatch_checkWhole x) (by simp)

theorem isMismatch_validateNumber_iff (default : Option Binary64)
    (hpresent : present raw = some value) :
    IsMismatch (validateNumber default raw keypath) ↔ toFloat? value = none := by
  obtain ⟨hnone, hresult⟩ | ⟨x, hx, hresult⟩ := validateNumber_cases default keypath hpresent
  · simp [hresult, hnone, IsMismatch]
  · simp [hresult, hx, IsMismatch]

theorem validateNumber_eq_ok_iff (default : Option Binary64) (hpresent : present raw = some value)
    {x : Finite} : validateNumber default raw keypath = .ok (some x.val) ↔ toFloat? value = some x := by
  obtain ⟨hnone, hresult⟩ | ⟨y, hy, hresult⟩ := validateNumber_cases default keypath hpresent
  · simp [hresult, hnone]
  · simp [hresult, hy, Subtype.ext_iff]

theorem isInvalid_validateInteger_iff (default : Option Signed64)
    (hpresent : present raw = some value) :
    IsInvalid (validateInteger default none raw keypath) ↔ ∃ x, toFloat? value = some x ∧
      ((¬∃ k : Int, x.val.value = k) ∨ x.val.value < -2 ^ 63 ∨ 2 ^ 63 ≤ x.val.value) ∧
        ∀ m, ¬States value m := by
  obtain ⟨hnone, hresult⟩ | ⟨m, hm, hresult⟩ | ⟨x, hexact, hx, hresult⟩ :=
    validateInteger_cases default none keypath hpresent
  · simp [hresult, hnone, IsInvalid]
  · refine iff_of_false (by simp [hresult, IsInvalid, checkRange, Except.map]) ?_
    rintro ⟨x, -, -, hexact⟩
    exact hexact m hm
  · rw [hresult, isInvalid_map_iff, isInvalid_checkWhole_iff]
    simp [hx, hexact]

theorem reads_number_iff {n : Number} {m : Signed64} :
    Reads (.number n) m ↔ n.value = m.val := by
  have hword := m.property
  cases n with
  | integer n =>
    have hstates {k : Signed64} : States (.number (.integer n)) k ↔ n.val = k.val := by
      constructor
      · rintro (h | h)
        exact h.symm
      · exact fun h => .number h.symm
    have hvalue : (Number.integer n).value = m.val ↔ n.val = m.val := by
      simp [Number.value]
    rw [hvalue]
    constructor
    · rintro (h | ⟨hexact, hx, hm⟩)
      · exact hstates.mp h
      · -- Beyond the signed words the nearest number is not in one either.
        cases hx
        have hlarge : 2 ^ 63 ≤ n.val := by
          by_contra hsmall
          exact hexact ⟨n.val, n.property.1, not_le.mp hsmall⟩ (hstates.mpr rfl)
        obtain ⟨y, hy⟩ := exists_value_eq_two_pow
        have hle := (Number.integer n).isNearest_toFloat.le
          (hy.trans_le (by exact_mod_cast hlarge) : y.val.value ≤ n.val)
        rw [hy, hm] at hle
        exact absurd (by exact_mod_cast hle) (not_le.mpr hword.2)
    · exact fun h => .exact (hstates.mpr h)
  | float x =>
    constructor
    · rintro (h | ⟨-, hx, hm⟩)
      · cases h
      · cases hx
        exact hm
    · exact .nearest (fun k hk => by cases hk) rfl

/-- Integer options and number options agree on every present value. Both refuse the same kinds of
values. What an integer option accepts is read by a number option as the nearest floating-point
number. Without a range an integer option refuses the floating-point numbers that are not whole or
in no signed word, unless the value states a word exactly. A number is accepted if it is whole, in a
signed word and in range, and then exactly. -/
theorem validateInteger_agrees (value : Value) (hpresent : present raw = some value)
    (keypath : Keypath) (default : Option Signed64) (limit : Option Binary64)
    (range : Option (Int × Int)) :
    (IsMismatch (validateInteger default range raw keypath) ↔
      IsMismatch (validateNumber limit raw keypath)) ∧
    (∀ o, validateInteger default range raw keypath = .ok o →
      ∃ m x, o = some m ∧ validateNumber limit raw keypath = .ok (some x.val) ∧
        IsNearest x m.val) ∧
    (IsInvalid (validateInteger default none raw keypath) ↔
      ∃ x : Finite, validateNumber limit raw keypath = .ok (some x.val) ∧
        ((¬∃ k : Int, x.val.value = k) ∨ x.val.value < -2 ^ 63 ∨ 2 ^ 63 ≤ x.val.value) ∧
          ∀ m, ¬States value m) ∧
    (∀ n, value = .number n → ∀ o, validateInteger default range raw keypath = .ok o ↔
      ∃ m : Signed64, o = some m ∧ n.value = m.val ∧ InRange range m.val) := by
  simp only [validateNumber_eq_ok_iff limit hpresent]
  refine ⟨?_, ?_, isInvalid_validateInteger_iff default hpresent, ?_⟩
  · rw [isMismatch_validateInteger_iff default hpresent, isMismatch_validateNumber_iff limit hpresent]
  · intro o ho
    obtain ⟨m, rfl, hm | ⟨-, hx, hm⟩, -⟩ := (validateInteger_eq_ok_iff default hpresent).mp ho
    · obtain ⟨x, hnearest, hx⟩ := hm.exists_isNearest
      exact ⟨m, x, rfl, hx, hnearest⟩
    · exact ⟨m, _, rfl, hx, hm ▸ isNearest_value _⟩
  · rintro n rfl o
    simp only [validateInteger_eq_ok_iff default hpresent, reads_number_iff]

theorem validateInteger_agrees_sample :
    let value := Value.number (.integer ⟨2 ^ 53 + 1, by decide⟩)
    present (some value) = some value ∧
      ∃ x : Finite, validateNumber none (some value) .root = .ok (some x.val) ∧
        IsNearest x (2 ^ 53 + 1 : Int) ∧ x.whole? = some (2 ^ 53) := by
  intro value
  have hpresent : present (some value) = some value := rfl
  have hagrees := validateInteger_agrees value hpresent .root none none none
  obtain ⟨m, x, hm, hx, hnearest⟩ := hagrees.2.1 (some ⟨2 ^ 53 + 1, by decide⟩) rfl
  cases hm
  obtain rfl := Subtype.ext (Option.some.inj (Except.ok.inj hx))
  exact ⟨hpresent, _, hx, hnearest, by decide +kernel⟩

end Outcomes

section Numerals

variable {s : String} {q : ℚ}

/-- An integer option reads a numeral as one number. It is the value of the numeral if its text
consists of the digits of a signed word with an optional sign, or if the value is a floating-point
number. Otherwise it is the nearest floating-point number. -/
theorem validateInteger_numeral (h : DecimalNumeral (Text.trim s.toList) q)
    (default : Option Signed64) (range : Option (Int × Int)) (keypath : Keypath) :
    ∃ r : ℚ, ((∃ m : Signed64, WholeNumeral (Text.trim s.toList) m.val) → r = q) ∧
      ((∃ x : Finite, x.val.value = q) → r = q) ∧
      ((∀ m : Signed64, ¬WholeNumeral (Text.trim s.toList) m.val) →
        ∃ x, IsNearest x q ∧ r = x.val.value) ∧
      ∀ o, validateInteger default range (some (.string s)) keypath = .ok o ↔
        ∃ m : Signed64, o = some m ∧ r = m.val ∧ InRange range m.val := by
  have hpresent : present (some (.string s)) = some (.string s) := rfl
  simp only [validateInteger_eq_ok_iff default hpresent]
  by_cases hword : ∃ m : Signed64, WholeNumeral (Text.trim s.toList) m.val
  · obtain ⟨n, hn⟩ := hword
    have hq : q = n.val := h.unique hn.decimalNumeral
    have hreads (m : Signed64) : Reads (.string s) m ↔ q = m.val := by
      rw [(States.text hn).reads_iff, hq, Int.cast_inj, Subtype.ext_iff, eq_comm]
    refine ⟨q, fun _ => rfl, fun _ => rfl, fun hnone => absurd hn (hnone n), ?_⟩
    simp only [hreads, implies_true]
  · rw [not_exists] at hword
    obtain ⟨x, hx, hread⟩ := h.exists_isNearest
    have hreads (m : Signed64) : Reads (.string s) m ↔ x.val.value = m.val := by
      rw [reads_iff_of_not_states fun m hm => hword m (states_string_iff.mp hm), toFloat?]
      rcases hread with hread | ⟨hread, hlarge, -⟩
      · simp [hread]
      · -- Out of range there is nothing to read, and the nearest number is in no word.
        have hbounds := m.property
        have hsmall : |(m.val : ℚ)| ≤ 2 ^ 64 := by
          exact_mod_cast abs_le.mpr ⟨by omega, by omega⟩
        refine iff_of_false (by simp [hread]) fun hm => ?_
        rw [hm] at hlarge
        exact absurd hlarge (not_lt.mpr hsmall)
    refine ⟨x.val.value, ?_, ?_, fun _ => ⟨x, hx, rfl⟩, ?_⟩
    · rintro ⟨m, hm⟩
      exact absurd hm (hword m)
    · rintro ⟨y, hy⟩
      exact hx.value_eq hy
    · simp only [hreads, implies_true]

theorem validateInteger_numeral_sample :
    DecimalNumeral (Text.trim "-2.5e1".toList) (-25) ∧
      ∀ o, validateInteger none none (some (.string "-2.5e1")) .root = .ok o ↔
        ∃ m : Signed64, o = some m ∧ (-25 : ℚ) = m.val ∧ InRange none m.val := by
  have hnumeral : DecimalNumeral (Text.trim "-2.5e1".toList) (-25) :=
    decimalNumeral_iff.mpr ⟨⟨true, 25, 0⟩, by decide +kernel, by norm_num [Decimal.value]⟩
  have hfinite : ∃ x : Finite, x.val.value = -25 := by
    have hwhole : (Finite.ofInt (-25) (by decide)).whole? = some (-25) := by decide +kernel
    exact ⟨_, by exact_mod_cast Finite.whole?_eq_some_iff.mp hwhole⟩
  obtain ⟨r, -, hr, -, haccepted⟩ := validateInteger_numeral hnumeral none none .root
  rw [hr hfinite] at haccepted
  exact ⟨hnumeral, haccepted⟩

/-- Numerals that are read as another number or not at all: a whole number that is changed, a
fraction and a number below all words that are accepted, and a whole number that is refused. -/
theorem validateInteger_rounds :
    (DecimalNumeral (Text.trim "9007199254740993.0".toList) 9007199254740993 ∧
      validateInteger none none (some (.string "9007199254740993.0")) .root =
        .ok (some ⟨9007199254740992, by decide⟩)) ∧
    (DecimalNumeral (Text.trim "0.99999999999999999".toList) (99999999999999999 / 10 ^ 17) ∧
      validateInteger none none (some (.string "0.99999999999999999")) .root =
        .ok (some ⟨1, by decide⟩)) ∧
    (DecimalNumeral (Text.trim "-9223372036854775809".toList) (-9223372036854775809) ∧
      validateInteger none none (some (.string "-9223372036854775809")) .root =
        .ok (some ⟨-9223372036854775808, by decide⟩)) ∧
    (DecimalNumeral (Text.trim "9223372036854775807.0".toList) 9223372036854775807 ∧
      ∀ o, validateInteger none none (some (.string "9223372036854775807.0")) .root ≠ .ok o) := by
  have hread {s : String} {m : Signed64} (h : Reads (.string s) m) :
      validateInteger none none (some (.string s)) .root = .ok (some m) :=
    (validateInteger_eq_ok_iff none rfl).mpr ⟨m, rfl, h, by simp [InRange]⟩
  have hnumeral {s : String} (d : Decimal) {q : ℚ} (hd : ofText? (Text.trim s.toList) = some d)
      (hq : d.value = q) : DecimalNumeral (Text.trim s.toList) q :=
    decimalNumeral_iff.mpr ⟨d, hd, hq⟩
  refine ⟨⟨hnumeral ⟨false, 90071992547409930, -1⟩ (by decide +kernel) ?_, hread (by decide +kernel)⟩,
    ⟨hnumeral ⟨false, 99999999999999999, -17⟩ (by decide +kernel) ?_, hread (by decide +kernel)⟩,
    ⟨hnumeral ⟨true, 9223372036854775809, 0⟩ (by decide +kernel) ?_, hread (by decide +kernel)⟩,
    ⟨hnumeral ⟨false, 92233720368547758070, -1⟩ (by decide +kernel) ?_, ?_⟩⟩
  · norm_num [Decimal.value]
  · norm_num [Decimal.value]
  · norm_num [Decimal.value]
  · norm_num [Decimal.value]
  · intro o h
    have hnone : (toSigned? (.string "9223372036854775807.0")).or
        ((toFloat? (.string "9223372036854775807.0")).bind fun x =>
          x.whole?.bind Signed64.ofInt?) = none := by
      decide +kernel
    obtain ⟨m, -, hm, -⟩ := (validateInteger_eq_ok_iff none rfl).mp h
    rw [reads_iff, hnone] at hm
    cases hm

end Numerals

end SiteConfig.Validator

import SiteConfig.Proofs.DecimalValues
import SiteConfig.Proofs.Json
/-!
# Numeric keys

The names of properties whose keys are numeric literals. Literals of one value name one property if
all of them or none are read as words, and else different ones; the last value of a name counts.
-/
namespace SiteConfig

/-- The text of a number is read back as that number, so no two numbers share it. -/
theorem Number.text_injective : Function.Injective Number.text := by
  intro m n h
  obtain ⟨tokens, hm, hread⟩ := ConfigModule.exists_readAs_number m
  obtain ⟨others, hn, hread'⟩ := ConfigModule.exists_readAs_number n
  have htokens := hread [] [] ConfigModule.delimited_nil ConfigModule.tokensOf_nil
  rw [h, hread' [] [] ConfigModule.delimited_nil ConfigModule.tokensOf_nil, List.append_nil,
    List.append_nil, Option.some.injEq] at htokens
  subst htokens
  exact Value.number.inj (hm.unique hn)

theorem Decimal.toBinary64_congr {d e : Decimal} (hsign : d.negative = e.negative)
    (h : d.value = e.value) : d.toBinary64 = e.toBinary64 := by
  have habs : (d.coefficient : ℚ) * 10 ^ d.exponent = e.coefficient * 10 ^ e.exponent := by
    rw [← abs_value, ← abs_value, h]
  have hmagnitude : d.magnitude = e.magnitude := by
    have hpos (k : Nat) : 0 < 10 ^ k := Nat.pow_pos (by decide)
    have hne (k : Nat) : ((10 ^ k : Nat) : ℚ) ≠ 0 := by exact_mod_cast (hpos k).ne'
    rw [magnitude_eq_nearest, magnitude_eq_nearest]
    apply Binary64.nearest_congr (hpos _) (hpos _)
    rw [ten_zpow, ten_zpow, ← mul_div_assoc, ← mul_div_assoc, div_eq_div_iff (hne _) (hne _)] at habs
    have hcross : d.coefficient * 10 ^ d.exponent.toNat * 10 ^ (-e.exponent).toNat =
        e.coefficient * 10 ^ e.exponent.toNat * 10 ^ (-d.exponent).toNat := by
      exact_mod_cast habs
    rw [Nat.mul_right_comm, hcross, Nat.mul_right_comm]
  simp [toBinary64, hsign, hmagnitude]

namespace ConfigModule

open Numeral

def Numeral.Denoted.value : Denoted → ℚ
  | .plain n => n
  | .marked n => n
  | .decimal c e => c * (10 : ℚ) ^ e

/-- Whether a literal is read as a word: without fraction and exponent, as far as a word holds it. -/
def Numeral.Denoted.IsWord : Denoted → Prop
  | .plain n => n < 2 ^ 64
  | .marked n => n < 2 ^ 64
  | .decimal _ _ => False

/-- A text that is read as a number: a literal, with separators wherever the reading passes over
them. -/
structure Written (text : List Char) (denoted : Denoted) (n : Number) : Prop where
  literal : Literal (unseparated text) denoted
  read : Numeral.ofText? text = some n

theorem Written.number? {text : List Char} {denoted : Denoted} {n : Number}
    (h : Written text denoted n) : denoted.number? = some n := by
  have hread := h.read
  rw [Numeral.ofText?, Option.ite_none_left_eq_some] at hread
  exact (h.literal.ofPlain? (not_mem_unseparated text)).symm.trans hread.2

section Names

variable {denoted other : Denoted} {m n : Number}

theorem Numeral.Denoted.number?_of_isWord (hword : denoted.IsWord) (h : denoted.number? = some n) :
    ∃ k : WholeNumber, n = .integer k ∧ denoted.value = k.val := by
  cases denoted with
  | plain k | marked k =>
    have hlt : k < 2 ^ 64 := hword
    rw [Denoted.number?, dif_pos hlt] at h
    cases h
    exact ⟨_, rfl, by simp [Denoted.value]⟩
  | decimal => exact hword.elim

theorem Numeral.Denoted.number?_of_not_isWord (hword : ¬denoted.IsWord)
    (h : denoted.number? = some n) : ∃ d : Decimal, ∃ x : Binary64.Finite, n = .float x ∧
      d.negative = false ∧ d.value = denoted.value ∧ x.val = d.toBinary64 := by
  have hfloat {d : Decimal} (h : (nearest? d).map Number.float = some n) :
      ∃ x : Binary64.Finite, n = .float x ∧ x.val = d.toBinary64 := by
    obtain ⟨x, hx, rfl⟩ := Option.map_eq_some_iff.mp h
    simp only [nearest?, Binary64.Finite.ofBinary64?, Option.dite_none_right_eq_some,
      Option.some_inj] at hx
    obtain ⟨hfinite, rfl⟩ := hx
    exact ⟨_, rfl, rfl⟩
  cases denoted with
  | plain k =>
    have hlarge : ¬k < 2 ^ 64 := hword
    rw [Denoted.number?, dif_neg hlarge] at h
    obtain ⟨x, hn, hx⟩ := hfloat h
    exact ⟨_, x, hn, rfl, by simp [Decimal.value, Denoted.value], hx⟩
  | marked k =>
    have hlarge : ¬k < 2 ^ 64 := hword
    rw [Denoted.number?, dif_neg hlarge] at h
    cases h
  | decimal c e =>
    obtain ⟨x, hn, hx⟩ := hfloat h
    exact ⟨_, x, hn, rfl, by simp [Decimal.value, Denoted.value], hx⟩

/-- Literals of one value have one number if all or none are read as words. -/
theorem number_eq_iff (hm : denoted.number? = some m) (hn : other.number? = some n)
    (hvalue : denoted.value = other.value) : m = n ↔ (denoted.IsWord ↔ other.IsWord) := by
  by_cases hword : denoted.IsWord <;> by_cases hother : other.IsWord
  · obtain ⟨k, rfl, hk⟩ := Denoted.number?_of_isWord hword hm
    obtain ⟨l, rfl, hl⟩ := Denoted.number?_of_isWord hother hn
    have hkl : k = l := Subtype.ext (by exact_mod_cast hk.symm.trans (hvalue.trans hl))
    simp [hkl, hword, hother]
  · obtain ⟨k, rfl, -⟩ := Denoted.number?_of_isWord hword hm
    obtain ⟨-, x, rfl, -⟩ := Denoted.number?_of_not_isWord hother hn
    simp [hword, hother]
  · obtain ⟨-, x, rfl, -⟩ := Denoted.number?_of_not_isWord hword hm
    obtain ⟨k, rfl, -⟩ := Denoted.number?_of_isWord hother hn
    simp [hword, hother]
  · obtain ⟨d, x, rfl, hd, hdvalue, hx⟩ := Denoted.number?_of_not_isWord hword hm
    obtain ⟨e, y, rfl, he, hevalue, hy⟩ := Denoted.number?_of_not_isWord hother hn
    have hxy : x = y := by
      apply Subtype.ext
      rw [hx, hy]
      exact Decimal.toBinary64_congr (hd.trans he.symm) (hdvalue.trans (hvalue.trans hevalue.symm))
    simp [hxy, hword, hother]

end Names

section Objects

/-- The value under a key that is written with a value and perhaps again later. -/
def lastValue (key : String) (v : Value) (later : List (String × Value)) : Value :=
  (Object.find? key later.reverse).getD v

theorem LastWins.find?_eq {before later : List (String × Value)} {key : String} {v : Value}
    {entries : Object} (h : LastWins (before ++ (key, v) :: later) entries) :
    Object.find? key entries = some (lastValue key v later) := by
  rw [h.holds, List.reverse_append, List.reverse_cons, Object.find?_append, Object.find?_append,
    lastValue]
  cases Object.find? key later.reverse <;> simp [Object.find?]

theorem lastValue_append_cons {key name : String} (hne : name ≠ key) (v w : Value)
    (between later : List (String × Value)) :
    lastValue key v (between ++ (name, w) :: later) = lastValue key v (between ++ later) := by
  simp [lastValue, Object.find?_append, Object.find?, hne]

theorem evaluate_object {source : String} {body : List Token} {pairs entries : List (String × Value)}
    (hbody : SpellsPairs body pairs) (hentries : LastWins pairs entries)
    (htokens : tokensOf source.toList =
      some (.name "export" :: .name "default" :: .punct '{' :: (body ++ [.punct '}']))) :
    evaluate source = .ok (.object entries) := by
  obtain ⟨all, stop, hall, hmap⟩ := exists_lexemes_of_tokensOf htokens
  exact (evaluateChars_eq_ok_iff _ _).mpr ⟨all, stop, hall, hmap ▸ .bare (.object hbody hentries)⟩

/-- The keys of one value in an object literal, wherever it stands. If both or none of two such keys
are read as words, they name one property, which holds the later value. Otherwise they name two
properties, each with its own value. A later pair may always overwrite a value. -/
theorem evaluate_numericKeys {body : List Token} {before between later : List (String × Value)}
    {v w : Value} {text other : List Char} {denoted denoted' : Denoted} {m n : Number}
    (hm : Written text denoted m) (hn : Written other denoted' n)
    (hvalue : denoted.value = denoted'.value)
    (hbody : SpellsPairs body (before ++ (m.text, v) :: (between ++ (n.text, w) :: later))) :
    ∃ entries : Object,
      (∀ source : String, tokensOf source.toList = some (.name "export" :: .name "default" ::
        .punct '{' :: (body ++ [.punct '}'])) → evaluate source = .ok (.object entries)) ∧
      (∀ frames rest, Reading.run ⟨.value, frames⟩ (.punct '{' :: (body ++ .punct '}' :: rest)) =
        Reading.run ⟨.separator (.object entries), frames⟩ rest) ∧
      (Object.keys entries).Nodup ∧
      ((denoted.IsWord ↔ denoted'.IsWord) → m.text = n.text ∧
        Object.find? m.text entries = some (lastValue m.text w later)) ∧
      (¬(denoted.IsWord ↔ denoted'.IsWord) → m.text ≠ n.text ∧
        Object.find? m.text entries = some (lastValue m.text v (between ++ later)) ∧
        Object.find? n.text entries = some (lastValue n.text w later)) := by
  have hname : m.text = n.text ↔ (denoted.IsWord ↔ denoted'.IsWord) := by
    rw [Number.text_injective.eq_iff, number_eq_iff hm.number? hn.number? hvalue]
  obtain ⟨entries, hentries⟩ := Exists.intro _ (LastWins.ofEntries
    (before ++ (m.text, v) :: (between ++ (n.text, w) :: later)))
  have hlater : Object.find? n.text entries = some (lastValue n.text w later) := by
    have hsplit := hentries
    rw [← List.cons_append, ← List.append_assoc] at hsplit
    exact hsplit.find?_eq
  refine ⟨entries, fun source => evaluate_object hbody hentries, ?_,
    Object.nodup_keys hentries.ascending, fun hsame => ?_, fun hdiffer => ?_⟩
  · intro frames rest
    simpa using run_of_spells frames rest (.object hbody hentries)
  · have heq := hname.mpr hsame
    exact ⟨heq, heq ▸ hlater⟩
  · have hne : m.text ≠ n.text := fun heq => hdiffer (hname.mp heq)
    refine ⟨hne, ?_, hlater⟩
    rw [hentries.find?_eq, lastValue_append_cons hne.symm]

end Objects

section Sample

theorem evaluate_numericKeys_sample :
    Written "0x10".toList (.marked 16) (.integer ⟨16, by decide⟩) ∧
    Written "1_6".toList (.plain 16) (.integer ⟨16, by decide⟩) ∧
    (Denoted.marked 16).value = (Denoted.plain 16).value ∧
    ∃ entries, evaluate "export default { 0x10: true, 1_6: false }" = .ok (.object entries) ∧
      Object.find? "16" entries = some (.bool false) := by
  have hmarked : Written "0x10".toList (.marked 16) (.integer ⟨16, by decide⟩) := by
    have hrun : Run 16 ['1', '0'] [1, 0] := .cons (by decide) (.last (by decide))
    exact ⟨.marked (by decide) hrun, by decide +kernel⟩
  have hplain : Written "1_6".toList (.plain 16) (.integer ⟨16, by decide⟩) := by
    have hrun : Run 10 ['1', '6'] [1, 6] := .cons (by decide) (.last (by decide))
    exact ⟨.plain (.digits hrun (by decide)) (by decide), by decide +kernel⟩
  have hbody : SpellsPairs _ ([] ++ ("16", .bool true) :: ([] ++ ("16", .bool false) :: [])) :=
    .cons (.number (.integer ⟨16, by decide⟩)) .true (.last (.number (.integer ⟨16, by decide⟩)) .false)
  obtain ⟨entries, hevaluate, -, -, hsame, -⟩ :=
    evaluate_numericKeys hmarked hplain rfl hbody
  have hvalue := hevaluate "export default { 0x10: true, 1_6: false }"
    (by decide +kernel)
  exact ⟨hmarked, hplain, rfl, entries, hvalue, (hsame Iff.rfl).2⟩

def oneFloat : Binary64.Finite := ⟨⟨false, 1023 * 2 ^ 52, by decide⟩, by decide⟩

theorem written_one : Written "1".toList (.plain 1) (.integer ⟨1, by decide⟩) :=
  ⟨.plain (.digits (.last (by decide)) (by decide)) (by decide), by decide +kernel⟩

theorem written_oneFloat : Written "1.0".toList (.decimal 10 (-1)) (.float oneFloat) := by
  have hwhole : Whole ['1'] [1] := .digits (.last (by decide)) (by decide)
  have hfraction : Fraction ['.', '0'] [0] := .digits (.last (by decide))
  exact ⟨.decimal hwhole hfraction .none (by decide) (by decide), by decide +kernel⟩

/-- A key with a fraction names another property than the integer of the same value. -/
theorem evaluate_oneFloat :
    Written "1".toList (.plain 1) (.integer ⟨1, by decide⟩) ∧
    Written "1.0".toList (.decimal 10 (-1)) (.float oneFloat) ∧
    (Denoted.plain 1).value = (Denoted.decimal 10 (-1)).value ∧
    evaluate "export default { 1: true, 1.0: false }" =
      .ok (.object [("1", .bool true), ("1.0", .bool false)]) := by
  have hname : (Number.float oneFloat).text = "1.0" := by decide +kernel
  have hkey : NamesKey (.number (.float oneFloat)) "1.0" := hname ▸ .number _
  have hbody : SpellsPairs _ [("1", .bool true), ("1.0", .bool false)] :=
    .cons (.number (.integer ⟨1, by decide⟩)) .true (.last hkey .false)
  have hentries : LastWins [("1", .bool true), ("1.0", .bool false)]
      [("1", .bool true), ("1.0", .bool false)] := by
    have hordered : Object.ofEntries [("1", .bool true), ("1.0", .bool false)] =
        [("1", .bool true), ("1.0", .bool false)] := by
      cbv
    exact hordered ▸ .ofEntries _
  refine ⟨written_one, written_oneFloat, ?_, evaluate_object hbody hentries ?_⟩
  · norm_num [Denoted.value]
  · decide +kernel

end Sample

end ConfigModule

end SiteConfig

import SiteConfig.Proofs.Grammar
import SiteConfig.Proofs.NumeralTokens
/-!
# JSON as a module

The compact JSON text of a value, exported by a module, evaluates to the value.
-/
namespace SiteConfig.ConfigModule

namespace Json

def letters : List (Char × Char) :=
  [('"', '"'), ('\\', '\\'), ('\x08', 'b'), ('\x0c', 'f'), ('\n', 'n'), ('\r', 'r'), ('\t', 't')]

def charText (c : Char) : List Char :=
  match letters.lookup c with
  | some letter => ['\\', letter]
  | none =>
    if c.toNat < 0x20 then
      ['\\', 'u', '0', '0', Nat.digitChar (c.toNat / 16), Nat.digitChar (c.toNat % 16)]
    else [c]

def stringText (s : String) : List Char :=
  '"' :: (s.toList.flatMap charText ++ ['"'])

mutual

/-- The compact JSON text of a value. -/
def text : Value → List Char
  | .null => ['n', 'u', 'l', 'l']
  | .bool true => ['t', 'r', 'u', 'e']
  | .bool false => ['f', 'a', 'l', 's', 'e']
  | .number n => n.text.toList
  | .string s => stringText s
  | .array items => '[' :: (itemsText items ++ [']'])
  | .object entries => '{' :: (entriesText entries ++ ['}'])

def itemsText : List Value → List Char
  | [] => []
  | [v] => text v
  | v :: w :: rest => text v ++ ',' :: itemsText (w :: rest)

def entriesText : List (String × Value) → List Char
  | [] => []
  | [(key, v)] => stringText key ++ ':' :: text v
  | (key, v) :: entry :: rest =>
    stringText key ++ ':' :: (text v ++ ',' :: entriesText (entry :: rest))

end

example : text (.array [.null, .bool true, .string "\x1f\n\"é"]) =
    "[null,true,\"\\u001f\\n\\\"é\"]".toList := by decide

end Json

section Strings

open Quotation

private theorem escapes_letter {c letter : Char} (h : Json.letters.lookup c = some letter)
    (next : Option Char) : Escapes next [letter] (some c) := by
  obtain ⟨before, behind, heq, -⟩ := List.lookup_eq_some_iff.mp h
  have hmem : (c, letter) ∈ Json.letters := by simp [heq]
  simp only [Json.letters, List.mem_cons, Prod.mk.injEq, List.not_mem_nil, or_false] at hmem
  rcases hmem with ⟨rfl, rfl⟩ | ⟨rfl, rfl⟩ | hshort
  · exact .itself (by decide) rfl
  · exact .itself (by decide) rfl
  · refine .short ?_
    rcases hshort with ⟨rfl, rfl⟩ | ⟨rfl, rfl⟩ | ⟨rfl, rfl⟩ | ⟨rfl, rfl⟩ | ⟨rfl, rfl⟩ <;> decide

private theorem spellsCode_control {c : Char} (hc : c.toNat < 0x20) :
    SpellsCode ['0', '0', Nat.digitChar (c.toNat / 16), Nat.digitChar (c.toNat % 16)] c.toNat := by
  have hvalue : placeValue 16 [0, 0, c.toNat / 16, c.toNat % 16] = c.toNat := by
    rw [placeValue_eq]
    simp only [appendDigits, List.foldl_cons, List.foldl_nil]
    omega
  have hdigits : DigitsOf 16
      ['0', '0', Nat.digitChar (c.toNat / 16), Nat.digitChar (c.toNat % 16)]
      [0, 0, c.toNat / 16, c.toNat % 16] := by
    have hzero : DigitOf 16 '0' 0 := by decide
    have hhigh : DigitOf 16 (Nat.digitChar (c.toNat / 16)) (c.toNat / 16) := ⟨by omega, .inl rfl⟩
    have hlow : DigitOf 16 (Nat.digitChar (c.toNat % 16)) (c.toNat % 16) := ⟨by omega, .inl rfl⟩
    exact .cons hzero (.cons hzero (.cons hhigh (.cons hlow .nil)))
  have hspelled := SpellsCode.four hdigits rfl
  rwa [hvalue] at hspelled

theorem writes_charText (c : Char) {text body : List Char} (h : Writes '"' text body) :
    Writes '"' (c :: text) (Json.charText c ++ body) := by
  unfold Json.charText
  split
  · next letter hletter => exact .escaped (escapes_letter hletter _) h
  · next hnone =>
    split
    · next hcontrol => exact .escaped (.code (spellsCode_control hcontrol)) h
    · have hne : ∀ pair ∈ Json.letters, c ≠ pair.1 := by
        simpa [List.lookup_eq_none_iff] using hnone
      refine .plain (hne ('"', '"') (by decide)) (hne ('\\', '\\') (by decide)) ?_ (by simp) h
      exact fun _ => ⟨hne ('\n', 'n') (by decide), hne ('\r', 'r') (by decide)⟩

theorem writes_flatMap_charText (s : List Char) : Writes '"' s (s.flatMap Json.charText) := by
  induction s with
  | nil => exact .nil
  | cons c s ih =>
    rw [List.flatMap_cons]
    exact writes_charText c ih

theorem tokensOf_stringText (s : String) {rest : List Char} {more : List Token}
    (hafter : tokensOf rest = some more) :
    tokensOf (Json.stringText s ++ rest) = some (.string s :: more) := by
  have hread := (writes_flatMap_charText s.toList).read (by decide) rest (Place.start.next '"')
  rw [Json.stringText, List.cons_append, List.append_assoc]
  have htoken : Lexeme.readToken .start '"' (s.toList.flatMap Json.charText ++ '"' :: rest) =
      .ok (.string s, ⟨rest, Place.start.after ('"' :: (s.toList.flatMap Json.charText ++ ['"']))⟩) := by
    simp [Lexeme.readToken, Lexeme.isQuote, hread, Except.map]
  exact tokensOf_cons (by decide) (by decide) htoken hafter

end Strings

/-- In front of a delimiter, the text is read as these tokens. -/
def ReadAs (text : List Char) (tokens : List Token) : Prop :=
  ∀ (rest : List Char) (more : List Token), Delimited rest → tokensOf rest = some more →
    tokensOf (text ++ rest) = some (tokens ++ more)

section Numbers

theorem exists_readAs_integer (n : WholeNumber) :
    ∃ tokens, Spells tokens (.number (.integer n)) ∧
      ReadAs (Number.integer n).text.toList tokens := by
  rw [Number.text, Decimal.toList_toString]
  have hbounds := n.property
  by_cases hneg : n.val < 0
  · obtain ⟨m, hm⟩ : ∃ m : WholeNumber, m.val = -n.val := ⟨⟨-n.val, by omega⟩, rfl⟩
    refine ⟨[.punct '-', .number (.integer m)], .negative (.integer (by omega) (by omega)), ?_⟩
    intro rest more hrest hafter
    have hdigits := tokensOf_digits (by omega : 0 ≤ m.val) hrest hafter
    have habs : m.val.natAbs = n.val.natAbs := by omega
    rw [habs] at hdigits
    rw [if_pos hneg]
    exact tokensOf_punct (by decide) hdigits
  · refine ⟨[.number (.integer n)], .number _, ?_⟩
    intro rest more hrest hafter
    rw [if_neg hneg]
    exact tokensOf_digits (by omega) hrest hafter

theorem exists_readAs_float (x : Binary64.Finite) :
    ∃ tokens, Spells tokens (.number (.float x)) ∧ ReadAs (Number.float x).text.toList tokens := by
  rw [Number.text, String.toList_ofList, Decimal.Layout.text]
  have hunsigned : ∀ {rest : List Char} {more : List Token}, Delimited rest →
      tokensOf rest = some more → tokensOf (Number.layout.unsignedText
        (Decimal.shortest Number.layout.tie x) ++ rest) = some (.number (.float x.abs) :: more) :=
    fun hrest hafter => tokensOf_unsignedText Number.layout rfl x hrest hafter
  generalize Number.layout.unsignedText (Decimal.shortest Number.layout.tie x) = unsigned at *
  by_cases hsign : x.val.negative = true
  · have hopposite : Opposite (.float x.abs) (.float x) := by
      rw [Binary64.Finite.eq_neg_abs_of_negative hsign]
      exact .float x.abs
    refine ⟨[.punct '-', .number (.float x.abs)], .negative hopposite, ?_⟩
    intro rest more hrest hafter
    rw [if_pos hsign, List.cons_append]
    exact tokensOf_punct (by decide) (hunsigned hrest hafter)
  · have habs := Binary64.Finite.eq_abs_of_nonnegative (Bool.eq_false_iff.mpr hsign)
    refine ⟨[.number (.float x.abs)], ?_, ?_⟩
    · rw [← habs]
      exact .number _
    · intro rest more hrest hafter
      rw [if_neg hsign]
      exact hunsigned hrest hafter

end Numbers

theorem exists_readAs_number (n : Number) :
    ∃ tokens, Spells tokens (.number n) ∧ ReadAs n.text.toList tokens := by
  cases n with
  | integer n => exact exists_readAs_integer n
  | float x => exact exists_readAs_float x

section Composition

variable {text other : List Char} {tokens others : List Token}

private theorem readAs_name {first : Char} {word : List Char} (hfirst : first.isAlpha = true)
    (hword : word.all Char.isAlpha = true) :
    ReadAs (first :: word) [.name (String.ofList (first :: word))] :=
  fun _ _ hrest hafter => tokensOf_name hfirst (List.all_eq_true.mp hword) hrest hafter

theorem ReadAs.enclosed {first last : Char} (h : ReadAs text tokens) (hfirst : first ∈ punctuation)
    (hlast : last ∈ punctuation) (hends : last ∈ delimiters) :
    ReadAs (first :: (text ++ [last])) (.punct first :: (tokens ++ [.punct last])) := by
  intro rest more _ hafter
  have hbody := h _ _ (delimited_cons hends rest) (tokensOf_punct hlast hafter)
  simp only [List.cons_append, List.append_assoc, List.nil_append]
  exact tokensOf_punct hfirst hbody

theorem ReadAs.comma (h : ReadAs text tokens) (hother : ReadAs other others) :
    ReadAs (text ++ ',' :: other) (tokens ++ .punct ',' :: others) := by
  intro rest more hrest hafter
  have hmore := tokensOf_punct (c := ',') (by decide) (hother _ _ hrest hafter)
  simp only [List.append_assoc, List.cons_append]
  exact h _ _ (delimited_cons (by decide) _) hmore

theorem ReadAs.pair (h : ReadAs text tokens) (key : String) :
    ReadAs (Json.stringText key ++ ':' :: text) (.string key :: .punct ':' :: tokens) := by
  intro rest more hrest hafter
  have hvalue := tokensOf_punct (c := ':') (by decide) (h _ _ hrest hafter)
  simp only [List.append_assoc, List.cons_append]
  exact tokensOf_stringText key hvalue

end Composition

section Values

open Json

mutual

/-- The JSON text of a value is read as tokens that spell the value. -/
theorem exists_readAs_text : ∀ v : Value, v.Sorted →
    ∃ tokens, Spells tokens v ∧ ReadAs (Json.text v) tokens
  | .null, _ => ⟨_, .null, readAs_name rfl rfl⟩
  | .bool true, _ => ⟨_, .true, readAs_name rfl rfl⟩
  | .bool false, _ => ⟨_, .false, readAs_name rfl rfl⟩
  | .number n, _ => exists_readAs_number n
  | .string s, _ => ⟨[.string s], .string s, fun _ _ _ hafter => tokensOf_stringText s hafter⟩
  | .array items, h => by
      obtain ⟨body, hspells, hread⟩ := exists_readAs_itemsText items h
      exact ⟨_, .array hspells, hread.enclosed (by decide) (by decide) (by decide)⟩
  | .object entries, h => by
      obtain ⟨body, hspells, hread⟩ := exists_readAs_entriesText entries h.2
      have hentries : LastWins entries entries := by
        have hlast := LastWins.ofEntries entries
        rwa [Object.ofEntries_of_ascending h.1] at hlast
      exact ⟨_, .object hspells hentries, hread.enclosed (by decide) (by decide) (by decide)⟩

theorem exists_readAs_itemsText : ∀ items : List Value, Value.SortedItems items →
    ∃ body, SpellsItems body items ∧ ReadAs (itemsText items) body
  | [], _ => ⟨[], .nil, fun _ _ _ hafter => hafter⟩
  | [v], h => by
      obtain ⟨tokens, hspells, hread⟩ := exists_readAs_text v h.1
      exact ⟨tokens, .last hspells, hread⟩
  | v :: w :: items, h => by
      obtain ⟨tokens, hspells, hread⟩ := exists_readAs_text v h.1
      obtain ⟨body, hmore, hreadMore⟩ := exists_readAs_itemsText (w :: items) h.2
      exact ⟨_, .cons hspells hmore, hread.comma hreadMore⟩

theorem exists_readAs_entriesText : ∀ entries : List (String × Value),
    Value.SortedEntries entries →
      ∃ body, SpellsPairs body entries ∧ ReadAs (entriesText entries) body
  | [], _ => ⟨[], .nil, fun _ _ _ hafter => hafter⟩
  | [(key, v)], h => by
      obtain ⟨tokens, hspells, hread⟩ := exists_readAs_text v h.1
      exact ⟨_, .last (.string key) hspells, hread.pair key⟩
  | (key, v) :: entry :: entries, h => by
      obtain ⟨tokens, hspells, hread⟩ := exists_readAs_text v h.1
      obtain ⟨body, hmore, hreadMore⟩ := exists_readAs_entriesText (entry :: entries) h.2
      exact ⟨_, .cons (.string key) hspells hmore, (hread.comma hreadMore).pair key⟩

end

end Values

private theorem tokensOf_export {text : List Char} {tokens : List Token}
    (h : tokensOf text = some tokens) :
    tokensOf ("export default ".toList ++ text) =
      some (.name "export" :: .name "default" :: tokens) := by
  have hexport : ReadAs ['e', 'x', 'p', 'o', 'r', 't'] [.name "export"] :=
    readAs_name rfl rfl
  have hdefault : ReadAs ['d', 'e', 'f', 'a', 'u', 'l', 't'] [.name "default"] :=
    readAs_name rfl rfl
  have hblank : ∀ rest, Delimited (' ' :: rest) := delimited_cons (by decide)
  have hrest := hdefault _ _ (hblank text) ((tokensOf_blank text).trans h)
  exact hexport _ _ (hblank _) ((tokensOf_blank _).trans hrest)

/-- A module that exports the JSON text of a value evaluates to the value. -/
theorem evaluate_export_json {v : Value} (h : v.Sorted) :
    evaluate ("export default " ++ String.ofList (Json.text v)) = .ok v := by
  obtain ⟨tokens, hspells, hread⟩ := exists_readAs_text v h
  have htokens : tokensOf (Json.text v) = some tokens := by
    simpa using hread [] [] delimited_nil tokensOf_nil
  have hmodule := tokensOf_export htokens
  have hjson : (String.ofList (Json.text v)).toList = Json.text v := String.toList_ofList
  rw [evaluate, String.toList_append, hjson, evaluateChars_eq_ok_iff]
  obtain ⟨all, stop, hall, hnames⟩ := exists_lexemes_of_tokensOf hmodule
  exact ⟨all, stop, hall, hnames ▸ .bare hspells⟩

def steepValue : Value :=
  .object [
    ("", .array [.number (.integer ⟨-2 ^ 63, by decide⟩), .array []]),
    ("\x1f", .object [("zero", .number (.float ⟨⟨true, 0, by decide⟩, by decide⟩))]),
    ("\\\"/", .string "\t\x00é")]

theorem evaluate_export_json_steepValue : steepValue.Sorted ∧
    evaluate ("export default " ++ String.ofList (Json.text steepValue)) = .ok steepValue := by
  have hsorted : steepValue.Sorted := by
    simp only [steepValue, Value.Sorted, Value.SortedItems, Value.SortedEntries, and_true,
      Object.keys]
    decide
  exact ⟨hsorted, evaluate_export_json hsorted⟩

end SiteConfig.ConfigModule

import SiteConfig.Proofs.AlikeInputs
import SiteConfig.Proofs.DecimalValues
import SiteConfig.Proofs.Layering
import SiteConfig.Proofs.Lexing
/-!
# Numbers spelled as text

The text of a number, with blanks around it, is read by number and integer options as the number
itself. An environment variable with such a text therefore acts as the number in the file would.
-/
namespace SiteConfig

namespace Text

variable {text front back : List Char}

theorem dropWhile_isBlank_append (hfront : ∀ c ∈ front, isBlank c = true)
    (htext : ∀ c ∈ text, isBlank c = false) (hne : text ≠ []) (back : List Char) :
    (front ++ (text ++ back)).dropWhile isBlank = text ++ back := by
  rw [List.dropWhile_append_of_pos hfront]
  obtain ⟨c, rest, rfl⟩ := List.exists_cons_of_ne_nil hne
  have hc : isBlank c = false := htext c List.mem_cons_self
  simp [hc]

theorem trim_padded (hfront : ∀ c ∈ front, isBlank c = true)
    (hback : ∀ c ∈ back, isBlank c = true) (htext : ∀ c ∈ text, isBlank c = false)
    (hne : text ≠ []) : trim (front ++ (text ++ back)) = text := by
  have hreverse : (back.reverse ++ (text.reverse ++ [])).dropWhile isBlank = text.reverse ++ [] := by
    apply dropWhile_isBlank_append
    · simpa using hback
    · simpa using htext
    · simpa using hne
  rw [trim, dropWhile_isBlank_append hfront htext hne, trimEnd, List.reverse_append]
  simpa using congrArg List.reverse hreverse

end Text

namespace Decimal

open Binary64 ConfigModule ConfigModule.Numeral

section Reading

variable {parts : Parts}

theorem Parts.Proper.head_text (h : parts.Proper) :
    ∀ c ∈ parts.text.head?, c ≠ '-' ∧ c ≠ '+' := by
  intro c hc
  obtain ⟨first, rest, hwhole⟩ := List.exists_cons_of_ne_nil h.whole_ne_nil
  rw [Parts.text, hwhole, List.cons_append, List.head?_cons, Option.mem_some_iff] at hc
  subst hc
  exact ne_sign_of_isDigit (h.whole_digits first (hwhole ▸ List.mem_cons_self))

def signText (negative : Bool) : List Char := if negative then ['-'] else []

theorem sign_signText (negative : Bool) :
    Sign (signText negative) (if negative then -1 else 1) := by
  cases negative
  · exact .none
  · exact .minus

theorem ofText?_signed (h : parts.Proper) (negative : Bool) :
    ofText? (signText negative ++ parts.text) =
      some ⟨negative, digitsFrom 0 (parts.whole ++ parts.fraction),
        parts.exponent.getD 0 - parts.fraction.length⟩ := by
  rw [ofText?_append_sign (sign_signText negative) h.head_text (ofText?_text h)]
  cases negative <;> rfl

theorem finiteOfText?_signed (h : parts.Proper) {x : Finite}
    (hmagnitude : magnitude ⟨false, digitsFrom 0 (parts.whole ++ parts.fraction),
      parts.exponent.getD 0 - parts.fraction.length⟩ = x.val.magnitude) :
    finiteOfText? (signText x.val.negative ++ parts.text) = some x := by
  rw [finiteOfText?, ofText?_signed h, Option.bind_some]
  rw [magnitude_congr_sign _ x.val.negative] at hmagnitude
  have hvalue : toBinary64 ⟨x.val.negative, digitsFrom 0 (parts.whole ++ parts.fraction),
      parts.exponent.getD 0 - parts.fraction.length⟩ = x.val := by
    rw [toBinary64, Binary64.mk.injEq]
    exact ⟨rfl, hmagnitude⟩
  rw [hvalue]
  exact dif_pos x.property

theorem WholeNumeral.isDigit_or_sign {text : List Char} {n : Int} (h : WholeNumeral text n) :
    ∀ c ∈ text, c.isDigit = true ∨ c = '+' ∨ c = '-' := by
  obtain ⟨hsign, hdigits, -⟩ := h
  intro c hc
  rcases List.mem_append.mp hc with hc | hc
  · right
    cases hsign <;> simp_all
  · exact .inl (hdigits.isDigit c hc)

theorem integerOfText?_eq_none (h : parts.fraction = [] → parts.exponent ≠ none)
    (sign : List Char) : integerOfText? (sign ++ parts.text) = none := by
  rw [Option.eq_none_iff_forall_ne_some]
  intro n hn
  have hchars := (integerOfText?_eq_some_iff.mp hn).isDigit_or_sign
  have hmarked : '.' ∈ parts.text ∨ 'e' ∈ parts.text := by
    by_cases hfraction : parts.fraction = []
    · obtain ⟨e, he⟩ := Option.ne_none_iff_exists'.mp (h hfraction)
      right
      simp [Parts.text, he, Parts.exponentText]
    · left
      simp [Parts.text, hfraction]
  rcases hmarked with hmem | hmem
  · exact absurd (hchars '.' (List.mem_append_right _ hmem)) (by decide)
  · exact absurd (hchars 'e' (List.mem_append_right _ hmem)) (by decide)

theorem Parts.Proper.isBlank_eq_false (h : parts.Proper) :
    ∀ c ∈ parts.text, Text.isBlank c = false := by
  intro c hc
  rcases h.isDigit_or_mark c hc with hdigit | hmark
  · exact isBlank_of_isAlphanum (by simp [Char.isAlphanum, hdigit])
  · simp only [Parts.marks, List.mem_cons, List.not_mem_nil, or_false] at hmark
    rcases hmark with rfl | rfl | rfl | rfl <;> rfl

theorem integerOfText?_toString (n : Int) : integerOfText? (toString n).toList = some n := by
  have hproper := Parts.proper_toDigits n.natAbs
  obtain ⟨digits, hdigits⟩ := exists_digitsOf hproper.whole_digits
  have hvalue : placeValue 10 digits = n.natAbs := by
    rw [placeValue_eq, ← digitsFrom_eq hdigits, digitsFrom_toDigits]
  have hne : digits ≠ [] := by
    rw [Ne, ← hdigits.eq_nil_iff]
    exact hproper.whole_ne_nil
  have hnumeral := WholeNumeral.signed (sign_signText (decide (n < 0))) hdigits hne
  have hn : (if decide (n < 0) then -1 else 1) * (placeValue 10 digits : Int) = n := by
    rw [hvalue]
    by_cases hneg : n < 0
    · rw [if_pos (decide_eq_true hneg)]
      omega
    · rw [if_neg (by simpa using hneg)]
      omega
  have htext : (toString n).toList = signText (decide (n < 0)) ++ Nat.toDigits 10 n.natAbs := by
    rw [toList_toString, signText]
    split <;> simp_all
  rw [integerOfText?_eq_some_iff, htext]
  rwa [hn] at hnumeral

end Reading

end Decimal

namespace Number

open Decimal

section Texts

theorem toList_text_float {x : Binary64.Finite} {parts : Parts}
    (h : parts.SetOut layout (shortest layout.tie x)) :
    (Number.float x).text.toList = signText x.val.negative ++ parts.text := by
  rw [text, String.toList_ofList, Layout.text, h.text_eq, signText]
  split <;> rfl

theorem exists_parts (n : Number) : ∃ parts : Parts, parts.Proper ∧
    n.text.toList = signText n.toFloat.val.negative ++ parts.text ∧
    magnitude ⟨false, digitsFrom 0 (parts.whole ++ parts.fraction),
      parts.exponent.getD 0 - parts.fraction.length⟩ = n.toFloat.val.magnitude := by
  cases n with
  | integer n =>
    refine ⟨_, Parts.proper_toDigits n.val.natAbs, ?_, ?_⟩
    · have hnegative : (Number.integer n).toFloat.val.negative = decide (n.val < 0) := rfl
      rw [text, toList_toString, hnegative, signText]
      by_cases hneg : n.val < 0 <;> simp [hneg, Parts.text, Parts.exponentText]
    · rw [magnitude_eq_nearest, List.append_nil, digitsFrom_toDigits]
      simp [toFloat, Binary64.Finite.ofInt, Binary64.ofRatio]
  | float x =>
    obtain ⟨parts, hparts⟩ := exists_setOut layout (shortest layout.tie x)
    exact ⟨parts, hparts.proper, toList_text_float hparts,
      hparts.magnitude_eq.trans (magnitude_shortest _ x)⟩

/-- The text of a number is read as the number. -/
theorem finiteOfText?_toList (n : Number) : finiteOfText? n.text.toList = some n.toFloat := by
  obtain ⟨parts, hproper, htext, hmagnitude⟩ := exists_parts n
  rw [htext]
  exact finiteOfText?_signed hproper hmagnitude

theorem signedOfText?_toList (n : Number) :
    (integerOfText? n.text.toList).bind Signed64.ofInt? = n.signed? := by
  cases n with
  | integer n =>
    rw [text, integerOfText?_toString]
    rfl
  | float x =>
    obtain ⟨parts, hparts⟩ := exists_setOut layout (shortest layout.tie x)
    rw [toList_text_float hparts, integerOfText?_eq_none (hparts.marked rfl)]
    rfl

theorem isBlank_of_mem_text (n : Number) : ∀ c ∈ n.text.toList, Text.isBlank c = false := by
  obtain ⟨parts, hproper, htext, -⟩ := exists_parts n
  intro c hc
  rw [htext, List.mem_append] at hc
  rcases hc with hsign | hc
  · have hminus : c = '-' := by
      unfold signText at hsign
      split at hsign <;> simp_all
    rw [hminus]
    rfl
  · exact hproper.isBlank_eq_false c hc

theorem toList_text_ne_nil (n : Number) : n.text.toList ≠ [] := by
  obtain ⟨parts, hproper, htext, -⟩ := exists_parts n
  rw [htext, Parts.text]
  simp [hproper.whole_ne_nil]

/-- The text of a number, with blanks in front of it and behind it. -/
def PaddedText (n : Number) (s : String) : Prop :=
  ∃ front back : List Char, (∀ c ∈ front ++ back, Text.isBlank c = true) ∧
    s.toList = front ++ (n.text.toList ++ back)

theorem PaddedText.trim {n : Number} {s : String} (h : PaddedText n s) :
    Text.trim s.toList = n.text.toList := by
  obtain ⟨front, back, hblank, hs⟩ := h
  rw [hs]
  apply Text.trim_padded _ _ (isBlank_of_mem_text n) (toList_text_ne_nil n)
  · exact fun c hc => hblank c (List.mem_append_left _ hc)
  · exact fun c hc => hblank c (List.mem_append_right _ hc)

end Texts

end Number

namespace Validator

section Numbers

variable {n : Number} {s : String}

theorem toFloat?_paddedText (h : n.PaddedText s) :
    toFloat? (.string s) = toFloat? (.number n) := by
  rw [toFloat?, toFloat?, h.trim, Number.finiteOfText?_toList]

theorem toSigned?_paddedText (h : n.PaddedText s) :
    toSigned? (.string s) = toSigned? (.number n) := by
  rw [toSigned?, toSigned?, h.trim, Number.signedOfText?_toList]

def IsNumeric : Validator → Prop
  | .number _ => True
  | .integer _ _ => True
  | _ => False

/-- The text of a number is alike to the number. -/
theorem alike_paddedText {validator : Validator} (hnumeric : validator.IsNumeric)
    (h : n.PaddedText s) : Alike validator (some (.string s)) (some (.number n)) := by
  have hfloat : toFloat? (.string s) = some n.toFloat := toFloat?_paddedText h
  refine ⟨rfl, fun keypath => ?_⟩
  cases validator with
  | number default =>
    simp only [validate, validateNumber, present, hfloat]
    rfl
  | integer default range =>
    simp only [validate, validateInteger, present, hfloat, toSigned?_paddedText h]
    rfl
  | _ => cases hnumeric

end Numbers

end Validator

theorem Object.without_insert {names : List String} {key : String} (h : key ∈ names) (value : Value)
    (entries : Object) :
    Object.without names (Object.insert key value entries) = Object.without names entries := by
  induction entries with
  | nil => simp [Object.insert, Object.without, h]
  | cons entry rest ih =>
    obtain ⟨k, v⟩ := entry
    rw [Object.insert]
    split
    · simp [Object.without, h]
    · split
      · next heq =>
        subst heq
        simp [Object.without, h]
      · simp only [Object.without] at ih
        simp only [Object.without, List.filter_cons, ih]

namespace Overlay

open Validator

section Texts

variable {path : List String} {entries : Object}

theorem write_below_text {below : List String} (hpath : path ≠ []) (hbelow : below ≠ [])
    (h : entriesOf (subvalue (some (.object entries)) path) = []) (other text : String) :
    write other (path ++ below) (write text path entries) = write other (path ++ below) entries := by
  induction path generalizing entries with
  | nil => exact absurd rfl hpath
  | cons key rest ih =>
    simp only [List.cons_append, write_cons, Object.find?_insert, if_true, Object.insert_insert]
    by_cases hrest : rest = []
    · subst hrest
      have hnone : entriesOf (some (.string text)) = [] := rfl
      have hempty : entriesOf (Object.find? key entries) = [] := h
      rw [List.nil_append, overwritten_nil, overwritten_of_ne_nil hbelow,
        overwritten_of_ne_nil hbelow, hnone, hempty]
    · have hboth : rest ++ below ≠ [] := by simp [hrest]
      have hinner : entriesOf
          (subvalue (some (.object (entriesOf (Object.find? key entries)))) rest) = [] := by
        rwa [subvalue_entriesOf _ hrest]
      rw [overwritten_of_ne_nil hrest, overwritten_of_ne_nil hboth, overwritten_of_ne_nil hboth,
        entriesOf_object, ih hrest hinner]

theorem write_of_comparable {written : List String} (hpath : path ≠ []) (hwritten : written ≠ [])
    (hcomparable : Comparable written path)
    (h : entriesOf (subvalue (some (.object entries)) path) = []) (other text : String) :
    write other written (write text path entries) = write other written entries := by
  rcases hcomparable with habove | ⟨below, rfl⟩
  · exact write_write_below hwritten habove other text entries
  · by_cases hbelow : below = []
    · subst hbelow
      rw [List.append_nil]
      exact write_write_below hpath List.prefix_rfl other text entries
    · exact write_below_text hpath hbelow h other text

/-- A text that is written first is forgotten by later overrides, or it is as if written last and
the overrides leave its place alone. -/
theorem layer_write_cases {overrides : List (List String × String)} (hpath : path ≠ [])
    (hoverrides : ∀ override ∈ overrides, override.1 ≠ [])
    (h : entriesOf (subvalue (some (.object entries)) path) = []) (text : String) :
    layer overrides (write text path entries) = layer overrides entries ∨
      layer overrides (write text path entries) = write text path (layer overrides entries) ∧
        subvalue (some (.object (layer overrides entries))) path =
          subvalue (some (.object entries)) path := by
  induction overrides generalizing entries with
  | nil => exact .inr ⟨rfl, rfl⟩
  | cons override rest ih =>
    obtain ⟨hoverride, hrest⟩ := List.forall_mem_cons.mp hoverrides
    simp only [layer, List.foldl_cons] at ih ⊢
    by_cases hcomparable : Comparable override.1 path
    · rw [write_of_comparable hpath hoverride hcomparable h]
      exact .inl rfl
    · have hsame : subvalue (some (.object (write override.2 override.1 entries))) path =
          subvalue (some (.object entries)) path :=
        subvalue_write_of_not_comparable hcomparable entries
      rw [write_comm hcomparable, ← hsame]
      exact ih hrest (hsame ▸ h)

end Texts

end Overlay

namespace Validator

open Overlay

theorem alike_write {validator : Validator} (h : Declared validator) :
    ∀ {path : List String} {option : Validator} {entries : Object} {v : Value} {text : String},
      At validator path option → path ≠ [] → subvalue (some (.object entries)) path = some v →
        Alike option (some (.string text)) (some v) →
          Alike validator (some (.object (write text path entries))) (some (.object entries)) := by
  induction h using Declared.induct with
  | scalar validator hscalar =>
    intro path option entries v text hat hpath _ _
    exact absurd (hat.of_isScalar hscalar).1 hpath
  | object fields _ hnames ih =>
    intro path option entries v text hat hpath hv halike
    rcases at_object_iff.mp hat with ⟨rfl, -⟩ | ⟨field, hfield, rest, rfl, hinside⟩
    · exact absurd rfl hpath
    · rw [write_cons]
      apply Alike.object
      · intro other hother
        rw [Object.find?_insert]
        split
        · next heq =>
          obtain rfl := Schema.eq_of_name_eq hnames hfield hother heq
          rw [subvalue] at hv
          by_cases hrest : rest = []
          · subst hrest
            rw [subvalue_nil] at hv
            rw [overwritten_nil, hv, ← hinside.eq_of_nil]
            exact halike
          · obtain ⟨inner, hinner⟩ := exists_object_of_subvalue hrest hv
            rw [overwritten_of_ne_nil hrest, hinner, entriesOf_object]
            rw [hinner] at hv
            exact ih field hfield hinside hrest hv halike
        · exact .refl _ _
      · exact Object.without_insert (List.mem_map_of_mem hfield) _ _

end Validator

namespace Settings

open Overlay Validator

theorem settled_congr {first second : Object}
    (h : Alike validator (some (.object first)) (some (.object second))) (cwd : String) :
    settled cwd first = settled cwd second := by
  simp only [settled, validateField, h.validate_eq]

/-- The text of a number that is written at the place of a numeric option, between other overrides,
gives the same settings as the number in the file. -/
theorem settled_layer_paddedText {n : Number} {s : String} (h : n.PaddedText s)
    {path : List String} {numeric : Validator} (hat : At validator path numeric)
    (hnumeric : numeric.IsNumeric) (hpath : path ≠ [])
    {earlier later : List (List String × String)} (hearlier : ∀ override ∈ earlier, override.1 ≠ [])
    (hlater : ∀ override ∈ later, override.1 ≠ [])
    (hapart : ∀ override ∈ earlier, ¬Comparable override.1 path) {entries file : Object}
    (hsame : SameBeyond path entries file)
    (hn : subvalue (some (.object file)) path = some (.number n)) (cwd : String) :
    settled cwd (layer (earlier ++ (path, s) :: later) entries) =
      settled cwd (layer (earlier ++ later) file) := by
  have hwritten : layer (earlier ++ (path, s) :: later) entries =
      layer later (write s path (layer earlier file)) := by
    have hfirst := hsame.layer hpath hearlier s
    simp only [layer] at hfirst
    simp only [layer, List.foldl_append, List.foldl_cons, hfirst]
  have hfile : layer (earlier ++ later) file = layer later (layer earlier file) := by
    simp only [layer, List.foldl_append]
  have hlast : lastComparable? earlier path = none := by
    rw [lastComparable?, List.getLast?_eq_none_iff, List.filter_eq_nil_iff]
    simpa using hapart
  have hthere : subvalue (some (.object (layer earlier file))) path = some (.number n) := by
    rw [(lastWins_layer hearlier file hpath).untouched hlast, hn]
  have hempty : entriesOf (subvalue (some (.object (layer earlier file))) path) = [] := by
    rw [hthere]
    rfl
  rw [hwritten, hfile]
  rcases layer_write_cases hpath hlater hempty s with hforgotten | ⟨hlast, hkept⟩
  · rw [hforgotten]
  · rw [hlast]
    apply settled_congr
    exact alike_write declared_validator hat hpath (hkept.trans hthere)
      (alike_paddedText hnumeric h)

/-- The text of a number, with blanks around it, is validated as the number is. A variable with such
a text acts as the number in the file does, unless an earlier variable interferes with it there. -/
theorem paddedText_validates_as_number {n : Number} {s : String} (h : n.PaddedText s) :
    (∀ numeric : Validator, numeric.IsNumeric → ∀ keypath,
      numeric.validate (some (.string s)) keypath = numeric.validate (some (.number n)) keypath) ∧
    ∀ cwd beginning (before after : Environment) name path numeric entries file,
      path? beginning name = some path → At validator path numeric → numeric.IsNumeric →
        (∀ entry ∈ before, ∀ other ∈ path? beginning entry.1, ¬Comparable other path) →
        SameBeyond path entries file → subvalue (some (.object file)) path = some (.number n) →
          (process (.object entries) ⟨cwd, some beginning, before ++ (name, s) :: after⟩).result =
            (process (.object file) ⟨cwd, some beginning, before ++ after⟩).result := by
  constructor
  · intro numeric hnumeric keypath
    exact (alike_paddedText hnumeric h).validate_eq keypath
  · intro cwd beginning before after name path numeric entries file hname hat hnumeric hbefore hsame
      hn
    have hwith : overrides ⟨cwd, some beginning, before ++ (name, s) :: after⟩ =
        Overlay.overrides beginning before ++ (path, s) :: Overlay.overrides beginning after := by
      simp [overrides, Overlay.overrides, hname]
    have hwithout : overrides ⟨cwd, some beginning, before ++ after⟩ =
        Overlay.overrides beginning before ++ Overlay.overrides beginning after := by
      simp [overrides, Overlay.overrides]
    have hapart : ∀ override ∈ Overlay.overrides beginning before, ¬Comparable override.1 path := by
      intro override hmem
      obtain ⟨entry, hentry, hoverride⟩ := List.mem_filterMap.mp hmem
      obtain ⟨other, hother, rfl⟩ := Option.map_eq_some_iff.mp hoverride
      exact hbefore entry hentry other hother
    rw [process_object, process_object, hwith, hwithout]
    exact settled_layer_paddedText h hat hnumeric (ne_nil_of_path? hname)
      (fun _ => Overlay.ne_nil_of_mem_overrides) (fun _ => Overlay.ne_nil_of_mem_overrides) hapart
      hsame hn cwd

section Sample

def greatestWord : Number := .integer ⟨18446744073709551615, by decide⟩

def paddedWord : String := "\u2003 18446744073709551615\n"

theorem paddedText_validates_as_number_greatestWord :
    greatestWord.PaddedText paddedWord ∧
    (IsNumeric (.integer none (some (0, 65535))) ∧ ∀ keypath,
      (Validator.integer none (some (0, 65535))).validate (some (.string paddedWord)) keypath =
        (Validator.integer none (some (0, 65535))).validate (some (.number greatestWord)) keypath) ∧
    (process (.object [("build", .object [])]) ⟨"/site", some "SUV_", [("SUV_ROOT", "app"),
        ("SUV_BUILD__CHUNK_SIZE_WARNING_LIMIT", paddedWord), ("SUV_BASE", "/docs")]⟩).result =
      (process (.object [("build", .object [("chunk_size_warning_limit", .number greatestWord)])])
        ⟨"/site", some "SUV_", [("SUV_ROOT", "app"), ("SUV_BASE", "/docs")]⟩).result := by
  have hpadded : greatestWord.PaddedText paddedWord := by
    refine ⟨['\u2003', ' '], ['\n'], ?_, by decide⟩
    intro c hc
    simp only [List.cons_append, List.nil_append, List.mem_cons, List.not_mem_nil, or_false] at hc
    rcases hc with rfl | rfl | rfl <;> rfl
  obtain ⟨hvalidate, hprocess⟩ := paddedText_validates_as_number hpadded
  refine ⟨hpadded, ⟨trivial, hvalidate _ trivial⟩, ?_⟩
  have hplaces : (["build", "chunk_size_warning_limit"],
      Validator.number (Binary64.ofRatio false 500 1)) ∈ scalarPlaces validator := by
    rw [scalarPlaces_validator]
    simp
  apply hprocess "/site" "SUV_" [("SUV_ROOT", "app")] [("SUV_BASE", "/docs")]
    "SUV_BUILD__CHUNK_SIZE_WARNING_LIMIT" ["build", "chunk_size_warning_limit"]
    (.number (Binary64.ofRatio false 500 1))
  · decide
  · exact ((mem_scalarPlaces declared_validator).mp hplaces).1
  · trivial
  · decide
  · exact fun text => rfl
  · rfl

end Sample

end Settings

end SiteConfig

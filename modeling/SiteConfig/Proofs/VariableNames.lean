import Mathlib
import SiteConfig.Proofs.Layering
/-!
# Names of variables

A variable is named for the option that it overrides: what all such names start with, and behind it
the path of the option with two underscores between the levels. The name leads back to the path as
long as no level holds two underscores in a row and none but the last ends in one, whatever the case
of the letters, so different paths have different names.
-/
namespace SiteConfig

namespace Text

section Case

theorem toNat_toLower (c : Char) :
    c.toLower.toNat = if 65 ≤ c.toNat ∧ c.toNat ≤ 90 then c.toNat + 32 else c.toNat := by
  have hfirst : 'A'.val.toNat = 65 := rfl
  have hlast : 'Z'.val.toNat = 90 := rfl
  have hshift : ('a'.val - 'A'.val).toNat = 32 := rfl
  have hnat : c.toNat = c.val.toNat := rfl
  unfold Char.toLower
  simp only [ge_iff_le, UInt32.le_iff_toNat_le, hfirst, hlast, hnat]
  split
  · next h =>
    change (c.val + ('a'.val - 'A'.val)).toNat = c.val.toNat + 32
    rw [UInt32.toNat_add, hshift, Nat.mod_eq_of_lt]
    omega
  · rfl

theorem toLower_toLower (c : Char) : c.toLower.toLower = c.toLower := by
  apply Char.toNat_inj.mp
  rw [toNat_toLower c.toLower, toNat_toLower c]
  by_cases h : 65 ≤ c.toNat ∧ c.toNat ≤ 90
  · rw [if_pos h, if_neg (by omega)]
  · rw [if_neg h, if_neg h]

theorem toLower_eq_iff {c d : Char} (h : d.toNat < 65 ∨ 90 < d.toNat ∧ d.toNat < 97) :
    c.toLower = d ↔ c = d := by
  rw [← Char.toNat_inj, toNat_toLower, ← Char.toNat_inj]
  split <;> omega

theorem isBlank_toLower (c : Char) : isBlank c.toLower = isBlank c := by
  rw [isBlank, isBlank, toNat_toLower]
  split
  · next h =>
    have hapart : ∀ range ∈ blankRanges, range.2 < 65 ∨ 122 < range.1 := by decide
    rw [inRanges, inRanges, Bool.eq_iff_iff, List.any_eq_true, List.any_eq_true]
    simp only [Bool.and_eq_true, decide_eq_true_eq]
    constructor <;> rintro ⟨range, hrange, hfirst, hlast⟩ <;>
      have := hapart range hrange <;> omega
  · rfl

theorem trim_map_toLower (text : List Char) :
    trim (text.map Char.toLower) = (trim text).map Char.toLower := by
  have hblank : isBlank ∘ Char.toLower = isBlank := funext isBlank_toLower
  simp only [trim, trimEnd, List.dropWhile_map, hblank, ← List.map_reverse]

end Case

theorem trim_of_ends {text : List Char} (hfirst : ∀ c ∈ text.head?, isBlank c = false)
    (hlast : ∀ c ∈ text.getLast?, isBlank c = false) : trim text = text := by
  have hstart : ∀ text : List Char, (∀ c ∈ text.head?, isBlank c = false) →
      text.dropWhile isBlank = text := by
    intro text h
    cases text with
    | nil => rfl
    | cons c rest =>
      rw [List.dropWhile_cons_of_neg]
      simpa using h c rfl
  rw [trim, hstart text hfirst, trimEnd, hstart text.reverse, List.reverse_reverse]
  rwa [List.head?_reverse]

end Text

namespace Overlay

section Decoding

theorem afterBeginning?_map_toLower (beginning text : List Char) :
    afterBeginning? (beginning.map Char.toLower) (text.map Char.toLower) =
      (afterBeginning? beginning text).map (List.map Char.toLower) := by
  induction beginning generalizing text with
  | nil => rfl
  | cons b beginning ih =>
    cases text with
    | nil => rfl
    | cons c text =>
      simp only [List.map_cons, afterBeginning?, Text.toLower_toLower, ih]
      split <;> rfl

theorem separate_cons {c : Char} {rest : List Char} (h : c = '_' → rest.head? ≠ some '_') :
    separate (c :: rest) = c :: separate rest := by
  rw [separate]
  rintro others rfl rfl
  exact h rfl rfl

theorem separate_map_toLower (text : List Char) :
    separate (text.map Char.toLower) = (separate text).map Char.toLower := by
  have hunderscore (c : Char) : c.toLower = '_' ↔ c = '_' := Text.toLower_eq_iff (by decide)
  induction text using separate.induct with
  | case1 rest ih =>
    have hlower : '_'.toLower = '_' := rfl
    simp only [List.map_cons, hlower, separate, ih]
    rfl
  | case2 c rest h ih =>
    have hhead : c = '_' → rest.head? ≠ some '_' := by
      intro hc hrest
      obtain ⟨others, hothers⟩ := List.head?_eq_some_iff.mp hrest
      exact h others hc hothers
    rw [separate_cons hhead, List.map_cons, List.map_cons, separate_cons, ih]
    intro hc
    rw [List.head?_map]
    intro hrest
    obtain ⟨d, hd, hlower⟩ := Option.map_eq_some_iff.mp hrest
    rw [(hunderscore d).mp hlower] at hd
    exact hhead ((hunderscore c).mp hc) hd
  | case3 => rfl

theorem parts_map_toLower (text : List Char) :
    parts (text.map Char.toLower) = (parts text).map (List.map Char.toLower) := by
  have hpoint (c : Char) : c.toLower = '.' ↔ c = '.' := Text.toLower_eq_iff (by decide)
  induction text with
  | nil => rfl
  | cons c rest ih =>
    simp only [List.map_cons, parts, hpoint, ih]
    split
    · rfl
    · cases parts rest <;> rfl

theorem path?_toLower (beginning name : String) :
    path? beginning.toLower name.toLower = path? beginning name := by
  have htoList (text : String) : text.toLower.toList = text.toList.map Char.toLower :=
    String.toList_map
  rw [path?, path?, htoList, htoList, Text.trim_map_toLower, afterBeginning?_map_toLower]
  cases afterBeginning? beginning.toList (Text.trim name.toList) with
  | none => rfl
  | some rest =>
    simp only [Option.map_some, separate_map_toLower, Text.trim_map_toLower, parts_map_toLower,
      List.any_map, List.map_map, Function.comp_def, Text.toLower_toLower, List.isEmpty_map]

end Decoding

def IsLevelChar (c : Char) : Prop := c.isLower = true ∨ c.isDigit = true ∨ c = '_'

structure IsLevelName (level : String) : Prop where
  ne_empty : level ≠ ""
  plain : ∀ c ∈ level.toList, IsLevelChar c
  undivided : ¬['_', '_'] <:+: level.toList

/-- The paths of options that names of variables can spell. An underscore at the end of a level would
be taken for a part of the separator behind it. -/
inductive Addressable : List String → Prop
  | last {level : String} (h : IsLevelName level) : Addressable [level]
  | level {level : String} {path : List String} (h : IsLevelName level)
      (hend : level.toList.getLast? ≠ some '_') (hpath : Addressable path) :
      Addressable (level :: path)

/-- The name of the variable that overrides the option at a path. -/
def variableName (beginning : String) (path : List String) : String :=
  beginning ++ String.intercalate "__" path

section Levels

variable {c : Char} {level : List Char} {path : List String}

theorem IsLevelChar.bounds (h : IsLevelChar c) :
    48 ≤ c.toNat ∧ c.toNat ≤ 57 ∨ c.toNat = 95 ∨ 97 ≤ c.toNat ∧ c.toNat ≤ 122 := by
  have hnat : c.toNat = c.val.toNat := rfl
  rcases h with h | h | rfl
  · simp only [Char.isLower, Bool.and_eq_true, decide_eq_true_eq, ge_iff_le,
      UInt32.le_iff_toNat_le] at h
    exact .inr (.inr h)
  · simp only [Char.isDigit, Bool.and_eq_true, decide_eq_true_eq, ge_iff_le,
      UInt32.le_iff_toNat_le] at h
    exact .inl h
  · exact .inr (.inl rfl)

theorem IsLevelChar.isBlank_eq_false (h : IsLevelChar c) : Text.isBlank c = false := by
  have hbounds := h.bounds
  have hapart : ∀ range ∈ Text.blankRanges, range.2 < 48 ∨ 122 < range.1 := by decide
  rw [Text.isBlank, Text.inRanges, List.any_eq_false]
  intro range hrange
  have := hapart range hrange
  simp only [Bool.and_eq_true, decide_eq_true_eq]
  omega

theorem IsLevelChar.ne_point (h : IsLevelChar c) : c ≠ '.' := by
  rintro rfl
  have := h.bounds
  simp at this

theorem IsLevelChar.toLower_eq (h : IsLevelChar c) : c.toLower = c := by
  apply Char.toNat_inj.mp
  rw [Text.toNat_toLower]
  have := h.bounds
  split <;> omega

theorem Addressable.ne_nil (h : Addressable path) : path ≠ [] := by
  cases h <;> exact List.cons_ne_nil _ _

theorem Addressable.isLevelName (h : Addressable path) : ∀ level ∈ path, IsLevelName level := by
  induction h with
  | last h => simpa using h
  | level h _ _ ih => exact List.forall_mem_cons.mpr ⟨h, ih⟩

/-- Text is separated part by part where no separator lies across the seam. -/
theorem separate_append {rest : List Char} (h : ¬['_', '_'] <:+: level)
    (hseam : level.getLast? = some '_' → rest.head? ≠ some '_') :
    separate (level ++ rest) = level ++ separate rest := by
  induction level with
  | nil => rfl
  | cons c level ih =>
    have hinner : ¬['_', '_'] <:+: level := fun hinfix => h (List.infix_cons hinfix)
    rw [List.cons_append, List.cons_append, separate_cons]
    · rw [ih hinner]
      cases level with
      | nil => exact nofun
      | cons d others => simpa using hseam
    · rintro rfl
      cases level with
      | nil => exact hseam rfl
      | cons d others =>
        rintro hd
        obtain rfl := Option.some.inj hd
        exact h (List.prefix_append ['_', '_'] others).isInfix

theorem parts_append {part : List Char} (h : '.' ∉ part) (rest : List Char) :
    parts (part ++ '.' :: rest) = part :: parts rest := by
  induction part with
  | nil => rw [List.nil_append, parts, if_pos rfl]
  | cons c part ih =>
    simp only [List.mem_cons, not_or] at h
    obtain ⟨hc, hpart⟩ := h
    rw [List.cons_append, parts, if_neg (Ne.symm hc), ih hpart]

theorem parts_of_not_mem {part : List Char} (h : '.' ∉ part) : parts part = [part] := by
  induction part with
  | nil => rfl
  | cons c part ih =>
    simp only [List.mem_cons, not_or] at h
    obtain ⟨hc, hpart⟩ := h
    rw [parts, if_neg (Ne.symm hc), ih hpart]

end Levels

section Spelling

variable {path : List String}

def spelled (between : List Char) (path : List String) : List Char :=
  between.intercalate (path.map String.toList)

theorem spelled_singleton (between : List Char) (level : String) :
    spelled between [level] = level.toList := by
  simp [spelled]

theorem spelled_cons (between : List Char) (level : String) (h : path ≠ []) :
    spelled between (level :: path) = level.toList ++ (between ++ spelled between path) := by
  obtain ⟨next, rest, rfl⟩ := List.exists_cons_of_ne_nil h
  simp [spelled, List.intercalate_cons_cons]

theorem Addressable.separate_spelled (h : Addressable path) :
    separate (spelled ['_', '_'] path) = spelled ['.'] path := by
  induction h with
  | last h =>
    rw [spelled_singleton, spelled_singleton, ← List.append_nil (String.toList _),
      separate_append h.undivided fun _ => by simp]
    rfl
  | level h hend hpath ih =>
    rw [spelled_cons _ _ hpath.ne_nil, spelled_cons _ _ hpath.ne_nil,
      separate_append h.undivided fun hlast => absurd hlast hend, ← ih]
    rfl

theorem Addressable.parts_spelled (h : Addressable path) :
    parts (spelled ['.'] path) = path.map String.toList := by
  have hpoint {level : String} (h : IsLevelName level) : '.' ∉ level.toList :=
    fun hmem => (h.plain _ hmem).ne_point rfl
  induction h with
  | last h => rw [spelled_singleton, parts_of_not_mem (hpoint h), List.map_singleton]
  | level h _ hpath ih =>
    rw [spelled_cons _ _ hpath.ne_nil, List.map_cons, ← ih]
    exact parts_append (hpoint h) _

theorem Addressable.not_isBlank_spelled (h : Addressable path) (between : List Char)
    (hbetween : ∀ c ∈ between, Text.isBlank c = false) :
    ∀ c ∈ spelled between path, Text.isBlank c = false := by
  induction h with
  | last h =>
    rw [spelled_singleton]
    exact fun c hc => (h.plain c hc).isBlank_eq_false
  | level h _ hpath ih =>
    rw [spelled_cons _ _ hpath.ne_nil]
    simp only [List.forall_mem_append]
    exact ⟨fun c hc => (h.plain c hc).isBlank_eq_false, hbetween, ih⟩

theorem Addressable.spelled_ne_nil (h : Addressable path) (between : List Char) :
    spelled between path ≠ [] := by
  cases h with
  | last h =>
    rw [spelled_singleton]
    simpa using h.ne_empty
  | level h _ hpath =>
    rw [spelled_cons _ _ hpath.ne_nil]
    simp [h.ne_empty]

theorem afterBeginning?_append (beginning text : List Char) :
    afterBeginning? beginning (beginning ++ text) = some text := by
  induction beginning with
  | nil => rfl
  | cons b beginning ih => rw [List.cons_append, afterBeginning?, if_pos rfl, ih]

theorem toList_variableName (beginning : String) (path : List String) :
    (variableName beginning path).toList = beginning.toList ++ spelled ['_', '_'] path := by
  rw [variableName, String.toList_append, String.toList_intercalate]
  rfl

/-- A name leads back to the path that it was made of. -/
theorem path?_variableName {beginning : String}
    (hbeginning : ∀ c ∈ beginning.toList.head?, Text.isBlank c = false) (h : Addressable path) :
    path? beginning (variableName beginning path) = some path := by
  have hmark : Text.isBlank '_' = false := rfl
  have hpoint : Text.isBlank '.' = false := rfl
  have hspelled := h.not_isBlank_spelled ['_', '_'] (by simp [hmark])
  have hpointed := h.not_isBlank_spelled ['.'] (by simp [hpoint])
  have hname : Text.trim (variableName beginning path).toList =
      beginning.toList ++ spelled ['_', '_'] path := by
    rw [toList_variableName]
    apply Text.trim_of_ends
    · intro c hc
      cases hhead : beginning.toList with
      | nil =>
        rw [hhead, List.nil_append] at hc
        exact hspelled c (List.mem_of_head? hc)
      | cons b rest =>
        rw [hhead] at hc
        exact hbeginning c (hhead ▸ hc)
    · intro c hc
      rw [List.getLast?_append_of_ne_nil _ (h.spelled_ne_nil _)] at hc
      exact hspelled c (List.mem_of_getLast? hc)
  have htrim : Text.trim (spelled ['.'] path) = spelled ['.'] path :=
    Text.trim_of_ends (fun c hc => hpointed c (List.mem_of_head? hc))
      fun c hc => hpointed c (List.mem_of_getLast? hc)
  have hnonempty : (path.map String.toList).any List.isEmpty = false := by
    rw [List.any_eq_false]
    intro text htext
    obtain ⟨level, hlevel, rfl⟩ := List.mem_map.mp htext
    simpa using (h.isLevelName level hlevel).ne_empty
  have hlower : (path.map String.toList).map (fun level => String.ofList (level.map Char.toLower)) =
      path := by
    rw [List.map_map]
    refine (List.map_congr_left fun level hlevel => ?_).trans (List.map_id path)
    have hplain := (h.isLevelName level hlevel).plain
    have hsame : level.toList.map Char.toLower = level.toList :=
      (List.map_congr_left fun c hc => (hplain c hc).toLower_eq).trans (List.map_id _)
    simp [hsame]
  simp only [path?, hname, afterBeginning?_append, h.separate_spelled, htrim, h.parts_spelled,
    hnonempty, hlower]
  rfl

theorem path?_of_toLower_eq {beginning name : String}
    (hbeginning : ∀ c ∈ beginning.toList.head?, Text.isBlank c = false) (h : Addressable path)
    (hname : name.toLower = (variableName beginning path).toLower) :
    path? beginning name = some path := by
  rw [← path?_toLower, hname, path?_toLower, path?_variableName hbeginning h]

theorem eq_of_variableName_eq {beginning : String} {first second : List String}
    (hfirst : Addressable first) (hsecond : Addressable second)
    (h : (variableName beginning first).toLower = (variableName beginning second).toLower) :
    first = second := by
  have hplain : (variableName "" first).toLower = (variableName "" second).toLower := by
    rw [← String.toList_inj] at h ⊢
    simpa only [String.toLower, String.toList_map, toList_variableName, List.map_append,
      List.append_cancel_left_eq] using h
  have hempty : ∀ c ∈ "".toList.head?, Text.isBlank c = false := by simp
  have hpaths : some first = some second :=
    (path?_of_toLower_eq hempty hfirst hplain.symm).symm.trans (path?_variableName hempty hsecond)
  exact Option.some.inj hpaths

end Spelling

theorem overrides_append_cons {beginning name : String} {path : List String}
    (h : path? beginning name = some path) (before after : Environment) (text : String) :
    overrides beginning (before ++ (name, text) :: after) =
      overrides beginning before ++ (path, text) :: overrides beginning after := by
  simp [overrides, List.filterMap_append, h]

end Overlay

namespace Settings

open Overlay Validator

/-- A variable that is named for a path, in letters of any case, overrides the option at this path
and leaves all others that lie neither above nor below it, whatever variables stand before and behind
it. Different paths have different names. -/
theorem variableName_overrides :
    (∀ beginning path name, (∀ c ∈ beginning.toList.head?, Text.isBlank c = false) →
      Addressable path → name.toLower = (variableName beginning path).toLower →
      path? beginning name = some path ∧
      ∀ text, (∀ before after,
        Overlay.overrides beginning (before ++ (name, text) :: after) =
            Overlay.overrides beginning before ++ (path, text) ::
              Overlay.overrides beginning after ∧
        ∀ entries cwd,
          (process (.object entries)
              ⟨cwd, some beginning, before ++ (name, text) :: after⟩).result =
            settled cwd (layer (Overlay.overrides beginning after)
              (write text path (layer (Overlay.overrides beginning before) entries)))) ∧
      ∀ entries,
        (∀ cwd, (process (.object entries) ⟨cwd, some beginning, [(name, text)]⟩).result =
          (process (.object (write text path entries)) ⟨cwd, none, []⟩).result) ∧
        subvalue (some (.object (write text path entries))) path = some (.string text) ∧
        ∀ other, ¬Comparable path other →
          subvalue (some (.object (write text path entries))) other =
            subvalue (some (.object entries)) other) ∧
    ∀ beginning first second, Addressable first → Addressable second →
      (variableName beginning first).toLower = (variableName beginning second).toLower →
        first = second := by
  refine ⟨?_, fun _ _ _ hfirst hsecond h => eq_of_variableName_eq hfirst hsecond h⟩
  intro beginning path name hbeginning haddressable hname
  have hpath := path?_of_toLower_eq hbeginning haddressable hname
  refine ⟨hpath, fun text => ⟨?_, ?_⟩⟩
  · intro before after
    have hoverrides := overrides_append_cons hpath before after text
    refine ⟨hoverrides, fun entries cwd => ?_⟩
    rw [process_object]
    change settled cwd (layer (Overlay.overrides beginning _) entries) = _
    rw [hoverrides, layer, List.foldl_append]
    rfl
  intro entries
  refine ⟨fun cwd => ?_, ?_, fun other hother => subvalue_write_of_not_comparable hother entries⟩
  · have hoverrides : overrides ⟨cwd, some beginning, [(name, text)]⟩ = [(path, text)] :=
      overrides_append_cons hpath [] [] text
    rw [process_object, process_object, hoverrides]
    rfl
  · exact (leaves_write text haddressable.ne_nil haddressable.ne_nil entries).here rfl

section Sample

def samplePath : List String := ["build", "chunk_size_limit_"]

theorem addressable_samplePath : Addressable samplePath := by
  have hplain : ∀ level ∈ samplePath, ∀ c ∈ level.toList, IsLevelChar c := by
    simp [samplePath, IsLevelChar]
  have hundivided : ∀ level ∈ samplePath, ¬['_', '_'] <:+: level.toList := by
    simp [samplePath, List.infix_cons_iff]
  simp only [samplePath, List.forall_mem_cons] at hplain hundivided
  refine .level ⟨by decide, hplain.1, hundivided.1⟩ (by decide) (.last ⟨by decide, ?_, ?_⟩)
  · exact hplain.2.1
  · exact hundivided.2.1

theorem variableName_overrides_samplePath :
    (∀ c ∈ "SUV_".toList.head?, Text.isBlank c = false) ∧ Addressable samplePath ∧
      "Suv_BUILD__chunk_Size_LIMIT_".toLower = (variableName "SUV_" samplePath).toLower ∧
      path? "SUV_" "Suv_BUILD__chunk_Size_LIMIT_" = some samplePath ∧
      (process (.object sampleEntries)
          ⟨"/site", some "SUV_", [("Suv_BUILD__chunk_Size_LIMIT_", "750")]⟩).result =
        (process (.object (write "750" samplePath sampleEntries)) ⟨"/site", none, []⟩).result ∧
      subvalue (some (.object (write "750" samplePath sampleEntries))) ["root"] =
        some (.string "app") ∧
      (variableName "SUV_" samplePath).toLower = (variableName "SUV_" samplePath).toLower ∧
      samplePath = samplePath := by
  have hbeginning : ∀ c ∈ "SUV_".toList.head?, Text.isBlank c = false := by
    rintro c ⟨⟩
    rfl
  have hname : "Suv_BUILD__chunk_Size_LIMIT_".toLower = (variableName "SUV_" samplePath).toLower := by
    rw [← String.toList_inj, String.toLower, String.toLower, String.toList_map, String.toList_map,
      toList_variableName]
    decide
  obtain ⟨hpath, hvariable⟩ :=
    variableName_overrides.1 _ _ _ hbeginning addressable_samplePath hname
  obtain ⟨hprocess, -, hothers⟩ := (hvariable "750").2 sampleEntries
  exact ⟨hbeginning, addressable_samplePath, hname, hpath, hprocess "/site",
    hothers ["root"] (by decide), rfl,
    variableName_overrides.2 "SUV_" _ _ addressable_samplePath addressable_samplePath rfl⟩

end Sample

end Settings

end SiteConfig

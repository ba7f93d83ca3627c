import Mathlib.Data.Finset.Card
import Mathlib.Data.List.Dedup
import SiteConfig.Proofs.Fields
/-!
# Declaring again

A schema keeps the last declaration of every name, and its fields stand in the order of these
declarations. Whether a field is required and which validator it has depends on no other
declaration, however the names are marked.
-/
namespace SiteConfig

namespace Schema

/-- The spellings of a field: its name, which then has no mark in front, or its name behind a mark
if it is required. -/
inductive Spells : String → String → Bool → Prop
  | plain {name : String} (h : name.toList.head? ≠ some '!') : Spells name name false
  | marked (name : String) : Spells ("!" ++ name) name true

def declared (declaration : String × Validator) : Field Validator :=
  ⟨(splitMark declaration.1).1, (splitMark declaration.1).2, declaration.2⟩

/-- A field as its name is declared for the last time. -/
def LastDeclared (declarations : List (String × Validator)) (field : Field Validator) : Prop :=
  ∃ before spelling after, declarations = before ++ (spelling, field.validator) :: after ∧
    Spells spelling field.name field.required ∧
    ∀ later ∈ after, ∀ required, ¬Spells later.1 field.name required

section Spelling

theorem splitMark_eq_iff {spelling name : String} {required : Bool} :
    splitMark spelling = (name, required) ↔ Spells spelling name required := by
  constructor
  · intro h
    rw [splitMark] at h
    split at h
    · next rest hspelling =>
      obtain ⟨rfl, rfl⟩ := Prod.mk.inj h
      have hmarked : spelling = "!" ++ String.ofList rest := by
        rw [← String.toList_inj, hspelling, String.toList_append, String.toList_ofList]
        simp
      exact hmarked ▸ .marked _
    · next hplain =>
      obtain ⟨rfl, rfl⟩ := Prod.mk.inj h
      refine .plain fun hhead => ?_
      obtain ⟨rest, hrest⟩ := List.head?_eq_some_iff.mp hhead
      exact hplain rest hrest
  · intro h
    cases h with
    | plain hplain =>
      rw [splitMark]
      split
      · next rest hspelling =>
        rw [hspelling] at hplain
        exact absurd rfl hplain
      · rfl
    | marked =>
      have hspelling : ("!" ++ name).toList = '!' :: name.toList := by
        rw [String.toList_append]
        rfl
      rw [splitMark, hspelling]
      simp

theorem spells_splitMark (spelling : String) :
    Spells spelling (splitMark spelling).1 (splitMark spelling).2 :=
  splitMark_eq_iff.mp rfl

theorem exists_spells_iff {spelling name : String} :
    (∃ required, Spells spelling name required) ↔ (splitMark spelling).1 = name := by
  constructor
  · rintro ⟨required, h⟩
    rw [splitMark_eq_iff.mpr h]
  · rintro rfl
    exact ⟨_, spells_splitMark spelling⟩

end Spelling

section Last

variable {declarations : List (String × Validator)}

def lastOfName (fields : Schema) : Schema :=
  fields.pwFilter fun earlier later => earlier.name ≠ later.name

theorem lastOfName_cons (field : Field Validator) (fields : Schema) :
    lastOfName (field :: fields) =
      if field.name ∈ names fields then lastOfName fields else field :: lastOfName fields := by
  have hnames : (∀ later ∈ lastOfName fields, field.name ≠ later.name) ↔
      field.name ∉ names fields := by
    rw [lastOfName, List.forall_mem_pwFilter]
    · simp [names, eq_comm]
    · intro x y z hxz
      by_cases hxy : x.name = y.name
      · exact .inr (hxy ▸ hxz)
      · exact .inl hxy
  by_cases hname : field.name ∈ names fields
  · rw [if_pos hname]
    exact List.pwFilter_cons_of_neg fun h => hnames.mp h hname
  · rw [if_neg hname]
    exact List.pwFilter_cons_of_pos (hnames.mpr hname)

theorem lastOfName_concat (fields : Schema) (field : Field Validator) :
    lastOfName (fields ++ [field]) =
      (lastOfName fields).filter (fun other => other.name != field.name) ++ [field] := by
  induction fields with
  | nil => rfl
  | cons first fields ih =>
    have hnames : names (fields ++ [field]) = names fields ++ [field.name] := by simp [names]
    rw [List.cons_append, lastOfName_cons, ih, lastOfName_cons, hnames]
    by_cases hname : first.name = field.name
    · rw [if_pos (by simp [hname])]
      split <;> simp [hname]
    · by_cases hmem : first.name ∈ names fields
      · rw [if_pos (List.mem_append_left _ hmem), if_pos hmem]
      · rw [if_neg (by simp [hname, hmem]), if_neg hmem, List.filter_cons_of_pos (by simpa using hname)]
        rfl

theorem mem_lastOfName_iff {fields : Schema} {field : Field Validator} :
    field ∈ lastOfName fields ↔ ∃ before after, fields = before ++ field :: after ∧
      ∀ later ∈ after, later.name ≠ field.name := by
  induction fields with
  | nil => simp [lastOfName]
  | cons first rest ih =>
    have hrest : field ∈ lastOfName rest → field ∈ lastOfName (first :: rest) := by
      intro h
      rw [lastOfName_cons]
      split
      · exact h
      · exact List.mem_cons_of_mem _ h
    constructor
    · intro h
      have hcases : field ∈ lastOfName rest ∨ field = first ∧ first.name ∉ names rest := by
        rw [lastOfName_cons] at h
        split at h
        · exact .inl h
        · next hname =>
          rcases List.mem_cons.mp h with heq | hmem
          · exact .inr ⟨heq, hname⟩
          · exact .inl hmem
      rcases hcases with hmem | ⟨rfl, hname⟩
      · obtain ⟨before, after, rfl, hafter⟩ := ih.mp hmem
        exact ⟨first :: before, after, rfl, hafter⟩
      · refine ⟨[], rest, rfl, fun later hlater heq => hname ?_⟩
        exact List.mem_map.mpr ⟨later, hlater, heq⟩
    · rintro ⟨before, after, hfields, hafter⟩
      cases before with
      | nil =>
        obtain ⟨rfl, rfl⟩ := List.cons.inj hfields
        rw [lastOfName_cons, if_neg]
        · exact List.mem_cons_self
        · intro hname
          obtain ⟨later, hlater, heq⟩ := List.mem_map.mp hname
          exact hafter later hlater heq
      | cons _ before =>
        obtain ⟨-, rfl⟩ := List.cons.inj hfields
        exact hrest (ih.mpr ⟨before, after, rfl, hafter⟩)

theorem names_lastOfName (fields : Schema) : names (lastOfName fields) = (names fields).dedup := by
  rw [names, names, List.dedup, List.pwFilter_map]
  rfl

theorem ofDeclarations_concat (declarations : List (String × Validator))
    (declaration : String × Validator) :
    ofDeclarations (declarations ++ [declaration]) =
      declare (ofDeclarations declarations) declaration.1 declaration.2 := by
  simp [ofDeclarations, List.foldl_append]

/-- Declaring fields one by one leaves the last declaration of every name. -/
theorem ofDeclarations_eq (declarations : List (String × Validator)) :
    ofDeclarations declarations = lastOfName (declarations.map declared) := by
  induction declarations using List.reverseRecOn with
  | nil => rfl
  | append_singleton earlier declaration ih =>
    rw [ofDeclarations_concat, ih, List.map_append, List.map_singleton, lastOfName_concat]
    rfl

theorem declared_eq_iff {declaration : String × Validator} {field : Field Validator} :
    declared declaration = field ↔
      Spells declaration.1 field.name field.required ∧ declaration.2 = field.validator := by
  rw [← splitMark_eq_iff]
  obtain ⟨name, required, validator⟩ := field
  simp [declared, Prod.ext_iff, and_assoc]

theorem mem_ofDeclarations_iff {field : Field Validator} :
    field ∈ ofDeclarations declarations ↔ LastDeclared declarations field := by
  have hother (later : String × Validator) : (declared later).name ≠ field.name ↔
      ∀ required, ¬Spells later.1 field.name required := by
    rw [← not_exists, exists_spells_iff]
    rfl
  rw [ofDeclarations_eq, mem_lastOfName_iff]
  constructor
  · rintro ⟨before, after, hfields, hafter⟩
    obtain ⟨before, others, rfl, -, hothers⟩ := List.map_eq_append_iff.mp hfields
    obtain ⟨⟨spelling, validator⟩, after, rfl, hdeclared, rfl⟩ := List.map_eq_cons_iff.mp hothers
    obtain ⟨hspells, rfl⟩ := declared_eq_iff.mp hdeclared
    refine ⟨before, spelling, after, rfl, hspells, fun later hlater => ?_⟩
    exact (hother later).mp (hafter _ (List.mem_map_of_mem hlater))
  · rintro ⟨before, spelling, after, rfl, hspells, hafter⟩
    refine ⟨before.map declared, after.map declared, ?_, ?_⟩
    · rw [List.map_append, List.map_cons, declared_eq_iff.mpr ⟨hspells, rfl⟩]
    · intro later hlater
      obtain ⟨declaration, hdeclaration, rfl⟩ := List.mem_map.mp hlater
      exact (hother declaration).mpr (hafter declaration hdeclaration)

theorem names_ofDeclarations (declarations : List (String × Validator)) :
    names (ofDeclarations declarations) =
      (declarations.map fun declaration => (splitMark declaration.1).1).dedup := by
  rw [ofDeclarations_eq, names_lastOfName, names, List.map_map]
  rfl

theorem isRequired_ofDeclarations_iff {name : String} :
    isRequired (ofDeclarations declarations) name = true ↔
      ∃ validator, LastDeclared declarations ⟨name, true, validator⟩ := by
  simp only [isRequired, List.any_eq_true, Bool.and_eq_true, beq_iff_eq, mem_ofDeclarations_iff]
  constructor
  · rintro ⟨⟨_, _, validator⟩, hlast, rfl, rfl⟩
    exact ⟨validator, hlast⟩
  · rintro ⟨validator, hlast⟩
    exact ⟨_, hlast, rfl, rfl⟩

theorem length_ofDeclarations (declarations : List (String × Validator)) :
    (ofDeclarations declarations).length =
      (declarations.map fun declaration => (splitMark declaration.1).1).toFinset.card := by
  rw [List.card_toFinset, ← names_ofDeclarations, names, List.length_map]

end Last

end Schema

namespace Validator

open Schema (LastDeclared Spells isRequired names ofDeclarations splitMark)

section Declarations

variable {declarations : List (String × Validator)} {raw : Option Value} {entries : Object}
  {keypath : Keypath}

theorem exists_validateField_ofDeclarations_iff (h : entriesOf? raw = some entries) :
    (∃ v, (validateField (.object (ofDeclarations declarations)) raw keypath).result = .ok v) ↔
      ∀ field, LastDeclared declarations field → ∃ w, outcome entries keypath field = .ok w := by
  simp only [← Schema.mem_ofDeclarations_iff]
  rw [← exists_validateFields_iff, validateField_object h]
  cases (validateFields (ofDeclarations declarations) entries keypath).result <;> simp [Except.map]

/-- Every name of the completed object holds what its last declaration makes of it. -/
theorem outcome_of_lastDeclared {v : Value} (h : entriesOf? raw = some entries)
    (hok : (validateField (.object (ofDeclarations declarations)) raw keypath).result = .ok v)
    {field : Field Validator} (hfield : LastDeclared declarations field) :
    ∃ w, outcome entries keypath field = .ok w ∧ subvalue (some v) [field.name] = some w := by
  obtain ⟨entries', values, hentries, hpass, rfl⟩ := exists_completed_of_validateField hok
  obtain rfl : entries = entries' := Option.some.inj (h.symm.trans hentries)
  obtain ⟨w, hw, hmem⟩ := mem_of_validateFields hpass (Schema.mem_ofDeclarations_iff.mpr hfield)
  have hnodup : (Object.keys values).Nodup := by
    rw [keys_of_validateFields hpass]
    exact Schema.nodup_names_ofDeclarations declarations
  refine ⟨w, hw, ?_⟩
  rw [subvalue_cons rfl, subvalue_nil, find?_completed_of_mem hnodup hmem]

theorem outcome_of_error {e : Violation} (h : entriesOf? raw = some entries)
    (herror : (validateField (.object (ofDeclarations declarations)) raw keypath).result = .error e) :
    ∃ field, LastDeclared declarations field ∧ outcome entries keypath field = .error e := by
  rw [validateField_object h] at herror
  cases hpass : (validateFields (ofDeclarations declarations) entries keypath).result with
  | ok values =>
    rw [hpass] at herror
    cases herror
  | error violation =>
    rw [hpass] at herror
    cases herror
    obtain ⟨before, field, behind, hfields, -, hfield⟩ := validateFields_eq_error hpass
    refine ⟨field, Schema.mem_ofDeclarations_iff.mp ?_, hfield⟩
    rw [hfields]
    exact List.mem_append_right _ List.mem_cons_self

/-- Declarations are a map in which the last one of every name counts: for the order and the number
of the fields, for what is required, and for what becomes of the entry of that name. -/
theorem ofDeclarations_lastWins :
    (∀ spelling name required,
      splitMark spelling = (name, required) ↔ Spells spelling name required) ∧
    ∀ declarations : List (String × Validator),
      (names (ofDeclarations declarations)).Nodup ∧
      names (ofDeclarations declarations) =
        (declarations.map fun declaration => (splitMark declaration.1).1).dedup ∧
      (ofDeclarations declarations).length =
        (declarations.map fun declaration => (splitMark declaration.1).1).toFinset.card ∧
      (∀ name, isRequired (ofDeclarations declarations) name = true ↔
        ∃ validator, LastDeclared declarations ⟨name, true, validator⟩) ∧
      (∀ field, field ∈ ofDeclarations declarations ↔ LastDeclared declarations field) ∧
      ∀ raw entries keypath, entriesOf? raw = some entries →
        ((∃ v, (validateField (.object (ofDeclarations declarations)) raw keypath).result = .ok v) ↔
          ∀ field, LastDeclared declarations field →
            ∃ w, outcome entries keypath field = .ok w) ∧
        (∀ v, (validateField (.object (ofDeclarations declarations)) raw keypath).result = .ok v →
          ∀ field, LastDeclared declarations field →
            ∃ w, outcome entries keypath field = .ok w ∧ subvalue (some v) [field.name] = some w) ∧
        ∀ e, (validateField (.object (ofDeclarations declarations)) raw keypath).result = .error e →
          ∃ field, LastDeclared declarations field ∧ outcome entries keypath field = .error e := by
  refine ⟨fun _ _ _ => Schema.splitMark_eq_iff, fun declarations => ?_⟩
  refine ⟨Schema.nodup_names_ofDeclarations declarations, Schema.names_ofDeclarations declarations,
    Schema.length_ofDeclarations declarations, fun _ => Schema.isRequired_ofDeclarations_iff,
    fun _ => Schema.mem_ofDeclarations_iff, fun raw entries keypath h => ?_⟩
  exact ⟨exists_validateField_ofDeclarations_iff h, fun _ hok _ => outcome_of_lastDeclared h hok,
    fun _ => outcome_of_error h⟩

end Declarations

section Sample

def sampleDeclarations : List (String × Validator) :=
  [("!name", .string none false), ("port", .boolean none), ("!!port", .boolean none),
    ("!port", .integer none none), ("name", .string (some "site") true)]

def sampleEntries : Object := [("!port", .bool true), ("port", .number (.integer ⟨80, by decide⟩))]

theorem ofDeclarations_sampleDeclarations : ofDeclarations sampleDeclarations =
    [⟨"!port", true, .boolean none⟩, ⟨"port", true, .integer none none⟩,
      ⟨"name", false, .string (some "site") true⟩] := rfl

theorem ofDeclarations_lastWins_sampleDeclarations :
    entriesOf? (some (.object sampleEntries)) = some sampleEntries ∧
      names (ofDeclarations sampleDeclarations) = ["!port", "port", "name"] ∧
      isRequired (ofDeclarations sampleDeclarations) "port" = true ∧
      LastDeclared sampleDeclarations ⟨"name", false, .string (some "site") true⟩ ∧
      ∃ v, (validateField (.object (ofDeclarations sampleDeclarations))
          (some (.object sampleEntries)) Keypath.root).result = .ok v ∧
        subvalue (some v) ["name"] = some (.string "site") := by
  obtain ⟨-, -, -, hrequired, hmem, hvalidate⟩ := ofDeclarations_lastWins.2 sampleDeclarations
  obtain ⟨hok, hfields, -⟩ := hvalidate (some (.object sampleEntries)) _ Keypath.root rfl
  have hname : LastDeclared sampleDeclarations ⟨"name", false, .string (some "site") true⟩ :=
    (hmem _).mp (by simp [ofDeclarations_sampleDeclarations])
  have hport : isRequired (ofDeclarations sampleDeclarations) "port" = true :=
    (hrequired _).mpr ⟨.integer none none, (hmem _).mp (by simp [ofDeclarations_sampleDeclarations])⟩
  obtain ⟨v, hv⟩ := hok.mpr fun field hfield => by
    have hdeclared := (hmem field).mpr hfield
    rw [ofDeclarations_sampleDeclarations] at hdeclared
    simp only [List.mem_cons, List.not_mem_nil, or_false] at hdeclared
    rcases hdeclared with rfl | rfl | rfl <;> exact ⟨_, rfl⟩
  obtain ⟨w, hw, hentry⟩ := hfields v hv _ hname
  cases hw
  exact ⟨rfl, rfl, hport, hname, v, hv, hentry⟩

end Sample

end Validator

end SiteConfig

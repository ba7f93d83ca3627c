import SiteConfig.Proofs.Options
/-!
# Inputs that a validator cannot tell apart

A validator sees of an object what the declared fields see of their values, and the undeclared
entries. A declared field that is null may therefore as well be missing; an undeclared null is kept.
-/
namespace SiteConfig

theorem Reported.andThen_congr {ε α β : Type} {x : Reported ε α} {f g : α → Reported ε β}
    (h : ∀ a, x.result = .ok a → f a = g a) : x.andThen f = x.andThen g := by
  unfold Reported.andThen
  cases hresult : x.result with
  | error e => rfl
  | ok a => simp only [h a hresult]

namespace Object

/-- The entries with those of a key changed, or removed where nothing is left of the value. -/
def alter (key : String) (change : Value → Option Value) (entries : Object) : Object :=
  entries.filterMap fun (name, v) =>
    if name = key then (change v).map (name, ·) else some (name, v)

variable {key name : String} {change : Value → Option Value}

theorem keys_alter_sublist (key : String) (change : Value → Option Value) (entries : Object) :
    (keys (alter key change entries)).Sublist (keys entries) := by
  induction entries with
  | nil => exact List.Sublist.refl _
  | cons entry rest ih =>
    obtain ⟨k, v⟩ := entry
    by_cases hk : k = key
    · cases hv : change v with
      | none => simpa [alter, keys, hk, hv] using ih.cons key
      | some w => simpa [alter, keys, hk, hv] using ih.cons_cons key
    · simpa [alter, keys, hk] using ih.cons_cons k

theorem find?_alter_of_ne (h : key ≠ name) (entries : Object) :
    find? name (alter key change entries) = find? name entries := by
  induction entries with
  | nil => rfl
  | cons entry rest ih =>
    obtain ⟨k, v⟩ := entry
    rw [alter] at ih
    by_cases hk : k = key
    · have hkname : k ≠ name := hk ▸ h
      cases hv : change v with
      | none => simpa [alter, hk, hv, find?, h] using ih
      | some w => simpa [alter, hk, hv, find?, h] using ih
    · simp [alter, hk, find?, ih]

theorem find?_alter_self {entries : Object} (h : (keys entries).Nodup) :
    find? key (alter key change entries) = (find? key entries).bind change := by
  induction entries with
  | nil => rfl
  | cons entry rest ih =>
    obtain ⟨k, v⟩ := entry
    obtain ⟨hfresh, hrest⟩ := List.nodup_cons.mp h
    by_cases hk : k = key
    · subst hk
      cases hv : change v with
      | none =>
        have hnone := (find?_eq_none_iff k rest).mpr hfresh
        have htail := ih hrest
        rw [hnone, alter] at htail
        simpa [alter, hv, find?] using htail
      | some w => simp [alter, hv, find?]
    · have htail := ih hrest
      rw [alter] at htail
      simpa [alter, hk, find?] using htail

theorem without_alter {names : List String} (h : key ∈ names) (entries : Object) :
    without names (alter key change entries) = without names entries := by
  induction entries with
  | nil => rfl
  | cons entry rest ih =>
    obtain ⟨k, v⟩ := entry
    simp only [alter, without] at ih
    by_cases hk : k = key
    · subst hk
      cases hv : change v with
      | none => simpa [alter, without, hv, h] using ih
      | some w => simpa [alter, without, hv, h] using ih
    · by_cases hmem : k ∈ names
      · simpa [alter, without, hk, hmem] using ih
      · simpa [alter, without, hk, hmem] using ih

end Object

namespace Validator

/-- Two inputs that a validator cannot tell apart: both are present or none is, and at every
location they give the same result with the same events. -/
structure Alike (validator : Validator) (raw raw' : Option Value) : Prop where
  isSome_present : (present raw).isSome = (present raw').isSome
  validate_eq : ∀ keypath, validator.validate raw keypath = validator.validate raw' keypath

section Alike

variable {validator : Validator} {raw raw' : Option Value} {fields : Schema}
  {entries entries' : Object}

theorem Alike.refl (validator : Validator) (raw : Option Value) : Alike validator raw raw :=
  ⟨rfl, fun _ => rfl⟩

theorem alike_of_present (h : present raw = present raw') : Alike validator raw raw' := by
  refine ⟨by rw [h], fun keypath => ?_⟩
  cases validator with
  | string default allowEmpty => simp only [validate, validateString, h]
  | number default => simp only [validate, validateNumber, h]
  | boolean default => simp only [validate, validateBoolean, h]
  | integer default range => simp only [validate, validateInteger, h]
  | object fields => simp only [validate, h]

theorem validateFields_alike (h : ∀ field ∈ fields, Alike field.validator
    (Object.find? field.name entries) (Object.find? field.name entries')) (keypath : Keypath) :
    validateFields fields entries keypath = validateFields fields entries' keypath := by
  induction fields with
  | nil => simp only [validateFields]
  | cons field rest ih =>
    obtain ⟨hfield, hrest⟩ := List.forall_mem_cons.mp h
    have hmissing : (present (Object.find? field.name entries)).isNone =
        (present (Object.find? field.name entries')).isNone := by
      rw [← Option.not_isSome, ← Option.not_isSome, hfield.isSome_present]
    simp only [validateFields, hmissing, hfield.validate_eq, ih hrest]

/-- Objects are alike if their declared fields are and all else is the same. -/
theorem Alike.object (h : ∀ field ∈ fields, Alike field.validator
    (Object.find? field.name entries) (Object.find? field.name entries'))
    (hrest : Object.without (Schema.names fields) entries =
      Object.without (Schema.names fields) entries') :
    Alike (.object fields) (some (.object entries)) (some (.object entries')) := by
  refine ⟨rfl, fun keypath => ?_⟩
  simp only [validate, present]
  rw [validateFields_alike h]
  apply Reported.andThen_congr
  intro declared hpass
  have hkeys : declared.map Prod.fst = Schema.names fields := keys_of_validateFields hpass
  rw [hkeys, hrest]

end Alike

mutual

/-- What is left of a value when the null fields at the given places are removed, down along the
declared fields of objects; nothing of a null that stands at such a place itself. -/
def omitNulls (removed : List String → Bool) : Validator → Value → Option Value
  | .object fields, .object entries => some (.object (omitNullFields removed fields entries))
  | _, .null => if removed [] then none else some .null
  | _, v => some v

def omitNullFields (removed : List String → Bool) : List (Field Validator) → Object → Object
  | [], entries => entries
  | field :: rest, entries =>
    omitNullFields removed rest (Object.alter field.name
      (fun v => omitNulls (fun path => removed (field.name :: path)) field.validator v) entries)

end

section Omitted

variable {removed : List String → Bool} {validator : Validator} {fields : Schema}
  {entries : Object}

theorem omitNulls_null (removed : List String → Bool) (validator : Validator) :
    omitNulls removed validator .null = if removed [] then none else some .null := by
  cases validator <;> rw [omitNulls]

theorem omitNulls_object (removed : List String → Bool) (fields : Schema) (entries : Object) :
    omitNulls removed (.object fields) (.object entries) =
      some (.object (omitNullFields removed fields entries)) := by
  rw [omitNulls]

theorem omitNulls_eq_some {v : Value} (hnull : v ≠ .null)
    (hobject : validator.IsScalar ∨ v.object? = none) : omitNulls removed validator v = some v := by
  unfold omitNulls
  split
  · rcases hobject with h | h <;> cases h
  · exact absurd rfl hnull
  · rfl

theorem find?_omitNullFields_of_not_mem {name : String} (h : name ∉ Schema.names fields)
    (removed : List String → Bool) (entries : Object) :
    Object.find? name (omitNullFields removed fields entries) = Object.find? name entries := by
  induction fields generalizing entries with
  | nil => rw [omitNullFields]
  | cons field rest ih =>
    simp only [Schema.names, List.map_cons, List.mem_cons, not_or] at h
    rw [omitNullFields, ih h.2, Object.find?_alter_of_ne (Ne.symm h.1)]

theorem find?_omitNullFields (hnames : (Schema.names fields).Nodup)
    (hkeys : (Object.keys entries).Nodup) {field : Field Validator} (hfield : field ∈ fields) :
    Object.find? field.name (omitNullFields removed fields entries) =
      (Object.find? field.name entries).bind
        (omitNulls (fun path => removed (field.name :: path)) field.validator) := by
  induction fields generalizing entries with
  | nil => cases hfield
  | cons first rest ih =>
    obtain ⟨hfresh, hrest⟩ := List.nodup_cons.mp hnames
    rw [omitNullFields]
    rcases List.mem_cons.mp hfield with rfl | hmem
    · rw [find?_omitNullFields_of_not_mem hfresh, Object.find?_alter_self hkeys]
    · have hne : first.name ≠ field.name := by
        intro heq
        exact hfresh (heq ▸ List.mem_map_of_mem hmem)
      rw [ih hrest (hkeys.sublist (Object.keys_alter_sublist _ _ _)) hmem,
        Object.find?_alter_of_ne hne]

theorem without_omitNullFields {names : List String} (h : ∀ field ∈ fields, field.name ∈ names)
    (removed : List String → Bool) (entries : Object) :
    Object.without names (omitNullFields removed fields entries) =
      Object.without names entries := by
  induction fields generalizing entries with
  | nil => rw [omitNullFields]
  | cons field rest ih =>
    obtain ⟨hfield, hrest⟩ := List.forall_mem_cons.mp h
    rw [omitNullFields, ih hrest, Object.without_alter hfield]

/-- A value is alike to what is left of it without null fields. -/
theorem alike_omitNulls (h : Declared validator) :
    ∀ {v : Value} (removed : List String → Bool), v.Sorted →
      Alike validator (omitNulls removed validator v) (some v) := by
  have hnull (removed : List String → Bool) (validator : Validator) :
      Alike validator (omitNulls removed validator .null) (some .null) := by
    apply alike_of_present
    rw [omitNulls_null]
    split <;> rfl
  induction h using Declared.induct with
  | scalar validator hscalar =>
    intro v removed _
    by_cases hv : v = .null
    · rw [hv]
      exact hnull removed validator
    · rw [omitNulls_eq_some hv (.inl hscalar)]
      exact .refl _ _
  | object fields _ hnames ih =>
    intro v removed hsorted
    cases v with
    | null => exact hnull removed _
    | object entries =>
      have hkeys := Object.nodup_keys hsorted.1
      rw [omitNulls_object]
      apply Alike.object
      · intro field hfield
        rw [find?_omitNullFields hnames hkeys hfield]
        cases hfind : Object.find? field.name entries with
        | none => exact .refl _ _
        | some w => exact ih field hfield _ (sorted_of_find? hsorted.2 hfind)
      · exact without_omitNullFields (fun field hfield => List.mem_map_of_mem hfield) _ _
    | _ =>
      rw [omitNulls_eq_some]
      · exact .refl _ _
      · simp
      · exact .inr rfl

/-- What is left at a declared place is what its own validator leaves of the value there. -/
theorem subvalue_omitNulls (h : Declared validator) :
    ∀ (raw : Option Value) (removed : List String → Bool), (∀ given ∈ raw, given.Sorted) →
      ∀ {path : List String} {nested : Validator}, At validator path nested →
        subvalue (raw.bind (omitNulls removed validator)) path =
          (subvalue raw path).bind (omitNulls (fun below => removed (path ++ below)) nested) := by
  induction h using Declared.induct with
  | scalar validator hscalar =>
    intro raw removed _ path nested hat
    obtain ⟨rfl, rfl⟩ := hat.of_isScalar hscalar
    simp
  | object fields _ hnames ih =>
    intro raw removed hraw path nested hat
    rcases at_object_iff.mp hat with ⟨rfl, rfl⟩ | ⟨field, hfield, rest, rfl, hinside⟩
    · simp
    · cases raw with
      | none => simp [subvalue_none]
      | some v =>
        have hsorted : v.Sorted := hraw v rfl
        cases v with
        | null =>
          simp only [Option.bind_some, omitNulls_null]
          split <;> rfl
        | object entries =>
          have hgiven : ∀ w ∈ Object.find? field.name entries, w.Sorted :=
            fun w hw => sorted_of_find? hsorted.2 hw
          have hinner := ih field hfield _ (fun below => removed (field.name :: below)) hgiven hinside
          simp only [Option.bind_some, omitNulls_object, subvalue]
          rw [find?_omitNullFields hnames (Object.nodup_keys hsorted.1) hfield, hinner]
          rfl
        | _ =>
          rw [Option.bind_some, omitNulls_eq_some]
          · rfl
          · simp
          · exact .inr rfl

end Omitted

/-- A null input or declared field is read as a missing one: wherever null fields are removed along
the declared fields of objects, the result and the events stay the same. A null under an undeclared
name is kept. -/
theorem validate_omitNulls {validator : Validator} (h : Declared validator) (raw : Option Value)
    (hraw : ∀ given ∈ raw, given.Sorted) :
    (∀ removed : List String → Bool,
      (∀ path nested, At validator path nested → subvalue raw path = some .null →
        removed path = true → subvalue (raw.bind (omitNulls removed validator)) path = none) ∧
      ∀ keypath, validator.validate (raw.bind (omitNulls removed validator)) keypath =
        validator.validate raw keypath) ∧
    ∀ keypath v, (validator.validateField raw keypath).result = .ok v →
      ∀ path fields, At validator path (.object fields) → ∀ name, name ∉ Schema.names fields →
        subvalue raw (path ++ [name]) = some .null →
          subvalue (some v) (path ++ [name]) = some .null := by
  refine ⟨fun removed => ⟨?_, ?_⟩, ?_⟩
  · intro path nested hat hnull hremoved
    rw [subvalue_omitNulls h raw removed hraw hat, hnull, Option.bind_some, omitNulls_null,
      List.append_nil, if_pos hremoved]
  · intro keypath
    cases raw with
    | none => rfl
    | some v => exact (alike_omitNulls h removed (hraw v rfl)).validate_eq keypath
  · intro keypath v hok path fields hat name hname hnull
    rw [(completes_of_validateField h hraw hok).undeclared path fields hat name hname, hnull]

section Sample

def nullsValue : Value := .object [
  ("dev", .object [("open", .null), ("port", .null)]),
  ("extra", .null),
  ("name", .string "site")]

def isOpen (path : List String) : Bool := path == ["dev", "open"]

theorem validate_omitNulls_nullsValue :
    Declared sampleValidator ∧ (∀ given ∈ some nullsValue, given.Sorted) ∧
    (At sampleValidator ["dev", "open"] (.boolean none) ∧
      subvalue (some nullsValue) ["dev", "open"] = some .null ∧ isOpen ["dev", "open"] = true ∧
      subvalue ((some nullsValue).bind (omitNulls isOpen sampleValidator)) ["dev", "open"] = none ∧
      ∀ keypath,
        sampleValidator.validate ((some nullsValue).bind (omitNulls isOpen sampleValidator)) keypath =
          sampleValidator.validate (some nullsValue) keypath) ∧
    ∃ v, (sampleValidator.validateField (some nullsValue) .root).result = .ok v ∧
      subvalue (some nullsValue) ["extra"] = some .null ∧
        subvalue (some v) ["extra"] = some .null := by
  have hsorted : ∀ given ∈ some nullsValue, given.Sorted := by
    rintro given ⟨⟩
    simp only [nullsValue, Value.Sorted, Value.SortedEntries, and_true, Object.keys]
    decide
  have hopen : At sampleValidator ["dev", "open"] (.boolean none) := by
    have hplaces : (["dev", "open"], .boolean none) ∈ scalarPlaces sampleValidator :=
      .tail _ (.tail _ (.head _))
    exact ((mem_scalarPlaces declared_sampleValidator).mp hplaces).1
  obtain ⟨homitted, hkept⟩ :=
    validate_omitNulls declared_sampleValidator (some nullsValue) hsorted
  obtain ⟨hgone, hsame⟩ := homitted isOpen
  exact ⟨declared_sampleValidator, hsorted,
    ⟨hopen, rfl, rfl, hgone _ _ hopen rfl rfl, hsame⟩,
    _, rfl, rfl, hkept .root _ rfl [] _ (.here _) "extra" (by decide) rfl⟩

end Sample

end Validator
end SiteConfig

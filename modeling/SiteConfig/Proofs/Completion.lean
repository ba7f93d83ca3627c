import SiteConfig.Proofs.Fields
/-!
# The completed tree

Validation accepts a tree place by place, and what it returns is the tree with every declared place
filled in and everything undeclared left as it was.
-/
namespace SiteConfig.Validator

/-- Every declared object is missing or an object, every required field is there, and every scalar
validator accepts the value in its place. -/
structure Acceptable (validator : Validator) (raw : Option Value) (keypath : Keypath) : Prop where
  sections : ∀ path fields, At validator path (.object fields) →
    present (subvalue raw path) = none ∨ ∃ entries, subvalue raw path = some (.object entries)
  required : ∀ path fields, At validator path (.object fields) → ∀ field ∈ fields,
    field.required = true → (present (subvalue raw (path ++ [field.name]))).isSome = true
  scalars : ∀ path scalar, At validator path scalar → scalar.IsScalar →
    ∃ w, (scalar.validateField (subvalue raw path) (keypath.descend path)).result = .ok w

def hasDefault : Validator → Bool
  | .string default _ => default.isSome
  | .number default => default.isSome
  | .boolean default => default.isSome
  | .integer default _ => default.isSome
  | .object _ => true

/-- The value holds exactly the declared and the given names at every declared object, what the
scalar validators make of the given values, null for a missing one without a default, and the given
value under every other name. -/
structure Completes (validator : Validator) (raw : Option Value) (keypath : Keypath) (v : Value) :
    Prop where
  sections : ∀ path fields, At validator path (.object fields) →
    ∃ entries, subvalue (some v) path = some (.object entries) ∧
      (Object.keys entries).Pairwise (· < ·) ∧ ∀ name, name ∈ Object.keys entries ↔
        name ∈ Schema.names fields ∨
          ∃ given, subvalue raw path = some (.object given) ∧ name ∈ Object.keys given
  scalars : ∀ path scalar, At validator path scalar → scalar.IsScalar →
    ∃ w, (scalar.validateField (subvalue raw path) (keypath.descend path)).result = .ok w ∧
      subvalue (some v) path = some w
  missing : ∀ path scalar, At validator path scalar → scalar.hasDefault = false →
    present (subvalue raw path) = none → subvalue (some v) path = some .null
  undeclared : ∀ path fields, At validator path (.object fields) →
    ∀ name, name ∉ Schema.names fields →
      subvalue (some v) (path ++ [name]) = subvalue raw (path ++ [name])

section Places

theorem At.of_isScalar {validator nested : Validator} {path : List String}
    (hscalar : validator.IsScalar) (h : At validator path nested) :
    path = [] ∧ nested = validator := by
  cases h with
  | here => exact ⟨rfl, rfl⟩
  | inside hfield h => cases hscalar

theorem At.eq_of_nil {validator nested : Validator} (h : At validator [] nested) :
    nested = validator := by
  cases h
  rfl

theorem at_object_iff {fields : Schema} {path : List String} {nested : Validator} :
    At (.object fields) path nested ↔ (path = [] ∧ nested = .object fields) ∨
      ∃ field ∈ fields, ∃ rest, path = field.name :: rest ∧ At field.validator rest nested := by
  constructor
  · intro h
    cases h with
    | here => exact .inl ⟨rfl, rfl⟩
    | inside hfield h => exact .inr ⟨_, hfield, _, rfl, h⟩
  · rintro (⟨rfl, rfl⟩ | ⟨field, hfield, rest, rfl, h⟩)
    · exact .here _
    · exact .inside hfield h

theorem entriesOf?_of_section {raw : Option Value}
    (h : present raw = none ∨ ∃ entries, raw = some (.object entries)) :
    ∃ entries, entriesOf? raw = some entries := by
  rcases h with h | ⟨entries, rfl⟩
  · exact ⟨[], by simp [entriesOf?, h]⟩
  · exact ⟨entries, rfl⟩

theorem section_of_entriesOf? {raw : Option Value} {entries : Object}
    (h : entriesOf? raw = some entries) :
    present raw = none ∧ entries = [] ∨ raw = some (.object entries) := by
  cases raw with
  | none =>
    cases h
    exact .inl ⟨rfl, rfl⟩
  | some v =>
    cases v with
    | null =>
      cases h
      exact .inl ⟨rfl, rfl⟩
    | object entries' =>
      cases h
      exact .inr rfl
    | _ => cases h

theorem mem_keys_entriesOf? {raw : Option Value} {entries : Object}
    (h : entriesOf? raw = some entries) (name : String) :
    name ∈ Object.keys entries ↔
      ∃ given, raw = some (.object given) ∧ name ∈ Object.keys given := by
  rcases section_of_entriesOf? h with ⟨hmissing, rfl⟩ | rfl
  · constructor
    · intro hname
      cases hname
    · rintro ⟨given, rfl, -⟩
      cases hmissing
  · simp

theorem sorted_of_find? {entries : Object} (h : Value.SortedEntries entries) {name : String}
    {v : Value} (hfind : Object.find? name entries = some v) : v.Sorted := by
  induction entries with
  | nil => cases hfind
  | cons entry rest ih =>
    obtain ⟨k, w⟩ := entry
    by_cases hk : k = name
    · simp only [Object.find?, hk, if_true, Option.some.injEq] at hfind
      exact hfind ▸ h.1
    · simp only [Object.find?, hk, if_false] at hfind
      exact ih h.2 hfind

theorem sorted_entriesOf? {raw : Option Value} (hraw : ∀ given ∈ raw, given.Sorted)
    {entries : Object} (h : entriesOf? raw = some entries) :
    (Object.keys entries).Pairwise (· < ·) ∧
      ∀ name, ∀ v ∈ Object.find? name entries, v.Sorted := by
  rcases section_of_entriesOf? h with ⟨-, rfl⟩ | rfl
  · exact ⟨List.Pairwise.nil, fun name v hv => by cases hv⟩
  · have hsorted : Value.Sorted (.object entries) := hraw _ rfl
    exact ⟨hsorted.1, fun name v hv => sorted_of_find? hsorted.2 hv⟩

end Places

section Acceptance

theorem acceptable_scalar_iff {validator : Validator} (hscalar : validator.IsScalar)
    (raw : Option Value) (keypath : Keypath) :
    Acceptable validator raw keypath ↔
      ∃ w, (validator.validateField raw keypath).result = .ok w := by
  have hobject : ∀ path fields, ¬At validator path (.object fields) := by
    intro path fields h
    obtain ⟨-, rfl⟩ := h.of_isScalar hscalar
    exact hscalar
  constructor
  · intro h
    simpa [subvalue] using h.scalars [] validator (.here validator) hscalar
  · intro hok
    refine ⟨fun path fields h => absurd h (hobject path fields),
      fun path fields h => absurd h (hobject path fields), ?_⟩
    intro path scalar h _
    obtain ⟨rfl, rfl⟩ := h.of_isScalar hscalar
    simpa [subvalue] using hok

theorem acceptable_object_iff (fields : Schema) (raw : Option Value) (keypath : Keypath) :
    Acceptable (.object fields) raw keypath ↔ ∃ entries, entriesOf? raw = some entries ∧
      ∀ field ∈ fields,
        (field.required = true → (present (Object.find? field.name entries)).isSome = true) ∧
          Acceptable field.validator (Object.find? field.name entries)
            (keypath.child field.name) := by
  constructor
  · intro h
    obtain ⟨entries, hentries⟩ := entriesOf?_of_section (h.sections [] fields (.here _))
    rw [subvalue_nil] at hentries
    refine ⟨entries, hentries, fun field hfield => ⟨fun hrequired => ?_, ?_⟩⟩
    · have hpresent := h.required [] fields (.here _) field hfield hrequired
      rwa [List.nil_append, subvalue_cons hentries, subvalue_nil] at hpresent
    · constructor
      · intro path nested hat
        have hsection := h.sections _ nested (.inside hfield hat)
        rwa [subvalue_cons hentries] at hsection
      · intro path nested hat inner hinner hrequired
        have hpresent := h.required _ nested (.inside hfield hat) inner hinner hrequired
        rwa [List.cons_append, subvalue_cons hentries] at hpresent
      · intro path scalar hat hscalar
        have hok := h.scalars _ scalar (.inside hfield hat) hscalar
        rwa [subvalue_cons hentries, ← Keypath.descend_child] at hok
  · rintro ⟨entries, hentries, hfields⟩
    constructor
    · intro path nested hat
      rcases at_object_iff.mp hat with ⟨rfl, -⟩ | ⟨field, hfield, rest, rfl, hinside⟩
      · rcases section_of_entriesOf? hentries with ⟨hmissing, -⟩ | hobject
        · exact .inl (by rwa [subvalue_nil])
        · exact .inr ⟨entries, by rwa [subvalue_nil]⟩
      · rw [subvalue_cons hentries]
        exact (hfields field hfield).2.sections rest nested hinside
    · intro path nested hat inner hinner hrequired
      rcases at_object_iff.mp hat with ⟨rfl, hnested⟩ | ⟨field, hfield, rest, rfl, hinside⟩
      · cases hnested
        rw [List.nil_append, subvalue_cons hentries, subvalue_nil]
        exact (hfields inner hinner).1 hrequired
      · rw [List.cons_append, subvalue_cons hentries]
        exact (hfields field hfield).2.required rest nested hinside inner hinner hrequired
    · intro path scalar hat hscalar
      rcases at_object_iff.mp hat with ⟨-, rfl⟩ | ⟨field, hfield, rest, rfl, hinside⟩
      · cases hscalar
      · rw [subvalue_cons hentries, ← Keypath.descend_child]
        exact (hfields field hfield).2.scalars rest scalar hinside hscalar

/-- Validation succeeds exactly on the acceptable values. -/
theorem exists_validateField_iff {validator : Validator} (h : Declared validator) :
    ∀ raw keypath, (∃ v, (validator.validateField raw keypath).result = .ok v) ↔
      Acceptable validator raw keypath := by
  induction h using Declared.induct with
  | scalar validator hscalar =>
    intro raw keypath
    exact (acceptable_scalar_iff hscalar raw keypath).symm
  | object fields _ _ ih =>
    intro raw keypath
    rw [acceptable_object_iff]
    cases hentries : entriesOf? raw with
    | none =>
      obtain ⟨other, -, herror⟩ := validateField_object_of_none hentries fields keypath
      simp [herror]
    | some entries =>
      have hfields : (∃ v, (validateField (.object fields) raw keypath).result = .ok v) ↔
          ∀ field ∈ fields, ∃ v, outcome entries keypath field = .ok v := by
        rw [validateField_object hentries, ← exists_validateFields_iff]
        cases (validateFields fields entries keypath).result <;> simp [Except.map]
      rw [hfields]
      simp only [Option.some.injEq, exists_eq_left', outcome_eq_ok_iff, exists_and_left]
      constructor
      · intro h field hfield
        exact ⟨(h field hfield).1, (ih field hfield _ _).mp (h field hfield).2⟩
      · intro h field hfield
        exact ⟨(h field hfield).1, (ih field hfield _ _).mpr (h field hfield).2⟩

end Acceptance

section Completeness

variable {raw : Option Value} {keypath : Keypath} {v : Value}

private theorem not_at_object {validator : Validator} (hscalar : validator.IsScalar)
    (path : List String) (fields : Schema) : ¬At validator path (.object fields) := by
  intro h
  obtain ⟨-, rfl⟩ := h.of_isScalar hscalar
  exact hscalar

theorem validateField_missing {validator : Validator} (hdefault : validator.hasDefault = false)
    (hmissing : present raw = none) : (validator.validateField raw keypath).result = .ok .null := by
  cases validator with
  | string default allowEmpty =>
    have hnone : default = none := by simpa [hasDefault] using hdefault
    simp [validateField_string, validateString, hmissing, hnone, Except.map]
  | number default =>
    have hnone : default = none := by simpa [hasDefault] using hdefault
    simp [validateField_number, validateNumber, hmissing, hnone, Except.map]
  | boolean default =>
    have hnone : default = none := by simpa [hasDefault] using hdefault
    simp [validateField_boolean, validateBoolean, hmissing, hnone, Except.map]
  | integer default range =>
    have hnone : default = none := by simpa [hasDefault] using hdefault
    simp [validateField_integer, validateInteger, hmissing, hnone, Except.map]
  | object fields => cases hdefault

theorem completes_scalar {validator : Validator} (hscalar : validator.IsScalar)
    (h : (validator.validateField raw keypath).result = .ok v) :
    Completes validator raw keypath v := by
  refine ⟨fun path fields hat => absurd hat (not_at_object hscalar path fields), ?_, ?_,
    fun path fields hat => absurd hat (not_at_object hscalar path fields)⟩
  · intro path nested hat _
    obtain ⟨rfl, rfl⟩ := hat.of_isScalar hscalar
    exact ⟨v, by simpa using h, by simp⟩
  · intro path nested hat hdefault hmissing
    obtain ⟨rfl, rfl⟩ := hat.of_isScalar hscalar
    rw [subvalue_nil] at hmissing ⊢
    rw [validateField_missing hdefault hmissing] at h
    cases h
    rfl

theorem completes_object {fields : Schema} {entries declared : Object}
    (hentries : entriesOf? raw = some entries) (hascending : (Object.keys entries).Pairwise (· < ·))
    (hkeys : Object.keys declared = Schema.names fields) (hnodup : (Schema.names fields).Nodup)
    (hfields : ∀ field ∈ fields, ∃ w, (field.name, w) ∈ declared ∧
      Completes field.validator (Object.find? field.name entries) (keypath.child field.name) w) :
    Completes (.object fields) raw keypath (.object (completed declared entries)) := by
  have hdistinct : (Object.keys declared).Nodup := hkeys ▸ hnodup
  have hinside : ∀ field ∈ fields, ∃ w,
      Completes field.validator (Object.find? field.name entries) (keypath.child field.name) w ∧
        ∀ path, subvalue (some (.object (completed declared entries))) (field.name :: path) =
          subvalue (some w) path := by
    intro field hfield
    obtain ⟨w, hmem, hcompletes⟩ := hfields field hfield
    refine ⟨w, hcompletes, fun path => ?_⟩
    rw [subvalue, find?_completed_of_mem hdistinct hmem]
  constructor
  · intro path nested hat
    rcases at_object_iff.mp hat with ⟨rfl, hnested⟩ | ⟨field, hfield, rest, rfl, hbelow⟩
    · cases hnested
      refine ⟨completed declared entries, by rw [subvalue_nil], pairwise_keys_completed _ _, ?_⟩
      intro name
      rw [mem_keys_completed, hkeys, subvalue_nil, mem_keys_entriesOf? hentries]
    · obtain ⟨w, hcompletes, hsubvalue⟩ := hinside field hfield
      rw [hsubvalue, subvalue_cons hentries]
      exact hcompletes.sections rest nested hbelow
  · intro path scalar hat hscalar
    rcases at_object_iff.mp hat with ⟨-, rfl⟩ | ⟨field, hfield, rest, rfl, hbelow⟩
    · cases hscalar
    · obtain ⟨w, hcompletes, hsubvalue⟩ := hinside field hfield
      rw [hsubvalue, subvalue_cons hentries, ← Keypath.descend_child]
      exact hcompletes.scalars rest scalar hbelow hscalar
  · intro path scalar hat hdefault hmissing
    rcases at_object_iff.mp hat with ⟨-, rfl⟩ | ⟨field, hfield, rest, rfl, hbelow⟩
    · cases hdefault
    · obtain ⟨w, hcompletes, hsubvalue⟩ := hinside field hfield
      rw [subvalue_cons hentries] at hmissing
      rw [hsubvalue]
      exact hcompletes.missing rest scalar hbelow hdefault hmissing
  · intro path nested hat name hname
    rcases at_object_iff.mp hat with ⟨rfl, hnested⟩ | ⟨field, hfield, rest, rfl, hbelow⟩
    · cases hnested
      rw [List.nil_append, subvalue_cons hentries, subvalue_nil, subvalue, subvalue_nil,
        find?_completed hdistinct, if_neg (hkeys ▸ hname),
        Object.find?_reverse (Object.nodup_keys hascending)]
    · obtain ⟨w, hcompletes, hsubvalue⟩ := hinside field hfield
      rw [List.cons_append, hsubvalue, subvalue_cons hentries]
      exact hcompletes.undeclared rest nested hbelow name hname

theorem completes_of_validateField {validator : Validator} (h : Declared validator) :
    ∀ {raw keypath v}, (∀ given ∈ raw, given.Sorted) →
      (validator.validateField raw keypath).result = .ok v →
        Completes validator raw keypath v := by
  induction h using Declared.induct with
  | scalar validator hscalar =>
    intro raw keypath v _ hok
    exact completes_scalar hscalar hok
  | object fields _ hnodup ih =>
    intro raw keypath v hsorted hok
    obtain ⟨entries, declared, hentries, hpass, rfl⟩ := exists_completed_of_validateField hok
    obtain ⟨hascending, hinner⟩ := sorted_entriesOf? hsorted hentries
    refine completes_object hentries hascending (keys_of_validateFields hpass) hnodup ?_
    intro field hfield
    obtain ⟨w, hw, hmem⟩ := mem_of_validateFields hpass hfield
    refine ⟨w, hmem, ih field hfield ?_ (outcome_eq_ok_iff.mp hw).2⟩
    exact fun given hgiven => hinner field.name given hgiven

end Completeness

/-- Validation succeeds exactly on the acceptable values, and returns the completed ones. -/
theorem validateField_completes {validator : Validator} (h : Declared validator)
    (raw : Option Value) (hraw : ∀ given ∈ raw, given.Sorted) (keypath : Keypath) :
    ((∃ v, (validator.validateField raw keypath).result = .ok v) ↔
      Acceptable validator raw keypath) ∧
    ∀ v, (validator.validateField raw keypath).result = .ok v →
      Completes validator raw keypath v :=
  ⟨exists_validateField_iff h raw keypath, fun _ => completes_of_validateField h hraw⟩

section Sample

def sampleValidator : Validator := .object (Schema.ofDeclarations [
  ("!name", .string none false),
  ("dev", .object (Schema.ofDeclarations [
    ("port", .integer (some ⟨5173, by decide⟩) (some (0, 65535))),
    ("open", .boolean none)]))])

def sampleValue : Value :=
  .object [("dev", .null), ("name", .string "site"), ("plugins", .array [.null])]

def sampleCompleted : Value := .object [
  ("dev", .object [("open", .null), ("port", .number (.integer ⟨5173, by decide⟩))]),
  ("name", .string "site"),
  ("plugins", .array [.null])]

theorem declared_sampleValidator : Declared sampleValidator := by
  refine .object fun declaration hmem => ?_
  simp only [List.mem_cons, List.not_mem_nil, or_false] at hmem
  rcases hmem with rfl | rfl
  · exact .scalar trivial
  · refine .object fun declaration hmem => ?_
    simp only [List.mem_cons, List.not_mem_nil, or_false] at hmem
    rcases hmem with rfl | rfl <;> exact .scalar trivial

theorem validateField_completes_sampleValue :
    Declared sampleValidator ∧ (∀ given ∈ some sampleValue, given.Sorted) ∧
      (sampleValidator.validateField (some sampleValue) .root).result = .ok sampleCompleted ∧
        Completes sampleValidator (some sampleValue) .root sampleCompleted := by
  have hsorted : ∀ given ∈ some sampleValue, given.Sorted := by
    rintro given ⟨⟩
    simp only [sampleValue, Value.Sorted, Value.SortedItems, Value.SortedEntries, and_true,
      Object.keys]
    decide
  have hok : (sampleValidator.validateField (some sampleValue) .root).result =
      .ok sampleCompleted := rfl
  exact ⟨declared_sampleValidator, hsorted, hok,
    (validateField_completes declared_sampleValidator (some sampleValue) hsorted .root).2 _ hok⟩

end Sample

end SiteConfig.Validator

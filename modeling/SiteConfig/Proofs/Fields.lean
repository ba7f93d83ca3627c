import SiteConfig.Proofs.Objects
import SiteConfig.Proofs.Schemas
import SiteConfig.Validator.Object
/-!
# Objects field by field

What one pass over an object does: it succeeds if every declared field does, it stops at the first
field that does not, and the completed object holds the declared values beside the other entries.
-/
namespace SiteConfig.Validator

/-- The entries that an object validator reads: those of an object, none of a missing value. -/
def entriesOf? (raw : Option Value) : Option Object :=
  match present raw with
  | none => some []
  | some (.object entries) => some entries
  | some _ => none

def outcome (entries : Object) (keypath : Keypath) (field : Field Validator) :
    Except Violation Value :=
  if field.required && (present (Object.find? field.name entries)).isNone then
    .error (.missingRequired (keypath.child field.name))
  else
    (validateField field.validator (Object.find? field.name entries)
      (keypath.child field.name)).result

/-- The declared values with the entries of other names. -/
def completed (declared entries : Object) : Object :=
  Object.ofEntries (declared ++ Object.without (Object.keys declared) entries)

section Subvalues

@[simp] theorem subvalue_nil (raw : Option Value) : subvalue raw [] = raw := by
  rw [subvalue]

theorem subvalue_none (path : List String) : subvalue none path = none := by
  cases path <;> rfl

theorem subvalue_cons {raw : Option Value} {entries : Object} (h : entriesOf? raw = some entries)
    (name : String) (path : List String) :
    subvalue raw (name :: path) = subvalue (Object.find? name entries) path := by
  cases raw with
  | none =>
    cases h
    exact (subvalue_none path).symm
  | some v =>
    cases v with
    | null =>
      cases h
      exact (subvalue_none path).symm
    | object entries' =>
      cases h
      rfl
    | _ => cases h

theorem exists_object_of_subvalue {raw : Option Value} {v : Value} {path : List String}
    (hpath : path ≠ []) (h : subvalue raw path = some v) :
    ∃ entries, raw = some (.object entries) := by
  obtain ⟨name, rest, rfl⟩ := List.exists_cons_of_ne_nil hpath
  cases raw with
  | none => cases h
  | some found =>
    cases found with
    | object entries => exact ⟨entries, rfl⟩
    | _ => cases h

end Subvalues

section Results

variable {ε α β : Type}

theorem result_andThen (x : Reported ε α) (f : α → Reported ε β) :
    (x.andThen f).result = x.result.bind fun a => (f a).result := by
  unfold Reported.andThen
  cases x.result <;> rfl

end Results

section Scalars

variable (raw : Option Value) (keypath : Keypath)

theorem validateField_eq (validator : Validator) :
    (validator.validateField raw keypath).result =
      (validator.validate raw keypath).result.map Output.toValue := by
  rw [validateField, result_andThen]
  cases (validator.validate raw keypath).result <;> rfl

theorem validateField_string (default : Option String) (allowEmpty : Bool) :
    (validateField (.string default allowEmpty) raw keypath).result =
      (validateString default allowEmpty raw keypath).map fun s => s.elim .null .string := by
  rw [validateField_eq, validate]
  cases validateString default allowEmpty raw keypath <;> rfl

theorem validateField_number (default : Option Binary64) :
    (validateField (.number default) raw keypath).result =
      (validateNumber default raw keypath).map fun x => x.elim .null floatValue := by
  rw [validateField_eq, validate]
  cases validateNumber default raw keypath <;> rfl

theorem validateField_boolean (default : Option Bool) :
    (validateField (.boolean default) raw keypath).result =
      (validateBoolean default raw keypath).map fun b => b.elim .null .bool := by
  rw [validateField_eq, validate]
  cases validateBoolean default raw keypath <;> rfl

theorem validateField_integer (default : Option Signed64) (range : Option (Int × Int)) :
    (validateField (.integer default range) raw keypath).result =
      (validateInteger default range raw keypath).map fun n =>
        n.elim .null fun n => .number (.ofSigned n) := by
  rw [validateField_eq, validate]
  cases validateInteger default range raw keypath <;> rfl

end Scalars

section OneObject

variable {fields : Schema} {entries : Object} {keypath : Keypath}

theorem outcome_eq_ok_iff {field : Field Validator} {v : Value} :
    outcome entries keypath field = .ok v ↔
      (field.required = true → (present (Object.find? field.name entries)).isSome = true) ∧
        (validateField field.validator (Object.find? field.name entries)
          (keypath.child field.name)).result = .ok v := by
  unfold outcome
  cases field.required <;> cases present (Object.find? field.name entries) <;> simp

theorem validateFields_nil : (validateFields [] entries keypath).result = .ok [] := by
  rw [validateFields]

theorem validateFields_cons (field : Field Validator) (rest : Schema) (entries : Object)
    (keypath : Keypath) :
    (validateFields (field :: rest) entries keypath).result =
      (outcome entries keypath field).bind fun v =>
        (validateFields rest entries keypath).result.map fun values =>
          (field.name, v) :: values := by
  rw [validateFields, outcome]
  split
  · rfl
  · simp only [result_andThen, validateField]
    cases (field.validator.validate (Object.find? field.name entries)
      (keypath.child field.name)).result with
    | error e => rfl
    | ok output => cases (validateFields rest entries keypath).result <;> rfl

theorem validateFields_cons_eq_ok {field : Field Validator} {rest : Schema} {values : Object} :
    (validateFields (field :: rest) entries keypath).result = .ok values ↔
      ∃ v others, outcome entries keypath field = .ok v ∧
        (validateFields rest entries keypath).result = .ok others ∧
          values = (field.name, v) :: others := by
  rw [validateFields_cons]
  cases outcome entries keypath field with
  | error e => simp [Except.bind]
  | ok v =>
    cases (validateFields rest entries keypath).result with
    | error e => simp [Except.bind, Except.map]
    | ok others => simp [Except.bind, Except.map, eq_comm]

theorem validateFields_cons_eq_error {field : Field Validator} {rest : Schema} {e : Violation} :
    (validateFields (field :: rest) entries keypath).result = .error e ↔
      outcome entries keypath field = .error e ∨
        (∃ v, outcome entries keypath field = .ok v) ∧
          (validateFields rest entries keypath).result = .error e := by
  rw [validateFields_cons]
  cases outcome entries keypath field with
  | error e => simp [Except.bind]
  | ok v =>
    cases (validateFields rest entries keypath).result with
    | error e => simp [Except.bind, Except.map]
    | ok others => simp [Except.bind, Except.map]

theorem keys_of_validateFields {values : Object}
    (h : (validateFields fields entries keypath).result = .ok values) :
    Object.keys values = Schema.names fields := by
  induction fields generalizing values with
  | nil =>
    rw [validateFields_nil] at h
    cases h
    rfl
  | cons field rest ih =>
    obtain ⟨v, others, -, hothers, rfl⟩ := validateFields_cons_eq_ok.mp h
    simpa [Object.keys, Schema.names] using ih hothers

theorem mem_of_validateFields {values : Object}
    (h : (validateFields fields entries keypath).result = .ok values) {field : Field Validator}
    (hfield : field ∈ fields) :
    ∃ v, outcome entries keypath field = .ok v ∧ (field.name, v) ∈ values := by
  induction fields generalizing values with
  | nil => cases hfield
  | cons first rest ih =>
    obtain ⟨v, others, hfirst, hothers, rfl⟩ := validateFields_cons_eq_ok.mp h
    rcases List.mem_cons.mp hfield with rfl | hrest
    · exact ⟨v, hfirst, List.mem_cons_self⟩
    · obtain ⟨w, hw, hmem⟩ := ih hothers hrest
      exact ⟨w, hw, List.mem_cons_of_mem _ hmem⟩

/-- The pass succeeds if every declared field does. -/
theorem exists_validateFields_iff (fields : Schema) (entries : Object) (keypath : Keypath) :
    (∃ values, (validateFields fields entries keypath).result = .ok values) ↔
      ∀ field ∈ fields, ∃ v, outcome entries keypath field = .ok v := by
  constructor
  · rintro ⟨values, h⟩ field hfield
    obtain ⟨v, hv, -⟩ := mem_of_validateFields h hfield
    exact ⟨v, hv⟩
  · intro h
    induction fields with
    | nil => exact ⟨[], validateFields_nil⟩
    | cons first rest ih =>
      obtain ⟨v, hv⟩ := h first List.mem_cons_self
      obtain ⟨others, hothers⟩ := ih fun field hfield => h field (List.mem_cons_of_mem _ hfield)
      exact ⟨_, validateFields_cons_eq_ok.mpr ⟨v, others, hv, hothers, rfl⟩⟩

/-- The pass stops at the first declared field that fails. -/
theorem validateFields_eq_error {e : Violation}
    (h : (validateFields fields entries keypath).result = .error e) :
    ∃ before field behind, fields = before ++ field :: behind ∧
      (∀ earlier ∈ before, ∃ v, outcome entries keypath earlier = .ok v) ∧
        outcome entries keypath field = .error e := by
  induction fields with
  | nil =>
    rw [validateFields_nil] at h
    cases h
  | cons first rest ih =>
    rcases validateFields_cons_eq_error.mp h with hfirst | ⟨hfirst, hrest⟩
    · exact ⟨[], first, rest, rfl, by simp, hfirst⟩
    · obtain ⟨before, field, behind, rfl, hbefore, hfield⟩ := ih hrest
      refine ⟨first :: before, field, behind, rfl, ?_, hfield⟩
      intro earlier hearlier
      rcases List.mem_cons.mp hearlier with rfl | hmem
      · exact hfirst
      · exact hbefore earlier hmem

theorem validateFields_congr {entries' : Object} {keypath' : Keypath}
    (h : ∀ field ∈ fields, outcome entries keypath field = outcome entries' keypath' field) :
    (validateFields fields entries keypath).result =
      (validateFields fields entries' keypath').result := by
  induction fields with
  | nil => rw [validateFields_nil, validateFields_nil]
  | cons first rest ih =>
    rw [validateFields_cons, validateFields_cons, h first List.mem_cons_self,
      ih fun field hfield => h field (List.mem_cons_of_mem _ hfield)]

theorem validateField_object {raw : Option Value} (h : entriesOf? raw = some entries)
    (fields : Schema) (keypath : Keypath) :
    (validateField (.object fields) raw keypath).result =
      (validateFields fields entries keypath).result.map fun declared =>
        .object (completed declared entries) := by
  rw [entriesOf?] at h
  rw [validateField_eq, validate]
  cases hpresent : present raw with
  | none =>
    rw [hpresent] at h
    cases h
    simp only [result_andThen]
    cases (validateFields fields [] keypath).result with
    | error e => rfl
    | ok declared => simp [Except.bind, Except.map, Output.toValue, completed, Object.without]
  | some value =>
    rw [hpresent] at h
    cases value with
    | object given =>
      cases h
      simp only [result_andThen]
      cases (validateFields fields entries keypath).result <;> rfl
    | _ => cases h

theorem validateField_object_of_none {raw : Option Value} (h : entriesOf? raw = none)
    (fields : Schema) (keypath : Keypath) :
    ∃ other, present raw = some other ∧ (validateField (.object fields) raw keypath).result =
      .error (.typeMismatch keypath .object other.kind) := by
  rw [entriesOf?] at h
  rw [validateField_eq, validate]
  cases hpresent : present raw with
  | none =>
    rw [hpresent] at h
    cases h
  | some value =>
    rw [hpresent] at h
    refine ⟨value, rfl, ?_⟩
    cases value with
    | object given => cases h
    | _ => rfl

theorem exists_completed_of_validateField {raw : Option Value} {v : Value}
    (h : (validateField (.object fields) raw keypath).result = .ok v) :
    ∃ entries declared, entriesOf? raw = some entries ∧
      (validateFields fields entries keypath).result = .ok declared ∧
        v = .object (completed declared entries) := by
  cases hentries : entriesOf? raw with
  | none =>
    obtain ⟨other, -, herror⟩ := validateField_object_of_none hentries fields keypath
    rw [herror] at h
    cases h
  | some entries =>
    rw [validateField_object hentries] at h
    cases hpass : (validateFields fields entries keypath).result with
    | error e =>
      rw [hpass] at h
      cases h
    | ok declared =>
      rw [hpass] at h
      exact ⟨entries, declared, rfl, hpass, (Except.ok.inj h).symm⟩

end OneObject

section Completed

theorem pairwise_keys_completed (declared entries : Object) :
    (Object.keys (completed declared entries)).Pairwise (· < ·) :=
  Object.pairwise_keys_ofEntries _

theorem mem_keys_completed {name : String} {declared entries : Object} :
    name ∈ Object.keys (completed declared entries) ↔
      name ∈ Object.keys declared ∨ name ∈ Object.keys entries := by
  rw [completed, Object.mem_keys_ofEntries, Object.keys_append, List.mem_append,
    ← Object.exists_find?_iff name (Object.without _ _), Object.find?_without]
  by_cases hname : name ∈ Object.keys declared
  · simp [hname]
  · simp [hname, Object.exists_find?_iff]

/-- A declared name holds its declared value, another what the entries hold under it. -/
theorem find?_completed {declared : Object} (h : (Object.keys declared).Nodup) (name : String)
    (entries : Object) :
    Object.find? name (completed declared entries) =
      if name ∈ Object.keys declared then Object.find? name declared
      else Object.find? name entries.reverse := by
  have hreverse : (Object.without (Object.keys declared) entries).reverse =
      Object.without (Object.keys declared) entries.reverse := by
    simp [Object.without]
  rw [completed, Object.find?_ofEntries, List.reverse_append, Object.find?_append, hreverse,
    Object.find?_without, Object.find?_reverse h]
  by_cases hname : name ∈ Object.keys declared
  · simp [hname]
  · have hnone := (Object.find?_eq_none_iff name declared).mpr hname
    simp [hname, hnone]

theorem find?_completed_of_mem {declared : Object} (h : (Object.keys declared).Nodup)
    {name : String} {v : Value} (hmem : (name, v) ∈ declared) (entries : Object) :
    Object.find? name (completed declared entries) = some v := by
  have hname : name ∈ Object.keys declared := List.mem_map_of_mem hmem
  rw [find?_completed h, if_pos hname, Object.find?_of_mem h hmem]

end Completed

end SiteConfig.Validator

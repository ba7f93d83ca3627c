import SiteConfig.Proofs.Completion
import Mathlib.Data.List.Nodup
/-!
# The first violation

A failed validation names the first place, in the order of declaration, at which the value breaks a
constraint. Where the validation starts only decides what stands in front of that place.
-/
namespace SiteConfig

def Violation.relocate (violation : Violation) (keypath : Keypath) : Violation :=
  match violation with
  | .typeMismatch _ expected found => .typeMismatch keypath expected found
  | .invalidValue _ flaw => .invalidValue keypath flaw
  | .missingRequired _ => .missingRequired keypath

@[simp] theorem Keypath.descend_singleton (keypath : Keypath) (name : String) :
    keypath.descend [name] = keypath.child name := rfl

namespace Schema

theorem before_unique {before before' behind behind' : Schema} {field field' : Field Validator}
    (h : (names (before ++ field :: behind)).Nodup)
    (heq : before ++ field :: behind = before' ++ field' :: behind')
    (hname : field'.name = field.name) : before' = before := by
  have hmem' : field' ∈ before ++ field :: behind := heq ▸ by simp
  obtain rfl : field' = field := eq_of_name_eq h hmem' (by simp) hname
  have hnodup : (before ++ field' :: behind).Nodup := List.Nodup.of_map _ h
  have hnotin := (List.nodup_middle.mp hnodup).notMem
  rw [List.mem_append, not_or] at hnotin
  exact ((List.append_cons_inj_of_notMem hnotin.1 hnotin.2).mp heq).1.symm

end Schema

namespace Validator

/-- What stands at the place of a violation: a value of the reported kind, a present value, or
nothing where a required field is declared. -/
def Justifies (validator : Validator) (raw : Option Value) (path : List String) :
    Violation → Prop
  | .typeMismatch _ _ found => ∃ value, present (subvalue raw path) = some value ∧ found = value.kind
  | .invalidValue _ _ => (present (subvalue raw path)).isSome = true
  | .missingRequired _ => present (subvalue raw path) = none ∧
      ∃ above fields field, path = above ++ [field.name] ∧ At validator above (.object fields) ∧
        field ∈ fields ∧ field.required = true

/-- On the way to a place, every field that is declared before the one that the path takes is
accepted, and present if it is required. -/
def EarlierAccepted (validator : Validator) (raw : Option Value) (keypath : Keypath)
    (path : List String) : Prop :=
  ∀ above name rest, path = above ++ name :: rest →
    ∀ before field behind, At validator above (.object (before ++ field :: behind)) →
      field.name = name → ∀ earlier ∈ before,
        (earlier.required = true →
          (present (subvalue raw (above ++ [earlier.name]))).isSome = true) ∧
        ∃ v, (earlier.validator.validateField (subvalue raw (above ++ [earlier.name]))
          (keypath.descend (above ++ [earlier.name]))).result = .ok v

/-- A violation stands at the first declared place that breaks a constraint. -/
structure IsFirst (validator : Validator) (raw : Option Value) (keypath : Keypath)
    (path : List String) (e : Violation) : Prop where
  location : e.keypath = keypath.descend path
  declared : ∃ nested, At validator path nested
  justified : Justifies validator raw path e
  earlier : EarlierAccepted validator raw keypath path

section Relocation

variable (raw : Option Value) (keypath keypath' : Keypath)

theorem validateString_relocate (default : Option String) (allowEmpty : Bool) :
    validateString default allowEmpty raw keypath' =
      (validateString default allowEmpty raw keypath).mapError (·.relocate keypath') := by
  unfold validateString
  split
  · rfl
  · split <;> rfl
  · rfl

theorem validateNumber_relocate (default : Option Binary64) :
    validateNumber default raw keypath' =
      (validateNumber default raw keypath).mapError (·.relocate keypath') := by
  unfold validateNumber
  split
  · rfl
  · split <;> rfl

theorem validateBoolean_relocate (default : Option Bool) :
    validateBoolean default raw keypath' =
      (validateBoolean default raw keypath).mapError (·.relocate keypath') := by
  unfold validateBoolean
  split
  · rfl
  · split <;> rfl

theorem checkRange_relocate (range : Option (Int × Int)) (n : Signed64) :
    checkRange range n keypath' =
      (checkRange range n keypath).mapError (·.relocate keypath') := by
  unfold checkRange
  split
  · rfl
  · split <;> rfl

theorem checkWhole_relocate (range : Option (Int × Int)) (x : Binary64.Finite) :
    checkWhole range x keypath' =
      (checkWhole range x keypath).mapError (·.relocate keypath') := by
  unfold checkWhole
  cases x.whole?.bind Signed64.ofInt? with
  | none => rfl
  | some n => exact checkRange_relocate keypath keypath' range n

private theorem map_mapError {ε ε' α β : Type} (x : Except ε α) (f : α → β) (g : ε → ε') :
    (x.mapError g).map f = (x.map f).mapError g := by
  cases x <;> rfl

theorem validateInteger_relocate (default : Option Signed64) (range : Option (Int × Int)) :
    validateInteger default range raw keypath' =
      (validateInteger default range raw keypath).mapError (·.relocate keypath') := by
  unfold validateInteger
  split
  · rfl
  · split
    · rw [checkRange_relocate keypath, map_mapError]
    · split
      · rfl
      · rw [checkWhole_relocate keypath, map_mapError]

theorem validateField_relocate {scalar : Validator} (hscalar : scalar.IsScalar) :
    (scalar.validateField raw keypath').result =
      (scalar.validateField raw keypath).result.mapError (·.relocate keypath') := by
  cases scalar with
  | string default allowEmpty =>
    rw [validateField_string, validateField_string,
      validateString_relocate raw keypath, map_mapError]
  | number default =>
    rw [validateField_number, validateField_number,
      validateNumber_relocate raw keypath, map_mapError]
  | boolean default =>
    rw [validateField_boolean, validateField_boolean,
      validateBoolean_relocate raw keypath, map_mapError]
  | integer default range =>
    rw [validateField_integer, validateField_integer,
      validateInteger_relocate raw keypath, map_mapError]
  | object fields => cases hscalar

end Relocation

section Scalars

variable {raw : Option Value} {keypath : Keypath}

private theorem map_eq_error {ε α β : Type} {x : Except ε α} {f : α → β} {e : ε} :
    x.map f = .error e ↔ x = .error e := by
  cases x <;> simp [Except.map]

theorem checkRange_eq_error {range : Option (Int × Int)} {n : Signed64} {e : Violation}
    (h : checkRange range n keypath = .error e) : ∃ flaw, e = .invalidValue keypath flaw := by
  unfold checkRange at h
  split at h
  · cases h
  · split at h
    · cases h
    · exact ⟨_, (Except.error.inj h).symm⟩

theorem checkWhole_eq_error {range : Option (Int × Int)} {x : Binary64.Finite} {e : Violation}
    (h : checkWhole range x keypath = .error e) : ∃ flaw, e = .invalidValue keypath flaw := by
  unfold checkWhole at h
  cases hwhole : x.whole?.bind Signed64.ofInt? with
  | none =>
    rw [hwhole] at h
    exact ⟨_, (Except.error.inj h).symm⟩
  | some n =>
    rw [hwhole] at h
    exact checkRange_eq_error h

theorem scalar_eq_error {scalar : Validator} (hscalar : scalar.IsScalar) {e : Violation}
    (h : (scalar.validateField raw keypath).result = .error e) :
    ∃ value, present raw = some value ∧
      ((∃ expected, e = .typeMismatch keypath expected value.kind) ∨
        ∃ flaw, e = .invalidValue keypath flaw) := by
  cases scalar with
  | string default allowEmpty =>
    rw [validateField_string, map_eq_error, validateString] at h
    split at h
    · cases h
    · next s hs =>
      split at h
      · exact ⟨_, hs, .inr ⟨_, (Except.error.inj h).symm⟩⟩
      · cases h
    · next other _ hother => exact ⟨other, hother, .inl ⟨_, (Except.error.inj h).symm⟩⟩
  | number default =>
    rw [validateField_number, map_eq_error, validateNumber] at h
    split at h
    · cases h
    · next value hvalue =>
      split at h
      · cases h
      · exact ⟨value, hvalue, .inl ⟨_, (Except.error.inj h).symm⟩⟩
  | boolean default =>
    rw [validateField_boolean, map_eq_error, validateBoolean] at h
    split at h
    · cases h
    · next value hvalue =>
      split at h
      · cases h
      · exact ⟨value, hvalue, .inl ⟨_, (Except.error.inj h).symm⟩⟩
  | integer default range =>
    rw [validateField_integer, map_eq_error, validateInteger] at h
    split at h
    · cases h
    · next value hvalue =>
      refine ⟨value, hvalue, ?_⟩
      split at h
      · exact .inr (checkRange_eq_error (map_eq_error.mp h))
      · split at h
        · exact .inl ⟨_, (Except.error.inj h).symm⟩
        · exact .inr (checkWhole_eq_error (map_eq_error.mp h))
  | object fields => cases hscalar

end Scalars

section Places

variable {raw : Option Value} {keypath : Keypath}

theorem earlierAccepted_nil (validator : Validator) : EarlierAccepted validator raw keypath [] := by
  intro above name rest hpath
  cases above <;> cases hpath

theorem EarlierAccepted.inside {before behind : Schema} {field : Field Validator}
    {entries : Object} {path : List String}
    (hentries : entriesOf? raw = some entries)
    (hnodup : (Schema.names (before ++ field :: behind)).Nodup)
    (hbefore : ∀ earlier ∈ before, ∃ v, outcome entries keypath earlier = .ok v)
    (hbelow : EarlierAccepted field.validator (Object.find? field.name entries)
      (keypath.child field.name) path) :
    EarlierAccepted (.object (before ++ field :: behind)) raw keypath (field.name :: path) := by
  intro above name rest hpath first chosen others hat hname earlier hearlier
  cases above with
  | nil =>
    rw [List.nil_append, List.cons.injEq] at hpath
    obtain ⟨rfl, rfl⟩ := hpath
    generalize hfields : before ++ field :: behind = fields at hat
    cases hat
    obtain rfl := Schema.before_unique hnodup hfields hname
    obtain ⟨v, hv⟩ := hbefore earlier hearlier
    rw [outcome_eq_ok_iff] at hv
    rw [List.nil_append, subvalue_cons hentries, subvalue_nil, Keypath.descend_singleton]
    exact ⟨hv.1, v, hv.2⟩
  | cons step above =>
    rw [List.cons_append, List.cons.injEq] at hpath
    obtain ⟨rfl, rfl⟩ := hpath
    rcases at_object_iff.mp hat with ⟨hnil, -⟩ | ⟨other, hother, below, hcons, hinside⟩
    · cases hnil
    · obtain ⟨hother_name, rfl⟩ := List.cons.inj hcons
      obtain rfl := Schema.eq_of_name_eq hnodup hother (by simp) hother_name.symm
      rw [List.cons_append, subvalue_cons hentries, ← Keypath.descend_child]
      exact hbelow above name rest rfl first chosen others hinside hname earlier hearlier

theorem Justifies.inside {fields : Schema} {field : Field Validator} {entries : Object}
    {path : List String} {e : Violation} (hentries : entriesOf? raw = some entries)
    (hfield : field ∈ fields)
    (h : Justifies field.validator (Object.find? field.name entries) path e) :
    Justifies (.object fields) raw (field.name :: path) e := by
  cases e with
  | typeMismatch _ expected found =>
    rwa [Justifies, subvalue_cons hentries]
  | invalidValue _ flaw =>
    rwa [Justifies, subvalue_cons hentries]
  | missingRequired _ =>
    obtain ⟨hmissing, above, fields', required, rfl, hat, hmem, hrequired⟩ := h
    rw [Justifies, subvalue_cons hentries]
    exact ⟨hmissing, field.name :: above, fields', required, rfl, .inside hfield hat, hmem,
      hrequired⟩

theorem IsFirst.inside {before behind : Schema} {field : Field Validator} {entries : Object}
    {path : List String} {e : Violation} (hentries : entriesOf? raw = some entries)
    (hnodup : (Schema.names (before ++ field :: behind)).Nodup)
    (hbefore : ∀ earlier ∈ before, ∃ v, outcome entries keypath earlier = .ok v)
    (h : IsFirst field.validator (Object.find? field.name entries) (keypath.child field.name)
      path e) :
    IsFirst (.object (before ++ field :: behind)) raw keypath (field.name :: path) e := by
  obtain ⟨nested, hat⟩ := h.declared
  constructor
  · rw [h.location, Keypath.descend_child]
  · exact ⟨nested, .inside (by simp) hat⟩
  · exact h.justified.inside hentries (by simp)
  · exact h.earlier.inside hentries hnodup hbefore

/-- A required field that is missing stands first if all fields before it are accepted. -/
theorem isFirst_missing {before behind : Schema} {field : Field Validator} {entries : Object}
    (hentries : entriesOf? raw = some entries)
    (hnodup : (Schema.names (before ++ field :: behind)).Nodup)
    (hbefore : ∀ earlier ∈ before, ∃ v, outcome entries keypath earlier = .ok v)
    (hrequired : field.required = true)
    (hmissing : present (Object.find? field.name entries) = none) :
    IsFirst (.object (before ++ field :: behind)) raw keypath [field.name]
      (.missingRequired (keypath.child field.name)) := by
  constructor
  · rfl
  · exact ⟨field.validator, .inside (by simp) (.here _)⟩
  · rw [Justifies, subvalue_cons hentries, subvalue_nil]
    exact ⟨hmissing, [], _, field, rfl, .here _, by simp, hrequired⟩
  · exact (earlierAccepted_nil _).inside hentries hnodup hbefore

end Places

section OneObject

variable {raw : Option Value} {entries : Object} {keypath : Keypath}

theorem validateFields_eq_error_of_outcome {before behind : Schema} {field : Field Validator}
    {e : Violation} (hbefore : ∀ earlier ∈ before, ∃ v, outcome entries keypath earlier = .ok v)
    (hfield : outcome entries keypath field = .error e) :
    (validateFields (before ++ field :: behind) entries keypath).result = .error e := by
  induction before with
  | nil => exact validateFields_cons_eq_error.mpr (.inl hfield)
  | cons first rest ih =>
    refine validateFields_cons_eq_error.mpr (.inr ⟨hbefore first List.mem_cons_self, ?_⟩)
    exact ih fun earlier hearlier => hbefore earlier (List.mem_cons_of_mem _ hearlier)

/-- Where a validation starts does not change its value, and an error moves with it. -/
def MovesWithKeypath (validator : Validator) (raw : Option Value) : Prop :=
  ∀ keypath, (∀ v, (validator.validateField raw keypath).result = .ok v →
      ∀ keypath', (validator.validateField raw keypath').result = .ok v) ∧
    ∀ e, (validator.validateField raw keypath).result = .error e →
      ∃ path, IsFirst validator raw keypath path e ∧
        ∀ keypath', (validator.validateField raw keypath').result =
          .error (e.relocate (keypath'.descend path))

theorem outcome_ok_moves {field : Field Validator}
    (h : MovesWithKeypath field.validator (Object.find? field.name entries)) {v : Value}
    (hok : outcome entries keypath field = .ok v) (keypath' : Keypath) :
    outcome entries keypath' field = .ok v := by
  rw [outcome_eq_ok_iff] at hok ⊢
  exact ⟨hok.1, (h (keypath.child field.name)).1 v hok.2 (keypath'.child field.name)⟩

theorem outcome_error_moves {before behind : Schema} {field : Field Validator}
    (hentries : entriesOf? raw = some entries)
    (hnodup : (Schema.names (before ++ field :: behind)).Nodup)
    (hbefore : ∀ earlier ∈ before, ∃ v, outcome entries keypath earlier = .ok v)
    (h : MovesWithKeypath field.validator (Object.find? field.name entries)) {e : Violation}
    (herror : outcome entries keypath field = .error e) :
    ∃ path, IsFirst (.object (before ++ field :: behind)) raw keypath path e ∧
      ∀ keypath', outcome entries keypath' field = .error (e.relocate (keypath'.descend path)) := by
  unfold outcome at herror
  split at herror
  · next hmissing =>
    obtain ⟨hrequired, hnone⟩ := Bool.and_eq_true_iff.mp hmissing
    obtain rfl := (Except.error.inj herror).symm
    refine ⟨[field.name], isFirst_missing hentries hnodup hbefore hrequired
      (Option.isNone_iff_eq_none.mp hnone), fun keypath' => ?_⟩
    rw [outcome, if_pos hmissing]
    rfl
  · next hpresent =>
    obtain ⟨path, hfirst, hmoves⟩ := (h (keypath.child field.name)).2 e herror
    refine ⟨field.name :: path, hfirst.inside hentries hnodup hbefore, fun keypath' => ?_⟩
    rw [outcome, if_neg hpresent, hmoves, Keypath.descend_child]

end OneObject

theorem moves_scalar {scalar : Validator} (hscalar : scalar.IsScalar) (raw : Option Value) :
    MovesWithKeypath scalar raw := by
  intro keypath
  constructor
  · intro v hok keypath'
    rw [validateField_relocate raw keypath keypath' hscalar, hok]
    rfl
  · intro e herror
    have hmoves : ∀ keypath', (scalar.validateField raw keypath').result =
        .error (e.relocate (keypath'.descend [])) := by
      intro keypath'
      rw [validateField_relocate raw keypath keypath' hscalar, herror, Keypath.descend_nil]
      rfl
    obtain ⟨value, hvalue, ⟨expected, rfl⟩ | ⟨flaw, rfl⟩⟩ := scalar_eq_error hscalar herror
    · refine ⟨[], ⟨by simp [Violation.keypath], ⟨scalar, .here _⟩, ?_, earlierAccepted_nil _⟩, hmoves⟩
      exact ⟨value, by rwa [subvalue_nil], rfl⟩
    · refine ⟨[], ⟨by simp [Violation.keypath], ⟨scalar, .here _⟩, ?_, earlierAccepted_nil _⟩, hmoves⟩
      rw [Justifies, subvalue_nil, hvalue]
      rfl

theorem moves_no_object {fields : Schema} {raw : Option Value} (h : entriesOf? raw = none) :
    MovesWithKeypath (.object fields) raw := by
  intro keypath
  obtain ⟨other, hother, herror⟩ := validateField_object_of_none h fields keypath
  rw [herror]
  constructor
  · intro v hok
    cases hok
  · rintro e ⟨⟩
    refine ⟨[], ⟨by simp [Violation.keypath], ⟨_, .here _⟩, ?_, earlierAccepted_nil _⟩, ?_⟩
    · exact ⟨other, by rwa [subvalue_nil], rfl⟩
    · intro keypath'
      obtain ⟨other', hother', herror'⟩ := validateField_object_of_none h fields keypath'
      obtain rfl : other' = other := Option.some.inj (hother'.symm.trans hother)
      rw [herror', Keypath.descend_nil]
      rfl

theorem moves_object {fields : Schema} {raw : Option Value} {entries : Object}
    (hentries : entriesOf? raw = some entries) (hnodup : (Schema.names fields).Nodup)
    (h : ∀ field ∈ fields,
      MovesWithKeypath field.validator (Object.find? field.name entries)) :
    MovesWithKeypath (.object fields) raw := by
  intro keypath
  rw [validateField_object hentries]
  cases hpass : (validateFields fields entries keypath).result with
  | ok declared =>
    refine ⟨?_, fun e herror => by cases herror⟩
    intro v hok keypath'
    have hsame : ∀ field ∈ fields,
        outcome entries keypath' field = outcome entries keypath field := by
      intro field hfield
      obtain ⟨w, hw, -⟩ := mem_of_validateFields hpass hfield
      rw [hw, outcome_ok_moves (h field hfield) hw]
    rw [validateField_object hentries, validateFields_congr hsame, hpass, hok]
  | error e =>
    refine ⟨fun v hok => (by cases hok), ?_⟩
    rintro e' ⟨⟩
    obtain ⟨before, field, behind, rfl, hbefore, hfield⟩ := validateFields_eq_error hpass
    obtain ⟨path, hfirst, hmoves⟩ := outcome_error_moves hentries hnodup hbefore
      (h field (by simp)) hfield
    refine ⟨path, hfirst, fun keypath' => ?_⟩
    have hbefore' : ∀ earlier ∈ before, ∃ v, outcome entries keypath' earlier = .ok v := by
      intro earlier hearlier
      obtain ⟨v, hv⟩ := hbefore earlier hearlier
      exact ⟨v, outcome_ok_moves (h earlier (List.mem_append_left _ hearlier)) hv keypath'⟩
    rw [validateField_object hentries,
      validateFields_eq_error_of_outcome hbefore' (hmoves keypath')]
    rfl

/-- A failed validation names the first declared place that breaks a constraint. From another
keypath the same value is returned, or the same violation behind that keypath. -/
theorem validateField_first_violation {validator : Validator} (h : Declared validator) :
    ∀ raw keypath,
      (∀ v, (validator.validateField raw keypath).result = .ok v →
        ∀ keypath', (validator.validateField raw keypath').result = .ok v) ∧
      ∀ e, (validator.validateField raw keypath).result = .error e →
        ∃ path, IsFirst validator raw keypath path e ∧
          ∀ keypath', (validator.validateField raw keypath').result =
            .error (e.relocate (keypath'.descend path)) := by
  induction h using Declared.induct with
  | scalar validator hscalar => exact moves_scalar hscalar
  | object fields _ hnodup ih =>
    intro raw
    cases hentries : entriesOf? raw with
    | none => exact moves_no_object hentries
    | some entries => exact moves_object hentries hnodup fun field hfield => ih field hfield _

section Sample

def misfitValue : Value :=
  .object [("dev", .object [("open", .string "maybe"), ("port", .string "eighty")]),
    ("name", .string "site")]

theorem validateField_first_violation_misfitValue :
    Declared sampleValidator ∧
      (sampleValidator.validateField (some misfitValue) ⟨["site"]⟩).result =
        .error (.typeMismatch ⟨["site", "dev", "port"]⟩ .integer .string) ∧
      (∃ path, IsFirst sampleValidator (some misfitValue) ⟨["site"]⟩ path
          (.typeMismatch ⟨["site", "dev", "port"]⟩ .integer .string) ∧
        ∀ keypath', (sampleValidator.validateField (some misfitValue) keypath').result =
          .error (.typeMismatch (keypath'.descend path) .integer .string)) ∧
      (sampleValidator.validateField (some sampleValue) .root).result = .ok sampleCompleted ∧
      ∀ keypath', (sampleValidator.validateField (some sampleValue) keypath').result =
        .ok sampleCompleted := by
  have herror : (sampleValidator.validateField (some misfitValue) ⟨["site"]⟩).result =
      .error (.typeMismatch ⟨["site", "dev", "port"]⟩ .integer .string) := rfl
  have hok : (sampleValidator.validateField (some sampleValue) .root).result =
      .ok sampleCompleted := rfl
  exact ⟨declared_sampleValidator, herror,
    (validateField_first_violation declared_sampleValidator (some misfitValue) ⟨["site"]⟩).2 _
      herror, hok,
    (validateField_first_violation declared_sampleValidator (some sampleValue) .root).1 _ hok⟩

end Sample

end Validator

end SiteConfig

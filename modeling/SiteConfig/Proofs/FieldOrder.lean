import Mathlib.Data.List.Perm.Basic
import SiteConfig.Proofs.Completion
/-!
# The order of declarations

Fields are validated in the order of their declaration, which decides the violation that is reported
if there are several. Whether a value is accepted and what it becomes does not depend on the order.
-/
namespace SiteConfig.Validator

/-- No two fields of a schema at any depth have the same name. -/
def DistinctNames (validator : Validator) : Prop :=
  ∀ path fields, At validator path (.object fields) → (Schema.names fields).Nodup

/-- Two validators that differ in the order of declared fields only, at any depth. -/
inductive Reordered : Validator → Validator → Prop
  | refl (validator : Validator) : Reordered validator validator
  | permute {fields fields' : Schema} (h : fields.Perm fields') :
      Reordered (.object fields) (.object fields')
  | inside {nested nested' : Validator} (before behind : Schema) (name : String) (required : Bool)
      (h : Reordered nested nested') :
      Reordered (.object (before ++ ⟨name, required, nested⟩ :: behind))
        (.object (before ++ ⟨name, required, nested'⟩ :: behind))
  | trans {first second third : Validator} (h : Reordered first second)
      (h' : Reordered second third) : Reordered first third

section Trees

variable {validator validator' : Validator} {fields : Schema}

theorem DistinctNames.names (h : DistinctNames (.object fields)) : (Schema.names fields).Nodup :=
  h [] fields (.here _)

theorem DistinctNames.of_mem (h : DistinctNames (.object fields)) {field : Field Validator}
    (hfield : field ∈ fields) : DistinctNames field.validator :=
  fun path _ hat => h (field.name :: path) _ (.inside hfield hat)

theorem distinctNames_object_iff : DistinctNames (.object fields) ↔
    (Schema.names fields).Nodup ∧ ∀ field ∈ fields, DistinctNames field.validator := by
  constructor
  · exact fun h => ⟨h.names, fun field hfield => h.of_mem hfield⟩
  · rintro ⟨hnames, hinside⟩ path inner hat
    rcases at_object_iff.mp hat with ⟨-, heq⟩ | ⟨field, hfield, rest, -, hbelow⟩
    · cases heq
      exact hnames
    · exact hinside field hfield rest inner hbelow

theorem Declared.distinctNames (h : Declared validator) : DistinctNames validator := by
  induction h using Declared.induct with
  | scalar validator hscalar =>
    intro path fields hat
    obtain ⟨-, rfl⟩ := hat.of_isScalar hscalar
    cases hscalar
  | object fields _ hnames ih => exact distinctNames_object_iff.mpr ⟨hnames, ih⟩

theorem Reordered.symm (h : Reordered validator validator') : Reordered validator' validator := by
  induction h with
  | refl validator => exact .refl validator
  | permute h => exact .permute h.symm
  | inside before behind name required _ ih => exact .inside before behind name required ih
  | trans _ _ ih ih' => exact .trans ih' ih

theorem Reordered.distinctNames (h : Reordered validator validator')
    (hdistinct : DistinctNames validator) : DistinctNames validator' := by
  induction h with
  | refl validator => exact hdistinct
  | permute h =>
    obtain ⟨hnames, hinside⟩ := distinctNames_object_iff.mp hdistinct
    rw [distinctNames_object_iff]
    exact ⟨(h.map Field.name).nodup_iff.mp hnames,
      fun field hfield => hinside field (h.mem_iff.mpr hfield)⟩
  | inside before behind name required _ ih =>
    simp only [distinctNames_object_iff, Schema.names, List.map_append, List.map_cons,
      List.forall_mem_append, List.forall_mem_cons] at hdistinct ⊢
    obtain ⟨hnames, hbefore, hnested, hbehind⟩ := hdistinct
    exact ⟨hnames, hbefore, ih hnested, hbehind⟩
  | trans _ _ ih ih' => exact ih' (ih hdistinct)

end Trees

section Passes

variable {fields fields' : Schema} {entries values : Object} {keypath : Keypath}

def Lists (entries : Object) (keypath : Keypath) (field : Field Validator)
    (entry : String × Value) : Prop :=
  entry.1 = field.name ∧ outcome entries keypath field = .ok entry.2

theorem validateFields_eq_ok_iff : (validateFields fields entries keypath).result = .ok values ↔
    List.Forall₂ (Lists entries keypath) fields values := by
  induction fields generalizing values with
  | nil =>
    rw [validateFields_nil, List.forall₂_nil_left_iff, Except.ok.injEq, eq_comm]
  | cons field rest ih =>
    rw [validateFields_cons_eq_ok, List.forall₂_cons_left_iff]
    constructor
    · rintro ⟨v, others, hv, hothers, rfl⟩
      exact ⟨(field.name, v), others, ⟨rfl, hv⟩, ih.mp hothers, rfl⟩
    · rintro ⟨⟨name, v⟩, others, ⟨hname, hv⟩, hothers, rfl⟩
      cases hname
      exact ⟨v, others, hv, ih.mpr hothers, rfl⟩

/-- Permuted fields succeed together, with permuted values. -/
theorem exists_perm_of_validateFields (h : fields.Perm fields')
    (hpass : (validateFields fields entries keypath).result = .ok values) :
    ∃ values', (validateFields fields' entries keypath).result = .ok values' ∧
      values'.Perm values := by
  obtain ⟨values', hlists, hperm⟩ :=
    List.perm_comp_forall₂ h.symm (validateFields_eq_ok_iff.mp hpass)
  exact ⟨values', validateFields_eq_ok_iff.mpr hlists, hperm⟩

theorem validateFields_replace {before behind : Schema} {field field' : Field Validator}
    (h : ∀ entry, Lists entries keypath field entry → Lists entries keypath field' entry)
    (hpass : (validateFields (before ++ field :: behind) entries keypath).result = .ok values) :
    (validateFields (before ++ field' :: behind) entries keypath).result = .ok values := by
  rw [validateFields_eq_ok_iff] at hpass ⊢
  induction before generalizing values with
  | nil =>
    cases hpass with
    | cons hfield hbehind => exact .cons (h _ hfield) hbehind
  | cons first rest ih =>
    cases hpass with
    | cons hfirst hrest => exact .cons hfirst (ih hrest)

theorem completed_perm {declared declared' : Object} (h : declared'.Perm declared)
    (hnodup : (Object.keys declared).Nodup) (entries : Object) :
    completed declared' entries = completed declared entries := by
  have hkeys : (Object.keys declared').Perm (Object.keys declared) := h.map Prod.fst
  have hnodup' := hkeys.nodup_iff.mpr hnodup
  have hfind (name : String) : Object.find? name declared' = Object.find? name declared := by
    cases hfind : Object.find? name declared with
    | none =>
      rw [Object.find?_eq_none_iff] at hfind ⊢
      exact fun hmem => hfind (hkeys.mem_iff.mp hmem)
    | some v => exact Object.find?_of_mem hnodup' (h.mem_iff.mpr (Object.mem_of_find? hfind))
  apply Object.eq_of_find? (pairwise_keys_completed _ _) (pairwise_keys_completed _ _)
  intro name
  simp only [find?_completed hnodup', find?_completed hnodup, hkeys.mem_iff, hfind]

end Passes

section Values

variable {validator validator' : Validator} {fields fields' : Schema} {raw : Option Value}
  {keypath : Keypath} {v : Value}

theorem validateField_permute (hnames : (Schema.names fields).Nodup) (h : fields.Perm fields')
    (hok : (validateField (.object fields) raw keypath).result = .ok v) :
    (validateField (.object fields') raw keypath).result = .ok v := by
  obtain ⟨entries, declared, hentries, hpass, rfl⟩ := exists_completed_of_validateField hok
  obtain ⟨declared', hpass', hperm⟩ := exists_perm_of_validateFields h hpass
  have hkeys : (Object.keys declared).Nodup := keys_of_validateFields hpass ▸ hnames
  rw [validateField_object hentries, hpass', ← completed_perm hperm hkeys]
  rfl

theorem validateField_inside {nested nested' : Validator} {before behind : Schema} {name : String}
    {required : Bool}
    (h : ∀ {raw keypath v}, (nested.validateField raw keypath).result = .ok v →
      (nested'.validateField raw keypath).result = .ok v)
    (hok : (validateField (.object (before ++ ⟨name, required, nested⟩ :: behind)) raw
      keypath).result = .ok v) :
    (validateField (.object (before ++ ⟨name, required, nested'⟩ :: behind)) raw
      keypath).result = .ok v := by
  obtain ⟨entries, declared, hentries, hpass, rfl⟩ := exists_completed_of_validateField hok
  have hpass' : (validateFields (before ++ ⟨name, required, nested'⟩ :: behind) entries
      keypath).result = .ok declared := by
    apply validateFields_replace _ hpass
    rintro entry ⟨hname, houtcome⟩
    obtain ⟨hrequired, hvalue⟩ := outcome_eq_ok_iff.mp houtcome
    exact ⟨hname, outcome_eq_ok_iff.mpr ⟨hrequired, h hvalue⟩⟩
  rw [validateField_object hentries, hpass']
  rfl

/-- What one order of the fields accepts, every other does, with the same value. -/
theorem Reordered.validateField_eq_ok (h : Reordered validator validator')
    (hdistinct : DistinctNames validator) :
    ∀ {raw keypath v}, (validator.validateField raw keypath).result = .ok v →
      (validator'.validateField raw keypath).result = .ok v := by
  induction h with
  | refl validator => exact id
  | permute h =>
    intro raw keypath v hok
    exact validateField_permute hdistinct.names h hok
  | inside before behind name required _ ih =>
    intro raw keypath v hok
    have hnested := hdistinct.of_mem (List.mem_append_right before List.mem_cons_self)
    exact validateField_inside (ih hnested) hok
  | trans hfirst _ ih ih' =>
    intro raw keypath v hok
    exact ih' (hfirst.distinctNames hdistinct) (ih hdistinct hok)

end Values

/-- Validators that differ in the order of declared fields accept the same values, and return the
same. -/
theorem validateField_reordered {validator validator' : Validator}
    (hdistinct : DistinctNames validator) (h : Reordered validator validator')
    (raw : Option Value) (keypath : Keypath) (v : Value) :
    (validator.validateField raw keypath).result = .ok v ↔
      (validator'.validateField raw keypath).result = .ok v :=
  ⟨h.validateField_eq_ok hdistinct, h.symm.validateField_eq_ok (h.distinctNames hdistinct)⟩

section Sample

def nameFirst : Validator := .object (Schema.ofDeclarations [
  ("!name", .string none false),
  ("dev", .object (Schema.ofDeclarations [
    ("host", .string "localhost" false),
    ("open", .boolean none)]))])

def nameLast : Validator := .object (Schema.ofDeclarations [
  ("dev", .object (Schema.ofDeclarations [
    ("open", .boolean none),
    ("host", .string "localhost" false)])),
  ("!name", .string none false)])

theorem distinctNames_nameFirst : DistinctNames nameFirst := by
  apply Declared.distinctNames
  refine .object fun declaration hmem => ?_
  simp only [List.mem_cons, List.not_mem_nil, or_false] at hmem
  rcases hmem with rfl | rfl
  · exact .scalar trivial
  · refine .object fun declaration hmem => ?_
    simp only [List.mem_cons, List.not_mem_nil, or_false] at hmem
    rcases hmem with rfl | rfl <;> exact .scalar trivial

theorem reordered_nameFirst : Reordered nameFirst nameLast :=
  .trans (.permute (List.Perm.swap _ _ []))
    (.inside [] _ "dev" false (.permute (List.Perm.swap _ _ [])))

theorem validateField_reordered_nameFirst :
    DistinctNames nameFirst ∧ Reordered nameFirst nameLast ∧
    (nameLast.validateField (some (.object [("name", .string "site")])) .root).result =
      .ok (.object [
        ("dev", .object [("host", .string "localhost"), ("open", .null)]),
        ("name", .string "site")]) ∧
    (nameFirst.validateField (some (.object [("dev", .bool true)])) .root).result =
      .error (.missingRequired ⟨["name"]⟩) ∧
    (nameLast.validateField (some (.object [("dev", .bool true)])) .root).result =
      .error (.typeMismatch ⟨["dev"]⟩ .object .boolean) :=
  ⟨distinctNames_nameFirst, reordered_nameFirst,
    (validateField_reordered distinctNames_nameFirst reordered_nameFirst _ _ _).mp rfl, rfl, rfl⟩

end Sample

end SiteConfig.Validator

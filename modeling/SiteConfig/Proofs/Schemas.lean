import Mathlib.Data.List.Nodup
import SiteConfig.Keypath
import SiteConfig.Validator.Schema
/-!
# Declared validators

Declaring fields one by one keeps their names distinct. The validators that declarations build are
trees: a path of field names leads from a validator to those nested in it, and from a value to the
values inside its objects.
-/
namespace SiteConfig

namespace Schema

theorem names_declare (schema : Schema) (spelling : String) (validator : Validator) :
    names (declare schema spelling validator) =
      (names schema).filter (· != (splitMark spelling).1) ++ [(splitMark spelling).1] := by
  simp [names, declare, List.filter_map, Function.comp_def]

theorem nodup_names_declare {schema : Schema} (h : (names schema).Nodup) (spelling : String)
    (validator : Validator) : (names (declare schema spelling validator)).Nodup := by
  rw [names_declare, List.nodup_append]
  refine ⟨h.filter _, by simp, ?_⟩
  intro name hname other hother
  simp only [List.mem_filter, bne_iff_ne] at hname
  rw [List.mem_singleton.mp hother]
  exact hname.2

private theorem foldl_declare (declarations : List (String × Validator)) (schema : Schema) :
    ((names schema).Nodup → (names (declarations.foldl (fun schema (spelling, validator) =>
      declare schema spelling validator) schema)).Nodup) ∧
    ∀ field ∈ declarations.foldl (fun schema (spelling, validator) =>
      declare schema spelling validator) schema,
        field ∈ schema ∨ ∃ declaration ∈ declarations, declaration.2 = field.validator := by
  induction declarations generalizing schema with
  | nil => exact ⟨id, fun field hfield => .inl hfield⟩
  | cons declaration rest ih =>
    obtain ⟨hnodup, hmem⟩ := ih (declare schema declaration.1 declaration.2)
    refine ⟨fun h => hnodup (nodup_names_declare h _ _), fun field hfield => ?_⟩
    rcases hmem field hfield with hold | ⟨later, hlater, heq⟩
    · simp only [declare, List.mem_append, List.mem_singleton, List.mem_filter] at hold
      rcases hold with ⟨hschema, -⟩ | rfl
      · exact .inl hschema
      · exact .inr ⟨declaration, List.mem_cons_self, rfl⟩
    · exact .inr ⟨later, List.mem_cons_of_mem _ hlater, heq⟩

theorem nodup_names_ofDeclarations (declarations : List (String × Validator)) :
    (names (ofDeclarations declarations)).Nodup :=
  (foldl_declare declarations empty).1 List.nodup_nil

theorem exists_declaration_of_mem {declarations : List (String × Validator)}
    {field : Field Validator} (h : field ∈ ofDeclarations declarations) :
    ∃ declaration ∈ declarations, declaration.2 = field.validator := by
  rcases (foldl_declare declarations empty).2 field h with hmem | hdeclared
  · cases hmem
  · exact hdeclared

theorem eq_of_name_eq {fields : Schema} (h : (names fields).Nodup) {field other : Field Validator}
    (hfield : field ∈ fields) (hother : other ∈ fields) (hname : field.name = other.name) :
    field = other :=
  List.inj_on_of_nodup_map h hfield hother hname

end Schema

/-- The location below another one to which field names lead. -/
def Keypath.descend (keypath : Keypath) (path : List String) : Keypath :=
  ⟨keypath.segments ++ path⟩

@[simp] theorem Keypath.descend_nil (keypath : Keypath) : keypath.descend [] = keypath := by
  simp [descend]

@[simp] theorem Keypath.descend_child (keypath : Keypath) (name : String) (path : List String) :
    (keypath.child name).descend path = keypath.descend (name :: path) := by
  simp [descend, child]

namespace Validator

def IsScalar : Validator → Prop
  | .object _ => False
  | _ => True

/-- The validators that can be declared: the scalar ones, and those of objects whose schema is
declared field by field. -/
inductive Declared : Validator → Prop where
  | scalar {validator : Validator} (h : validator.IsScalar) : Declared validator
  | object {declarations : List (String × Validator)}
      (h : ∀ declaration ∈ declarations, Declared declaration.2) :
      Declared (.object (Schema.ofDeclarations declarations))

theorem Declared.of_mem {fields : Schema} (h : Declared (.object fields)) {field : Field Validator}
    (hfield : field ∈ fields) : Declared field.validator := by
  cases h with
  | scalar h => cases h
  | object h =>
    obtain ⟨declaration, hmem, heq⟩ := Schema.exists_declaration_of_mem hfield
    exact heq ▸ h declaration hmem

/-- Induction over declared validators: the fields of a schema have distinct names. -/
@[elab_as_elim]
theorem Declared.induct {motive : (validator : Validator) → Declared validator → Prop}
    (scalar : ∀ validator (h : validator.IsScalar), motive validator (.scalar h))
    (object : ∀ (fields : Schema) (h : Declared (.object fields)), (Schema.names fields).Nodup →
      (∀ field (hfield : field ∈ fields), motive field.validator (h.of_mem hfield)) →
        motive (.object fields) h)
    {validator : Validator} (h : Declared validator) : motive validator h := by
  induction h with
  | scalar h => exact scalar _ h
  | @object declarations h ih =>
    refine object _ (.object h) (Schema.nodup_names_ofDeclarations declarations) ?_
    intro field hfield
    obtain ⟨declaration, hmem, heq⟩ := Schema.exists_declaration_of_mem hfield
    obtain ⟨name, required, validator⟩ := field
    subst heq
    exact ih declaration hmem

/-- The field names that lead from a validator to one nested in it. -/
inductive At : Validator → List String → Validator → Prop where
  | here (validator : Validator) : At validator [] validator
  | inside {fields : Schema} {field : Field Validator} {path : List String} {nested : Validator}
      (hfield : field ∈ fields) (h : At field.validator path nested) :
      At (.object fields) (field.name :: path) nested

/-- The value to which field names lead. Nothing stands below a value that is no object. -/
def subvalue : Option Value → List String → Option Value
  | raw, [] => raw
  | some (.object entries), name :: path => subvalue (Object.find? name entries) path
  | _, _ :: _ => none

end Validator

end SiteConfig

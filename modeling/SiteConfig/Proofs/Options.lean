import SiteConfig.Proofs.Completion
import SiteConfig.Settings.Options
/-!
# The places of the options

Which scalar validators stand at which places of a schema, and of the schema of a site project.
-/
namespace SiteConfig

namespace Validator

mutual

/-- The scalar validators with their places, in the order of declaration. -/
def scalarPlaces : Validator → List (List String × Validator)
  | .object fields => scalarPlacesOf fields
  | scalar => [([], scalar)]

def scalarPlacesOf : List (Field Validator) → List (List String × Validator)
  | [] => []
  | field :: rest =>
    (scalarPlaces field.validator).map (fun (path, scalar) => (field.name :: path, scalar)) ++
      scalarPlacesOf rest

end

theorem scalarPlaces_of_isScalar {scalar : Validator} (h : scalar.IsScalar) :
    scalarPlaces scalar = [([], scalar)] := by
  cases scalar with
  | object fields => cases h
  | _ => rw [scalarPlaces]; exact nofun

theorem mem_scalarPlacesOf {fields : Schema} {path : List String} {scalar : Validator} :
    (path, scalar) ∈ scalarPlacesOf fields ↔ ∃ field ∈ fields, ∃ rest,
      path = field.name :: rest ∧ (rest, scalar) ∈ scalarPlaces field.validator := by
  induction fields with
  | nil => simp [scalarPlacesOf]
  | cons field others ih =>
    simp only [scalarPlacesOf, List.mem_append, ih, List.mem_map, Prod.mk.injEq, Prod.exists,
      List.mem_cons, exists_eq_or_imp]
    apply or_congr_left
    constructor
    · rintro ⟨rest, _, hmem, rfl, rfl⟩
      exact ⟨rest, rfl, hmem⟩
    · rintro ⟨rest, rfl, hmem⟩
      exact ⟨rest, scalar, hmem, rfl, rfl⟩

theorem mem_scalarPlaces {validator : Validator} (h : Declared validator) :
    ∀ {path scalar}, (path, scalar) ∈ scalarPlaces validator ↔
      At validator path scalar ∧ scalar.IsScalar := by
  induction h using Declared.induct with
  | scalar validator hscalar =>
    intro path scalar
    rw [scalarPlaces_of_isScalar hscalar, List.mem_singleton, Prod.mk.injEq]
    constructor
    · rintro ⟨rfl, rfl⟩
      exact ⟨.here _, hscalar⟩
    · exact fun h => h.1.of_isScalar hscalar
  | object fields _ _ ih =>
    intro path scalar
    rw [scalarPlaces, mem_scalarPlacesOf]
    constructor
    · rintro ⟨field, hfield, rest, rfl, hmem⟩
      obtain ⟨hat, hscalar⟩ := (ih field hfield).mp hmem
      exact ⟨.inside hfield hat, hscalar⟩
    · rintro ⟨hat, hscalar⟩
      rcases at_object_iff.mp hat with ⟨-, rfl⟩ | ⟨field, hfield, rest, rfl, hinside⟩
      · cases hscalar
      · exact ⟨field, hfield, rest, rfl, (ih field hfield).mpr ⟨hinside, hscalar⟩⟩

theorem declared_of_scalars {declarations : List (String × Validator)}
    (h : ∀ declaration ∈ declarations, declaration.2.IsScalar) :
    Declared (.object (Schema.ofDeclarations declarations)) :=
  .object fun declaration hmem => .scalar (h declaration hmem)

end Validator

namespace Settings

open Validator

theorem declared_validator : Declared validator := by
  refine .object fun declaration hmem => ?_
  simp only [List.mem_cons, List.not_mem_nil, or_false] at hmem
  rcases hmem with rfl | rfl | rfl | rfl | rfl | rfl | rfl
  case inr.inr.inr.inr.inl => exact declared_of_scalars (by simp [IsScalar])
  case inr.inr.inr.inr.inr.inl => exact declared_of_scalars (by simp [IsScalar])
  case inr.inr.inr.inr.inr.inr => exact declared_of_scalars (by simp [IsScalar])
  all_goals exact .scalar trivial

theorem scalarPlaces_validator : scalarPlaces validator = [
    (["root"], .string "src" false),
    (["out_dir"], .string "dist" false),
    (["base"], .string "/" true),
    (["public_dir"], .string "public" true),
    (["dev", "host"], .string "localhost" false),
    (["dev", "port"], .integer (wholeDefault 5173) (some (0, 65535))),
    (["dev", "open"], .boolean false),
    (["build", "minify"], .boolean true),
    (["build", "sourcemap"], .boolean false),
    (["build", "chunk_size_warning_limit"], .number (Binary64.ofRatio false 500 1)),
    (["logging", "level"], .string "info" false),
    (["logging", "format"], .string "pretty" false),
    (["logging", "dir"], .string none false),
    (["logging", "rotation"], .string "daily" false),
    (["logging", "stderr"], .boolean true)] := rfl

end Settings

end SiteConfig

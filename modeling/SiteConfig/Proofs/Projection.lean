import SiteConfig.Proofs.Extraction
/-!
# Settings as a configuration

Settings that are written as an object and processed again in the same surroundings come out
unchanged. The environment meets the object for the second time then, so every option either is
overridden as before or has the value that validation gave it.
-/
namespace SiteConfig

namespace Validator

theorem validateField_object_of_isScalar {scalar : Validator} (hscalar : scalar.IsScalar)
    (entries : Object) (keypath : Keypath) (w : Value) :
    (scalar.validateField (some (.object entries)) keypath).result ≠ .ok w := by
  cases scalar with
  | string default allowEmpty =>
    rw [validateField_string]
    exact nofun
  | number default =>
    rw [validateField_number]
    exact nofun
  | boolean default =>
    rw [validateField_boolean]
    exact nofun
  | integer default range =>
    rw [validateField_integer]
    exact nofun
  | object fields => cases hscalar

theorem validateField_number_toFloat (default : Option Binary64) (n : Number) (keypath : Keypath) :
    (validateField (.number default) (some (.number (.float n.toFloat))) keypath).result =
      (validateField (.number default) (some (.number n)) keypath).result := by
  rw [validateField_number, validateField_number]
  rfl

theorem at_object_of_scalars {declarations : List (String × Validator)}
    (h : ∀ declaration ∈ declarations, declaration.2.IsScalar) {path : List String}
    {nested : Schema}
    (hat : At (.object (Schema.ofDeclarations declarations)) path (.object nested)) :
    path = [] ∧ nested = Schema.ofDeclarations declarations := by
  rcases at_object_iff.mp hat with ⟨hpath, hobject⟩ | ⟨field, hfield, rest, -, hinside⟩
  · exact ⟨hpath, Validator.object.inj hobject⟩
  · obtain ⟨declaration, hmem, hvalidator⟩ := Schema.exists_declaration_of_mem hfield
    have hscalar : field.validator.IsScalar := hvalidator ▸ h declaration hmem
    obtain ⟨-, hobject⟩ := hinside.of_isScalar hscalar
    rw [← hobject] at hscalar
    cases hscalar

end Validator

namespace Object

theorem sorted_ofEntries {entries : List (String × Value)} (h : ∀ entry ∈ entries, entry.2.Sorted) :
    Value.Sorted (.object (ofEntries entries)) := by
  apply List.foldlRecOn (motive := fun object : Object => Value.Sorted (.object object))
  · exact sorted_emptyObject
  · exact fun object hobject entry hentry => hobject.insert (h entry hentry) entry.1

end Object

namespace Settings

open Overlay Validator

section Places

theorem mem_of_at_object {path : List String} {fields : Schema}
    (h : At validator path (.object fields)) :
    (path, fields) ∈ [([], schema), (["dev"], devSchema), (["build"], buildSchema),
      (["logging"], loggingSchema)] := by
  have hschema : schema = [
      ⟨"root", false, .string "src" false⟩, ⟨"out_dir", false, .string "dist" false⟩,
      ⟨"base", false, .string "/" true⟩, ⟨"public_dir", false, .string "public" true⟩,
      ⟨"dev", false, .object devSchema⟩, ⟨"build", false, .object buildSchema⟩,
      ⟨"logging", false, .object loggingSchema⟩] := rfl
  have hstring {rest : List String} {default : Option String} {allowEmpty : Bool}
      (hat : At (.string default allowEmpty) rest (.object fields)) : False := by
    cases hat
  have hfields : ∀ field ∈ schema, ∀ rest, At field.validator rest (.object fields) →
      (field.name :: rest, fields) ∈ [(["dev"], devSchema), (["build"], buildSchema),
        (["logging"], loggingSchema)] := by
    rw [hschema]
    simp only [List.forall_mem_cons, List.not_mem_nil, false_implies, implies_true, and_true]
    refine ⟨fun _ hat => (hstring hat).elim, fun _ hat => (hstring hat).elim,
      fun _ hat => (hstring hat).elim, fun _ hat => (hstring hat).elim, ?_, ?_, ?_⟩
    · intro rest hat
      obtain ⟨rfl, hnested⟩ : rest = [] ∧ fields = devSchema :=
        at_object_of_scalars (by simp [IsScalar]) hat
      simp [hnested]
    · intro rest hat
      obtain ⟨rfl, hnested⟩ : rest = [] ∧ fields = buildSchema :=
        at_object_of_scalars (by simp [IsScalar]) hat
      simp [hnested]
    · intro rest hat
      obtain ⟨rfl, hnested⟩ : rest = [] ∧ fields = loggingSchema :=
        at_object_of_scalars (by simp [IsScalar]) hat
      simp [hnested]
  rcases at_object_iff.mp h with ⟨rfl, hobject⟩ | ⟨field, hfield, rest, rfl, hinside⟩
  · rw [Validator.object.inj hobject]
    exact List.mem_cons_self
  · exact List.mem_cons_of_mem _ (hfields field hfield rest hinside)

theorem not_required {path : List String} {fields : Schema}
    (h : At validator path (.object fields)) : ∀ field ∈ fields, field.required = false := by
  have hplaces := mem_of_at_object h
  simp only [List.mem_cons, Prod.mk.injEq, List.not_mem_nil, or_false] at hplaces
  rcases hplaces with ⟨-, rfl⟩ | ⟨-, rfl⟩ | ⟨-, rfl⟩ | ⟨-, rfl⟩
  all_goals decide

end Places

section Written

variable {settings : Settings} {layered : Object}

def options (settings : Settings) : Object := [
  ("root", .string settings.root),
  ("out_dir", .string settings.outDir),
  ("base", .string settings.base),
  ("public_dir", .string settings.publicDir),
  ("dev", settings.dev.toValue),
  ("build", settings.build.toValue),
  ("logging", settings.logging.toValue)]

theorem find?_toObject (hsorted : Value.Sorted (.object layered))
    (hextra : settings.extra = Object.without names layered) (name : String) :
    Object.find? name settings.toObject =
      if name ∈ names then Object.find? name settings.options else Object.find? name layered := by
  have htoObject : settings.toObject = Object.ofEntries (settings.options ++ settings.extra) := rfl
  have hoptions : (Object.keys settings.options).Nodup := by
    change names.Nodup
    decide
  have hnodup : (Object.keys settings.extra).Nodup :=
    hextra ▸ Object.nodup_keys (Object.pairwise_keys_without hsorted.1 names)
  rw [htoObject, Object.find?_ofEntries, List.reverse_append, Object.find?_append,
    Object.find?_reverse hnodup, Object.find?_reverse hoptions, hextra, Object.find?_without]
  split
  · rw [Option.none_or]
  · next hname =>
    have hnone : Object.find? name settings.options = none :=
      (Object.find?_eq_none_iff name settings.options).mpr hname
    rw [hnone, Option.or_none]

theorem holds_toObject (hsorted : Value.Sorted (.object layered))
    (hextra : settings.extra = Object.without names layered) :
    Holds (.object settings.toObject) settings := by
  have hoption (name : String) (hname : name ∈ names) :
      Object.find? name settings.toObject = Object.find? name settings.options := by
    rw [find?_toObject hsorted hextra, if_pos hname]
  have hdev (option : String) : subvalue (some (.object settings.toObject)) ["dev", option] =
      subvalue (some settings.dev.toValue) [option] := by
    rw [subvalue, hoption "dev" (by decide)]
    rfl
  have hbuild (option : String) : subvalue (some (.object settings.toObject)) ["build", option] =
      subvalue (some settings.build.toValue) [option] := by
    rw [subvalue, hoption "build" (by decide)]
    rfl
  have hlogging (option : String) :
      subvalue (some (.object settings.toObject)) ["logging", option] =
        subvalue (some settings.logging.toValue) [option] := by
    rw [subvalue, hoption "logging" (by decide)]
    rfl
  exact {
    root := hoption "root" (by decide)
    outDir := hoption "out_dir" (by decide)
    base := hoption "base" (by decide)
    publicDir := hoption "public_dir" (by decide)
    host := hdev "host"
    port := ⟨_, hdev "port", rfl⟩
    opensBrowser := hdev "open"
    minify := hbuild "minify"
    sourcemap := hbuild "sourcemap"
    chunkSizeWarningLimit := ⟨_, hbuild "chunk_size_warning_limit", rfl⟩
    level := hlogging "level"
    format := hlogging "format"
    dir := hlogging "dir"
    rotation := hlogging "rotation"
    stderr := hlogging "stderr" }

theorem sorted_toObject (hsorted : Value.Sorted (.object layered))
    (hextra : settings.extra = Object.without names layered) :
    Value.Sorted (.object settings.toObject) := by
  have hdev : settings.dev.toValue.Sorted := Object.sorted_ofEntries (by simp [Value.Sorted])
  have hbuild : settings.build.toValue.Sorted := Object.sorted_ofEntries (by simp [Value.Sorted])
  have hlogging : settings.logging.toValue.Sorted :=
    Object.sorted_ofEntries (by cases settings.logging.dir <;> simp [Value.Sorted])
  have hoptions : ∀ entry ∈ settings.options, entry.2.Sorted := by
    simp [options, Value.Sorted, hdev, hbuild, hlogging]
  have hundeclared : ∀ entry ∈ settings.extra, entry.2.Sorted := by
    intro entry hentry
    rw [hextra] at hentry
    have hmem := (List.mem_filter.mp hentry).1
    exact hsorted.of_find? (Object.find?_of_mem (Object.nodup_keys hsorted.1) hmem)
  apply Object.sorted_ofEntries
  intro entry hentry
  exact (List.mem_append.mp hentry).elim (hoptions entry) (hundeclared entry)

end Written

section Again

variable {settings : Settings}

/-- Values that hold the same settings are validated alike at every option. -/
theorem Holds.validateField_eq {a b : Value} (ha : Holds a settings) (hb : Holds b settings) :
    ∀ place ∈ scalarPlaces validator, ∀ keypath,
      (place.2.validateField (subvalue (some a) place.1) keypath).result =
        (place.2.validateField (subvalue (some b) place.1) keypath).result := by
  obtain ⟨n, hport, hn⟩ := ha.port
  obtain ⟨m, hport', hm⟩ := hb.port
  obtain rfl : n = m := Subtype.ext (hn.trans hm.symm)
  obtain ⟨x, hlimit, hx⟩ := ha.chunkSizeWarningLimit
  obtain ⟨y, hlimit', hy⟩ := hb.chunkSizeWarningLimit
  simp only [scalarPlaces_validator, List.forall_mem_cons, List.not_mem_nil, false_implies,
    implies_true, and_true, true_and, ha.root, hb.root, ha.outDir, hb.outDir, ha.base, hb.base,
    ha.publicDir, hb.publicDir, ha.host, hb.host, hport, hport', ha.opensBrowser, hb.opensBrowser,
    ha.minify, hb.minify, ha.sourcemap, hb.sourcemap, hlimit, hlimit', ha.level, hb.level, ha.format,
    hb.format, ha.dir, hb.dir, ha.rotation, hb.rotation, ha.stderr, hb.stderr]
  intro keypath
  rw [← validateField_number_toFloat, hx, ← hy, validateField_number_toFloat]

theorem validateField_again_of_mem {place : List String × Validator}
    (hmem : place ∈ scalarPlaces validator) {raw : Option Value} {keypath : Keypath} {w : Value}
    (hok : (place.2.validateField raw keypath).result = .ok w) :
    (place.2.validateField (some w) keypath).result = .ok w := by
  obtain ⟨-, hscalar⟩ := (mem_scalarPlaces declared_validator).mp hmem
  rcases stable_scalar hscalar hok with hstable | ⟨path, nested, flaw, hnested, hflaw, -, -⟩
  · exact hstable
  · obtain ⟨-, rfl⟩ := hnested.of_isScalar hscalar
    exact absurd hflaw
      ((defaultsAccepted_iff declared_validator).mp defaultsAccepted_settings _ hmem flaw)

theorem Holds.congr {a b : Value} (ha : Holds a settings)
    (h : ∀ place ∈ scalarPlaces validator,
      subvalue (some b) place.1 = subvalue (some a) place.1) : Holds b settings := by
  simp only [scalarPlaces_validator, List.forall_mem_cons, List.not_mem_nil, false_implies,
    implies_true, and_true] at h
  obtain ⟨hroot, houtDir, hbase, hpublicDir, hhost, hport, hopen, hminify, hsourcemap, hlimit,
    hlevel, hformat, hdir, hrotation, hstderr⟩ := h
  exact {
    root := hroot.trans ha.root
    outDir := houtDir.trans ha.outDir
    base := hbase.trans ha.base
    publicDir := hpublicDir.trans ha.publicDir
    host := hhost.trans ha.host
    port := hport ▸ ha.port
    opensBrowser := hopen.trans ha.opensBrowser
    minify := hminify.trans ha.minify
    sourcemap := hsourcemap.trans ha.sourcemap
    chunkSizeWarningLimit := hlimit ▸ ha.chunkSizeWarningLimit
    level := hlevel.trans ha.level
    format := hformat.trans ha.format
    dir := hdir.trans ha.dir
    rotation := hrotation.trans ha.rotation
    stderr := hstderr.trans ha.stderr }

section Layered

variable {overrides : List (List String × String)} {entries : Object} {validated : Value}

/-- Under the same overrides, an object that holds the settings of a completed one is completed at
every option as before. -/
theorem validateField_layer_of_holds (hpaths : ∀ override ∈ overrides, override.1 ≠ [])
    (hcompletes : Completes validator (some (.object (layer overrides entries))) .root validated)
    (hholds : Holds validated settings) {written : Object} (hwritten : Holds (.object written) settings)
    {place : List String × Validator} (hmem : place ∈ scalarPlaces validator) :
    ∃ w, (place.2.validateField (subvalue (some (.object (layer overrides written))) place.1)
      (Keypath.root.descend place.1)).result = .ok w ∧ subvalue (some validated) place.1 = some w := by
  obtain ⟨path, scalar⟩ := place
  obtain ⟨hat, hscalar⟩ := (mem_scalarPlaces declared_validator).mp hmem
  obtain ⟨w, hw, hplace⟩ := hcompletes.scalars path scalar hat hscalar
  refine ⟨w, ?_, hplace⟩
  have hpath : path ≠ [] := by
    rintro rfl
    cases hat
    cases hscalar
  rcases (lastWins_layer hpaths entries hpath).cases (lastWins_layer hpaths written hpath) with
    ⟨-, huntouched⟩ | hsame | ⟨⟨inner, hobject⟩, -⟩
  · -- The option has the value that validation gave it, which passes unchanged.
    rw [huntouched, hwritten.validateField_eq hholds _ hmem, hplace]
    exact validateField_again_of_mem hmem hw
  · rw [← hsame]
    exact hw
  · -- An object here would have been refused the first time.
    rw [hobject] at hw
    exact absurd hw (validateField_object_of_isScalar hscalar _ _ _)

theorem Holds.exists_section {written : Object} (h : Holds (.object written) settings)
    {path : List String} {fields : Schema} (hat : At validator path (.object fields)) :
    ∃ inner, subvalue (some (.object written)) path = some (.object inner) := by
  have hplaces := mem_of_at_object hat
  simp only [List.mem_cons, Prod.mk.injEq, List.not_mem_nil, or_false] at hplaces
  rcases hplaces with ⟨rfl, -⟩ | ⟨rfl, -⟩ | ⟨rfl, -⟩ | ⟨rfl, -⟩
  · exact ⟨written, subvalue_nil _⟩
  · obtain ⟨inner, hinner, -⟩ := exists_section_of_subvalue h.host
    exact ⟨inner, hinner⟩
  · obtain ⟨inner, hinner, -⟩ := exists_section_of_subvalue h.minify
    exact ⟨inner, hinner⟩
  · obtain ⟨inner, hinner, -⟩ := exists_section_of_subvalue h.level
    exact ⟨inner, hinner⟩

theorem acceptable_layer_of_holds (hpaths : ∀ override ∈ overrides, override.1 ≠ [])
    (hacceptable : Acceptable validator (some (.object (layer overrides entries))) .root)
    (hcompletes : Completes validator (some (.object (layer overrides entries))) .root validated)
    (hholds : Holds validated settings) {written : Object}
    (hwritten : Holds (.object written) settings) :
    Acceptable validator (some (.object (layer overrides written))) .root := by
  constructor
  · intro path fields hat
    by_cases hpath : path = []
    · exact .inr ⟨_, by rw [hpath, subvalue_nil]⟩
    · rcases (lastWins_layer hpaths entries hpath).cases (lastWins_layer hpaths written hpath) with
        ⟨-, huntouched⟩ | hsame | ⟨-, hobject⟩
      · rw [huntouched]
        exact .inr (hwritten.exists_section hat)
      · rw [← hsame]
        exact hacceptable.sections path fields hat
      · exact .inr hobject
  · intro path fields hat field hfield hrequired
    rw [not_required hat field hfield] at hrequired
    cases hrequired
  · intro path scalar hat hscalar
    obtain ⟨w, hw, -⟩ := validateField_layer_of_holds hpaths hcompletes hholds hwritten
      ((mem_scalarPlaces declared_validator).mpr ⟨hat, hscalar⟩)
    exact ⟨w, hw⟩

theorem without_layer_toObject (hpaths : ∀ override ∈ overrides, override.1 ≠ [])
    (hsorted : Value.Sorted (.object entries))
    (hextra : settings.extra = Object.without names (layer overrides entries)) :
    settings.extra = Object.without names (layer overrides settings.toObject) := by
  have hlayered := sorted_layer overrides hsorted
  have hagain := sorted_layer overrides (sorted_toObject hlayered hextra)
  refine hextra.trans (Object.without_congr hlayered.1 hagain.1 fun name hname => ?_)
  have hfind : Object.find? name settings.toObject =
      Object.find? name (layer overrides entries) := by
    rw [find?_toObject hlayered hextra, if_neg hname]
  rw [find?_layer_congr hfind, layer_layer hpaths]

/-- Settings that come of an object under some overrides come of the object that they are written
as, under the same overrides. -/
theorem settled_layer_toObject (hpaths : ∀ override ∈ overrides, override.1 ≠ [])
    (hsorted : Value.Sorted (.object entries)) {cwd : String}
    (h : settled cwd (layer overrides entries) = .ok settings) :
    settled cwd (layer overrides settings.toObject) = .ok settings := by
  have hlayered := sorted_layer overrides hsorted
  obtain ⟨validated, hvalidated, hholds, hextra, rfl, hmet⟩ := holds_of_settled hlayered h
  have hcompletes := completes_of_layered hlayered hvalidated
  have hacceptable := (exists_validateField_iff declared_validator _ _).mp ⟨_, hvalidated⟩
  have hwritten := holds_toObject hlayered hextra
  have hagain := sorted_layer overrides (sorted_toObject hlayered hextra)
  obtain ⟨validated', hvalidated'⟩ := (exists_validateField_iff declared_validator _ _).mpr
    (acceptable_layer_of_holds hpaths hacceptable hcompletes hholds hwritten)
  have hholds' : Holds validated' settings := by
    refine hholds.congr fun place hmem => ?_
    obtain ⟨w, hw, hplace⟩ :=
      validateField_layer_of_holds hpaths hcompletes hholds hwritten hmem
    obtain ⟨hat, hscalar⟩ := (mem_scalarPlaces declared_validator).mp hmem
    obtain ⟨w', hw', hplace'⟩ :=
      (completes_of_layered hagain hvalidated').scalars place.1 place.2 hat hscalar
    rw [hplace, hplace', ← Except.ok.inj (hw.symm.trans hw')]
  rw [settled_of_holds hagain hvalidated' hholds' (without_layer_toObject hpaths hsorted hextra),
    hmet]
  rfl

end Layered

/-- Settings that processing gave come out again when they are processed as an object in the same
surroundings. -/
theorem process_toObject (raw : Value) (hraw : raw.Sorted) (context : Context) (settings : Settings)
    (h : (process raw context).result = .ok settings) :
    (process (.object settings.toObject) context).result = .ok settings := by
  cases hobject : raw.object? with
  | none =>
    rw [process_of_not_object hobject] at h
    cases h
  | some entries =>
    obtain rfl := Value.eq_object_of_object? hobject
    rw [process_object] at h ⊢
    exact settled_layer_toObject (fun _ => ne_nil_of_mem_overrides) hraw h

end Again

section Sample

def sampleSettings : Settings where
  root := "app"
  outDir := "dist"
  base := "/"
  publicDir := "public"
  dev := { host := "localhost", port := 8080, opensBrowser := false }
  build := {
    minify := true
    sourcemap := false
    chunkSizeWarningLimit := ⟨Binary64.ofRatio false 500 1, isFinite_defaultLimit⟩ }
  logging := { level := "info", format := "pretty", dir := none, rotation := "daily", stderr := true }
  extra := [("extra", .array [.null])]
  cwd := "/site"

theorem holds_sampleSettings : Holds (.object sampleCompleted) sampleSettings where
  root := rfl
  outDir := rfl
  base := rfl
  publicDir := rfl
  host := rfl
  port := ⟨_, rfl, rfl⟩
  opensBrowser := rfl
  minify := rfl
  sourcemap := rfl
  chunkSizeWarningLimit := ⟨_, rfl, rfl⟩
  level := rfl
  format := rfl
  dir := rfl
  rotation := rfl
  stderr := rfl

theorem process_sampleEntries :
    (process (.object sampleEntries) sampleContext).result = .ok sampleSettings := by
  have hmet : firstUnmet? sampleSettings = none := by decide +kernel
  have hlayered := sorted_layer (overrides sampleContext) sorted_sampleEntries
  rw [process_object]
  refine (settled_of_holds hlayered validateField_sampleLayered holds_sampleSettings rfl).trans ?_
  rw [hmet]
  rfl

theorem process_toObject_sampleSettings :
    Value.Sorted (.object sampleEntries) ∧
      (process (.object sampleEntries) sampleContext).result = .ok sampleSettings ∧
      (process (.object sampleSettings.toObject) sampleContext).result = .ok sampleSettings :=
  ⟨sorted_sampleEntries, process_sampleEntries,
    process_toObject _ sorted_sampleEntries _ _ process_sampleEntries⟩

end Sample

end Settings

end SiteConfig

import SiteConfig.Proofs.Projection
/-!
# Undeclared options

Validation reports every entry of an object that its schema does not declare, and nothing else.
Settings keep the reported entries of a whole configuration and lose those of its sections.
-/
namespace SiteConfig

theorem Reported.events_andThen {ε α β : Type} {x : Reported ε α} {a : α} (h : x.result = .ok a)
    (f : α → Reported ε β) : (x.andThen f).events = x.events ++ (f a).events := by
  rw [Reported.andThen, h]

theorem Reported.exists_of_bind {ε α β : Type} {x : Reported ε α} {f : α → Reported ε β} {b : β}
    (h : (x >>= f).result = .ok b) : ∃ a, x.result = .ok a ∧ (f a).result = .ok b ∧
      (x >>= f).events = x.events ++ (f a).events := by
  change (x.andThen f).result = .ok b at h
  change ∃ a, _ ∧ _ ∧ (x.andThen f).events = _
  cases hx : x.result with
  | error e =>
    rw [Validator.result_andThen, hx] at h
    cases h
  | ok a =>
    rw [Validator.result_andThen, hx] at h
    exact ⟨a, rfl, h, events_andThen hx f⟩

namespace Validator

variable {keypath : Keypath} {event : Event}

theorem events_validateField (validator : Validator) (raw : Option Value) (keypath : Keypath) :
    (validator.validateField raw keypath).events = (validator.validate raw keypath).events := by
  rw [validateField, Reported.andThen]
  split <;> simp

theorem exists_output_of_validateField {validator : Validator} {raw : Option Value} {v : Value}
    (h : (validator.validateField raw keypath).result = .ok v) :
    ∃ output, (validator.validate raw keypath).result = .ok output := by
  rw [validateField_eq] at h
  cases hresult : (validator.validate raw keypath).result with
  | error violation =>
    rw [hresult] at h
    cases h
  | ok output => exact ⟨output, rfl⟩

theorem events_scalar {validator : Validator} (h : validator.IsScalar) (raw : Option Value)
    (keypath : Keypath) : (validator.validateField raw keypath).events = [] := by
  rw [events_validateField]
  cases validator with
  | object fields => cases h
  | _ =>
    rw [validate]
    rfl

theorem events_validateFields {fields : Schema} {entries values : Object}
    (h : (validateFields fields entries keypath).result = .ok values) :
    (validateFields fields entries keypath).events = fields.flatMap fun field =>
      (field.validator.validateField (Object.find? field.name entries)
        (keypath.child field.name)).events := by
  induction fields generalizing values with
  | nil => rw [validateFields, List.flatMap_nil]
  | cons field rest ih =>
    obtain ⟨v, others, hfield, hrest, rfl⟩ := validateFields_cons_eq_ok.mp h
    obtain ⟨hrequired, hok⟩ := outcome_eq_ok_iff.mp hfield
    have hpresent : ¬(field.required && (present (Object.find? field.name entries)).isNone) := by
      rw [Bool.and_eq_true, not_and]
      intro hmarked
      simpa using Option.isSome_iff_ne_none.mp (hrequired hmarked)
    obtain ⟨output, houtput⟩ := exists_output_of_validateField hok
    rw [validateFields, if_neg hpresent, Reported.events_andThen houtput,
      Reported.events_andThen hrest, List.append_nil, ih hrest, List.flatMap_cons,
      events_validateField]

theorem mem_events_validateFields {fields : Schema} {entries values : Object}
    (h : (validateFields fields entries keypath).result = .ok values) :
    event ∈ (validateFields fields entries keypath).events ↔ ∃ field ∈ fields,
      event ∈ (field.validator.validateField (Object.find? field.name entries)
        (keypath.child field.name)).events := by
  rw [events_validateFields h, List.mem_flatMap]

theorem mem_undeclaredEvents {names : List String} {entries : Object} :
    event ∈ undeclaredEvents keypath (Object.without names entries) ↔
      ∃ name w, name ∉ names ∧ Object.find? name entries = some w ∧
        event = .undeclaredOption (keypath.child name) := by
  have hmem (name : String) : (∃ w, (name, w) ∈ Object.without names entries) ↔
      name ∉ names ∧ ∃ w, Object.find? name entries = some w := by
    rw [Object.exists_find?_iff, Object.without, Object.keys]
    simp [and_comm]
  constructor
  · intro h
    obtain ⟨⟨name, w⟩, hentry, rfl⟩ := List.mem_map.mp h
    obtain ⟨hname, v, hv⟩ := (hmem name).mp ⟨w, hentry⟩
    exact ⟨name, v, hname, hv, rfl⟩
  · rintro ⟨name, v, hname, hv, rfl⟩
    obtain ⟨w, hentry⟩ := (hmem name).mpr ⟨hname, v, hv⟩
    exact List.mem_map.mpr ⟨(name, w), hentry, rfl⟩

theorem events_validateField_object {fields : Schema} {raw : Option Value} {entries declared : Object}
    (hentries : entriesOf? raw = some entries)
    (hpass : (validateFields fields entries keypath).result = .ok declared) :
    (validateField (.object fields) raw keypath).events =
      (validateFields fields entries keypath).events ++
        undeclaredEvents keypath (Object.without (Schema.names fields) entries) := by
  rw [events_validateField, validate]
  rcases section_of_entriesOf? hentries with ⟨hmissing, rfl⟩ | rfl
  · rw [hmissing]
    exact Reported.events_andThen hpass _
  · rw [← keys_of_validateFields hpass]
    exact Reported.events_andThen hpass _

/-- A validation that succeeds reports the undeclared entries of all objects, and nothing else. -/
theorem mem_events_iff {validator : Validator} (h : Declared validator) :
    ∀ {raw keypath v}, (validator.validateField raw keypath).result = .ok v →
      (event ∈ (validator.validateField raw keypath).events ↔
        ∃ path fields name w, At validator path (.object fields) ∧ name ∉ Schema.names fields ∧
          subvalue raw (path ++ [name]) = some w ∧
            event = .undeclaredOption (keypath.descend (path ++ [name]))) := by
  induction h using Declared.induct with
  | scalar validator hscalar =>
    intro raw keypath v _
    rw [events_scalar hscalar]
    refine iff_of_false List.not_mem_nil ?_
    rintro ⟨path, fields, -, -, hat, -⟩
    obtain ⟨-, rfl⟩ := hat.of_isScalar hscalar
    cases hscalar
  | object fields _ _ ih =>
    intro raw keypath v hok
    obtain ⟨entries, declared, hentries, hpass, rfl⟩ := exists_completed_of_validateField hok
    rw [events_validateField_object hentries hpass, List.mem_append,
      mem_events_validateFields hpass, mem_undeclaredEvents]
    constructor
    · rintro (⟨field, hfield, hevent⟩ | ⟨name, w, hname, hw, rfl⟩)
      · obtain ⟨v, hv, -⟩ := mem_of_validateFields hpass hfield
        obtain ⟨path, nested, name, w, hat, hname, hw, rfl⟩ :=
          (ih field hfield (outcome_eq_ok_iff.mp hv).2).mp hevent
        refine ⟨field.name :: path, nested, name, w, .inside hfield hat, hname, ?_, ?_⟩
        · rwa [List.cons_append, subvalue_cons hentries]
        · rw [Keypath.descend_child, List.cons_append]
      · refine ⟨[], fields, name, w, .here _, hname, ?_, rfl⟩
        rwa [List.nil_append, subvalue_cons hentries, subvalue_nil]
    · rintro ⟨path, nested, name, w, hat, hname, hw, rfl⟩
      rcases at_object_iff.mp hat with ⟨rfl, hnested⟩ | ⟨field, hfield, rest, rfl, hinside⟩
      · cases hnested
        rw [List.nil_append, subvalue_cons hentries, subvalue_nil] at hw
        exact .inr ⟨name, w, hname, hw, rfl⟩
      · rw [List.cons_append, subvalue_cons hentries] at hw
        obtain ⟨v, hv, -⟩ := mem_of_validateFields hpass hfield
        refine .inl ⟨field, hfield, (ih field hfield (outcome_eq_ok_iff.mp hv).2).mpr ?_⟩
        exact ⟨rest, nested, name, w, hinside, hname, hw, by rw [Keypath.descend_child, List.cons_append]⟩

end Validator

namespace Object

theorem find?_ofEntries_eq_none {name : String} {entries : List (String × Value)}
    (h : name ∉ keys entries) : find? name (ofEntries entries) = none := by
  rwa [find?_eq_none_iff, mem_keys_ofEntries]

end Object

namespace Settings

open Overlay Validator

/-- Processing that succeeds reports the overrides, then what validation reports, and last the number
of undeclared options that the settings keep. -/
theorem events_process {entries : Object} {context : Context} {settings : Settings}
    (h : (process (.object entries) context).result = .ok settings) :
    (process (.object entries) context).events = Overlay.events (overrides context) ++
      (validator.validateField (some (.object (layer (overrides context) entries))) .root).events ++
        [.configurationProcessed settings.extra.length] := by
  obtain ⟨given, hgiven, h, hguarded⟩ := Reported.exists_of_bind h
  cases hgiven
  obtain ⟨⟨⟩, -, h, hoverrides⟩ := Reported.exists_of_bind h
  obtain ⟨layered, hgiven, h, hlayered⟩ := Reported.exists_of_bind h
  obtain rfl : layer (overrides context) entries = layered :=
    Except.ok.inj ((applyOverrides_eq_ok (fun _ => ne_nil_of_mem_overrides) entries).symm.trans hgiven)
  obtain ⟨validated, -, h, hvalidated⟩ := Reported.exists_of_bind h
  obtain ⟨held, -, h, hheld⟩ := Reported.exists_of_bind h
  cases h
  rw [process, hguarded, hoverrides, hlayered, hvalidated, hheld, List.append_assoc]
  rfl

section Kept

variable {entries : Object} {context : Context} {settings : Settings}

/-- Where nothing is overridden, the options reported as undeclared are those that stand in the value
outside the declared ones of the whole configuration or of one of its sections. -/
theorem undeclaredOption_mem_iff (hsorted : Value.Sorted (.object entries))
    (hoverrides : overrides context = [])
    (h : (process (.object entries) context).result = .ok settings) (keypath : Keypath) :
    .undeclaredOption keypath ∈ (process (.object entries) context).events ↔
      ∃ path fields name w, At validator path (.object fields) ∧ name ∉ Schema.names fields ∧
        subvalue (some (.object entries)) (path ++ [name]) = some w ∧
          keypath.segments = path ++ [name] := by
  have hsettled := h
  rw [process_object, hoverrides] at hsettled
  obtain ⟨validated, hvalidated, -⟩ := holds_of_settled hsorted hsettled
  have hkeypath (path : List String) :
      Event.undeclaredOption keypath = .undeclaredOption (Keypath.root.descend path) ↔
        keypath.segments = path := by
    obtain ⟨segments⟩ := keypath
    simp [Keypath.descend, Keypath.root]
  rw [events_process h, hoverrides]
  simp only [Overlay.events, Overlay.layer, List.map_nil, List.nil_append, List.foldl_nil,
    List.mem_append, List.mem_singleton, reduceCtorEq, or_false,
    mem_events_iff declared_validator hvalidated, hkeypath]

theorem subvalue_section (hsorted : Value.Sorted (.object entries))
    (hextra : settings.extra = Object.without names entries) {path : List String} {fields : Schema}
    (hplace : (path, fields) ∈ [(["dev"], devSchema), (["build"], buildSchema),
      (["logging"], loggingSchema)]) {name : String} (hname : name ∉ Schema.names fields) :
    subvalue (some (.object settings.toObject)) (path ++ [name]) = none := by
  have hoption (option : String) (hoption : option ∈ names) :
      Object.find? option settings.toObject = Object.find? option settings.options := by
    rw [find?_toObject hsorted hextra, if_pos hoption]
  simp only [List.mem_cons, Prod.mk.injEq, List.not_mem_nil, or_false] at hplace
  rcases hplace with ⟨rfl, rfl⟩ | ⟨rfl, rfl⟩ | ⟨rfl, rfl⟩
  · rw [List.cons_append, subvalue, hoption "dev" (by decide)]
    exact Object.find?_ofEntries_eq_none hname
  · rw [List.cons_append, subvalue, hoption "build" (by decide)]
    exact Object.find?_ofEntries_eq_none hname
  · rw [List.cons_append, subvalue, hoption "logging" (by decide)]
    exact Object.find?_ofEntries_eq_none hname

end Kept

/-- Where nothing is overridden, an option that is reported as undeclared is kept, unchanged and at
its place, if it is an option of the whole configuration, and lost if it is one of a section. -/
theorem process_undeclared (raw : Value) (hraw : raw.Sorted) (context : Context)
    (hoverrides : overrides context = []) (settings : Settings)
    (h : (process raw context).result = .ok settings) (keypath : Keypath)
    (hreported : .undeclaredOption keypath ∈ (process raw context).events) :
    ∃ v, subvalue (some raw) keypath.segments = some v ∧
      ((∃ name, keypath.segments = [name] ∧
          subvalue (some (.object settings.toObject)) [name] = some v) ∨
        ∃ parent ∈ ["dev", "build", "logging"], ∃ name, keypath.segments = [parent, name] ∧
          subvalue (some (.object settings.toObject)) [parent, name] = none) := by
  cases hobject : raw.object? with
  | none =>
    rw [process_of_not_object hobject] at h
    cases h
  | some entries =>
    obtain rfl := Value.eq_object_of_object? hobject
    obtain ⟨path, fields, name, v, hat, hname, hv, hsegments⟩ :=
      (undeclaredOption_mem_iff hraw hoverrides h keypath).mp hreported
    rw [process_object, hoverrides] at h
    obtain ⟨-, -, -, hextra, -, -⟩ := holds_of_settled hraw h
    rw [hsegments]
    refine ⟨v, hv, ?_⟩
    rcases List.mem_cons.mp (mem_of_at_object hat) with hwhole | hsection
    · cases hwhole
      have hundeclared : name ∉ names := hname
      refine .inl ⟨name, rfl, ?_⟩
      rw [subvalue, find?_toObject hraw hextra, if_neg hundeclared]
      exact hv
    · have hlost := subvalue_section hraw hextra hsection hname
      simp only [List.mem_cons, Prod.mk.injEq, List.not_mem_nil, or_false] at hsection
      obtain ⟨parent, hparent, rfl⟩ : ∃ parent ∈ ["dev", "build", "logging"], path = [parent] := by
        rcases hsection with ⟨rfl, -⟩ | ⟨rfl, -⟩ | ⟨rfl, -⟩ <;> simp
      exact .inr ⟨parent, hparent, name, rfl, hlost⟩

section Sample

def sampleUndeclared : Value :=
  .object [("dev", .object [("proxy", .string "/api")]), ("title", .string "Site")]

def plainContext : Context := ⟨"/site", none, []⟩

theorem sorted_sampleUndeclared : sampleUndeclared.Sorted := by
  simp only [sampleUndeclared, Value.Sorted, Value.SortedEntries, and_true, Object.keys]
  decide

theorem exists_process_sampleUndeclared :
    ∃ settings, (process sampleUndeclared plainContext).result = .ok settings := by
  have hok : (process sampleUndeclared plainContext).result.toOption.isSome = true := by
    decide +kernel
  cases hresult : (process sampleUndeclared plainContext).result with
  | error e =>
    rw [hresult] at hok
    cases hok
  | ok settings => exact ⟨settings, rfl⟩

theorem process_undeclared_sample :
    sampleUndeclared.Sorted ∧ overrides plainContext = [] ∧
    .undeclaredOption ⟨["title"]⟩ ∈ (process sampleUndeclared plainContext).events ∧
    ∃ settings, (process sampleUndeclared plainContext).result = .ok settings ∧
      subvalue (some (.object settings.toObject)) ["title"] = some (.string "Site") := by
  obtain ⟨settings, hsettings⟩ := exists_process_sampleUndeclared
  have hreported : .undeclaredOption ⟨["title"]⟩ ∈ (process sampleUndeclared plainContext).events := by
    decide +kernel
  refine ⟨sorted_sampleUndeclared, rfl, hreported, settings, hsettings, ?_⟩
  obtain ⟨v, hv, ⟨name, hname, hkept⟩ | ⟨parent, -, name, hname, -⟩⟩ :=
    process_undeclared _ sorted_sampleUndeclared plainContext rfl settings hsettings _ hreported
  · cases hv
    cases hname
    exact hkept
  · cases hname

/-- The proxy of the development server is reported as passed through and is lost. -/
theorem process_losesProxy :
    sampleUndeclared.Sorted ∧ overrides plainContext = [] ∧
    .undeclaredOption ⟨["dev", "proxy"]⟩ ∈ (process sampleUndeclared plainContext).events ∧
    subvalue (some sampleUndeclared) ["dev", "proxy"] = some (.string "/api") ∧
    ∃ settings, (process sampleUndeclared plainContext).result = .ok settings ∧
      subvalue (some (.object settings.toObject)) ["dev", "proxy"] = none := by
  obtain ⟨settings, hsettings⟩ := exists_process_sampleUndeclared
  refine ⟨sorted_sampleUndeclared, rfl, by decide +kernel, rfl, settings, hsettings, ?_⟩
  have hsettled := hsettings
  rw [sampleUndeclared, process_object] at hsettled
  obtain ⟨-, -, -, hextra, -, -⟩ := holds_of_settled sorted_sampleUndeclared hsettled
  have hplace : (["dev"], devSchema) ∈ [(["dev"], devSchema), (["build"], buildSchema),
      (["logging"], loggingSchema)] := List.mem_cons_self
  exact subvalue_section sorted_sampleUndeclared hextra hplace (by decide)

end Sample

end Settings

end SiteConfig

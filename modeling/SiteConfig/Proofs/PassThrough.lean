import SiteConfig.Proofs.FieldOrder
import SiteConfig.Proofs.Undeclared
/-!
# Undeclared entries in order

A validation that succeeds reports each undeclared entry once. Those of nested objects come before
those of the objects around them, and nothing below an undeclared entry is looked at.
-/
namespace SiteConfig

theorem not_sublist_swap {names : List String} (h : names.Nodup) {first second : String}
    (hsublist : [first, second].Sublist names) : ¬[second, first].Sublist names := by
  have hascending : names.Pairwise fun name other => names.idxOf name < names.idxOf other := by
    rw [List.pairwise_iff_getElem]
    intro i j hi hj hij
    rwa [h.idxOf_getElem, h.idxOf_getElem]
  rw [List.pairwise_iff_forall_sublist] at hascending
  intro hswapped
  exact Nat.lt_asymm (hascending hsublist) (hascending hswapped)

namespace Validator

open Overlay

/-- An entry of a tree: the path of the object that holds it, and its name. -/
abbrev Place := List String × String

/-- Where two paths part, the first takes a field that is declared before that of the second. -/
def TakesEarlier (validator : Validator) (p q : List String) : Prop :=
  ∃ path fields first second inFirst inSecond, At validator path (.object fields) ∧
    [first, second].Sublist (Schema.names fields) ∧
      p = path ++ first :: inFirst ∧ q = path ++ second :: inSecond

/-- The order in which undeclared entries are reported. -/
inductive Precedes (validator : Validator) : Place → Place → Prop
  /-- The names of one object ascend. -/
  | names {path : List String} {name other : String} (h : name < other) :
      Precedes validator (path, name) (path, other)
  /-- Nested objects come before the one around them. -/
  | nested {path below : List String} {name other : String} (h : below ≠ []) :
      Precedes validator (path ++ below, name) (path, other)
  /-- Nested objects come in the order in which their fields are declared. -/
  | fields {path path' : List String} {name other : String} (h : TakesEarlier validator path path') :
      Precedes validator (path, name) (path', other)

section Places

variable {validator nested : Validator} {fields : Schema}

theorem At.unique (h : DistinctNames validator) {path : List String} (hat : At validator path nested)
    {nested' : Validator} (hat' : At validator path nested') : nested = nested' := by
  induction hat with
  | here validator => exact hat'.eq_of_nil.symm
  | inside hfield hinside ih =>
    rcases at_object_iff.mp hat' with ⟨hnil, -⟩ | ⟨field, hfield', rest, hpath, hinside'⟩
    · cases hnil
    · obtain ⟨hname, rfl⟩ := List.cons.inj hpath
      obtain rfl := Schema.eq_of_name_eq h.names hfield hfield' hname
      exact ih (h.of_mem hfield) hinside'

theorem At.exists_middle {path rest : List String} (h : At validator (path ++ rest) nested) :
    ∃ middle, At validator path middle ∧ At middle rest nested := by
  induction path generalizing validator with
  | nil => exact ⟨validator, .here _, h⟩
  | cons name path ih =>
    cases h with
    | inside hfield hinside =>
      obtain ⟨middle, hmiddle, hrest⟩ := ih hinside
      exact ⟨middle, .inside hfield hmiddle, hrest⟩

theorem At.mem_names (h : DistinctNames validator) {path rest : List String} {name : String}
    (hat : At validator path (.object fields)) (hbelow : At validator (path ++ name :: rest) nested) :
    name ∈ Schema.names fields := by
  obtain ⟨middle, hmiddle, hrest⟩ := hbelow.exists_middle
  obtain rfl := hat.unique h hmiddle
  rcases at_object_iff.mp hrest with ⟨hnil, -⟩ | ⟨field, hfield, _, hcons, -⟩
  · cases hnil
  · obtain ⟨rfl, -⟩ := List.cons.inj hcons
    exact List.mem_map_of_mem hfield

end Places

section Order

variable {validator : Validator} {fields : Schema} {p q : List String} {place other : Place}

theorem not_comparable_of_ne {path inFirst inSecond : List String} {first second : String}
    (h : first ≠ second) : ¬Comparable (path ++ first :: inFirst) (path ++ second :: inSecond) := by
  induction path with
  | nil => exact fun hcomparable => h (comparable_cons.mp hcomparable).1
  | cons name path ih => exact fun hcomparable => ih (comparable_cons.mp hcomparable).2

theorem parting_unique {path path' p q p' q' : List String} {first second first' second' : String}
    (hne : first ≠ second) (hne' : first' ≠ second')
    (hp : path ++ first :: p = path' ++ first' :: p')
    (hq : path ++ second :: q = path' ++ second' :: q') :
    path = path' ∧ first = first' ∧ second = second' := by
  induction path generalizing path' with
  | nil =>
    cases path' with
    | nil => exact ⟨rfl, (List.cons.inj hp).1, (List.cons.inj hq).1⟩
    | cons name rest => exact absurd ((List.cons.inj hp).1.trans (List.cons.inj hq).1.symm) hne
  | cons name path ih =>
    cases path' with
    | nil => exact absurd ((List.cons.inj hp).1.symm.trans (List.cons.inj hq).1) hne'
    | cons name' rest =>
      obtain ⟨hname, hp⟩ := List.cons.inj hp
      obtain ⟨hpath, hfields⟩ := ih hp (List.cons.inj hq).2
      exact ⟨hname ▸ hpath ▸ rfl, hfields⟩

theorem ne_of_sublist_names (h : DistinctNames validator) {path : List String}
    (hat : At validator path (.object fields)) {first second : String}
    (hsublist : [first, second].Sublist (Schema.names fields)) : first ≠ second := by
  rintro rfl
  exact List.nodup_iff_sublist.mp (h path fields hat) first hsublist

theorem TakesEarlier.not_comparable (h : DistinctNames validator) (hp : TakesEarlier validator p q) :
    ¬Comparable p q := by
  obtain ⟨path, fields, first, second, _, _, hat, hsublist, rfl, rfl⟩ := hp
  exact not_comparable_of_ne (ne_of_sublist_names h hat hsublist)

theorem TakesEarlier.asymm (h : DistinctNames validator) (hp : TakesEarlier validator p q) :
    ¬TakesEarlier validator q p := by
  obtain ⟨path, fields, first, second, _, _, hat, hsublist, rfl, rfl⟩ := hp
  rintro ⟨path', fields', first', second', _, _, hat', hsublist', hq', hp'⟩
  have hne := ne_of_sublist_names h hat hsublist
  have hne' := ne_of_sublist_names h hat' hsublist'
  obtain ⟨rfl, rfl, rfl⟩ := parting_unique hne hne'.symm hp' hq'
  cases hat.unique h hat'
  exact not_sublist_swap (h _ _ hat) hsublist hsublist'

theorem TakesEarlier.inside {field : Field Validator} (hfield : field ∈ fields)
    (h : TakesEarlier field.validator p q) :
    TakesEarlier (.object fields) (field.name :: p) (field.name :: q) := by
  obtain ⟨path, inner, first, second, inFirst, inSecond, hat, hsublist, rfl, rfl⟩ := h
  exact ⟨field.name :: path, inner, first, second, inFirst, inSecond, .inside hfield hat, hsublist,
    rfl, rfl⟩

theorem Precedes.inside {field : Field Validator} (hfield : field ∈ fields)
    (h : Precedes field.validator place other) :
    Precedes (.object fields) (field.name :: place.1, place.2) (field.name :: other.1, other.2) := by
  cases h with
  | names h => exact .names h
  | nested h =>
    rw [← List.cons_append]
    exact .nested h
  | fields h => exact .fields (h.inside hfield)

/-- An entry stands no higher than one that it precedes, or where an earlier field leads. -/
theorem Precedes.prefix_or_takesEarlier (h : Precedes validator place other) :
    (other.1 <+: place.1 ∧ (other.1 = place.1 → place.2 < other.2)) ∨
      TakesEarlier validator place.1 other.1 := by
  cases h with
  | names h => exact .inl ⟨List.prefix_rfl, fun _ => h⟩
  | nested h =>
    refine .inl ⟨List.prefix_append _ _, fun heq => absurd ?_ h⟩
    simpa using heq
  | fields h => exact .inr h

theorem Precedes.asymm (h : DistinctNames validator) (hplace : Precedes validator place other) :
    ¬Precedes validator other place := by
  intro hother
  rcases hplace.prefix_or_takesEarlier with ⟨habove, hname⟩ | hearlier
  · rcases hother.prefix_or_takesEarlier with ⟨habove', hname'⟩ | hearlier'
    · have heq := habove.eq_of_length (Nat.le_antisymm habove.length_le habove'.length_le)
      exact String.lt_asymm (hname heq) (hname' heq.symm)
    · exact hearlier'.not_comparable h (.inl habove)
  · rcases hother.prefix_or_takesEarlier with ⟨habove', -⟩ | hearlier'
    · exact hearlier.not_comparable h (.inl habove')
    · exact hearlier.asymm h hearlier'

theorem Precedes.ne (h : DistinctNames validator) (hplace : Precedes validator place other) :
    place ≠ other := by
  rintro rfl
  exact hplace.asymm h hplace

end Order

section Events

mutual

/-- The places of the undeclared entries, in the order of their events. -/
def undeclaredPlaces : Validator → Option Value → List Place
  | .object fields, raw =>
    nestedPlaces fields (entriesOf raw) ++
      (Object.keys (Object.without (Schema.names fields) (entriesOf raw))).map fun name => ([], name)
  | _, _ => []

def nestedPlaces : List (Field Validator) → Object → List Place
  | [], _ => []
  | field :: rest, entries =>
    (undeclaredPlaces field.validator (Object.find? field.name entries)).map
      (fun place => (field.name :: place.1, place.2)) ++ nestedPlaces rest entries

end

variable {validator : Validator} {fields : Schema} {raw : Option Value} {entries : Object}
  {keypath : Keypath} {v : Value}

theorem undeclaredPlaces_scalar (h : validator.IsScalar) (raw : Option Value) :
    undeclaredPlaces validator raw = [] := by
  cases validator with
  | object fields => cases h
  | _ => rw [undeclaredPlaces]; exact nofun

theorem nestedPlaces_eq_flatMap (fields : Schema) (entries : Object) :
    nestedPlaces fields entries = fields.flatMap fun field =>
      (undeclaredPlaces field.validator (Object.find? field.name entries)).map
        fun place => (field.name :: place.1, place.2) := by
  induction fields with
  | nil => rw [nestedPlaces, List.flatMap_nil]
  | cons field rest ih => rw [nestedPlaces, List.flatMap_cons, ih]

/-- The event of an undeclared entry, where the tree stands at a keypath. -/
def placeEvent (keypath : Keypath) (place : Place) : Event :=
  .undeclaredOption (keypath.descend (place.1 ++ [place.2]))

theorem entriesOf_of_entriesOf? (h : entriesOf? raw = some entries) : entriesOf raw = entries := by
  rcases section_of_entriesOf? h with ⟨hmissing, rfl⟩ | rfl
  · cases raw with
    | none => rfl
    | some value =>
      cases value with
      | null => rfl
      | _ => cases hmissing
  · rfl

theorem eq_object_of_mem_keys {name : String} (h : name ∈ Object.keys (entriesOf raw)) :
    raw = some (.object (entriesOf raw)) := by
  cases raw with
  | none => cases h
  | some value =>
    cases value with
    | object entries => rfl
    | _ => cases h

theorem subvalue_cons_entriesOf (raw : Option Value) (name : String) (path : List String) :
    subvalue raw (name :: path) = subvalue (Object.find? name (entriesOf raw)) path := by
  rw [← subvalue_entriesOf raw (List.cons_ne_nil name path), subvalue]

theorem mem_keys_without {names : List String} {name : String} :
    name ∈ Object.keys (Object.without names entries) ↔
      name ∈ Object.keys entries ∧ name ∉ names := by
  simp only [Object.keys, Object.without, List.mem_map, List.mem_filter]
  constructor
  · rintro ⟨entry, ⟨hentry, hname⟩, rfl⟩
    exact ⟨⟨entry, hentry, rfl⟩, by simpa using hname⟩
  · rintro ⟨⟨entry, hentry, rfl⟩, hname⟩
    exact ⟨entry, ⟨hentry, by simpa using hname⟩, rfl⟩

theorem sorted_entriesOf (hraw : ∀ given ∈ raw, given.Sorted) :
    Value.Sorted (.object (entriesOf raw)) := by
  cases raw with
  | none => exact sorted_emptyObject
  | some value =>
    have hsorted := hraw value rfl
    cases value with
    | object entries => exact hsorted
    | _ => exact sorted_emptyObject

/-- A validation that succeeds reports the undeclared entries in this order. -/
theorem events_eq_map_undeclaredPlaces (h : Declared validator) :
    ∀ {raw keypath v}, (validator.validateField raw keypath).result = .ok v →
      (validator.validateField raw keypath).events =
        (undeclaredPlaces validator raw).map (placeEvent keypath) := by
  induction h using Declared.induct with
  | scalar validator hscalar =>
    intro raw keypath v _
    rw [events_scalar hscalar, undeclaredPlaces_scalar hscalar, List.map_nil]
  | object fields _ _ ih =>
    intro raw keypath v hok
    obtain ⟨entries, declared, hentries, hpass, rfl⟩ := exists_completed_of_validateField hok
    rw [events_validateField_object hentries hpass, undeclaredPlaces, List.map_append,
      entriesOf_of_entriesOf? hentries, nestedPlaces_eq_flatMap, List.map_flatMap,
      events_validateFields hpass]
    congr 1
    · apply List.flatMap_congr
      intro field hfield
      obtain ⟨w, hw, -⟩ := mem_of_validateFields hpass hfield
      rw [ih field hfield (outcome_eq_ok_iff.mp hw).2, List.map_map]
      apply List.map_congr_left
      intro place _
      simp [placeEvent]
    · rw [Object.keys, List.map_map, List.map_map]
      rfl

theorem mem_undeclaredPlaces (h : Declared validator) : ∀ {raw : Option Value} {place : Place},
    place ∈ undeclaredPlaces validator raw ↔
      ∃ fields entries, At validator place.1 (.object fields) ∧
        subvalue raw place.1 = some (.object entries) ∧ place.2 ∈ Object.keys entries ∧
          place.2 ∉ Schema.names fields := by
  induction h using Declared.induct with
  | scalar validator hscalar =>
    intro raw place
    rw [undeclaredPlaces_scalar hscalar]
    refine iff_of_false List.not_mem_nil ?_
    rintro ⟨fields, -, hat, -⟩
    obtain ⟨-, rfl⟩ := hat.of_isScalar hscalar
    cases hscalar
  | object fields _ _ ih =>
    intro raw place
    obtain ⟨path, name⟩ := place
    rw [undeclaredPlaces, nestedPlaces_eq_flatMap, List.mem_append, List.mem_flatMap]
    constructor
    · rintro (⟨field, hfield, hnested⟩ | hown)
      · obtain ⟨⟨rest, name⟩, hplace, hcons⟩ := List.mem_map.mp hnested
        cases hcons
        obtain ⟨inner, entries, hat, hentries, hname⟩ := (ih field hfield).mp hplace
        refine ⟨inner, entries, .inside hfield hat, ?_, hname⟩
        rwa [subvalue_cons_entriesOf]
      · obtain ⟨name, hname, hnil⟩ := List.mem_map.mp hown
        cases hnil
        obtain ⟨hkey, hundeclared⟩ := mem_keys_without.mp hname
        refine ⟨fields, entriesOf raw, .here _, ?_, hkey, hundeclared⟩
        rw [subvalue_nil, ← eq_object_of_mem_keys hkey]
    · rintro ⟨inner, entries, hat, hentries, hkey, hundeclared⟩
      rcases at_object_iff.mp hat with ⟨hnil, heq⟩ | ⟨field, hfield, rest, hcons, hinside⟩
      · cases hnil
        cases heq
        rw [subvalue_nil] at hentries
        subst hentries
        exact .inr (List.mem_map_of_mem (mem_keys_without.mpr ⟨hkey, hundeclared⟩))
      · cases hcons
        rw [subvalue_cons_entriesOf] at hentries
        have hplace : (rest, name) ∈
            undeclaredPlaces field.validator (Object.find? field.name (entriesOf raw)) :=
          (ih field hfield).mpr ⟨inner, entries, hinside, hentries, hkey, hundeclared⟩
        exact .inl ⟨field, hfield, List.mem_map.mpr ⟨_, hplace, rfl⟩⟩

theorem pairwise_undeclaredPlaces (h : Declared validator) :
    ∀ {raw : Option Value}, (∀ given ∈ raw, given.Sorted) →
      (undeclaredPlaces validator raw).Pairwise (Precedes validator) := by
  induction h using Declared.induct with
  | scalar validator hscalar =>
    intro raw _
    rw [undeclaredPlaces_scalar hscalar]
    exact .nil
  | object fields _ _ ih =>
    intro raw hraw
    obtain ⟨hascending, hinner⟩ := sorted_entriesOf hraw
    rw [undeclaredPlaces, nestedPlaces_eq_flatMap, List.pairwise_append]
    refine ⟨?_, ?_, ?_⟩
    · rw [List.pairwise_flatMap]
      constructor
      · intro field hfield
        rw [List.pairwise_map]
        apply (ih field hfield fun given hgiven => sorted_of_find? hinner hgiven).imp
        exact fun hprecedes => hprecedes.inside hfield
      · rw [List.pairwise_iff_forall_sublist]
        intro first second hsublist place hplace other hother
        obtain ⟨place, -, rfl⟩ := List.mem_map.mp hplace
        obtain ⟨other, -, rfl⟩ := List.mem_map.mp hother
        exact .fields ⟨[], fields, first.name, second.name, place.1, other.1, .here _,
          hsublist.map Field.name, rfl, rfl⟩
    · rw [List.pairwise_map]
      apply (Object.pairwise_keys_without hascending _).imp
      exact fun hlt => .names hlt
    · intro place hplace other hother
      obtain ⟨field, -, hplace⟩ := List.mem_flatMap.mp hplace
      obtain ⟨place, -, rfl⟩ := List.mem_map.mp hplace
      obtain ⟨name, -, rfl⟩ := List.mem_map.mp hother
      exact @Precedes.nested _ [] _ _ _ (List.cons_ne_nil _ _)

end Events

/-- Undeclared entries are passed through at these places: each is reported once, in order, and kept
as it is, and nothing is reported below it. -/
structure PassesThrough (validator : Validator) (raw : Option Value) (keypath : Keypath) (v : Value)
    (events : List Event) (places : List Place) : Prop where
  events_eq : events = places.map fun place =>
    .undeclaredOption (keypath.descend (place.1 ++ [place.2]))
  distinct : places.Nodup
  ordered : places.Pairwise (Precedes validator)
  mem_iff : ∀ path name, (path, name) ∈ places ↔
    ∃ fields entries, At validator path (.object fields) ∧
      subvalue raw path = some (.object entries) ∧ name ∈ Object.keys entries ∧
        name ∉ Schema.names fields
  unchanged : ∀ path name, (path, name) ∈ places →
    ∃ w, subvalue raw (path ++ [name]) = some w ∧ subvalue (some v) (path ++ [name]) = some w
  nothing_below : ∀ path name, (path, name) ∈ places → ∀ below, below ≠ [] →
    .undeclaredOption (keypath.descend (path ++ name :: below)) ∉ events

section Exactness

variable {validator : Validator} {raw : Option Value} {keypath : Keypath} {v : Value}

theorem subvalue_concat {path : List String} {entries : Object}
    (h : subvalue raw path = some (.object entries)) (name : String) :
    subvalue raw (path ++ [name]) = Object.find? name entries := by
  induction path generalizing raw with
  | nil =>
    rw [subvalue_nil] at h
    rw [h, List.nil_append, subvalue, subvalue_nil]
  | cons key path ih =>
    rw [subvalue_cons_entriesOf] at h
    rw [List.cons_append, subvalue_cons_entriesOf, ih h]

/-- Two undeclared entries never stand on one way down. -/
theorem not_below_undeclaredPlaces (h : Declared validator) {path path' below : List String}
    {name name' : String} (hplace : (path, name) ∈ undeclaredPlaces validator raw)
    (hplace' : (path', name') ∈ undeclaredPlaces validator raw) (hbelow : below ≠ []) :
    path' ++ [name'] ≠ path ++ name :: below := by
  obtain ⟨fields, -, hat, -, -, hundeclared⟩ := (mem_undeclaredPlaces h).mp hplace
  obtain ⟨fields', -, hat', -⟩ := (mem_undeclaredPlaces h).mp hplace'
  obtain ⟨between, last, rfl⟩ := (List.eq_nil_or_concat below).resolve_left hbelow
  intro heq
  have hconcat : path' ++ [name'] = (path ++ name :: between) ++ [last] := by simpa using heq
  rw [(List.append_inj' hconcat rfl).1] at hat'
  exact hundeclared (hat.mem_names h.distinctNames hat')

/-- A validation that succeeds passes the undeclared entries through, and reports nothing else. -/
theorem exists_passesThrough (h : Declared validator) (hraw : ∀ given ∈ raw, given.Sorted)
    (hok : (validator.validateField raw keypath).result = .ok v) :
    ∃ places, PassesThrough validator raw keypath v (validator.validateField raw keypath).events
      places := by
  have hordered := pairwise_undeclaredPlaces h hraw
  refine ⟨undeclaredPlaces validator raw, events_eq_map_undeclaredPlaces h hok, ?_, hordered,
    fun path name => mem_undeclaredPlaces h, ?_, ?_⟩
  · exact hordered.imp fun hprecedes => hprecedes.ne h.distinctNames
  · intro path name hplace
    obtain ⟨fields, entries, hat, hentries, hkey, hundeclared⟩ := (mem_undeclaredPlaces h).mp hplace
    obtain ⟨w, hw⟩ := (Object.exists_find?_iff name entries).mpr hkey
    have hgiven : subvalue raw (path ++ [name]) = some w := (subvalue_concat hentries name).trans hw
    refine ⟨w, hgiven, ?_⟩
    rw [(completes_of_validateField h hraw hok).undeclared path fields hat name hundeclared, hgiven]
  · intro path name hplace below hbelow hevent
    rw [events_eq_map_undeclaredPlaces h hok] at hevent
    obtain ⟨⟨path', name'⟩, hplace', heq⟩ := List.mem_map.mp hevent
    apply not_below_undeclaredPlaces h hplace hplace' hbelow
    simpa [placeEvent, Keypath.descend] using heq

end Exactness

section Sample

def nestedValue : Value := .object [
  ("about", .object [("text", .null)]),
  ("dev", .object [("host", .string "::1"), ("open", .bool true), ("proxy", .null)]),
  ("name", .string "site"),
  ("plugins", .array [])]

theorem exists_passesThrough_nestedValue :
    Declared sampleValidator ∧ (∀ given ∈ some nestedValue, given.Sorted) ∧
    (∃ v, (sampleValidator.validateField (some nestedValue) .root).result = .ok v ∧
      ∃ places, PassesThrough sampleValidator (some nestedValue) .root v
        (sampleValidator.validateField (some nestedValue) .root).events places) ∧
    (sampleValidator.validateField (some nestedValue) .root).events = [
      .undeclaredOption ⟨["dev", "host"]⟩, .undeclaredOption ⟨["dev", "proxy"]⟩,
      .undeclaredOption ⟨["about"]⟩, .undeclaredOption ⟨["plugins"]⟩] := by
  have hsorted : ∀ given ∈ some nestedValue, given.Sorted := by
    rintro given ⟨⟩
    simp only [nestedValue, Value.Sorted, Value.SortedItems, Value.SortedEntries, and_true,
      Object.keys]
    decide
  refine ⟨declared_sampleValidator, hsorted, ⟨_, rfl, ?_⟩, rfl⟩
  exact exists_passesThrough declared_sampleValidator hsorted rfl

end Sample

end Validator
end SiteConfig

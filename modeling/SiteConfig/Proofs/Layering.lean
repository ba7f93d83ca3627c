import Mathlib.Data.List.Induction
import Mathlib.Data.List.Pairwise
import Mathlib.Data.List.Perm.Basic
import SiteConfig.Proofs.Overwriting
import SiteConfig.Settings.Processing
/-!
# Layers

An object with the environment laid over it: at every path the last comparable override decides what
is found, and where there is none the value of the object stays.
-/
namespace SiteConfig

namespace Overlay

open Validator

section Overrides

theorem parts_ne_nil (text : List Char) : parts text ≠ [] := by
  cases text with
  | nil => simp [parts]
  | cons c rest =>
    rw [parts]
    split
    · simp
    · split <;> simp

theorem ne_nil_of_path? {beginning name : String} {path : List String}
    (h : path? beginning name = some path) : path ≠ [] := by
  unfold path? at h
  split at h
  · cases h
  · next rest _ =>
    dsimp only at h
    split at h
    · cases h
    · rw [← Option.some.inj h]
      simpa using parts_ne_nil (Text.trim (separate rest))

theorem ne_nil_of_mem_overrides {beginning : String} {environment : Environment}
    {override : List String × String} (h : override ∈ overrides beginning environment) :
    override.1 ≠ [] := by
  obtain ⟨⟨name, value⟩, -, hpath⟩ := List.mem_filterMap.mp h
  obtain ⟨path, hpath, heq⟩ := Option.map_eq_some_iff.mp hpath
  exact heq ▸ ne_nil_of_path? hpath

theorem overrides_eq_nil_iff {beginning : String} {environment : Environment} :
    overrides beginning environment = [] ↔
      ∀ entry ∈ environment, path? beginning entry.1 = none := by
  simp [overrides, List.filterMap_eq_nil_iff]

end Overrides

section Runs

variable {overrides : List (List String × String)} {entries : Object}

theorem layer_concat (overrides : List (List String × String)) (override : List String × String)
    (entries : Object) :
    layer (overrides ++ [override]) entries =
      write override.2 override.1 (layer overrides entries) := by
  simp [layer, List.foldl_append]

def lastComparable? (overrides : List (List String × String)) (path : List String) :
    Option (List String × String) :=
  (overrides.filter fun override => Comparable override.1 path).getLast?

theorem lastComparable?_concat (overrides : List (List String × String))
    (override : List String × String) (path : List String) :
    lastComparable? (overrides ++ [override]) path =
      if Comparable override.1 path then some override else lastComparable? overrides path := by
  by_cases h : Comparable override.1 path <;>
    simp [lastComparable?, List.filter_append, h]

/-- What is found at a path, before and after the overrides. -/
structure LastWins (overrides : List (List String × String)) (path : List String)
    (before after : Option Value) : Prop where
  untouched : lastComparable? overrides path = none → after = before
  written : ∀ written text, lastComparable? overrides path = some (written, text) →
    Leaves text written path after

/-- At every path the last comparable override wins. -/
theorem lastWins_layer (h : ∀ override ∈ overrides, override.1 ≠ []) (entries : Object)
    {path : List String} (hpath : path ≠ []) :
    LastWins overrides path (subvalue (some (.object entries)) path)
      (subvalue (some (.object (layer overrides entries))) path) := by
  induction overrides using List.reverseRecOn with
  | nil => exact ⟨fun _ => rfl, nofun⟩
  | append_singleton earlier override ih =>
    have hearlier := ih fun override hmem => h override (List.mem_append_left _ hmem)
    have hoverride := h override (List.mem_append_right _ List.mem_cons_self)
    rw [layer_concat]
    by_cases hcomparable : Comparable override.1 path
    · constructor
      · rw [lastComparable?_concat, if_pos hcomparable]
        exact nofun
      · rw [lastComparable?_concat, if_pos hcomparable]
        rintro written text ⟨⟩
        exact leaves_write text hoverride hpath _
    · rw [subvalue_write_of_not_comparable hcomparable]
      constructor
      · rw [lastComparable?_concat, if_neg hcomparable]
        exact hearlier.untouched
      · rw [lastComparable?_concat, if_neg hcomparable]
        exact hearlier.written

theorem sorted_layer (overrides : List (List String × String))
    (h : Value.Sorted (.object entries)) : Value.Sorted (.object (layer overrides entries)) := by
  induction overrides using List.reverseRecOn with
  | nil => exact h
  | append_singleton earlier override ih =>
    rw [layer_concat]
    exact sorted_write override.2 override.1 ih

theorem layer_perm {first second : List (List String × String)} (hperm : first.Perm second)
    (h : first.Pairwise fun a b => ¬Comparable a.1 b.1) (entries : Object) :
    layer first entries = layer second entries := by
  refine hperm.foldl_eq' (fun a ha b hb layered => ?_) entries
  by_cases hab : a = b
  · rw [hab]
  · have hsymm : Std.Symm fun a b : List String × String => ¬Comparable a.1 b.1 :=
      ⟨fun _ _ hnot hcomparable => hnot hcomparable.symm⟩
    exact (write_comm (h.forall ha hb hab) a.2 b.2 layered).symm

theorem comparable_of_lastComparable? {override : List String × String} {path : List String}
    (h : lastComparable? overrides path = some override) : Comparable override.1 path := by
  simpa using (List.mem_filter.mp (List.mem_of_getLast? h)).2

theorem LastWins.cases {path : List String} {before before' after after' : Option Value}
    (h : LastWins overrides path before after) (h' : LastWins overrides path before' after') :
    (after = before ∧ after' = before') ∨ after = after' ∨
      (∃ entries, after = some (.object entries)) ∧ ∃ entries, after' = some (.object entries) := by
  cases hlast : lastComparable? overrides path with
  | none => exact .inl ⟨h.untouched hlast, h'.untouched hlast⟩
  | some override =>
    obtain ⟨written, text⟩ := override
    have hleaves := h.written written text hlast
    have hleaves' := h'.written written text hlast
    by_cases heq : written = path
    · exact .inr (.inl ((hleaves.here heq).trans (hleaves'.here heq).symm))
    · rcases comparable_of_lastComparable? hlast with hbelow | habove
      · exact .inr (.inl ((hleaves.below hbelow heq).trans (hleaves'.below hbelow heq).symm))
      · exact .inr (.inr ⟨hleaves.above habove (Ne.symm heq), hleaves'.above habove (Ne.symm heq)⟩)

/-- Two objects that differ at most at a path and below it. -/
def SameBeyond (path : List String) (first second : Object) : Prop :=
  ∀ text, write text path first = write text path second

theorem SameBeyond.write {path written : List String} {first second : Object} (hpath : path ≠ [])
    (hwritten : written ≠ []) (h : SameBeyond path first second) (text : String) :
    SameBeyond path (write text written first) (write text written second) := by
  intro other
  by_cases hcomparable : Comparable path written
  · rcases hcomparable with hbelow | habove
    · rw [write_write_below hpath hbelow, write_write_below hpath hbelow, h]
    · -- The write forgets all that lies at the path.
      rw [← write_write_below hwritten habove text other first, h,
        write_write_below hwritten habove]
  · rw [write_comm hcomparable, write_comm hcomparable, h]

theorem SameBeyond.layer {path : List String} {first second : Object} (hpath : path ≠ [])
    (hoverrides : ∀ override ∈ overrides, override.1 ≠ []) (h : SameBeyond path first second) :
    SameBeyond path (layer overrides first) (layer overrides second) := by
  induction overrides using List.reverseRecOn with
  | nil => exact h
  | append_singleton earlier override ih =>
    rw [layer_concat, layer_concat]
    exact (ih fun override hmem => hoverrides override (List.mem_append_left _ hmem)).write hpath
      (hoverrides override (List.mem_append_right _ List.mem_cons_self)) override.2

theorem layer_write {override : List String × String} (hmem : override ∈ overrides)
    (h : ∀ override ∈ overrides, override.1 ≠ []) (entries : Object) :
    layer overrides (write override.2 override.1 entries) = layer overrides entries := by
  obtain ⟨before, after, rfl⟩ := List.append_of_mem hmem
  have hsplit (object : Object) : layer (before ++ override :: after) object =
      layer after (write override.2 override.1 (layer before object)) := by
    simp [layer, List.foldl_append]
  have hpath := h override hmem
  have hsame : SameBeyond override.1 (write override.2 override.1 entries) entries :=
    fun text => write_write_below hpath List.prefix_rfl text override.2 entries
  have hbefore := hsame.layer hpath fun earlier hearlier =>
    h earlier (List.mem_append_left _ hearlier)
  rw [hsplit, hsplit, hbefore]

/-- Overrides that were written already change nothing. -/
theorem layer_layer (h : ∀ override ∈ overrides, override.1 ≠ []) (entries : Object) :
    layer overrides (layer overrides entries) = layer overrides entries := by
  suffices ∀ earlier : List (List String × String), (∀ override ∈ earlier, override ∈ overrides) →
      layer overrides (layer earlier entries) = layer overrides entries from
    this overrides fun _ hmem => hmem
  intro earlier
  induction earlier using List.reverseRecOn with
  | nil => exact fun _ => rfl
  | append_singleton before override ih =>
    intro hmem
    rw [layer_concat, layer_write (hmem _ (List.mem_append_right _ List.mem_cons_self)) h]
    exact ih fun other hother => hmem other (List.mem_append_left _ hother)

theorem find?_layer_congr {entries' : Object} {key : String}
    (h : Object.find? key entries = Object.find? key entries') :
    Object.find? key (layer overrides entries) = Object.find? key (layer overrides entries') := by
  induction overrides using List.reverseRecOn with
  | nil => exact h
  | append_singleton earlier override ih =>
    rw [layer_concat, layer_concat]
    exact find?_write_congr ih override.2 override.1

/-- A value with the objects that hold the texts alone merged over it, in order. -/
def merged (merge : Value → Value → Value) (overrides : List (List String × String))
    (base : Value) : Value :=
  overrides.foldl (fun below (path, text) => merge below (nest (.string text) path)) base

theorem merged_concat (merge : Value → Value → Value) (overrides : List (List String × String))
    (override : List String × String) (base : Value) :
    merged merge (overrides ++ [override]) base =
      merge (merged merge overrides base) (nest (.string override.2) override.1) := by
  simp [merged, List.foldl_append]

theorem merged_eq_layer {merge : Value → Value → Value} (hmerge : Merges merge)
    (h : ∀ override ∈ overrides, override.1 ≠ []) (hentries : Value.Sorted (.object entries)) :
    merged merge overrides (.object entries) = .object (layer overrides entries) := by
  induction overrides using List.reverseRecOn with
  | nil => rfl
  | append_singleton earlier override ih =>
    have hearlier := ih fun override hmem => h override (List.mem_append_left _ hmem)
    have hoverride := h override (List.mem_append_right _ List.mem_cons_self)
    rw [merged_concat, hearlier, layer_concat, merge_nest hmerge _ _ (sorted_layer earlier hentries),
      overwritten_of_ne_nil hoverride, entriesOf_object]

end Runs

end Overlay

namespace Settings

open Overlay Validator

/-- The settings that come of the entries after the environment was laid over them. -/
def settled (cwd : String) (layered : Object) : Except ConfigError Settings :=
  match (validator.validateField (some (.object layered)) .root).result with
  | .error violation => .error (.validation violation)
  | .ok validated => ofValidated cwd validated

theorem ne_nil_of_mem_overrides {context : Context} {override : List String × String}
    (h : override ∈ overrides context) : override.1 ≠ [] := by
  rw [overrides] at h
  split at h
  · cases h
  · exact Overlay.ne_nil_of_mem_overrides h

/-- Overrides below an object leave an object. -/
theorem applyOverrides_eq_ok {overrides : List (List String × String)}
    (h : ∀ override ∈ overrides, override.1 ≠ []) (entries : Object) :
    applyOverrides overrides entries = .ok (layer overrides entries) := by
  have hlayered : overrides.foldl (fun found (path, text) => overwritten text path (some found))
      (.object entries) = .object (layer overrides entries) := by
    induction overrides generalizing entries with
    | nil => rfl
    | cons override rest ih =>
      obtain ⟨hoverride, hrest⟩ := List.forall_mem_cons.mp h
      have hfirst := overwritten_of_ne_nil hoverride override.2 (some (.object entries))
      rw [List.foldl_cons]
      change List.foldl _ (overwritten override.2 override.1 (some (.object entries))) rest = _
      rw [hfirst]
      exact ih hrest _
  rw [applyOverrides, hlayered]

theorem process_of_not_object {raw : Value} (h : raw.object? = none) (context : Context) :
    (process raw context).result = .error (.notAnObject raw.kind) := by
  cases raw with
  | object entries => cases h
  | _ => rfl

theorem process_object (entries : Object) (context : Context) :
    (process (.object entries) context).result =
      settled context.cwd (layer (overrides context) entries) := by
  have hbind {α β : Type} (x : Reported ConfigError α) (f : α → Reported ConfigError β) :
      (x >>= f).result = x.result.bind fun a => (f a).result := result_andThen x f
  simp only [process, hbind, settled, applyOverrides_eq_ok (fun _ => ne_nil_of_mem_overrides)]
  change ((validator.validateField (some (.object (layer (overrides context) entries)))
    .root).result.mapError .validation).bind (fun validated =>
      (ofValidated context.cwd validated).bind .ok) = _
  cases (validator.validateField (some (.object (layer (overrides context) entries))) .root).result with
  | error violation => rfl
  | ok validated =>
    change (ofValidated context.cwd validated).bind .ok = ofValidated context.cwd validated
    cases ofValidated context.cwd validated <;> rfl

/-- At every path the last comparable override wins, however objects are merged, and the settings come
of the object with all overrides over it. An environment that names no option changes nothing, and
the order of variables does not matter if none names an option above that of another. -/
theorem last_override_wins :
    (∀ merge, Merges merge → ∀ beginning environment entries, Value.Sorted (.object entries) →
      merged merge (Overlay.overrides beginning environment) (.object entries) =
        .object (layer (Overlay.overrides beginning environment) entries)) ∧
    (∀ beginning environment entries path, path ≠ [] →
      LastWins (Overlay.overrides beginning environment) path
        (subvalue (some (.object entries)) path)
        (subvalue (some (.object (layer (Overlay.overrides beginning environment) entries)))
          path)) ∧
    (∀ entries cwd beginning environment,
      (process (.object entries) ⟨cwd, some beginning, environment⟩).result =
          settled cwd (layer (Overlay.overrides beginning environment) entries) ∧
        (process (.object entries) ⟨cwd, none, environment⟩).result = settled cwd entries) ∧
    (∀ raw cwd beginning environment,
      (∀ entry ∈ environment, path? beginning entry.1 = none) →
        process raw ⟨cwd, some beginning, environment⟩ = process raw ⟨cwd, none, environment⟩) ∧
    (∀ raw cwd beginning first second, List.Perm first second →
      ((Overlay.overrides beginning first).Pairwise fun a b => ¬Comparable a.1 b.1) →
        (process raw ⟨cwd, some beginning, first⟩).result =
          (process raw ⟨cwd, some beginning, second⟩).result) := by
  refine ⟨?_, ?_, ?_, ?_, ?_⟩
  · intro merge hmerge beginning environment entries hentries
    exact merged_eq_layer hmerge (fun _ => Overlay.ne_nil_of_mem_overrides) hentries
  · intro beginning environment entries path hpath
    exact lastWins_layer (fun _ => Overlay.ne_nil_of_mem_overrides) entries hpath
  · intro entries cwd beginning environment
    exact ⟨process_object entries _, process_object entries _⟩
  · intro raw cwd beginning environment hnone
    have hsame : overrides ⟨cwd, some beginning, environment⟩ =
        overrides ⟨cwd, none, environment⟩ := overrides_eq_nil_iff.mpr hnone
    simp only [process, hsame]
  · intro raw cwd beginning first second hperm hapart
    cases hobject : raw.object? with
    | none => rw [process_of_not_object hobject, process_of_not_object hobject]
    | some entries =>
      obtain rfl := Value.eq_object_of_object? hobject
      rw [process_object, process_object]
      congr 1
      exact layer_perm (hperm.filterMap _) hapart entries

section Sample

def sampleEnvironment : Environment :=
  [("PATH", "/bin"), ("SUV_DEV", "none"), ("suv_dev__port", "8080")]

def sampleEntries : Object :=
  [("dev", .object [("host", .string "0.0.0.0")]), ("extra", .array [.null]), ("root", .string "app")]

theorem sorted_sampleEntries : Value.Sorted (.object sampleEntries) := by
  simp only [sampleEntries, Value.Sorted, Value.SortedEntries, Value.SortedItems, and_true,
    Object.keys]
  decide

theorem last_override_wins_sampleEnvironment :
    (Merges join ∧ Value.Sorted (.object sampleEntries) ∧
      merged join (Overlay.overrides "SUV_" sampleEnvironment) (.object sampleEntries) =
        .object (layer (Overlay.overrides "SUV_" sampleEnvironment) sampleEntries)) ∧
    (lastComparable? (Overlay.overrides "SUV_" sampleEnvironment) ["dev", "host"] =
        some (["dev"], "none") ∧
      subvalue (some (.object (layer (Overlay.overrides "SUV_" sampleEnvironment) sampleEntries)))
        ["dev", "host"] = none) ∧
    (lastComparable? (Overlay.overrides "SUV_" sampleEnvironment) ["root"] = none ∧
      subvalue (some (.object (layer (Overlay.overrides "SUV_" sampleEnvironment) sampleEntries)))
        ["root"] = some (.string "app")) ∧
    (path? "SUV_" "PATH" = none ∧
      process (.object sampleEntries) ⟨"/site", some "SUV_", [("PATH", "/bin")]⟩ =
        process (.object sampleEntries) ⟨"/site", none, [("PATH", "/bin")]⟩) ∧
    (((Overlay.overrides "SUV_" [("SUV_ROOT", "a"), ("SUV_BASE", "b")]).Pairwise
        fun a b => ¬Comparable a.1 b.1) ∧
      (process (.object sampleEntries)
          ⟨"/site", some "SUV_", [("SUV_ROOT", "a"), ("SUV_BASE", "b")]⟩).result =
        (process (.object sampleEntries)
          ⟨"/site", some "SUV_", [("SUV_BASE", "b"), ("SUV_ROOT", "a")]⟩).result) := by
  have hhost : lastComparable? (Overlay.overrides "SUV_" sampleEnvironment) ["dev", "host"] =
      some (["dev"], "none") := by decide
  have hroot : lastComparable? (Overlay.overrides "SUV_" sampleEnvironment) ["root"] = none := by
    decide
  have hpath : path? "SUV_" "PATH" = none := by decide
  have hapart : (Overlay.overrides "SUV_" [("SUV_ROOT", "a"), ("SUV_BASE", "b")]).Pairwise
      fun a b => ¬Comparable a.1 b.1 := by decide
  refine ⟨⟨merges_join, sorted_sampleEntries, ?_⟩, ⟨hhost, ?_⟩, ⟨hroot, ?_⟩, ⟨hpath, ?_⟩, hapart, ?_⟩
  · exact last_override_wins.1 _ merges_join _ _ _ sorted_sampleEntries
  · exact ((last_override_wins.2.1 "SUV_" sampleEnvironment sampleEntries ["dev", "host"]
      (by decide)).written _ _ hhost).below (by decide) (by decide)
  · exact (last_override_wins.2.1 "SUV_" sampleEnvironment sampleEntries ["root"]
      (by decide)).untouched hroot
  · exact last_override_wins.2.2.2.1 _ _ _ _ (by simpa using hpath)
  · exact last_override_wins.2.2.2.2 _ _ _ _ _ (List.Perm.swap _ _ _) hapart

end Sample

end Settings

end SiteConfig

import SiteConfig.Proofs.Projection
/-!
# Written settings

Settings can be written in many ways: a section is an object, which may hold further options, or the
array of its options, a missing log directory need not be written, and the chunk limit may be a
number of any kind. Reading accepts exactly what is written in one of these ways, and what reading
gives is written as an object from which the same settings are read.
-/
namespace SiteConfig

theorem Object.ofEntries_perm {entries : List (String × Value)} (h : (keys entries).Nodup) :
    (ofEntries entries).Perm entries := by
  have hascending := nodup_keys (pairwise_keys_ofEntries entries)
  rw [List.perm_ext_iff_of_nodup (.of_map Prod.fst hascending) (.of_map Prod.fst h)]
  intro entry
  calc entry ∈ ofEntries entries
      ↔ find? entry.1 (ofEntries entries) = some entry.2 :=
        ⟨find?_of_mem hascending, mem_of_find?⟩
    _ ↔ find? entry.1 entries = some entry.2 := by rw [find?_ofEntries, find?_reverse h]
    _ ↔ entry ∈ entries := ⟨mem_of_find?, find?_of_mem h⟩

namespace Value

/-- The ways to write a section with the given options, of which one that is none is left out: an
object that may hold others beside them, or the array of all options in order. -/
inductive WritesSection (options : List (String × Option Value)) : Value → Prop
  | object {entries : Object} (h : ∀ option ∈ options, Object.find? option.1 entries = option.2) :
      WritesSection options (.object entries)
  | array {items : List Value} (h : options.map Prod.snd = items.map some) :
      WritesSection options (.array items)

theorem section?_eq_some_iff {options : List (String × Option Value)} {value : Value} :
    value.section? (options.map Prod.fst) = some (options.map Prod.snd) ↔
      WritesSection options value := by
  constructor
  · intro h
    cases value with
    | object entries =>
      simp only [section?, List.map_map, Option.some.injEq, List.map_inj_left] at h
      exact .object h
    | array items =>
      rw [section?] at h
      split at h
      · exact .array (Option.some.inj h).symm
      · cases h
    | _ => cases h
  · intro h
    cases h with
    | object h =>
      simp only [section?, List.map_map, Option.some.injEq, List.map_inj_left]
      exact h
    | @array items h =>
      have hlength : items.length = (options.map Prod.fst).length := by
        simpa using (congrArg List.length h).symm
      rw [section?, if_pos hlength, h]

section Types

variable {value : Value}

theorem asString?_eq_some_iff {s : String} : value.asString? = some s ↔ value = .string s := by
  cases value <;> simp [asString?]

theorem asBool?_eq_some_iff {b : Bool} : value.asBool? = some b ↔ value = .bool b := by
  cases value <;> simp [asBool?]

theorem asPort?_eq_some_iff {port : UInt16} :
    value.asPort? = some port ↔ ∃ n, value = .number (.integer n) ∧ n.val = port.toNat := by
  constructor
  · intro h
    unfold asPort? at h
    split at h
    · next n =>
      split at h
      · next hport =>
        refine ⟨n, rfl, ?_⟩
        rw [← Option.some.inj h, UInt16.toNat_ofNatLT]
        omega
      · cases h
    · cases h
  · rintro ⟨n, rfl, hn⟩
    exact asPort?_of_toNat hn

theorem asFloat?_eq_some_iff {x : Binary64.Finite} :
    value.asFloat? = some x ↔ ∃ n, value = .number n ∧ n.toFloat = x := by
  cases value <;> simp [asFloat?]

theorem asOptionalString?_eq_some_iff {option : Option Value} {s : Option String} :
    asOptionalString? option = some s ↔
      option = some (s.elim .null .string) ∨ option = none ∧ s = none := by
  cases option with
  | none => cases s <;> simp [asOptionalString?]
  | some value => cases value <;> cases s <;> simp [asOptionalString?]

end Types

end Value

namespace DevSettings

/-- The ways to write the options of the development server. -/
def WrittenAs (dev : DevSettings) (value : Value) : Prop :=
  ∃ port : WholeNumber, port.val = dev.port.toNat ∧
    value.WritesSection [
      ("host", some (.string dev.host)),
      ("port", some (.number (.integer port))),
      ("open", some (.bool dev.opensBrowser))]

theorem ofValue?_eq_some_iff {value : Value} {dev : DevSettings} :
    ofValue? value = some dev ↔ dev.WrittenAs value := by
  constructor
  · intro h
    rw [ofValue?] at h
    split at h
    · next hsection =>
      simp only [Option.bind_eq_bind, Option.bind_eq_some_iff, Option.pure_def, Option.some.injEq,
        Value.asString?_eq_some_iff, Value.asPort?_eq_some_iff, Value.asBool?_eq_some_iff] at h
      obtain ⟨_, rfl, host, rfl, _, rfl, _, ⟨port, rfl, hport⟩, _, rfl, opensBrowser, rfl, rfl⟩ := h
      exact ⟨port, hport, Value.section?_eq_some_iff.mp hsection⟩
    · cases h
  · rintro ⟨port, hport, h⟩
    have hsection : Value.section? names value = some [some (.string dev.host),
        some (.number (.integer port)), some (.bool dev.opensBrowser)] :=
      Value.section?_eq_some_iff.mpr h
    simp [ofValue?, hsection, Value.asString?, Value.asPort?_of_toNat hport, Value.asBool?]

end DevSettings

namespace BuildSettings

/-- The ways to write the options of the build. -/
def WrittenAs (build : BuildSettings) (value : Value) : Prop :=
  ∃ limit : Number, limit.toFloat = build.chunkSizeWarningLimit ∧
    value.WritesSection [
      ("minify", some (.bool build.minify)),
      ("sourcemap", some (.bool build.sourcemap)),
      ("chunk_size_warning_limit", some (.number limit))]

theorem ofValue?_eq_some_iff {value : Value} {build : BuildSettings} :
    ofValue? value = some build ↔ build.WrittenAs value := by
  constructor
  · intro h
    rw [ofValue?] at h
    split at h
    · next hsection =>
      simp only [Option.bind_eq_bind, Option.bind_eq_some_iff, Option.pure_def, Option.some.injEq,
        Value.asBool?_eq_some_iff, Value.asFloat?_eq_some_iff] at h
      obtain ⟨_, rfl, minify, rfl, _, rfl, sourcemap, rfl, _, rfl, _, ⟨limit, rfl, rfl⟩, rfl⟩ := h
      exact ⟨limit, rfl, Value.section?_eq_some_iff.mp hsection⟩
    · cases h
  · rintro ⟨limit, hlimit, h⟩
    have hsection : Value.section? names value = some [some (.bool build.minify),
        some (.bool build.sourcemap), some (.number limit)] :=
      Value.section?_eq_some_iff.mpr h
    simp [ofValue?, hsection, Value.asBool?, Value.asFloat?, hlimit]

end BuildSettings

namespace LoggingSettings

/-- The ways to write the options of the log. -/
def WrittenAs (logging : LoggingSettings) (value : Value) : Prop :=
  ∃ dir : Option Value,
    (dir = some (logging.dir.elim .null .string) ∨ dir = none ∧ logging.dir = none) ∧
    value.WritesSection [
      ("level", some (.string logging.level)),
      ("format", some (.string logging.format)),
      ("dir", dir),
      ("rotation", some (.string logging.rotation)),
      ("stderr", some (.bool logging.stderr))]

theorem ofValue?_eq_some_iff {value : Value} {logging : LoggingSettings} :
    ofValue? value = some logging ↔ logging.WrittenAs value := by
  constructor
  · intro h
    rw [ofValue?] at h
    split at h
    · next hsection =>
      simp only [Option.bind_eq_bind, Option.bind_eq_some_iff, Option.pure_def, Option.some.injEq,
        Value.asString?_eq_some_iff, Value.asOptionalString?_eq_some_iff,
        Value.asBool?_eq_some_iff] at h
      obtain ⟨_, rfl, level, rfl, _, rfl, format, rfl, dir, hdir, _, rfl, rotation, rfl, _, rfl, stderr,
        rfl, rfl⟩ := h
      exact ⟨_, hdir, Value.section?_eq_some_iff.mp hsection⟩
    · cases h
  · rintro ⟨dir, hdir, h⟩
    have hsection : Value.section? names value = some [some (.string logging.level),
        some (.string logging.format), dir, some (.string logging.rotation),
        some (.bool logging.stderr)] :=
      Value.section?_eq_some_iff.mpr h
    have hoptional := Value.asOptionalString?_eq_some_iff.mpr hdir
    simp [ofValue?, hsection, Value.asString?, Value.asBool?, hoptional]

end LoggingSettings

namespace Settings

/-- The ways to write settings as an object. Their directory is not written. -/
structure WrittenAs (settings : Settings) (entries : Object) : Prop where
  root : Object.find? "root" entries = some (.string settings.root)
  outDir : Object.find? "out_dir" entries = some (.string settings.outDir)
  base : Object.find? "base" entries = some (.string settings.base)
  publicDir : Object.find? "public_dir" entries = some (.string settings.publicDir)
  dev : ∃ value, Object.find? "dev" entries = some value ∧ settings.dev.WrittenAs value
  build : ∃ value, Object.find? "build" entries = some value ∧ settings.build.WrittenAs value
  logging : ∃ value, Object.find? "logging" entries = some value ∧
    settings.logging.WrittenAs value
  extra : settings.extra = Object.without names entries
  cwd : settings.cwd = ""

theorem ofValue?_eq_some_iff {value : Value} {settings : Settings} :
    ofValue? value = some settings ↔
      ∃ entries, value = .object entries ∧ settings.WrittenAs entries := by
  constructor
  · intro h
    obtain ⟨entries, hobject, hread⟩ := Option.bind_eq_some_iff.mp h
    obtain rfl := Value.eq_object_of_object? hobject
    refine ⟨entries, rfl, ?_⟩
    simp only [ofObject?, Option.bind_eq_bind, Option.bind_eq_some_iff, Option.pure_def,
      Option.some.injEq, Value.asString?_eq_some_iff, DevSettings.ofValue?_eq_some_iff,
      BuildSettings.ofValue?_eq_some_iff, LoggingSettings.ofValue?_eq_some_iff] at hread
    obtain ⟨_, hroot, root, rfl, _, houtDir, outDir, rfl, _, hbase, base, rfl, _, hpublicDir,
      publicDir, rfl, _, hdev, dev, hdevAs, _, hbuild, build, hbuildAs, _, hlogging, logging,
      hloggingAs, rfl⟩ := hread
    exact {
      root := hroot
      outDir := houtDir
      base := hbase
      publicDir := hpublicDir
      dev := ⟨_, hdev, hdevAs⟩
      build := ⟨_, hbuild, hbuildAs⟩
      logging := ⟨_, hlogging, hloggingAs⟩
      extra := rfl
      cwd := rfl }
  · rintro ⟨entries, rfl, h⟩
    obtain ⟨dev, hdev, hdevAs⟩ := h.dev
    obtain ⟨build, hbuild, hbuildAs⟩ := h.build
    obtain ⟨logging, hlogging, hloggingAs⟩ := h.logging
    simp [ofValue?, Value.object?, ofObject?, h.root, h.outDir, h.base, h.publicDir, hdev, hbuild,
      hlogging, DevSettings.ofValue?_eq_some_iff.mpr hdevAs,
      BuildSettings.ofValue?_eq_some_iff.mpr hbuildAs,
      LoggingSettings.ofValue?_eq_some_iff.mpr hloggingAs, Value.asString?, ← h.extra, ← h.cwd]

section Written

variable {settings : Settings} {entries : Object}

theorem toObject_perm (hsorted : Value.Sorted (.object entries))
    (hextra : settings.extra = Object.without names entries) :
    (names ++ Object.keys settings.extra).Nodup ∧
      settings.toObject.Perm (settings.options ++ settings.extra) := by
  have hnames : names.Nodup := by decide
  have hundeclared : (Object.keys settings.extra).Nodup :=
    hextra ▸ Object.nodup_keys (Object.pairwise_keys_without hsorted.1 names)
  have hapart : ∀ name ∈ names, ∀ other ∈ Object.keys settings.extra, name ≠ other := by
    rintro name hname _ hother rfl
    obtain ⟨v, hfind⟩ := (Object.exists_find?_iff name settings.extra).mpr hother
    rw [hextra, Object.find?_without, if_pos hname] at hfind
    cases hfind
  have hnodup := List.nodup_append.mpr ⟨hnames, hundeclared, hapart⟩
  refine ⟨hnodup, Object.ofEntries_perm ?_⟩
  rw [Object.keys_append]
  exact hnodup

/-- Settings that were read are written as an object that is read as the same settings. -/
theorem ofValue?_of_writtenAs (hsorted : Value.Sorted (.object entries))
    (h : settings.WrittenAs entries) : ofValue? (.object settings.toObject) = some settings := by
  have hextra : settings.extra = Object.without names settings.toObject := by
    refine h.extra.trans (Object.without_congr hsorted.1 (Object.pairwise_keys_ofEntries _) ?_)
    intro name hname
    rw [find?_toObject hsorted h.extra, if_neg hname]
  rw [ofValue?_of_holds (holds_toObject hsorted h.extra), ← hextra, ← h.cwd]

end Written

/-- Settings are read from exactly the values that they can be written as. They have no directory
and keep all options of other names, and they are written as an object that holds each option once
and from which they are read again. -/
theorem ofValue?_toObject :
    (∀ value settings, ofValue? value = some settings ↔
      ∃ entries, value = .object entries ∧ settings.WrittenAs entries) ∧
    ∀ value : Value, value.Sorted → ∀ settings, ofValue? value = some settings →
      settings.cwd = "" ∧
      (∃ entries, value = .object entries ∧ settings.extra = entries.filter fun entry =>
        entry.1 ∉ ["root", "out_dir", "base", "public_dir", "dev", "build", "logging"]) ∧
      (names ++ Object.keys settings.extra).Nodup ∧
      settings.toObject.Perm (settings.options ++ settings.extra) ∧
      ofValue? (.object settings.toObject) = some settings := by
  refine ⟨fun _ _ => ofValue?_eq_some_iff, ?_⟩
  intro value hsorted settings h
  obtain ⟨entries, rfl, hwritten⟩ := ofValue?_eq_some_iff.mp h
  obtain ⟨hnodup, hperm⟩ := toObject_perm hsorted hwritten.extra
  refine ⟨hwritten.cwd, ⟨entries, rfl, ?_⟩, hnodup, hperm, ofValue?_of_writtenAs hsorted hwritten⟩
  rw [hwritten.extra, Object.without]
  refine List.filter_congr fun entry _ => ?_
  simp [names]

section Sample

def sampleWritten : Object := [
  ("base", .string "/"),
  ("build", .array [.bool true, .bool false, .number (.integer ⟨500, by decide⟩)]),
  ("cwd", .string "/elsewhere"),
  ("dev", .object [
    ("host", .string "localhost"),
    ("open", .bool false),
    ("port", .number (.integer ⟨8080, by decide⟩)),
    ("proxy", .string "/api")]),
  ("extra", .array [.null]),
  ("logging", .object [
    ("format", .string "pretty"),
    ("level", .string "info"),
    ("rotation", .string "daily"),
    ("stderr", .bool true)]),
  ("out_dir", .string "dist"),
  ("public_dir", .string "public"),
  ("root", .string "app")]

def sampleRead : Settings where
  root := "app"
  outDir := "dist"
  base := "/"
  publicDir := "public"
  dev := { host := "localhost", port := 8080, opensBrowser := false }
  build := {
    minify := true
    sourcemap := false
    chunkSizeWarningLimit := (Number.integer ⟨500, by decide⟩).toFloat }
  logging := { level := "info", format := "pretty", dir := none, rotation := "daily", stderr := true }
  extra := [("cwd", .string "/elsewhere"), ("extra", .array [.null])]
  cwd := ""

theorem sorted_sampleWritten : Value.Sorted (.object sampleWritten) := by
  simp only [sampleWritten, Value.Sorted, Value.SortedEntries, Value.SortedItems, and_true,
    Object.keys]
  decide

theorem writtenAs_sampleWritten : sampleRead.WrittenAs sampleWritten where
  root := rfl
  outDir := rfl
  base := rfl
  publicDir := rfl
  dev := ⟨_, rfl, ⟨8080, by decide⟩, rfl, .object (by simp [Object.find?, sampleRead])⟩
  build := ⟨_, rfl, _, rfl, .array rfl⟩
  logging := ⟨_, rfl, none, .inr ⟨rfl, rfl⟩, .object (by simp [Object.find?, sampleRead])⟩
  extra := rfl
  cwd := rfl

theorem ofValue?_toObject_sampleRead :
    Value.Sorted (.object sampleWritten) ∧ sampleRead.WrittenAs sampleWritten ∧
      ofValue? (.object sampleWritten) = some sampleRead ∧
      sampleRead.toObject.Perm (sampleRead.options ++ sampleRead.extra) ∧
      ofValue? (.object sampleRead.toObject) = some sampleRead := by
  have hread := (ofValue?_toObject.1 _ _).mpr ⟨_, rfl, writtenAs_sampleWritten⟩
  obtain ⟨-, -, -, hperm, hagain⟩ := ofValue?_toObject.2 _ sorted_sampleWritten _ hread
  exact ⟨sorted_sampleWritten, writtenAs_sampleWritten, hread, hperm, hagain⟩

end Sample

end Settings

end SiteConfig

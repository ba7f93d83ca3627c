import SiteConfig.Proofs.Layering
import SiteConfig.Proofs.Revalidation
/-!
# Settings of a validated value

What validation returns always holds settings: every scalar validator of the recognized options
gives values of the type that its option has in the settings. So a configuration is refused only as
a whole, by validation, or by the checks of meaning that follow.
-/
namespace SiteConfig

theorem LogFormat.isSome_ofName? (name : String) :
    (LogFormat.ofName? name).isSome = LogFormat.names.contains name.toLower := by
  rw [ofName?]
  split <;> simp_all [names]

theorem Rotation.isSome_ofName? (name : String) :
    (Rotation.ofName? name).isSome = Rotation.names.contains name.toLower := by
  rw [ofName?]
  split <;> simp_all [names]

namespace Validator

section Types

variable {raw : Option Value} {keypath : Keypath} {v : Value}

theorem exists_optionalString_of_validateField {default : Option String} {allowEmpty : Bool}
    (h : (validateField (.string default allowEmpty) raw keypath).result = .ok v) :
    ∃ s : Option String, v = s.elim .null .string ∧ (default.isSome = true → s.isSome = true) := by
  rw [validateField_string, validateString] at h
  split at h
  · exact ⟨default, (Except.ok.inj h).symm, id⟩
  · next s _ =>
    split at h
    · cases h
    · exact ⟨some s, (Except.ok.inj h).symm, fun _ => rfl⟩
  · cases h

theorem exists_string_of_validateField {default : String} {allowEmpty : Bool}
    (h : (validateField (.string (some default) allowEmpty) raw keypath).result = .ok v) :
    ∃ s, v = .string s := by
  obtain ⟨s, rfl, hs⟩ := exists_optionalString_of_validateField h
  obtain ⟨s, rfl⟩ := Option.isSome_iff_exists.mp (hs rfl)
  exact ⟨s, rfl⟩

theorem exists_bool_of_validateField {default : Bool}
    (h : (validateField (.boolean (some default)) raw keypath).result = .ok v) :
    ∃ b, v = .bool b := by
  rw [validateField_boolean, validateBoolean] at h
  split at h
  · exact ⟨default, (Except.ok.inj h).symm⟩
  · split at h
    · next b _ => exact ⟨b, (Except.ok.inj h).symm⟩
    · cases h

theorem exists_number_of_validateField {default : Binary64} (hdefault : default.IsFinite)
    (h : (validateField (.number (some default)) raw keypath).result = .ok v) :
    ∃ n, v = .number n := by
  have hnumber (x : Binary64.Finite) : ∃ n, floatValue x.val = .number n := by
    rw [floatValue_val]
    exact exists_finiteValue_eq_number x
  rw [validateField_number, validateNumber] at h
  split at h
  · rw [← Except.ok.inj h]
    exact hnumber ⟨default, hdefault⟩
  · split at h
    · next x _ =>
      rw [← Except.ok.inj h]
      exact hnumber x
    · cases h

theorem le_and_le_of_checkRange {least greatest : Int} {n m : Signed64}
    (h : checkRange (some (least, greatest)) n keypath = .ok m) :
    least ≤ n.val ∧ n.val ≤ greatest := by
  rw [checkRange] at h
  split at h
  · assumption
  · cases h

theorem exists_whole_of_validateField {default : Signed64} {least greatest : Int}
    (hdefault : least ≤ default.val ∧ default.val ≤ greatest)
    (h : (validateField (.integer (some default) (some (least, greatest))) raw keypath).result =
      .ok v) :
    ∃ n, v = .number (.ofSigned n) ∧ least ≤ n.val ∧ n.val ≤ greatest := by
  rw [validateField_integer] at h
  cases hinteger : validateInteger (some default) (some (least, greatest)) raw keypath with
  | error e =>
    rw [hinteger] at h
    cases h
  | ok o =>
    rw [hinteger] at h
    cases hpresent : present raw with
    | none =>
      have ho : some default = o := by simpa [validateInteger, hpresent] using hinteger
      subst ho
      exact ⟨default, (Except.ok.inj h).symm, hdefault⟩
    | some value =>
      obtain ⟨n, rfl, hrange⟩ := checkRange_of_validateInteger hpresent hinteger
      exact ⟨n, (Except.ok.inj h).symm, le_and_le_of_checkRange hrange⟩

end Types

theorem exists_section_of_subvalue {entries : Object} {name option : String} {v : Value}
    (h : subvalue (some (.object entries)) [name, option] = some v) :
    ∃ inner, Object.find? name entries = some (.object inner) ∧
      ∀ other, subvalue (some (.object entries)) [name, other] = Object.find? other inner := by
  rw [subvalue] at h
  cases hfind : Object.find? name entries with
  | none =>
    rw [hfind] at h
    cases h
  | some value =>
    rw [hfind] at h
    cases value with
    | object inner => exact ⟨inner, rfl, fun other => by simp only [subvalue, hfind]⟩
    | _ => cases h

end Validator

section Options

theorem Value.asPort?_of_toNat {n : WholeNumber} {port : UInt16} (h : n.val = port.toNat) :
    Value.asPort? (.number (.integer n)) = some port := by
  have hport := port.toNat_lt
  rw [Value.asPort?, dif_pos (by omega)]
  congr 1
  apply UInt16.toNat_inj.mp
  simp [h]

theorem DevSettings.ofValue?_object {entries : Object} {dev : DevSettings} {n : WholeNumber}
    (hhost : Object.find? "host" entries = some (.string dev.host))
    (hport : Object.find? "port" entries = some (.number (.integer n)))
    (hn : n.val = dev.port.toNat)
    (hopen : Object.find? "open" entries = some (.bool dev.opensBrowser)) :
    DevSettings.ofValue? (.object entries) = some dev := by
  have hsection : Value.section? names (.object entries) = some [some (.string dev.host),
      some (.number (.integer n)), some (.bool dev.opensBrowser)] := by
    simp [Value.section?, names, hhost, hport, hopen]
  simp [ofValue?, hsection, Value.asString?, Value.asPort?_of_toNat hn, Value.asBool?]

theorem BuildSettings.ofValue?_object {entries : Object} {build : BuildSettings} {n : Number}
    (hminify : Object.find? "minify" entries = some (.bool build.minify))
    (hsourcemap : Object.find? "sourcemap" entries = some (.bool build.sourcemap))
    (hlimit : Object.find? "chunk_size_warning_limit" entries = some (.number n))
    (hn : n.toFloat = build.chunkSizeWarningLimit) :
    BuildSettings.ofValue? (.object entries) = some build := by
  have hsection : Value.section? names (.object entries) = some [some (.bool build.minify),
      some (.bool build.sourcemap), some (.number n)] := by
    simp [Value.section?, names, hminify, hsourcemap, hlimit]
  simp [ofValue?, hsection, Value.asBool?, Value.asFloat?, hn]

theorem LoggingSettings.ofValue?_object {entries : Object} {logging : LoggingSettings}
    (hlevel : Object.find? "level" entries = some (.string logging.level))
    (hformat : Object.find? "format" entries = some (.string logging.format))
    (hdir : Object.find? "dir" entries = some (logging.dir.elim .null .string))
    (hrotation : Object.find? "rotation" entries = some (.string logging.rotation))
    (hstderr : Object.find? "stderr" entries = some (.bool logging.stderr)) :
    LoggingSettings.ofValue? (.object entries) = some logging := by
  have hsection : Value.section? names (.object entries) = some [some (.string logging.level),
      some (.string logging.format), some (logging.dir.elim .null .string),
      some (.string logging.rotation), some (.bool logging.stderr)] := by
    simp [Value.section?, names, hlevel, hformat, hdir, hrotation, hstderr]
  have hoptional : Value.asOptionalString? (some (logging.dir.elim .null .string)) =
      some logging.dir := by
    cases logging.dir <;> rfl
  simp [ofValue?, hsection, Value.asString?, Value.asBool?, hoptional]

end Options

namespace Settings

open Overlay Validator

/-- A value holds the options of settings, each at its place. -/
structure Holds (value : Value) (settings : Settings) : Prop where
  root : subvalue (some value) ["root"] = some (.string settings.root)
  outDir : subvalue (some value) ["out_dir"] = some (.string settings.outDir)
  base : subvalue (some value) ["base"] = some (.string settings.base)
  publicDir : subvalue (some value) ["public_dir"] = some (.string settings.publicDir)
  host : subvalue (some value) ["dev", "host"] = some (.string settings.dev.host)
  port : ∃ n, subvalue (some value) ["dev", "port"] = some (.number (.integer n)) ∧
    n.val = settings.dev.port.toNat
  opensBrowser : subvalue (some value) ["dev", "open"] = some (.bool settings.dev.opensBrowser)
  minify : subvalue (some value) ["build", "minify"] = some (.bool settings.build.minify)
  sourcemap : subvalue (some value) ["build", "sourcemap"] = some (.bool settings.build.sourcemap)
  chunkSizeWarningLimit : ∃ n,
    subvalue (some value) ["build", "chunk_size_warning_limit"] = some (.number n) ∧
      n.toFloat = settings.build.chunkSizeWarningLimit
  level : subvalue (some value) ["logging", "level"] = some (.string settings.logging.level)
  format : subvalue (some value) ["logging", "format"] = some (.string settings.logging.format)
  dir : subvalue (some value) ["logging", "dir"] =
    some (settings.logging.dir.elim .null .string)
  rotation : subvalue (some value) ["logging", "rotation"] =
    some (.string settings.logging.rotation)
  stderr : subvalue (some value) ["logging", "stderr"] = some (.bool settings.logging.stderr)

theorem ofValue?_of_holds {entries : Object} {settings : Settings}
    (h : Holds (.object entries) settings) :
    ofValue? (.object entries) =
      some { settings with extra := Object.without names entries, cwd := "" } := by
  have hroot : Object.find? "root" entries = some (.string settings.root) := h.root
  have houtDir : Object.find? "out_dir" entries = some (.string settings.outDir) := h.outDir
  have hbase : Object.find? "base" entries = some (.string settings.base) := h.base
  have hpublicDir : Object.find? "public_dir" entries = some (.string settings.publicDir) :=
    h.publicDir
  obtain ⟨dev, hdev, hindev⟩ := exists_section_of_subvalue h.host
  obtain ⟨build, hbuild, hinbuild⟩ := exists_section_of_subvalue h.minify
  obtain ⟨logging, hlogging, hinlogging⟩ := exists_section_of_subvalue h.level
  obtain ⟨port, hport, hportval⟩ := h.port
  obtain ⟨limit, hlimit, hlimitval⟩ := h.chunkSizeWarningLimit
  have hdevsettings := DevSettings.ofValue?_object ((hindev _).symm.trans h.host)
    ((hindev _).symm.trans hport) hportval ((hindev _).symm.trans h.opensBrowser)
  have hbuildsettings := BuildSettings.ofValue?_object ((hinbuild _).symm.trans h.minify)
    ((hinbuild _).symm.trans h.sourcemap) ((hinbuild _).symm.trans hlimit) hlimitval
  have hloggingsettings := LoggingSettings.ofValue?_object ((hinlogging _).symm.trans h.level)
    ((hinlogging _).symm.trans h.format) ((hinlogging _).symm.trans h.dir)
    ((hinlogging _).symm.trans h.rotation) ((hinlogging _).symm.trans h.stderr)
  simp [ofValue?, Value.object?, ofObject?, hroot, houtDir, hbase, hpublicDir, hdev, hbuild,
    hlogging, hdevsettings, hbuildsettings, hloggingsettings, Value.asString?]

theorem isFinite_defaultLimit : (Binary64.ofRatio false 500 1).IsFinite := by decide +kernel

/-- A completed configuration holds settings, whatever their undeclared options and directory. -/
theorem exists_holds {raw : Option Value} {validated : Value}
    (h : Completes validator raw .root validated) (extra : Object) (cwd : String) :
    ∃ settings, Holds validated settings ∧ settings.extra = extra ∧ settings.cwd = cwd := by
  have hplaces : ∀ place ∈ scalarPlaces validator, ∃ w,
      (place.2.validateField (subvalue raw place.1) (Keypath.root.descend place.1)).result = .ok w ∧
        subvalue (some validated) place.1 = some w := by
    rintro ⟨path, scalar⟩ hmem
    obtain ⟨hat, hscalar⟩ := (mem_scalarPlaces declared_validator).mp hmem
    exact h.scalars path scalar hat hscalar
  simp only [scalarPlaces_validator, List.forall_mem_cons, List.not_mem_nil, false_implies,
    implies_true, and_true] at hplaces
  obtain ⟨⟨_, hroot, hrootAt⟩, ⟨_, houtDir, houtDirAt⟩, ⟨_, hbase, hbaseAt⟩,
    ⟨_, hpublicDir, hpublicDirAt⟩, ⟨_, hhost, hhostAt⟩, ⟨_, hport, hportAt⟩, ⟨_, hopen, hopenAt⟩,
    ⟨_, hminify, hminifyAt⟩, ⟨_, hsourcemap, hsourcemapAt⟩, ⟨_, hlimit, hlimitAt⟩,
    ⟨_, hlevel, hlevelAt⟩, ⟨_, hformat, hformatAt⟩, ⟨_, hdir, hdirAt⟩,
    ⟨_, hrotation, hrotationAt⟩, ⟨_, hstderr, hstderrAt⟩⟩ := hplaces
  obtain ⟨root, rfl⟩ := exists_string_of_validateField hroot
  obtain ⟨outDir, rfl⟩ := exists_string_of_validateField houtDir
  obtain ⟨base, rfl⟩ := exists_string_of_validateField hbase
  obtain ⟨publicDir, rfl⟩ := exists_string_of_validateField hpublicDir
  obtain ⟨host, rfl⟩ := exists_string_of_validateField hhost
  obtain ⟨port, rfl, hleast, hgreatest⟩ := exists_whole_of_validateField (by decide) hport
  obtain ⟨opensBrowser, rfl⟩ := exists_bool_of_validateField hopen
  obtain ⟨minify, rfl⟩ := exists_bool_of_validateField hminify
  obtain ⟨sourcemap, rfl⟩ := exists_bool_of_validateField hsourcemap
  obtain ⟨limit, rfl⟩ := exists_number_of_validateField isFinite_defaultLimit hlimit
  obtain ⟨level, rfl⟩ := exists_string_of_validateField hlevel
  obtain ⟨format, rfl⟩ := exists_string_of_validateField hformat
  obtain ⟨dir, rfl, -⟩ := exists_optionalString_of_validateField hdir
  obtain ⟨rotation, rfl⟩ := exists_string_of_validateField hrotation
  obtain ⟨stderr, rfl⟩ := exists_bool_of_validateField hstderr
  have hword : port.val.toNat < UInt16.size := by
    have hsize : UInt16.size = 65536 := rfl
    omega
  exact ⟨{
    root, outDir, base, publicDir
    dev := { host, port := UInt16.ofNatLT port.val.toNat hword, opensBrowser }
    build := { minify, sourcemap, chunkSizeWarningLimit := limit.toFloat }
    logging := { level, format, dir, rotation, stderr }
    extra, cwd }, {
    root := hrootAt
    outDir := houtDirAt
    base := hbaseAt
    publicDir := hpublicDirAt
    host := hhostAt
    port := ⟨_, hportAt, (Int.toNat_of_nonneg hleast).symm⟩
    opensBrowser := hopenAt
    minify := hminifyAt
    sourcemap := hsourcemapAt
    chunkSizeWarningLimit := ⟨limit, hlimitAt, rfl⟩
    level := hlevelAt
    format := hformatAt
    dir := hdirAt
    rotation := hrotationAt
    stderr := hstderrAt }, rfl, rfl⟩

theorem without_of_completes {layered entries : Object}
    (hascending : (Object.keys layered).Pairwise (· < ·))
    (h : Completes validator (some (.object layered)) .root (.object entries)) :
    Object.without names entries = Object.without names layered := by
  obtain ⟨_, hsection, hentries, -⟩ := h.sections [] schema (.here _)
  cases hsection
  exact Object.without_congr hentries hascending fun name hname =>
    h.undeclared [] schema (.here _) name hname

section Meaning

/-- What is demanded of settings beyond their types, in the order of the checks, each with the
violation that is reported when it is not met. Names are compared in lower case. -/
def demands (settings : Settings) : List (Bool × Violation) := [
  (["trace", "debug", "info", "warn", "error"].contains settings.logging.level.toLower,
    .invalidValue ⟨["logging", "level"]⟩ (.notListed ["trace", "debug", "info", "warn", "error"])),
  (["json", "pretty"].contains settings.logging.format.toLower,
    .invalidValue ⟨["logging", "format"]⟩ (.notListed ["json", "pretty"])),
  (["daily", "hourly", "never"].contains settings.logging.rotation.toLower,
    .invalidValue ⟨["logging", "rotation"]⟩ (.notListed ["daily", "hourly", "never"])),
  (settings.build.chunkSizeWarningLimit.isPositive,
    .invalidValue ⟨["build", "chunk_size_warning_limit"]⟩ .notPositive)]

def firstUnmet? (settings : Settings) : Option Violation :=
  ((demands settings).find? fun demand => !demand.1).map Prod.snd

theorem checkMeaning_eq (settings : Settings) :
    settings.checkMeaning = (firstUnmet? settings).elim (.ok ()) .error := by
  rw [checkMeaning, LogFormat.isSome_ofName?, Rotation.isSome_ofName?, firstUnmet?, demands,
    Level.names, LogFormat.names, Rotation.names]
  cases ["trace", "debug", "info", "warn", "error"].contains settings.logging.level.toLower with
  | false => rfl
  | true =>
    cases ["json", "pretty"].contains settings.logging.format.toLower with
    | false => rfl
    | true =>
      cases ["daily", "hourly", "never"].contains settings.logging.rotation.toLower with
      | false => rfl
      | true => cases settings.build.chunkSizeWarningLimit.isPositive <;> rfl

end Meaning

theorem ofValidated_of_holds {entries : Object} {settings : Settings}
    (h : Holds (.object entries) settings) (hextra : settings.extra = Object.without names entries) :
    ofValidated settings.cwd (.object entries) =
      (firstUnmet? settings).elim (.ok settings) fun violation => .error (.validation violation) := by
  have hsettings : { settings with extra := Object.without names entries } = settings := by
    rw [← hextra]
  rw [ofValidated, ofValue?_of_holds h]
  dsimp only
  rw [hsettings, checkMeaning_eq]
  cases firstUnmet? settings <;> rfl

section Settled

variable {layered : Object} {validated : Value}

theorem completes_of_layered (h : Value.Sorted (.object layered))
    (hresult : (validator.validateField (some (.object layered)) .root).result = .ok validated) :
    Completes validator (some (.object layered)) .root validated :=
  completes_of_validateField declared_validator (fun _ hgiven => Option.some.inj hgiven ▸ h) hresult

theorem settled_of_holds (h : Value.Sorted (.object layered))
    (hresult : (validator.validateField (some (.object layered)) .root).result = .ok validated)
    {settings : Settings} (hholds : Holds validated settings)
    (hextra : settings.extra = Object.without names layered) :
    settled settings.cwd layered = (firstUnmet? settings).elim (.ok settings) fun violation =>
      .error (.validation violation) := by
  have hcompletes := completes_of_layered h hresult
  obtain ⟨entries, hobject, -⟩ := hcompletes.sections [] schema (.here _)
  obtain rfl : validated = .object entries := Option.some.inj hobject
  have hwithout := without_of_completes h.1 hcompletes
  rw [settled, hresult]
  exact ofValidated_of_holds hholds (hextra.trans hwithout.symm)

/-- What is made of a layered object: the violation that validation finds, or else the settings that
the validated value holds unless they do not meet a demand. -/
theorem settled_cases (cwd : String) (h : Value.Sorted (.object layered)) :
    (∃ violation,
      (validator.validateField (some (.object layered)) .root).result = .error violation ∧
        settled cwd layered = .error (.validation violation)) ∨
    ∃ validated settings,
      (validator.validateField (some (.object layered)) .root).result = .ok validated ∧
        Holds validated settings ∧ settings.extra = Object.without names layered ∧
        settings.cwd = cwd ∧
        settled cwd layered = (firstUnmet? settings).elim (.ok settings) fun violation =>
          .error (.validation violation) := by
  cases hresult : (validator.validateField (some (.object layered)) .root).result with
  | error violation => exact .inl ⟨violation, rfl, by rw [settled, hresult]⟩
  | ok validated =>
    obtain ⟨settings, hholds, hextra, rfl⟩ :=
      exists_holds (completes_of_layered h hresult) (Object.without names layered) cwd
    exact .inr ⟨validated, settings, rfl, hholds, hextra, rfl,
      settled_of_holds h hresult hholds hextra⟩

theorem holds_of_settled {cwd : String} {settings : Settings} (h : Value.Sorted (.object layered))
    (hsettled : settled cwd layered = .ok settings) :
    ∃ validated,
      (validator.validateField (some (.object layered)) .root).result = .ok validated ∧
        Holds validated settings ∧ settings.extra = Object.without names layered ∧
        settings.cwd = cwd ∧ firstUnmet? settings = none := by
  rcases settled_cases cwd h with ⟨violation, -, hviolation⟩ |
    ⟨validated, held, hresult, hholds, hextra, hcwd, hheld⟩
  · rw [hviolation] at hsettled
    cases hsettled
  · rw [hheld] at hsettled
    cases hunmet : firstUnmet? held with
    | none =>
      rw [hunmet] at hsettled
      cases hsettled
      exact ⟨validated, hresult, hholds, hextra, hcwd, hunmet⟩
    | some violation =>
      rw [hunmet] at hsettled
      cases hsettled

end Settled

/-- A configuration is refused because it is no object, because validation refuses the object with
the environment over it, or because of the first demand that is not met. Otherwise it gives the
settings that the validated value holds, with all undeclared options. However values are merged, the
environment over an object is an object. -/
theorem process_gives_held_settings (raw : Value) (hraw : raw.Sorted) (context : Context) :
    (∀ error, (process raw context).result = .error error →
      (raw.object? = none ∧ error = .notAnObject raw.kind) ∨
        ∃ violation, error = .validation violation) ∧
    (raw.object? = none → (process raw context).result = .error (.notAnObject raw.kind)) ∧
    ∀ entries, raw = .object entries →
      (∀ merge, Merges merge →
        merged merge (overrides context) raw = .object (layer (overrides context) entries)) ∧
      ((∃ violation,
        (validator.validateField (some (.object (layer (overrides context) entries)))
          .root).result = .error violation ∧
          (process raw context).result = .error (.validation violation)) ∨
      ∃ validated settings,
        (validator.validateField (some (.object (layer (overrides context) entries)))
          .root).result = .ok validated ∧
          Holds validated settings ∧
          settings.extra = Object.without names (layer (overrides context) entries) ∧
          settings.cwd = context.cwd ∧
          (process raw context).result = (firstUnmet? settings).elim (.ok settings)
            fun violation => .error (.validation violation)) := by
  refine ⟨?_, fun hnone => process_of_not_object hnone context, ?_⟩
  · intro error herror
    cases hobject : raw.object? with
    | none =>
      rw [process_of_not_object hobject] at herror
      exact .inl ⟨rfl, (Except.error.inj herror).symm⟩
    | some entries =>
      obtain rfl := Value.eq_object_of_object? hobject
      rw [process_object] at herror
      rcases settled_cases context.cwd (sorted_layer (overrides context) hraw) with
        ⟨violation, -, hviolation⟩ | ⟨_, settings, -, -, -, -, hsettings⟩
      · rw [hviolation] at herror
        exact .inr ⟨violation, (Except.error.inj herror).symm⟩
      · rw [hsettings] at herror
        cases hunmet : firstUnmet? settings with
        | none =>
          rw [hunmet] at herror
          cases herror
        | some violation =>
          rw [hunmet] at herror
          exact .inr ⟨violation, (Except.error.inj herror).symm⟩
  · rintro entries rfl
    refine ⟨fun merge hmerge => merged_eq_layer hmerge (fun _ => ne_nil_of_mem_overrides) hraw, ?_⟩
    rw [process_object]
    exact settled_cases context.cwd (sorted_layer (overrides context) hraw)

section Sample

def sampleContext : Context := ⟨"/site", some "SUV_", sampleEnvironment⟩

def sampleLayered : Object :=
  [("dev", .object [("port", .string "8080")]), ("extra", .array [.null]), ("root", .string "app")]

def sampleDev : Value := .object [
  ("host", .string "localhost"),
  ("open", .bool false),
  ("port", .number (.ofSigned (wholeDefault 8080)))]

def sampleBuild : Value := .object [
  ("chunk_size_warning_limit", .number (.ofSigned (wholeDefault 500))),
  ("minify", .bool true),
  ("sourcemap", .bool false)]

def sampleLogging : Value := .object [
  ("dir", .null),
  ("format", .string "pretty"),
  ("level", .string "info"),
  ("rotation", .string "daily"),
  ("stderr", .bool true)]

def sampleCompleted : Object := [
  ("base", .string "/"),
  ("build", sampleBuild),
  ("dev", sampleDev),
  ("extra", .array [.null]),
  ("logging", sampleLogging),
  ("out_dir", .string "dist"),
  ("public_dir", .string "public"),
  ("root", .string "app")]

theorem floatValue_defaultLimit :
    floatValue (Binary64.ofRatio false 500 1) = .number (.ofSigned (wholeDefault 500)) := by
  have hwhole : Binary64.Finite.whole? ⟨_, isFinite_defaultLimit⟩ = some 500 := by decide +kernel
  have hvalue := floatValue_val ⟨_, isFinite_defaultLimit⟩
  rw [hvalue]
  exact finiteValue_of_whole (by rw [hwhole]; rfl)

theorem validateField_buildSchema (keypath : Keypath) :
    (validateField (.object buildSchema) none keypath).result = .ok sampleBuild := by
  have hlimit : outcome [] keypath ⟨"chunk_size_warning_limit", false,
      .number (Binary64.ofRatio false 500 1)⟩ = .ok (.number (.ofSigned (wholeDefault 500))) := by
    refine outcome_eq_ok_iff.mpr ⟨nofun, ?_⟩
    rw [validateField_number, validateNumber]
    simp only [Object.find?, present, Except.map, Option.elim_some, floatValue_defaultLimit]
  have hfields : (validateFields buildSchema [] keypath).result = .ok [("minify", .bool true),
      ("sourcemap", .bool false),
      ("chunk_size_warning_limit", .number (.ofSigned (wholeDefault 500)))] := by
    have hschema : buildSchema = [⟨"minify", false, .boolean true⟩,
        ⟨"sourcemap", false, .boolean false⟩, ⟨"chunk_size_warning_limit", false,
          .number (Binary64.ofRatio false 500 1)⟩] := rfl
    rw [hschema]
    refine validateFields_cons_eq_ok.mpr ⟨_, _, rfl, ?_, rfl⟩
    refine validateFields_cons_eq_ok.mpr ⟨_, _, rfl, ?_, rfl⟩
    exact validateFields_cons_eq_ok.mpr ⟨_, _, hlimit, validateFields_nil, rfl⟩
  rw [validateField_object rfl, hfields]
  rfl

theorem validateField_sampleLayered :
    (validator.validateField (some (.object sampleLayered)) .root).result =
      .ok (.object sampleCompleted) := by
  have hfields : (validateFields schema sampleLayered .root).result = .ok [
      ("root", .string "app"), ("out_dir", .string "dist"), ("base", .string "/"),
      ("public_dir", .string "public"), ("dev", sampleDev), ("build", sampleBuild),
      ("logging", sampleLogging)] := by
    have hschema : schema = [
        ⟨"root", false, .string "src" false⟩, ⟨"out_dir", false, .string "dist" false⟩,
        ⟨"base", false, .string "/" true⟩, ⟨"public_dir", false, .string "public" true⟩,
        ⟨"dev", false, .object devSchema⟩, ⟨"build", false, .object buildSchema⟩,
        ⟨"logging", false, .object loggingSchema⟩] := rfl
    have hbuild : outcome sampleLayered .root ⟨"build", false, .object buildSchema⟩ =
        .ok sampleBuild := outcome_eq_ok_iff.mpr ⟨nofun, validateField_buildSchema _⟩
    rw [hschema]
    refine validateFields_cons_eq_ok.mpr ⟨_, _, rfl, ?_, rfl⟩
    refine validateFields_cons_eq_ok.mpr ⟨_, _, rfl, ?_, rfl⟩
    refine validateFields_cons_eq_ok.mpr ⟨_, _, rfl, ?_, rfl⟩
    refine validateFields_cons_eq_ok.mpr ⟨_, _, rfl, ?_, rfl⟩
    refine validateFields_cons_eq_ok.mpr ⟨_, _, rfl, ?_, rfl⟩
    refine validateFields_cons_eq_ok.mpr ⟨_, _, hbuild, ?_, rfl⟩
    refine validateFields_cons_eq_ok.mpr ⟨_, _, rfl, ?_, rfl⟩
    exact validateFields_nil
  rw [validator, validateField_object rfl, hfields]
  rfl

theorem process_gives_held_settings_sample :
    Value.Sorted (.object sampleEntries) ∧
      (validator.validateField (some (.object (layer (overrides sampleContext) sampleEntries)))
        .root).result = .ok (.object sampleCompleted) ∧
      ∃ settings, Holds (.object sampleCompleted) settings ∧
        settings.extra = [("extra", .array [.null])] ∧ settings.cwd = "/site" ∧
        (process (.object sampleEntries) sampleContext).result =
          (firstUnmet? settings).elim (.ok settings) fun violation =>
            .error (.validation violation) := by
  refine ⟨sorted_sampleEntries, validateField_sampleLayered, ?_⟩
  have h := process_gives_held_settings (.object sampleEntries) sorted_sampleEntries sampleContext
  rcases (h.2.2 _ rfl).2 with ⟨violation, hviolation, -⟩ |
    ⟨validated, settings, hvalidated, hholds, hextra, hcwd, hresult⟩
  · cases hviolation.symm.trans validateField_sampleLayered
  · cases hvalidated.symm.trans validateField_sampleLayered
    exact ⟨settings, hholds, hextra, hcwd, hresult⟩

end Sample

end Settings

end SiteConfig

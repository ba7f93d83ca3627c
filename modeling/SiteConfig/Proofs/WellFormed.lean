import SiteConfig.Logging.Installation
import SiteConfig.Proofs.Projection
/-!
# Well-formed settings

Settings that processing gives can be used as they are: no directory or host is empty, the chunk
limit is positive, and the log options are names that the logger knows. The check of the settings
and the logger know the same names of levels.
-/
namespace SiteConfig

section Names

/-- A way of putting text in lower case, as far as the names of levels can tell: text of ASCII
becomes its small letters, and of any other character something stays that is in no such name. The
only one of them that becomes a letter of ASCII is the Kelvin sign, a `k`. -/
structure LowersCase (lower : String → String) : Prop where
  ascii : ∀ text, (∀ c ∈ text.toList, c.toNat < 0x80) → lower text = text.toLower
  beyond : ∀ text, ∀ c ∈ text.toList, 0x80 ≤ c.toNat →
    ∃ d ∈ (lower text).toList, d = 'k' ∨ 0x80 ≤ d.toNat

theorem toLower_of_beyond {c : Char} (h : 0x80 ≤ c.toNat) : c.toLower = c := by
  have hupper : ¬(c.val ≥ 'A'.val ∧ c.val ≤ 'Z'.val) := by
    intro hc
    have hle : c.toNat ≤ 'Z'.toNat := UInt32.le_iff_toNat_le.mp hc.2
    have hlast : 'Z'.toNat = 90 := rfl
    omega
  exact dif_neg hupper

theorem toList_toLower (text : String) : text.toLower.toList = text.toList.map Char.toLower :=
  String.toList_map

theorem lowersCase_toLower : LowersCase String.toLower := by
  constructor
  · intro text _
    rfl
  · intro text c hc hbeyond
    refine ⟨c, ?_, .inr hbeyond⟩
    rw [toList_toLower]
    exact List.mem_map.mpr ⟨c, hc, toLower_of_beyond hbeyond⟩

theorem Level.not_mem_names {text : String} {d : Char} (hd : d ∈ text.toList)
    (h : d = 'k' ∨ 0x80 ≤ d.toNat) : text ∉ Level.names := by
  have hplain : ∀ name ∈ Level.names, ∀ d ∈ name.toList, ¬(d = 'k' ∨ 0x80 ≤ d.toNat) := by
    simp [Level.names]
  intro hname
  exact hplain text hname d hd h

/-- The names that settings may have for a level are those that the logger knows. -/
theorem Level.isSome_ofName? (text : String) :
    (Level.ofName? text).isSome = Level.names.contains text.toLower := by
  rw [Level.ofName?]
  split <;> simp_all [Level.names]

theorem Level.ofName?_eq_none_iff {text : String} :
    Level.ofName? text = none ↔ Level.names.contains text.toLower = false := by
  rw [← Level.isSome_ofName?, Option.isSome_eq_false_iff, Option.isNone_iff_eq_none]

theorem Level.isSome_ofName?_iff {lower : String → String} (hlower : LowersCase lower)
    (text : String) : (Level.ofName? text).isSome = true ↔ lower text ∈ Level.names := by
  rw [Level.isSome_ofName?, List.contains_iff_mem]
  by_cases hascii : ∀ c ∈ text.toList, c.toNat < 0x80
  · rw [hlower.ascii text hascii]
  · simp only [not_forall, Nat.not_lt] at hascii
    obtain ⟨c, hc, hbeyond⟩ := hascii
    have hnone {lower : String → String} (hlower : LowersCase lower) :
        lower text ∉ Level.names := by
      obtain ⟨d, hd, hplain⟩ := hlower.beyond text c hc hbeyond
      exact Level.not_mem_names hd hplain
    exact iff_of_false (hnone lowersCase_toLower) (hnone hlower)

end Names

/-- A logger refuses its settings for their level only if no level has that name. -/
theorem Log.setUp_eq_unknownLevel_iff (log : Log) (context : LogContext) (settings : LogSettings) :
    (∃ unknown, (log.setUp context settings).2 = .error (.unknownLevel unknown)) ↔
      Level.ofName? settings.level = none := by
  rw [Log.setUp]
  cases Level.ofName? settings.level with
  | none => simp
  | some level =>
    dsimp only
    split <;> simp

namespace Validator

theorem ne_some_empty_of_validateField {default : Option String} (hdefault : default ≠ some "")
    {raw : Option Value} {keypath : Keypath} {s : Option String}
    (h : (validateField (.string default false) raw keypath).result =
      .ok (s.elim .null .string)) : s ≠ some "" := by
  have hinjective : ∀ t : Option String,
      (t.elim .null .string : Value) = s.elim .null .string → t = s := by
    intro t ht
    cases t <;> cases s <;> simp_all
  rw [validateField_string, validateString] at h
  split at h
  · exact hinjective _ (Except.ok.inj h) ▸ hdefault
  · next text _ =>
    split at h
    · cases h
    · next hempty =>
      rw [← hinjective (some text) (Except.ok.inj h)]
      intro htext
      simp [Option.some.inj htext] at hempty
  · cases h

end Validator

namespace Settings

open Overlay Validator

/-- What every use of the settings relies on beyond their types. -/
structure WellFormed (settings : Settings) : Prop where
  root : settings.root ≠ ""
  outDir : settings.outDir ≠ ""
  host : settings.dev.host ≠ ""
  dir : settings.logging.dir ≠ some ""
  finite : settings.build.chunkSizeWarningLimit.val.IsFinite
  positive : settings.build.chunkSizeWarningLimit.val.negative = false ∧
    0 < settings.build.chunkSizeWarningLimit.val.units

/-- The log options say what a logger is set up with, and it knows the level. -/
structure ConfiguresLog (settings : Settings) (log : LogSettings) : Prop where
  level : log.level = settings.logging.level
  known : ∃ level, Level.ofName? log.level = some level
  format : LogFormat.ofName? settings.logging.format = some log.format
  rotation : Rotation.ofName? settings.logging.rotation = some log.rotation
  dir : log.dir = settings.logDirPath
  stderr : log.stderr = settings.logging.stderr

/-- The four strings that may not be empty are not, as validation sees to it. -/
theorem ne_empty_of_holds {layered : Object} {validated : Value} {settings : Settings}
    (h : Completes validator (some (.object layered)) .root validated)
    (hholds : Holds validated settings) :
    settings.root ≠ "" ∧ settings.outDir ≠ "" ∧ settings.dev.host ≠ "" ∧
      settings.logging.dir ≠ some "" := by
  have hplace : ∀ path default (s : Option String), default ≠ some "" →
      (path, Validator.string default false) ∈ scalarPlaces validator →
      subvalue (some validated) path = some (s.elim .null .string) → s ≠ some "" := by
    intro path default s hdefault hmem hs
    obtain ⟨hat, hscalar⟩ := (mem_scalarPlaces declared_validator).mp hmem
    obtain ⟨w, hw, hplace⟩ := h.scalars path _ hat hscalar
    apply ne_some_empty_of_validateField hdefault
    rw [← Option.some.inj (hplace.symm.trans hs)]
    exact hw
  have hroot := hplace ["root"] (some "src") (some settings.root) (by simp)
    (by simp [scalarPlaces_validator]) hholds.root
  have houtDir := hplace ["out_dir"] (some "dist") (some settings.outDir) (by simp)
    (by simp [scalarPlaces_validator]) hholds.outDir
  have hhost := hplace ["dev", "host"] (some "localhost") (some settings.dev.host) (by simp)
    (by simp [scalarPlaces_validator]) hholds.host
  have hdir := hplace ["logging", "dir"] none settings.logging.dir (by simp)
    (by simp [scalarPlaces_validator]) hholds.dir
  simp only [ne_eq, Option.some.injEq] at hroot houtDir hhost
  exact ⟨hroot, houtDir, hhost, hdir⟩

section Checks

variable {settings : Settings}

theorem demands_of_firstUnmet? (h : firstUnmet? settings = none) :
    (Level.ofName? settings.logging.level).isSome = true ∧
      (LogFormat.ofName? settings.logging.format).isSome = true ∧
      (Rotation.ofName? settings.logging.rotation).isSome = true ∧
      settings.build.chunkSizeWarningLimit.isPositive = true := by
  rw [firstUnmet?, Option.map_eq_none_iff, List.find?_eq_none] at h
  simp only [demands, List.forall_mem_cons, Bool.not_eq_true, Bool.not_eq_false'] at h
  obtain ⟨hlevel, hformat, hrotation, hpositive, -⟩ := h
  refine ⟨?_, ?_, ?_, hpositive⟩
  · exact (Level.isSome_ofName? _).trans hlevel
  · exact (LogFormat.isSome_ofName? _).trans hformat
  · exact (Rotation.isSome_ofName? _).trans hrotation

/-- The check refuses settings for their level exactly if no level has that name. -/
theorem checkMeaning_eq_level_iff :
    (∃ flaw, settings.checkMeaning = .error (.invalidValue ⟨["logging", "level"]⟩ flaw)) ↔
      Level.ofName? settings.logging.level = none := by
  rw [checkMeaning, Level.ofName?_eq_none_iff]
  cases Level.names.contains settings.logging.level.toLower with
  | false => simp [check, bind, Except.bind]
  | true =>
    cases (LogFormat.ofName? settings.logging.format).isSome <;>
      cases (Rotation.ofName? settings.logging.rotation).isSome <;>
        cases settings.build.chunkSizeWarningLimit.isPositive <;>
          simp [check, bind, Except.bind]

end Checks

theorem wellFormed_of_holds {layered : Object} {validated : Value} {settings : Settings}
    (h : Completes validator (some (.object layered)) .root validated)
    (hholds : Holds validated settings) (hmet : firstUnmet? settings = none) :
    WellFormed settings := by
  obtain ⟨hroot, houtDir, hhost, hdir⟩ := ne_empty_of_holds h hholds
  have hpositive := (demands_of_firstUnmet? hmet).2.2.2
  simp only [Binary64.Finite.isPositive, Bool.and_eq_true, Bool.not_eq_true', bne_iff_ne]
    at hpositive
  exact ⟨hroot, houtDir, hhost, hdir, settings.build.chunkSizeWarningLimit.property, hpositive.1,
    Nat.pos_of_ne_zero hpositive.2⟩

theorem configuresLog_log (settings : Settings) (hmet : firstUnmet? settings = none) :
    ConfiguresLog settings settings.log := by
  obtain ⟨hlevel, hformat, hrotation, -⟩ := demands_of_firstUnmet? hmet
  obtain ⟨level, hlevel⟩ := Option.isSome_iff_exists.mp hlevel
  obtain ⟨format, hformat⟩ := Option.isSome_iff_exists.mp hformat
  obtain ⟨rotation, hrotation⟩ := Option.isSome_iff_exists.mp hrotation
  constructor
  · rfl
  · exact ⟨level, hlevel⟩
  · rw [log, hformat, Option.getD_some]
  · rw [log, hrotation, Option.getD_some]
  · rfl
  · rfl

/-- Settings that processing gives are well formed, say what the logger is set up with, and are
never refused by it for their level. A level passes the check of the settings exactly if the logger
knows it, however text is put in lower case. -/
theorem process_wellFormed :
    (∀ raw : Value, raw.Sorted → ∀ (context : Context) (settings : Settings),
      (process raw context).result = .ok settings →
        WellFormed settings ∧ ConfiguresLog settings settings.log ∧
          ∀ (log : Log) (surroundings : LogContext) (unknown : String),
            (log.setUp surroundings settings.log).2 ≠ .error (.unknownLevel unknown)) ∧
    (∀ (settings : Settings) (log : Log) (surroundings : LogContext),
      (∃ flaw, settings.checkMeaning = .error (.invalidValue ⟨["logging", "level"]⟩ flaw)) ↔
        ∃ unknown, (log.setUp surroundings settings.log).2 = .error (.unknownLevel unknown)) ∧
    ∀ lower, LowersCase lower → ∀ text, (Level.ofName? text).isSome = true ↔
      lower text ∈ Level.names := by
  refine ⟨?_, ?_, fun lower hlower text => Level.isSome_ofName?_iff hlower text⟩
  · intro raw hraw context settings h
    cases hobject : raw.object? with
    | none =>
      rw [process_of_not_object hobject] at h
      cases h
    | some entries =>
      obtain rfl := Value.eq_object_of_object? hobject
      have hlayered := sorted_layer (overrides context) hraw
      rw [process_object] at h
      obtain ⟨validated, hvalidated, hholds, -, -, hmet⟩ := holds_of_settled hlayered h
      have hconfigures := configuresLog_log settings hmet
      have hwellFormed := wellFormed_of_holds (completes_of_layered hlayered hvalidated) hholds hmet
      refine ⟨hwellFormed, hconfigures, ?_⟩
      intro log surroundings unknown hrefused
      have hunknown :=
        (log.setUp_eq_unknownLevel_iff surroundings settings.log).mp ⟨unknown, hrefused⟩
      obtain ⟨level, hlevel⟩ := hconfigures.known
      rw [hunknown] at hlevel
      cases hlevel
  · intro settings log surroundings
    rw [checkMeaning_eq_level_iff, log.setUp_eq_unknownLevel_iff]
    rfl

section Sample

def lowerKelvin (text : String) : String :=
  text.map fun c => if c = '\u212a' then 'k' else c.toLower

theorem lowersCase_lowerKelvin : LowersCase lowerKelvin := by
  constructor
  · intro text hascii
    apply String.toList_inj.mp
    rw [lowerKelvin, toList_toLower, String.toList_map]
    apply List.map_congr_left
    intro c hc
    have hne : c ≠ '\u212a' := by
      intro heq
      exact absurd (heq ▸ hascii c hc) (by decide)
    exact if_neg hne
  · intro text c hc hbeyond
    rw [lowerKelvin, String.toList_map]
    refine ⟨_, List.mem_map.mpr ⟨c, hc, rfl⟩, ?_⟩
    by_cases heq : c = '\u212a'
    · exact .inl (if_pos heq)
    · rw [if_neg heq, toLower_of_beyond hbeyond]
      exact .inr hbeyond

theorem process_wellFormed_sampleSettings :
    Value.Sorted (.object sampleEntries) ∧
      (process (.object sampleEntries) sampleContext).result = .ok sampleSettings ∧
      WellFormed sampleSettings ∧ ConfiguresLog sampleSettings sampleSettings.log ∧
      LowersCase lowerKelvin ∧ ((Level.ofName? "Trac\u212a").isSome = true ↔
        lowerKelvin "Trac\u212a" ∈ Level.names) := by
  obtain ⟨hgiven, -, hlevels⟩ := process_wellFormed
  obtain ⟨hwellFormed, hconfigures, -⟩ :=
    hgiven _ sorted_sampleEntries sampleContext _ process_sampleEntries
  exact ⟨sorted_sampleEntries, process_sampleEntries, hwellFormed, hconfigures,
    lowersCase_lowerKelvin, hlevels _ lowersCase_lowerKelvin _⟩

end Sample

end Settings

end SiteConfig

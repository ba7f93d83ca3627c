import SiteConfig.Proofs.Numbers
import SiteConfig.Proofs.Options
import SiteConfig.Proofs.Rounding
/-!
# Validating again

What validation returns passes validation unchanged, except where a missing value became a default
that its own validator refuses.
-/
namespace SiteConfig.Validator

open Binary64

/-- The defaults that their own validators refuse, with the flaw. -/
inductive DefaultFlaw : Validator → Flaw → Prop where
  | empty : DefaultFlaw (.string (some "") false) .empty
  | outside {n : Signed64} {least greatest : Int} (h : ¬(least ≤ n.val ∧ n.val ≤ greatest)) :
      DefaultFlaw (.integer (some n) (some (least, greatest))) (.outside least greatest n.val)

def AcceptsDefault (scalar : Validator) : Prop :=
  ∀ keypath d, (scalar.validateField none keypath).result = .ok d →
    ∃ v, (scalar.validateField (some d) keypath).result = .ok v

/-- Every scalar validator in the tree accepts its own default. -/
def DefaultsAccepted (validator : Validator) : Prop :=
  ∀ path scalar, At validator path scalar → scalar.IsScalar → scalar.AcceptsDefault

section Floats

theorem floatValue_val (x : Finite) : floatValue x.val = finiteValue x := by
  have hfinite : Finite.ofBinary64? x.val = some x := dif_pos x.property
  rw [floatValue, hfinite]

theorem floatValue_of_not_isFinite {x : Binary64} (h : ¬x.IsFinite) : floatValue x = .null := by
  have hnone : Finite.ofBinary64? x = none := dif_neg h
  rw [floatValue, hnone]

theorem finiteValue_of_whole {x : Finite} {n : Signed64}
    (h : x.whole?.bind Signed64.ofInt? = some n) : finiteValue x = .number (.ofSigned n) := by
  rw [finiteValue, h, Option.elim_some]

theorem finiteValue_of_not_whole {x : Finite} (h : x.whole?.bind Signed64.ofInt? = none) :
    finiteValue x = .number (.float x) := by
  rw [finiteValue, h, Option.elim_none]

theorem exists_finiteValue_eq_number (x : Finite) : ∃ n, finiteValue x = .number n := by
  rw [finiteValue]
  exact ⟨_, rfl⟩

theorem toFloat?_finiteValue (x : Finite) :
    ∃ y, toFloat? (finiteValue x) = some y ∧ finiteValue y = finiteValue x := by
  cases h : x.whole?.bind Signed64.ofInt? with
  | none => exact ⟨x, by rw [finiteValue_of_not_whole h, toFloat?, Number.toFloat], rfl⟩
  | some n =>
    obtain ⟨m, hm, hn⟩ := Option.bind_eq_some_iff.mp h
    have hmn : m = n.val := ((Signed64.ofInt?_eq_some_iff m n).mp hn).symm
    subst hmn
    have hword : n.val.natAbs < 2 ^ 64 := by
      have hbounds := n.property
      omega
    have hagain : (Number.ofSigned n).toFloat.whole? = some n.val := Finite.whole?_ofInt hm hword
    refine ⟨(Number.ofSigned n).toFloat, by rw [finiteValue_of_whole h, toFloat?], ?_⟩
    rw [finiteValue_of_whole h]
    exact finiteValue_of_whole (by rw [hagain, Option.bind_some, hn])

end Floats

/-- A second validation returns the same value, or finds the flaw of a default that a missing value
became. -/
def StableUpToDefaults (validator : Validator) (raw : Option Value) (keypath : Keypath) (v : Value) :
    Prop :=
  (validator.validateField (some v) keypath).result = .ok v ∨
    ∃ path scalar flaw, At validator path scalar ∧ DefaultFlaw scalar flaw ∧
      present (subvalue raw path) = none ∧
        (validator.validateField (some v) keypath).result =
          .error (.invalidValue (keypath.descend path) flaw)

section Scalars

variable {raw : Option Value} {keypath : Keypath} {v : Value}

theorem StableUpToDefaults.of_flaw {scalar : Validator} {flaw : Flaw}
    (hflaw : DefaultFlaw scalar flaw) (hmissing : present raw = none)
    (herror : (scalar.validateField (some v) keypath).result =
      .error (.invalidValue keypath flaw)) : StableUpToDefaults scalar raw keypath v :=
  .inr ⟨[], scalar, flaw, .here _, hflaw, by simpa using hmissing, by simpa using herror⟩

theorem stable_string {default : Option String} {allowEmpty : Bool}
    (h : (validateField (.string default allowEmpty) raw keypath).result = .ok v) :
    StableUpToDefaults (.string default allowEmpty) raw keypath v := by
  rw [validateField_string, validateString] at h
  have hagain (s : String) :
      (validateField (.string default allowEmpty) (some (.string s)) keypath).result =
        if s.isEmpty && !allowEmpty then .error (.invalidValue keypath .empty)
        else .ok (.string s) := by
    rw [validateField_string]
    simp only [validateString, present]
    split <;> rfl
  split at h
  · next hmissing =>
    cases default with
    | none =>
      cases h
      exact .inl (validateField_missing rfl rfl)
    | some s =>
      cases h
      by_cases hempty : (s.isEmpty && !allowEmpty) = true
      · obtain ⟨hs, hallow⟩ := Bool.and_eq_true_iff.mp hempty
        have hs : s = "" := String.isEmpty_iff.mp hs
        have hallow : allowEmpty = false := by simpa using hallow
        subst hs hallow
        exact .of_flaw .empty hmissing (hagain "")
      · exact .inl ((hagain s).trans (if_neg hempty))
  · next s _ =>
    split at h
    · cases h
    · next hempty =>
      cases h
      exact .inl ((hagain s).trans (if_neg hempty))
  · cases h

theorem stable_number {default : Option Binary64}
    (h : (validateField (.number default) raw keypath).result = .ok v) :
    StableUpToDefaults (.number default) raw keypath v := by
  rw [validateField_number, validateNumber] at h
  have hagain (x : Finite) :
      (validateField (.number default) (some (finiteValue x)) keypath).result =
        .ok (finiteValue x) := by
    obtain ⟨y, hy, hxy⟩ := toFloat?_finiteValue x
    obtain ⟨n, hn⟩ := exists_finiteValue_eq_number x
    rw [hn] at hy
    rw [validateField_number, hn]
    simp only [validateNumber, present, hy, Except.map, Option.elim_some, floatValue_val, hxy, hn]
  split at h
  · next hmissing =>
    cases default with
    | none =>
      cases h
      exact .inl (validateField_missing rfl rfl)
    | some x =>
      by_cases hfinite : x.IsFinite
      · have hv : v = finiteValue ⟨x, hfinite⟩ := by
          rw [← floatValue_val]
          exact (Except.ok.inj h).symm
        exact .inl (hv ▸ hagain ⟨x, hfinite⟩)
      · have hv : floatValue x = v := Except.ok.inj h
        rw [floatValue_of_not_isFinite hfinite] at hv
        subst hv
        refine .inl ?_
        rw [validateField_number]
        simp [validateNumber, present, Except.map, floatValue_of_not_isFinite hfinite]
  · split at h
    · next x _ =>
      have hv : v = finiteValue x := by
        rw [← floatValue_val]
        exact (Except.ok.inj h).symm
      exact .inl (hv ▸ hagain x)
    · cases h

theorem stable_boolean {default : Option Bool}
    (h : (validateField (.boolean default) raw keypath).result = .ok v) :
    StableUpToDefaults (.boolean default) raw keypath v := by
  rw [validateField_boolean, validateBoolean] at h
  have hagain (b : Bool) :
      (validateField (.boolean default) (some (.bool b)) keypath).result = .ok (.bool b) := by
    rw [validateField_boolean]
    rfl
  split at h
  · cases default with
    | none =>
      cases h
      exact .inl (validateField_missing rfl rfl)
    | some b =>
      cases h
      exact .inl (hagain b)
  · split at h
    · next b _ =>
      cases h
      exact .inl (hagain b)
    · cases h

theorem checkRange_eq_ok {range : Option (Int × Int)} {n m : Signed64}
    (h : checkRange range n keypath = .ok m) : m = n := by
  unfold checkRange at h
  split at h
  · exact (Except.ok.inj h).symm
  · split at h
    · exact (Except.ok.inj h).symm
    · cases h

theorem checkRange_again {range : Option (Int × Int)} {n m : Signed64}
    (h : checkRange range n keypath = .ok m) : checkRange range m keypath = .ok m := by
  obtain rfl := checkRange_eq_ok h
  exact h

theorem checkRange_of_checkWhole {range : Option (Int × Int)} {x : Finite} {m : Signed64}
    (h : checkWhole range x keypath = .ok m) : checkRange range m keypath = .ok m := by
  unfold checkWhole at h
  cases hwhole : x.whole?.bind Signed64.ofInt? with
  | none =>
    rw [hwhole] at h
    cases h
  | some n =>
    rw [hwhole] at h
    exact checkRange_again h

theorem checkRange_of_validateInteger {default : Option Signed64} {range : Option (Int × Int)}
    {value : Value} {o : Option Signed64} (hpresent : present raw = some value)
    (h : validateInteger default range raw keypath = .ok o) :
    ∃ n, o = some n ∧ checkRange range n keypath = .ok n := by
  have hmap {x : Except Violation Signed64} (hx : x.map some = .ok o) :
      ∃ n, o = some n ∧ x = .ok n := by
    cases x with
    | error e => cases hx
    | ok n => exact ⟨n, (Except.ok.inj hx).symm, rfl⟩
  simp only [validateInteger, hpresent] at h
  split at h
  · obtain ⟨n, hn, hrange⟩ := hmap h
    exact ⟨n, hn, checkRange_again hrange⟩
  · split at h
    · cases h
    · obtain ⟨n, hn, hwhole⟩ := hmap h
      exact ⟨n, hn, checkRange_of_checkWhole hwhole⟩

theorem stable_integer {default : Option Signed64} {range : Option (Int × Int)}
    (h : (validateField (.integer default range) raw keypath).result = .ok v) :
    StableUpToDefaults (.integer default range) raw keypath v := by
  have hagain (n : Signed64) :
      (validateField (.integer default range) (some (.number (.ofSigned n))) keypath).result =
        (checkRange range n keypath).map fun n => .number (.ofSigned n) := by
    rw [validateField_integer]
    simp only [validateInteger, present, toSigned?, Number.signed?_ofSigned]
    cases checkRange range n keypath <;> rfl
  rw [validateField_integer] at h
  cases hpresent : present raw with
  | none =>
    simp only [validateInteger, hpresent, Except.map, Except.ok.injEq] at h
    cases default with
    | none =>
      cases h
      exact .inl (validateField_missing rfl rfl)
    | some n =>
      cases h
      cases hrange : checkRange range n keypath with
      | ok m =>
        have hmn := checkRange_eq_ok hrange
        subst hmn
        exact .inl ((hagain m).trans (by rw [hrange]; rfl))
      | error e =>
        have herror := hagain n
        rw [hrange] at herror
        unfold checkRange at hrange
        split at hrange
        · cases hrange
        · split at hrange
          · cases hrange
          · next houtside =>
            cases hrange
            exact .of_flaw (.outside houtside) hpresent herror
  | some value =>
    cases hinteger : validateInteger default range raw keypath with
    | error e =>
      rw [hinteger] at h
      cases h
    | ok o =>
      obtain ⟨n, rfl, hrange⟩ := checkRange_of_validateInteger hpresent hinteger
      rw [hinteger] at h
      cases h
      exact .inl ((hagain n).trans (by rw [hrange]; rfl))

theorem stable_scalar {scalar : Validator} (hscalar : scalar.IsScalar)
    (h : (scalar.validateField raw keypath).result = .ok v) :
    StableUpToDefaults scalar raw keypath v := by
  cases scalar with
  | string default allowEmpty => exact stable_string h
  | number default => exact stable_number h
  | boolean default => exact stable_boolean h
  | integer default range => exact stable_integer h
  | object fields => cases hscalar

end Scalars

section Trees

variable {raw : Option Value} {keypath : Keypath} {v : Value}

theorem isSome_present_of_validateField {validator : Validator}
    (hpresent : (present raw).isSome = true)
    (h : (validator.validateField raw keypath).result = .ok v) :
    (present (some v)).isSome = true := by
  obtain ⟨value, hvalue⟩ := Option.isSome_iff_exists.mp hpresent
  cases validator with
  | string default allowEmpty =>
    rw [validateField_string, validateString, hvalue] at h
    split at h
    · next hnone => cases hnone
    · split at h
      · cases h
      · cases h
        rfl
    · cases h
  | number default =>
    simp only [validateField_number, validateNumber, hvalue] at h
    split at h
    · next x _ =>
      obtain ⟨n, hn⟩ := exists_finiteValue_eq_number x
      have hv : floatValue x.val = v := Except.ok.inj h
      rw [← hv, floatValue_val, hn]
      rfl
    · cases h
  | boolean default =>
    simp only [validateField_boolean, validateBoolean, hvalue] at h
    split at h
    · cases h
      rfl
    · cases h
  | integer default range =>
    rw [validateField_integer] at h
    cases hinteger : validateInteger default range raw keypath with
    | error e =>
      rw [hinteger] at h
      cases h
    | ok o =>
      obtain ⟨n, rfl, -⟩ := checkRange_of_validateInteger hvalue hinteger
      rw [hinteger] at h
      cases h
      rfl
  | object fields =>
    obtain ⟨entries, declared, -, -, rfl⟩ := exists_completed_of_validateField h
    rfl

/-- Completing a completed object again adds nothing. -/
theorem completed_completed {declared : Object} (h : (Object.keys declared).Nodup)
    (entries : Object) : completed declared (completed declared entries) = completed declared entries := by
  apply Object.eq_of_find? (pairwise_keys_completed _ _) (pairwise_keys_completed _ _)
  intro name
  rw [find?_completed h]
  split
  · next hname => rw [find?_completed h, if_pos hname]
  · exact Object.find?_reverse (Object.nodup_keys (pairwise_keys_completed _ _)) name

/-- What a field's value becomes when its object is validated again. -/
theorem outcome_completed {fields : Schema} {entries declared : Object} {field : Field Validator}
    (hpass : (validateFields fields entries keypath).result = .ok declared)
    (hnodup : (Schema.names fields).Nodup) (hfield : field ∈ fields) :
    ∃ w, outcome entries keypath field = .ok w ∧
      (field.validator.validateField (Object.find? field.name entries)
        (keypath.child field.name)).result = .ok w ∧
      Object.find? field.name (completed declared entries) = some w ∧
      outcome (completed declared entries) keypath field =
        (field.validator.validateField (some w) (keypath.child field.name)).result := by
  obtain ⟨w, hw, hmem⟩ := mem_of_validateFields hpass hfield
  obtain ⟨hrequired, hok⟩ := outcome_eq_ok_iff.mp hw
  have hkeys := keys_of_validateFields hpass
  have hdistinct : (Object.keys declared).Nodup := hkeys ▸ hnodup
  have hfind : Object.find? field.name (completed declared entries) = some w :=
    find?_completed_of_mem hdistinct hmem entries
  refine ⟨w, hw, hok, hfind, ?_⟩
  rw [outcome, hfind, if_neg]
  rw [Bool.and_eq_true, not_and]
  intro hmarked hnone
  have hsome := isSome_present_of_validateField (hrequired hmarked) hok
  rw [Option.isNone_iff_eq_none.mp hnone] at hsome
  cases hsome

theorem StableUpToDefaults.inside {fields : Schema} {field : Field Validator} {entries : Object}
    {w : Value} {e : Violation} (hentries : entriesOf? raw = some entries) (hfield : field ∈ fields)
    (h : StableUpToDefaults field.validator (Object.find? field.name entries)
      (keypath.child field.name) w)
    (hw : (field.validator.validateField (some w) (keypath.child field.name)).result = .error e) :
    ∃ path scalar flaw, At (.object fields) path scalar ∧ DefaultFlaw scalar flaw ∧
      present (subvalue raw path) = none ∧ e = .invalidValue (keypath.descend path) flaw := by
  rcases h with hok | ⟨path, scalar, flaw, hat, hflaw, hmissing, herror⟩
  · rw [hok] at hw
    cases hw
  · refine ⟨field.name :: path, scalar, flaw, .inside hfield hat, hflaw, ?_, ?_⟩
    · rwa [subvalue_cons hentries]
    · rw [herror, Keypath.descend_child] at hw
      exact (Except.error.inj hw).symm

theorem stable_of_declared {validator : Validator} (h : Declared validator) :
    ∀ {raw keypath v}, (validator.validateField raw keypath).result = .ok v →
      StableUpToDefaults validator raw keypath v := by
  induction h using Declared.induct with
  | scalar validator hscalar => exact stable_scalar hscalar
  | object fields _ hnodup ih =>
    intro raw keypath v hok
    obtain ⟨entries, declared, hentries, hpass, rfl⟩ := exists_completed_of_validateField hok
    have hagain : entriesOf? (some (.object (completed declared entries))) =
        some (completed declared entries) := rfl
    rw [StableUpToDefaults, validateField_object hagain]
    cases hsecond : (validateFields fields (completed declared entries) keypath).result with
    | ok values =>
      have hsame : ∀ field ∈ fields, outcome entries keypath field =
          outcome (completed declared entries) keypath field := by
        intro field hfield
        obtain ⟨w, hw, hok, -, houtcome⟩ := outcome_completed hpass hnodup hfield
        obtain ⟨w', hw', -⟩ := mem_of_validateFields hsecond hfield
        rw [houtcome] at hw'
        rcases ih field hfield hok with hstable | ⟨_, _, _, _, _, _, herror⟩
        · rw [hw, houtcome, hstable]
        · rw [herror] at hw'
          cases hw'
      rw [validateFields_congr hsame, hsecond] at hpass
      cases hpass
      left
      have hdistinct : (Object.keys declared).Nodup := keys_of_validateFields hsecond ▸ hnodup
      rw [Except.map, completed_completed hdistinct]
    | error e =>
      obtain ⟨before, field, behind, hfields, -, hfield⟩ := validateFields_eq_error hsecond
      have hmem : field ∈ fields := by simp [hfields]
      obtain ⟨w, -, hok, -, houtcome⟩ := outcome_completed hpass hnodup hmem
      obtain ⟨path, scalar, flaw, hat, hflaw, hmissing, he⟩ :=
        (ih field hmem hok).inside hentries hmem (houtcome ▸ hfield)
      right
      exact ⟨path, scalar, flaw, hat, hflaw, hmissing, by rw [he]; rfl⟩

end Trees

section Defaults

theorem not_acceptsDefault_of_flaw {scalar : Validator} {flaw : Flaw}
    (h : DefaultFlaw scalar flaw) : ¬scalar.AcceptsDefault := by
  intro haccepts
  cases h with
  | empty =>
    obtain ⟨v, hv⟩ := haccepts .root (.string "") (by rw [validateField_string]; rfl)
    rw [validateField_string] at hv
    cases hv
  | @outside n least greatest houtside =>
    obtain ⟨v, hv⟩ := haccepts .root (.number (.ofSigned n)) (by rw [validateField_integer]; rfl)
    rw [validateField_integer] at hv
    simp [validateInteger, present, toSigned?, Number.signed?_ofSigned, checkRange, houtside,
      Except.map] at hv

theorem acceptsDefault_of_not_flaw {scalar : Validator} (hscalar : scalar.IsScalar)
    (h : ∀ flaw, ¬DefaultFlaw scalar flaw) : scalar.AcceptsDefault := by
  intro keypath d hd
  rcases stable_scalar hscalar hd with hok | ⟨path, nested, flaw, hat, hflaw, -, -⟩
  · exact ⟨d, hok⟩
  · obtain ⟨-, rfl⟩ := hat.of_isScalar hscalar
    exact absurd hflaw (h flaw)

theorem defaultsAccepted_iff {validator : Validator} (h : Declared validator) :
    DefaultsAccepted validator ↔
      ∀ place ∈ scalarPlaces validator, ∀ flaw, ¬DefaultFlaw place.2 flaw := by
  constructor
  · rintro haccepts ⟨path, scalar⟩ hmem flaw hflaw
    obtain ⟨hat, hscalar⟩ := (mem_scalarPlaces h).mp hmem
    exact not_acceptsDefault_of_flaw hflaw (haccepts path scalar hat hscalar)
  · intro hplaces path scalar hat hscalar
    have hmem := (mem_scalarPlaces h).mpr ⟨hat, hscalar⟩
    exact acceptsDefault_of_not_flaw hscalar (hplaces _ hmem)

theorem not_defaultFlaw_string {s : String} {allowEmpty : Bool} (hs : s ≠ "") (flaw : Flaw) :
    ¬DefaultFlaw (.string (some s) allowEmpty) flaw := by
  rintro ⟨⟩
  exact hs rfl

/-- Every default of the recognized options is accepted by its own validator. -/
theorem defaultsAccepted_settings : DefaultsAccepted Settings.validator := by
  rw [defaultsAccepted_iff Settings.declared_validator, Settings.scalarPlaces_validator]
  simp only [List.forall_mem_cons, List.not_mem_nil, false_implies, implies_true, and_true]
  have hport (flaw : Flaw) : ¬DefaultFlaw
      (.integer (Settings.wholeDefault 5173) (some (0, 65535))) flaw := by
    rintro ⟨⟩
    next houtside => exact houtside (by decide)
  have hboolean (b : Bool) (flaw : Flaw) : ¬DefaultFlaw (.boolean (some b)) flaw := by
    rintro ⟨⟩
  have hnumber (x : Binary64) (flaw : Flaw) : ¬DefaultFlaw (.number (some x)) flaw := by
    rintro ⟨⟩
  have hdir (flaw : Flaw) : ¬DefaultFlaw (.string none false) flaw := by
    rintro ⟨⟩
  refine ⟨not_defaultFlaw_string (by decide), not_defaultFlaw_string (by decide),
    not_defaultFlaw_string (by decide), not_defaultFlaw_string (by decide),
    not_defaultFlaw_string (by decide), hport, hboolean _, hboolean _, hboolean _, hnumber _,
    not_defaultFlaw_string (by decide), not_defaultFlaw_string (by decide), hdir,
    not_defaultFlaw_string (by decide), hboolean _⟩

end Defaults

/-- A validated value is accepted again and stays as it is, unless a missing value became a default
that its own validator refuses; no default of the recognized options is one. -/
theorem validateField_again :
    (∀ validator, Declared validator → ∀ raw keypath v,
      (validator.validateField raw keypath).result = .ok v →
        StableUpToDefaults validator raw keypath v ∧
        (DefaultsAccepted validator →
          (validator.validateField (some v) keypath).result = .ok v)) ∧
    Declared Settings.validator ∧ DefaultsAccepted Settings.validator := by
  refine ⟨?_, Settings.declared_validator, defaultsAccepted_settings⟩
  intro validator h raw keypath v hok
  have hstable := stable_of_declared h hok
  refine ⟨hstable, fun haccepts => ?_⟩
  rcases hstable with hagain | ⟨path, scalar, flaw, hat, hflaw, -, -⟩
  · exact hagain
  · have hscalar : scalar.IsScalar := by cases hflaw <;> trivial
    exact absurd hflaw ((defaultsAccepted_iff h).mp haccepts _ ((mem_scalarPlaces h).mpr ⟨hat, hscalar⟩) flaw)

section Sample

def flawedValidator : Validator := .object (Schema.ofDeclarations [
  ("dev", .object (Schema.ofDeclarations [("label", .string "" false)])),
  ("!open", .boolean none)])

def flawedCompleted : Value :=
  .object [("dev", .object [("label", .string "")]), ("open", .bool true)]

theorem declared_flawedValidator : Declared flawedValidator := by
  refine .object fun declaration hmem => ?_
  simp only [List.mem_cons, List.not_mem_nil, or_false] at hmem
  rcases hmem with rfl | rfl
  · exact declared_of_scalars (by simp [IsScalar])
  · exact .scalar trivial

theorem defaultsAccepted_sampleValidator : DefaultsAccepted sampleValidator := by
  have hplaces : scalarPlaces sampleValidator = [(["name"], .string none false),
      (["dev", "port"], .integer (some ⟨5173, by decide⟩) (some (0, 65535))),
      (["dev", "open"], .boolean none)] := rfl
  rw [defaultsAccepted_iff declared_sampleValidator, hplaces]
  simp only [List.forall_mem_cons, List.not_mem_nil, false_implies, implies_true, and_true]
  refine ⟨?_, ?_, ?_⟩
  · rintro flaw ⟨⟩
  · rintro flaw ⟨⟩
    next houtside => exact houtside (by decide)
  · rintro flaw ⟨⟩

theorem validateField_again_samples :
    (Declared flawedValidator ∧
      (flawedValidator.validateField (some (.object [("open", .string "true")])) .root).result =
        .ok flawedCompleted ∧
      StableUpToDefaults flawedValidator (some (.object [("open", .string "true")])) .root
        flawedCompleted) ∧
    (Declared sampleValidator ∧ DefaultsAccepted sampleValidator ∧
      (sampleValidator.validateField (some sampleValue) .root).result = .ok sampleCompleted ∧
      (sampleValidator.validateField (some sampleCompleted) .root).result = .ok sampleCompleted) := by
  have hflawed : (flawedValidator.validateField (some (.object [("open", .string "true")]))
      .root).result = .ok flawedCompleted := rfl
  have hsample : (sampleValidator.validateField (some sampleValue) .root).result =
      .ok sampleCompleted := rfl
  exact ⟨⟨declared_flawedValidator, hflawed,
      (validateField_again.1 _ declared_flawedValidator _ _ _ hflawed).1⟩,
    declared_sampleValidator, defaultsAccepted_sampleValidator, hsample,
    (validateField_again.1 _ declared_sampleValidator _ _ _ hsample).2
      defaultsAccepted_sampleValidator⟩

/-- The second validation stops at the default that the first one filled in. -/
example : (flawedValidator.validateField (some flawedCompleted) .root).result =
    .error (.invalidValue ⟨["dev", "label"]⟩ .empty) := rfl

end Sample

end SiteConfig.Validator

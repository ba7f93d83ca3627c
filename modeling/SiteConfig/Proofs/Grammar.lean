import SiteConfig.ConfigModule.Export
import SiteConfig.Proofs.Numbers
import SiteConfig.Proofs.Objects
/-!
# The grammar of configuration modules

A grammar of the literals that a module may export, with the value of each derivation. The reading
of tokens one by one accepts exactly what the grammar derives: a derivation drives the reading past
its tokens, and every accepting run has a derivation behind it.
-/
namespace SiteConfig.ConfigModule

/-- The entries of an object whose pairs are written in this order: they ascend, and each key holds
the value of its last pair. -/
structure LastWins (pairs : List (String × Value)) (entries : Object) : Prop where
  ascending : (Object.keys entries).Pairwise (· < ·)
  holds : ∀ key, Object.find? key entries = Object.find? key pairs.reverse

/-- The tokens that name a property, with its name; a number names it by its text. -/
inductive NamesKey : Token → String → Prop where
  | name (s : String) : NamesKey (.name s) s
  | string (s : String) : NamesKey (.string s) s
  | number (n : Number) : NamesKey (.number n) n.text

/-- Numbers of opposite sign. A natural number has an integer as its opposite if a signed word holds
it; other integers have the opposite of the nearest floating-point number. -/
inductive Opposite : Number → Number → Prop where
  | integer {m n : WholeNumber} (hm : 0 ≤ m.val) (h : n.val = -m.val) :
      Opposite (.integer m) (.integer n)
  | wide {m : WholeNumber} (h : m.val < 0 ∨ 2 ^ 63 < m.val) :
      Opposite (.integer m) (.float (Number.integer m).toFloat.neg)
  | float (x : Binary64.Finite) : Opposite (.float x) (.float x.neg)

mutual

/-- The tokens of a literal, with its value. -/
inductive Spells : List Token → Value → Prop where
  | object {body : List Token} {pairs entries : List (String × Value)}
      (hbody : SpellsPairs body pairs) (h : LastWins pairs entries) :
      Spells (.punct '{' :: (body ++ [.punct '}'])) (.object entries)
  | array {body : List Token} {items : List Value} (hbody : SpellsItems body items) :
      Spells (.punct '[' :: (body ++ [.punct ']'])) (.array items)
  | positive (n : Number) : Spells [.punct '+', .number n] (.number n)
  | negative {m n : Number} (h : Opposite m n) : Spells [.punct '-', .number m] (.number n)
  | number (n : Number) : Spells [.number n] (.number n)
  | string (s : String) : Spells [.string s] (.string s)
  | true : Spells [.name "true"] (.bool Bool.true)
  | false : Spells [.name "false"] (.bool Bool.false)
  | null : Spells [.name "null"] .null
  | undefined : Spells [.name "undefined"] .null

/-- The tokens between the brackets of an array, with its items: literals with a comma between
them, and one more at the end if the last has one behind it. -/
inductive SpellsItems : List Token → List Value → Prop where
  | nil : SpellsItems [] []
  | last {tokens : List Token} {v : Value} (h : Spells tokens v) : SpellsItems tokens [v]
  | cons {tokens rest : List Token} {v : Value} {items : List Value} (h : Spells tokens v)
      (hrest : SpellsItems rest items) : SpellsItems (tokens ++ .punct ',' :: rest) (v :: items)

/-- The tokens between the braces of an object, with its pairs in the order of writing. -/
inductive SpellsPairs : List Token → List (String × Value) → Prop where
  | nil : SpellsPairs [] []
  | last {token : Token} {key : String} {tokens : List Token} {v : Value}
      (hkey : NamesKey token key) (h : Spells tokens v) :
      SpellsPairs (token :: .punct ':' :: tokens) [(key, v)]
  | cons {token : Token} {key : String} {tokens rest : List Token} {v : Value}
      {pairs : List (String × Value)} (hkey : NamesKey token key) (h : Spells tokens v)
      (hrest : SpellsPairs rest pairs) :
      SpellsPairs (token :: .punct ':' :: (tokens ++ .punct ',' :: rest)) ((key, v) :: pairs)

end

/-- The tokens of a module that exports a value: a semicolon may end it. -/
inductive SpellsModule : List Token → Value → Prop where
  | bare {tokens : List Token} {v : Value} (h : Spells tokens v) :
      SpellsModule (.name "export" :: .name "default" :: tokens) v
  | ended {tokens : List Token} {v : Value} (h : Spells tokens v) :
      SpellsModule (.name "export" :: .name "default" :: (tokens ++ [.punct ';'])) v

theorem LastWins.ofEntries (pairs : List (String × Value)) :
    LastWins pairs (Object.ofEntries pairs) :=
  ⟨Object.pairwise_keys_ofEntries pairs, fun key => Object.find?_ofEntries key pairs⟩

theorem LastWins.eq_ofEntries {pairs entries : List (String × Value)}
    (h : LastWins pairs entries) : entries = Object.ofEntries pairs := by
  apply Object.eq_of_find? h.ascending (Object.pairwise_keys_ofEntries pairs)
  intro key
  rw [h.holds, Object.find?_ofEntries]

theorem opposite_iff (m n : Number) : Opposite m n ↔ n = m.neg := by
  constructor
  · intro h
    cases h with
    | @integer m n hm h =>
      have hn := n.property
      have hsmall : 0 ≤ m.val ∧ m.val ≤ 2 ^ 63 := by omega
      simp only [Number.neg, dif_pos hsmall, Number.integer.injEq]
      exact Subtype.ext h
    | @wide m h =>
      have hlarge : ¬(0 ≤ m.val ∧ m.val ≤ 2 ^ 63) := by omega
      simp only [Number.neg, dif_neg hlarge]
    | float x => rfl
  · rintro rfl
    cases m with
    | integer m =>
      simp only [Number.neg]
      split
      · next hsmall => exact .integer hsmall.1 rfl
      · next hlarge => exact .wide (by omega)
    | float x => exact .float x

theorem namesKey_iff (token : Token) (key : String) :
    NamesKey token key ↔ Reading.keyOf? token = some key := by
  constructor
  · intro h
    cases h <;> rfl
  · intro h
    cases token with
    | punct c => cases h
    | name s => exact Option.some.inj h ▸ .name s
    | string s => exact Option.some.inj h ▸ .string s
    | number n => exact Option.some.inj h ▸ .number n

section Completeness

open Reading

theorem run_cons_of_step {reading next : Reading} {token : Token} (rest : List Token)
    (h : reading.step token = .ok next) : reading.run (token :: rest) = next.run rest := by
  simp [Reading.run, h]

theorem run_nil_eq_ok_iff {reading : Reading} {v : Value} :
    reading.run [] = .ok v ↔ reading.finish = .ok v := by
  rw [Reading.run]
  cases reading.finish with
  | error complaint => constructor <;> exact nofun
  | ok w =>
      constructor
      · intro h
        exact congrArg Except.ok (Except.ok.inj h)
      · intro h
        exact congrArg Except.ok (Except.ok.inj h)

theorem run_cons_eq_ok_iff {reading : Reading} {token : Token} {rest : List Token} {v : Value} :
    reading.run (token :: rest) = .ok v ↔
      ∃ next, reading.step token = .ok next ∧ next.run rest = .ok v := by
  cases hstep : reading.step token with
  | error complaint => simp [Reading.run, hstep]
  | ok next => simp [run_cons_of_step _ hstep]

theorem Spells.head {tokens : List Token} {v : Value} (h : Spells tokens v) :
    ∃ token rest, tokens = token :: rest ∧ token ≠ .punct ']' ∧ token ≠ .punct ',' := by
  cases h <;> exact ⟨_, _, rfl, by simp, by simp⟩

theorem run_item_of_spells {tokens : List Token} {v : Value} (h : Spells tokens v)
    (items : List Value) (frames : List Frame) (rest : List Token) :
    run ⟨.item items, frames⟩ (tokens ++ rest) =
      run ⟨.value, .array items :: frames⟩ (tokens ++ rest) := by
  obtain ⟨token, more, rfl, hclose, hcomma⟩ := h.head
  simp [Reading.run, step, hclose, hcomma]

theorem step_key {token : Token} {key : String} (h : NamesKey token key)
    (entries : List (String × Value)) (frames : List Frame) :
    step ⟨.key entries, frames⟩ token = .ok ⟨.colon entries key, frames⟩ := by
  cases h <;> rfl

theorem step_magnitude (sign : Char) (frames : List Frame) (n : Number) :
    step ⟨.magnitude sign, frames⟩ (.number n) =
      .ok ⟨.separator (.number (if sign = '-' then n.neg else n)), frames⟩ := by
  by_cases hsign : sign = '-'
  · simp [step, hsign, Number.negate?_eq]
  · simp [step, hsign]

mutual

/-- A derivation drives the reading past its tokens and leaves its value. -/
theorem run_of_spells {tokens : List Token} {v : Value} (frames : List Frame)
    (rest : List Token) : Spells tokens v →
      run ⟨.value, frames⟩ (tokens ++ rest) = run ⟨.separator v, frames⟩ rest
  | .object hbody hentries => by
      have hpairs := run_of_spellsPairs [] frames rest hbody
      rw [List.cons_append, run_cons_of_step _ rfl, List.append_assoc]
      simpa [hentries.eq_ofEntries, objectOf] using hpairs
  | .array hbody => by
      have hitems := run_of_spellsItems [] frames rest hbody
      rw [List.cons_append, run_cons_of_step _ rfl, List.append_assoc]
      simpa using hitems
  | .positive n => rfl
  | @Spells.negative m n hsign => by
      rw [(opposite_iff _ _).mp hsign, List.cons_append, run_cons_of_step _ rfl,
        List.singleton_append]
      exact run_cons_of_step rest (step_magnitude '-' frames m)
  | .number n => rfl
  | .string s => rfl
  | .true => rfl
  | .false => rfl
  | .null => rfl
  | .undefined => rfl

theorem run_of_spellsItems {body : List Token} {items : List Value} (before : List Value)
    (frames : List Frame) (rest : List Token) : SpellsItems body items →
      run ⟨.item before, frames⟩ (body ++ .punct ']' :: rest) =
        run ⟨.separator (.array (before.reverse ++ items)), frames⟩ rest
  | .nil => by simp [Reading.run, step]
  | .last hv => by
      rw [run_item_of_spells hv, run_of_spells _ _ hv]
      simp [Reading.run, step, continueWith]
  | @SpellsItems.cons _ _ v _ hv hmore => by
      have hitems := run_of_spellsItems (v :: before) frames rest hmore
      rw [List.append_assoc, run_item_of_spells hv, run_of_spells _ _ hv]
      simpa [Reading.run, step, continueWith] using hitems

theorem run_of_spellsPairs {body : List Token} {pairs : List (String × Value)}
    (before : List (String × Value)) (frames : List Frame) (rest : List Token) :
    SpellsPairs body pairs →
      run ⟨.key before, frames⟩ (body ++ .punct '}' :: rest) =
        run ⟨.separator (objectOf (pairs.reverse ++ before)), frames⟩ rest
  | .nil => by simp [Reading.run, step]
  | .last hkey hv => by
      rw [List.cons_append, run_cons_of_step _ (step_key hkey before frames), List.cons_append,
        run_cons_of_step _ rfl, run_of_spells _ _ hv]
      simp [Reading.run, step, continueWith]
  | @SpellsPairs.cons _ key _ _ v _ hkey hv hmore => by
      have hpairs := run_of_spellsPairs ((key, v) :: before) frames rest hmore
      rw [List.cons_append, run_cons_of_step _ (step_key hkey before frames), List.cons_append,
        run_cons_of_step _ rfl, List.append_assoc, run_of_spells _ _ hv]
      simpa [Reading.run, step, continueWith] using hpairs

end

end Completeness

section Soundness

open Reading

inductive SpellsMoreItems : List Token → List Value → Prop where
  | none : SpellsMoreItems [] []
  | comma {body : List Token} {items : List Value} (h : SpellsItems body items) :
      SpellsMoreItems (.punct ',' :: body) items

inductive SpellsMorePairs : List Token → List (String × Value) → Prop where
  | none : SpellsMorePairs [] []
  | comma {body : List Token} {pairs : List (String × Value)} (h : SpellsPairs body pairs) :
      SpellsMorePairs (.punct ',' :: body) pairs

/-- The tokens that make `w` of a value inside the open frames: they close the frames one after
another, and a semicolon may end them. -/
def Closes : List Frame → Value → List Token → Value → Prop
  | [], v, tokens, w => (tokens = [] ∨ tokens = [.punct ';']) ∧ w = v
  | .array before :: frames, v, tokens, w => ∃ body items rest,
      tokens = body ++ .punct ']' :: rest ∧ SpellsMoreItems body items ∧
        Closes frames (.array (before.reverse ++ v :: items)) rest w
  | .object before key :: frames, v, tokens, w => ∃ body pairs rest,
      tokens = body ++ .punct '}' :: rest ∧ SpellsMorePairs body pairs ∧
        Closes frames (objectOf (pairs.reverse ++ (key, v) :: before)) rest w

/-- The tokens of a literal that becomes `w` inside the open frames. -/
def Opens (frames : List Frame) (tokens : List Token) (w : Value) : Prop :=
  ∃ body v rest, tokens = body ++ rest ∧ Spells body v ∧ Closes frames v rest w

/-- The tokens that a state of the reading still needs to give `w`. -/
def Completes : Reading → List Token → Value → Prop
  | ⟨.value, frames⟩, tokens, w => Opens frames tokens w
  | ⟨.magnitude sign, frames⟩, tokens, w => ∃ n rest, tokens = .number n :: rest ∧
      Closes frames (.number (if sign = '-' then n.neg else n)) rest w
  | ⟨.item before, frames⟩, tokens, w => ∃ body items rest,
      tokens = body ++ .punct ']' :: rest ∧ SpellsItems body items ∧
        Closes frames (.array (before.reverse ++ items)) rest w
  | ⟨.key before, frames⟩, tokens, w => ∃ body pairs rest,
      tokens = body ++ .punct '}' :: rest ∧ SpellsPairs body pairs ∧
        Closes frames (objectOf (pairs.reverse ++ before)) rest w
  | ⟨.colon before key, frames⟩, tokens, w => ∃ rest,
      tokens = .punct ':' :: rest ∧ Opens (.object before key :: frames) rest w
  | ⟨.separator v, frames⟩, tokens, w => Closes frames v tokens w
  | ⟨.nothing v, _⟩, tokens, w => tokens = [] ∧ w = v

private theorem spellsItems_of_more {tokens body : List Token} {v : Value} {items : List Value}
    (hv : Spells tokens v) (h : SpellsMoreItems body items) :
    SpellsItems (tokens ++ body) (v :: items) := by
  cases h with
  | none => simpa using SpellsItems.last hv
  | comma h => exact .cons hv h

private theorem spellsPairs_of_more {token : Token} {key : String} {tokens body : List Token}
    {v : Value} {pairs : List (String × Value)} (hkey : NamesKey token key) (hv : Spells tokens v)
    (h : SpellsMorePairs body pairs) :
    SpellsPairs (token :: .punct ':' :: (tokens ++ body)) ((key, v) :: pairs) := by
  cases h with
  | none => simpa using SpellsPairs.last hkey hv
  | comma h => exact .cons hkey hv h

private theorem opens_single {token : Token} {v : Value} (hv : Spells [token] v)
    {frames : List Frame} {rest : List Token} {w : Value} (h : Closes frames v rest w) :
    Opens frames (token :: rest) w :=
  ⟨[token], v, rest, rfl, hv, h⟩

private theorem namedValue_spells {name : String} {v : Value} (h : namedValue? name = some v) :
    Spells [.name name] v := by
  unfold namedValue? at h
  split at h
  · next hname =>
    cases h
    exact hname ▸ .true
  · split at h
    · next hname =>
      cases h
      exact hname ▸ .false
    · split at h
      · next hname =>
        cases h
        rcases hname with hname | hname
        · exact hname ▸ .null
        · exact hname ▸ .undefined
      · cases h

private theorem opens_of_startValue {frames : List Frame} {token : Token} {next : Reading}
    {rest : List Token} {w : Value} (hstep : startValue frames token = .ok next)
    (h : Completes next rest w) : Opens frames (token :: rest) w := by
  unfold startValue at hstep
  split at hstep
  · cases hstep
    obtain ⟨body, pairs, more, rfl, hbody, hcloses⟩ := h
    refine ⟨_, .object (Object.ofEntries pairs), more, ?_, .object hbody (.ofEntries pairs), ?_⟩
    · simp
    · simpa [objectOf] using hcloses
  · cases hstep
    obtain ⟨body, items, more, rfl, hbody, hcloses⟩ := h
    exact ⟨_, .array items, more, by simp, .array hbody, by simpa using hcloses⟩
  · cases hstep
    obtain ⟨n, more, rfl, hcloses⟩ := h
    exact ⟨_, _, more, rfl, .negative ((opposite_iff n _).mpr rfl), by simpa using hcloses⟩
  · cases hstep
    obtain ⟨n, more, rfl, hcloses⟩ := h
    exact ⟨_, _, more, rfl, .positive n, by simpa using hcloses⟩
  · cases hstep
  · cases hstep
    exact opens_single (.string _) h
  · cases hstep
    exact opens_single (.number _) h
  · split at hstep
    · next hname =>
      cases hstep
      exact opens_single (namedValue_spells hname) h
    · cases hstep

private theorem closes_of_continueWith {v : Value} {frames : List Frame} {token : Token}
    {next : Reading} {rest : List Token} {w : Value} (hstep : continueWith v frames token = .ok next)
    (h : Completes next rest w) : Closes frames v (token :: rest) w := by
  unfold continueWith at hstep
  split at hstep
  · split at hstep
    · next htoken =>
      cases hstep
      obtain ⟨rfl, rfl⟩ := h
      exact ⟨.inr (htoken ▸ rfl), rfl⟩
    · cases hstep
  · split at hstep
    · next htoken =>
      cases hstep
      obtain ⟨body, items, more, rfl, hbody, hcloses⟩ := h
      exact ⟨_, items, more, htoken ▸ rfl, .comma hbody, by simpa using hcloses⟩
    · split at hstep
      · next htoken =>
        cases hstep
        exact ⟨[], [], rest, htoken ▸ rfl, .none, by simpa [Completes] using h⟩
      · cases hstep
  · split at hstep
    · next htoken =>
      cases hstep
      obtain ⟨body, pairs, more, rfl, hbody, hcloses⟩ := h
      exact ⟨_, pairs, more, htoken ▸ rfl, .comma hbody, hcloses⟩
    · split at hstep
      · next htoken =>
        cases hstep
        exact ⟨[], [], rest, htoken ▸ rfl, .none, h⟩
      · cases hstep

/-- One token less to come: what completes the state behind a token completes, with the token in
front, the state before it. -/
theorem completes_of_step {reading next : Reading} {token : Token} {rest : List Token} {w : Value}
    (hstep : reading.step token = .ok next) (h : Completes next rest w) :
    Completes reading (token :: rest) w := by
  obtain ⟨expected, frames⟩ := reading
  cases expected with
  | value => exact opens_of_startValue hstep h
  | magnitude sign =>
      cases token with
      | number n =>
          rw [step_magnitude] at hstep
          cases hstep
          exact ⟨n, rest, rfl, h⟩
      | _ => cases hstep
  | item before =>
      simp only [step] at hstep
      split at hstep
      · next htoken =>
        cases hstep
        exact ⟨[], [], rest, htoken ▸ rfl, .nil, by simpa [Completes] using h⟩
      · split at hstep
        · cases hstep
        · obtain ⟨body, v, more, htokens, hv, inner, items, last, rfl, hinner, hcloses⟩ :=
            opens_of_startValue hstep h
          exact ⟨body ++ inner, v :: items, last, by simpa using htokens,
            spellsItems_of_more hv hinner, hcloses⟩
  | key before =>
      simp only [step] at hstep
      split at hstep
      · next htoken =>
        cases hstep
        exact ⟨[], [], rest, htoken ▸ rfl, .nil, h⟩
      · split at hstep
        · cases hstep
        · split at hstep
          · next key hkey =>
            cases hstep
            obtain ⟨more, rfl, body, v, last, rfl, hv, inner, pairs, after, rfl, hinner, hcloses⟩ := h
            exact ⟨_, (key, v) :: pairs, after, by simp,
              spellsPairs_of_more ((namesKey_iff _ _).mpr hkey) hv hinner, by simpa using hcloses⟩
          · cases hstep
  | colon before key =>
      simp only [step] at hstep
      split at hstep
      · next htoken =>
        cases hstep
        exact ⟨rest, htoken ▸ rfl, h⟩
      · split at hstep <;> cases hstep
  | separator v => exact closes_of_continueWith hstep h
  | nothing v => cases hstep

private theorem completes_of_finish {reading : Reading} {w : Value}
    (h : reading.finish = .ok w) : Completes reading [] w := by
  obtain ⟨expected, frames⟩ := reading
  cases expected with
  | separator v =>
      cases frames with
      | nil =>
          cases h
          exact ⟨.inl rfl, rfl⟩
      | cons frame frames => cases frame <;> cases h
  | nothing v =>
      cases h
      exact ⟨rfl, rfl⟩
  | _ => cases h

/-- Every accepting run reads tokens that complete its state. -/
theorem completes_of_run {reading : Reading} {tokens : List Token} {w : Value}
    (h : reading.run tokens = .ok w) : Completes reading tokens w := by
  induction tokens generalizing reading with
  | nil => exact completes_of_finish (run_nil_eq_ok_iff.mp h)
  | cons token rest ih =>
      obtain ⟨next, hstep, hnext⟩ := run_cons_eq_ok_iff.mp h
      exact completes_of_step hstep (ih hnext)

end Soundness

theorem literal_eq_ok_iff (tokens : List Token) (v : Value) :
    literal tokens = .ok v ↔
      ∃ body, Spells body v ∧ (tokens = body ∨ tokens = body ++ [.punct ';']) := by
  constructor
  · intro h
    obtain ⟨body, w, rest, rfl, hbody, hrest, rfl⟩ := completes_of_run h
    rcases hrest with rfl | rfl
    · exact ⟨body, hbody, .inl (by simp)⟩
    · exact ⟨body, hbody, .inr rfl⟩
  · rintro ⟨body, hbody, rfl | rfl⟩
    · have hrun := run_of_spells [] [] hbody
      rw [List.append_nil] at hrun
      exact hrun
    · exact run_of_spells [] [.punct ';'] hbody

/-- No tokens are a literal of two values. -/
theorem Spells.unique {tokens : List Token} {v w : Value} (hv : Spells tokens v)
    (hw : Spells tokens w) : v = w := by
  have hrun := (literal_eq_ok_iff tokens v).mpr ⟨tokens, hv, .inl rfl⟩
  rw [(literal_eq_ok_iff tokens w).mpr ⟨tokens, hw, .inl rfl⟩] at hrun
  exact (Except.ok.inj hrun).symm

theorem exportedValue_eq_ok_iff (stop : Position) (all : List Lexeme) (v : Value) :
    exportedValue stop all = .ok v ↔ literal (all.map Lexeme.token) = .ok v := by
  simp only [exportedValue]
  split
  · next hempty =>
    constructor
    · intro h
      cases h
    · intro h
      obtain ⟨body, hbody, htokens⟩ := (literal_eq_ok_iff _ v).mp h
      obtain ⟨token, rest, rfl, -, -⟩ := hbody.head
      have hhead : (all.map Lexeme.token).head? = some token := by
        rcases htokens with htokens | htokens <;> simp [htokens]
      rcases hempty with hempty | hempty
      · simp [hempty] at hhead
      · rw [hempty] at hhead
        cases hhead
        cases hbody
  · cases literal (all.map Lexeme.token) with
    | error complaint => exact ⟨fun h => (by cases h), fun h => (by cases h)⟩
    | ok w => exact ⟨fun h => congrArg _ (Except.ok.inj h), fun h => congrArg _ (Except.ok.inj h)⟩

theorem isExport_iff (first second : Token) :
    isExport first second = true ↔ first = .name "export" ∧ second = .name "default" := by
  simp [isExport]

theorem spellsModule_iff (tokens : List Token) (v : Value) :
    SpellsModule tokens v ↔
      ∃ rest, tokens = .name "export" :: .name "default" :: rest ∧ literal rest = .ok v := by
  constructor
  · rintro (h | h)
    · exact ⟨_, rfl, (literal_eq_ok_iff _ v).mpr ⟨_, h, .inl rfl⟩⟩
    · exact ⟨_, rfl, (literal_eq_ok_iff _ v).mpr ⟨_, h, .inr rfl⟩⟩
  · rintro ⟨rest, rfl, h⟩
    obtain ⟨body, hbody, rfl | rfl⟩ := (literal_eq_ok_iff rest v).mp h
    · exact .bare hbody
    · exact .ended hbody

theorem evaluateChars_eq_ok_iff (source : List Char) (v : Value) :
    evaluateChars source = .ok v ↔
      ∃ all stop, lexemes source = .ok (all, stop) ∧ SpellsModule (all.map Lexeme.token) v := by
  simp only [spellsModule_iff]
  unfold evaluateChars
  split
  · next hall => simp [hall]
  · next all stop hall =>
    simp only [hall, Except.ok.injEq, Prod.mk.injEq, and_assoc, exists_and_left, exists_eq_left']
    split
    · next first second rest _ =>
      simp only [List.map_cons, List.cons.injEq]
      split
      · next hexport =>
        obtain ⟨hfirst, hsecond⟩ := (isExport_iff _ _).mp hexport
        simp [exportedValue_eq_ok_iff, hfirst, hsecond]
      · next hexport =>
        constructor
        · intro h
          split at h <;> cases h
        · rintro ⟨_, ⟨hfirst, hsecond, -⟩, -⟩
          exact absurd ((isExport_iff _ _).mpr ⟨hfirst, hsecond⟩) hexport
    · next hshort =>
      constructor
      · intro h
        cases h
      · rintro ⟨rest, htokens, -⟩
        match all with
        | [] => simp at htokens
        | [_] => simp at htokens
        | first :: second :: more => exact absurd rfl (hshort first second more)

/-- What is malformed is a token, or the literal behind `export default`. -/
theorem malformed_cases {source : List Char} {position : Position} {complaint : Complaint}
    (h : evaluateChars source = .error (.malformed position complaint)) :
    lexemes source = .error (.malformed position complaint) ∨
    ∃ first second rest stop fault, lexemes source = .ok (first :: second :: rest, stop) ∧
      literal (rest.map Lexeme.token) = .error fault ∧
      position = positionOf stop rest fault.remaining ∧ complaint = fault.complaint := by
  unfold evaluateChars at h
  split at h
  · next hlexemes =>
    cases h
    exact .inl hlexemes
  · next stop hlexemes =>
    split at h
    · next first second rest =>
      split at h
      · rw [exportedValue] at h
        split at h
        · cases h
        · cases hliteral : literal (rest.map Lexeme.token) with
          | error fault =>
              rw [hliteral] at h
              cases h
              exact .inr ⟨first, second, rest, stop, fault, hlexemes, hliteral, rfl, rfl⟩
          | ok v =>
              rw [hliteral] at h
              cases h
      · split at h <;> cases h
    · cases h

/-- A module evaluates to a value exactly if its tokens are `export default`, a literal of that
value and at most one semicolon; and no tokens are a literal of two values. -/
theorem evaluate_ok_iff_spellsModule :
    (∀ (source : String) (v : Value), evaluate source = .ok v ↔
      ∃ all stop, lexemes source.toList = .ok (all, stop) ∧
        SpellsModule (all.map Lexeme.token) v) ∧
    ∀ (tokens : List Token) (v w : Value), Spells tokens v → Spells tokens w → v = w :=
  ⟨fun source => evaluateChars_eq_ok_iff source.toList, fun _ _ _ => Spells.unique⟩

end SiteConfig.ConfigModule

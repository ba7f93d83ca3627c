import SiteConfig.Proofs.Grammar
import SiteConfig.Proofs.Lexing
import SiteConfig.Proofs.Spellings
/-!
# Truncated modules

A module that is cut off exports the same value or none. The cut leaves the tokens in front of it as
they are, but for the last one, and an export is complete only if no token of it is cut, unless that
token is a number and the export is that number.
-/
namespace SiteConfig.ConfigModule

/-- What may be left of tokens when their text is cut off. -/
inductive Truncates : List Token → List Token → Prop
  | ended (all : List Token) : Truncates [] all
  /-- The token stays as it is. -/
  | token (token : Token) {kept all : List Token} (rest : Truncates kept all) :
      Truncates (token :: kept) (token :: all)
  | name {short long : String} (starts : short.toList <+: long.toList) (all : List Token) :
      Truncates [.name short] (.name long :: all)
  | number (m n : Number) (all : List Token) : Truncates [.number m] (.number n :: all)
  /-- The rest of the numeral behind a point is cut off. -/
  | point (all : List Token) : Truncates [.punct '.'] all
  /-- The rest of the comment behind a slash is cut off. -/
  | slash (all : List Token) : Truncates [.punct '/'] all

section Tokens

variable {first : Char} {rest : List Char}

private theorem append_ne_cons {text : List Char} {c : Char} (hne : text ≠ [])
    (hstart : ∀ tail, text = c :: tail → False) (more tail : List Char) :
    text ++ more ≠ c :: tail := by
  intro heq
  obtain ⟨d, text, rfl⟩ := List.exists_cons_of_ne_nil hne
  obtain ⟨rfl, -⟩ := List.cons.inj heq
  exact hstart text rfl

theorem Gap.skip_append {gap : Gap} {source : List Char} {place start : Place}
    (h : gap.skip ⟨source, place⟩ = some ⟨first :: rest, start⟩)
    (hslash : first = '/' → rest ≠ []) (more : List Char) :
    gap.skip ⟨source ++ more, place⟩ = some ⟨first :: (rest ++ more), start⟩ := by
  unfold skip at h ⊢
  dsimp only at h ⊢
  fun_induction skip.go gap source place with
  | case1 => cases h
  | case2 => cases h
  | case3 source place ih => exact ih h
  | case4 source place ih => exact ih h
  | case5 c source place hline hblock hblank ih =>
    have hc : c ≠ '/' := by
      rintro rfl
      rw [Lexeme.not_isBlank_slash] at hblank
      cases hblank
    rw [List.cons_append, skip.go, if_pos hblank]
    · exact ih h
    · exact fun _ hslash => absurd hslash hc
    · exact fun _ hslash => absurd hslash hc
  | case6 c source place hline hblock hblank =>
    cases h
    rw [List.cons_append, skip.go, if_neg hblank]
    · intro tail hc
      exact append_ne_cons (hslash hc) (fun tail => hline tail hc) more tail
    · intro tail hc
      exact append_ne_cons (hslash hc) (fun tail => hblock tail hc) more tail
  | case7 c source place ih =>
    rw [List.cons_append, skip.go]
    exact ih h
  | case8 source place ih => exact ih h
  | case9 c source place hclosed ih =>
    have hne : source ≠ [] := by
      rintro rfl
      cases h
    rw [List.cons_append, skip.go]
    · exact ih h
    · intro tail hc
      exact append_ne_cons hne (fun tail => hclosed tail hc) more tail

theorem Lexeme.startsNumeral_append (h : startsNumeral first rest = true) (more : List Char) :
    startsNumeral first (rest ++ more) = true := by
  cases rest with
  | nil =>
    have hdigit : first.isDigit = true := by simpa [startsNumeral] using h
    simp [startsNumeral, hdigit]
  | cons c rest => exact h

/-- A name that ends with the text is the beginning of the name that is read if the text goes on. -/
theorem prefix_of_span_name {place : Place} {more kept grown : List Char} {after tail : Cursor}
    (hcut : Cursor.span (fun _ => Lexeme.isNamePart) first ⟨rest, place⟩ = (kept, after))
    (hafter : after.rest = [])
    (h : Cursor.span (fun _ => Lexeme.isNamePart) first ⟨rest ++ more, place⟩ = (grown, tail)) :
    first :: kept <+: first :: grown := by
  obtain ⟨_, _, hspan, htakes, hspans⟩ :=
    Cursor.exists_spans (fun _ => Lexeme.isNamePart) first ⟨rest, place⟩
  obtain ⟨_, _, hspan', htakes', hspans'⟩ :=
    Cursor.exists_spans (fun _ => Lexeme.isNamePart) first ⟨rest ++ more, place⟩
  cases hcut.symm.trans hspan
  cases h.symm.trans hspan'
  obtain rfl : rest = kept := by simpa [hafter] using htakes.rest_eq
  exact List.cons_prefix_cons.mpr ⟨rfl, hspans.isPrefix hspans' htakes'.rest_eq⟩

/-- A token that ends with the text is part of the token that is read if the text goes on. -/
theorem truncates_of_readToken {place : Place} {token long : Token} {more : List Char}
    {behind tail : Cursor} (hcut : Lexeme.readToken place first rest = .ok (token, behind))
    (hbehind : behind.rest = [])
    (h : Lexeme.readToken place first (rest ++ more) = .ok (long, tail)) (all : List Token) :
    Truncates [token] (long :: all) := by
  unfold Lexeme.readToken at hcut h
  by_cases hquote : Lexeme.isQuote first = true
  · rw [if_pos hquote] at hcut h
    obtain ⟨⟨text, after⟩, hread, heq⟩ := map_eq_ok_iff.mp hcut
    cases heq
    obtain ⟨spelled, htakes, hspelled⟩ := Quotation.read_spelled hquote hread
    have hempty : after.rest = [] := hbehind
    obtain rfl : rest = spelled := by simpa [hempty] using htakes.rest_eq
    rw [hspelled] at h
    cases h
    exact .token _ (.ended all)
  rw [if_neg hquote] at hcut h
  by_cases hnumeral : Lexeme.startsNumeral first rest = true
  · rw [if_pos hnumeral] at hcut
    rw [if_pos (Lexeme.startsNumeral_append hnumeral more)] at h
    obtain ⟨⟨m, _⟩, -, heq⟩ := map_eq_ok_iff.mp hcut
    obtain ⟨⟨n, _⟩, -, heq'⟩ := map_eq_ok_iff.mp h
    cases heq
    cases heq'
    exact .number m n all
  rw [if_neg hnumeral] at hcut
  by_cases hname : Lexeme.isNameStart first = true
  · have hpoint := Lexeme.ne_point_of_isNameStart hname
    have hnumeral' : ¬Lexeme.startsNumeral first (rest ++ more) = true := by
      rwa [Lexeme.startsNumeral_of_ne_point hpoint] at hnumeral ⊢
    rw [if_pos hname] at hcut
    rw [if_neg hnumeral', if_pos hname] at h
    obtain ⟨rfl, rfl⟩ := Prod.mk.inj (Except.ok.inj hcut)
    obtain ⟨rfl, rfl⟩ := Prod.mk.inj (Except.ok.inj h)
    apply Truncates.name
    rw [String.toList_ofList, String.toList_ofList]
    exact prefix_of_span_name rfl hbehind rfl
  · rw [if_neg hname] at hcut
    cases hcut
    obtain rfl : rest = [] := hbehind
    rw [List.nil_append] at h
    by_cases hpoint : first = '.'
    · subst hpoint
      exact .point _
    · have hnumeral' : ¬Lexeme.startsNumeral first more = true := by
        rwa [Lexeme.startsNumeral_of_ne_point hpoint] at hnumeral ⊢
      rw [if_neg hnumeral', if_neg hname] at h
      cases h
      exact .token _ (.ended all)

theorem eq_nil_of_tokensFrom {cursor : Cursor} {tokens : List Token} (hrest : cursor.rest = [])
    (h : tokensFrom cursor = some tokens) : tokens = [] := by
  have hnil := tokensFrom_place h .start
  rw [hrest, tokensFrom_eq, tokensOf_nil] at hnil
  exact (Option.some.inj hnil).symm

theorem truncates_of_tokensFrom {text more : List Char} {place : Place} {kept all : List Token}
    (hkept : tokensFrom ⟨text, place⟩ = some kept)
    (hall : tokensFrom ⟨text ++ more, place⟩ = some all) : Truncates kept all := by
  induction kept generalizing text place all with
  | nil => exact .ended all
  | cons token kept ih =>
    obtain ⟨first, rest, start, behind, hskip, hread, hmore⟩ := tokensFrom_eq_cons_iff.mp hkept
    by_cases hslash : first = '/' ∧ rest = []
    · obtain ⟨rfl, rfl⟩ := hslash
      rw [Lexeme.readToken_slash] at hread
      cases hread
      obtain rfl := eq_nil_of_tokensFrom rfl hmore
      exact .slash all
    · have hskip' := Gap.skip_append hskip (by tauto) more
      cases all with
      | nil =>
        obtain ⟨_, hend⟩ := tokensFrom_eq_nil_iff.mp hall
        cases hskip'.symm.trans hend
      | cons long others =>
        obtain ⟨_, _, _, tail, hlater, hlong, hothers⟩ := tokensFrom_eq_cons_iff.mp hall
        cases hskip'.symm.trans hlater
        by_cases hbehind : behind.rest = []
        · obtain rfl := eq_nil_of_tokensFrom hbehind hmore
          exact truncates_of_readToken hread hbehind hlong others
        · rw [Lexeme.readToken_append hread hbehind] at hlong
          cases hlong
          exact .token token (ih hmore hothers)

end Tokens

namespace Reading

section Endings

variable {reading next : Reading} {token : Token} {v w : Value}

/-- A reading that may end with a value gives no other value later. -/
theorem eq_of_finish {tokens : List Token} (hfinish : reading.finish = .ok w)
    (hrun : reading.run tokens = .ok v) : w = v := by
  obtain ⟨expected, frames⟩ := reading
  have hnothing : ∀ frames tokens, run ⟨.nothing w, frames⟩ tokens = .ok v → w = v := by
    intro frames tokens h
    cases tokens with
    | nil => exact Except.ok.inj h
    | cons token tokens => cases h
  cases expected with
  | separator u =>
    cases frames with
    | nil =>
      obtain rfl := Except.ok.inj hfinish
      cases tokens with
      | nil => exact Except.ok.inj hrun
      | cons token tokens =>
        by_cases hend : token = .punct ';'
        · subst hend
          exact hnothing [] tokens hrun
        · simp [run, step, continueWith, hend] at hrun
    | cons frame frames => cases frame <;> cases hfinish
  | nothing u =>
    obtain rfl := Except.ok.inj hfinish
    exact hnothing frames tokens hrun
  | _ => cases hfinish

theorem frames_eq_nil_of_finish {u : Value} {frames : List Frame}
    (h : finish ⟨.separator u, frames⟩ = .ok w) : frames = [] := by
  cases frames with
  | nil => rfl
  | cons frame frames => cases frame <;> cases h

theorem eq_separator_of_startValue {frames : List Frame} (h : startValue frames token = .ok next)
    (htoken : ∀ c, token ≠ .punct c) : ∃ u, next = ⟨.separator u, frames⟩ := by
  cases token with
  | punct c => exact absurd rfl (htoken c)
  | name s =>
    rw [startValue] at h
    split at h <;> cases h
    exact ⟨_, rfl⟩
  | string s =>
    cases h
    exact ⟨_, rfl⟩
  | number n =>
    cases h
    exact ⟨_, rfl⟩

/-- A literal that ends in a name or a numeral is that name or numeral, perhaps with a sign. -/
theorem atStart_of_last (hstep : reading.step token = .ok next) (hfinish : next.finish = .ok w)
    (htoken : ∀ c, token ≠ .punct c) :
    reading = start ∨ ∃ sign, reading = ⟨.magnitude sign, []⟩ := by
  have hvalue : ∀ frames, startValue frames token = .ok next → frames = [] := by
    intro frames h
    obtain ⟨u, rfl⟩ := eq_separator_of_startValue h htoken
    exact frames_eq_nil_of_finish hfinish
  obtain ⟨expected, frames⟩ := reading
  cases expected with
  | value =>
    obtain rfl := hvalue frames hstep
    exact .inl rfl
  | magnitude sign =>
    cases token with
    | number n =>
      rw [step_magnitude] at hstep
      cases hstep
      obtain rfl := frames_eq_nil_of_finish hfinish
      exact .inr ⟨sign, rfl⟩
    | _ => cases hstep
  | item items =>
    simp only [step, htoken, if_false] at hstep
    cases hvalue _ hstep
  | key entries =>
    simp only [step, htoken, if_false] at hstep
    split at hstep <;> cases hstep
    cases hfinish
  | colon entries key =>
    simp [step, htoken] at hstep
  | separator u =>
    cases frames with
    | nil => simp [step, continueWith, htoken] at hstep
    | cons frame frames => cases frame <;> simp [step, continueWith, htoken] at hstep
  | nothing u => cases hstep

theorem step_punct_eq_error {c : Char} (hc : c = '.' ∨ c = '/') (reading : Reading) :
    ∃ complaint, reading.step (.punct c) = .error complaint := by
  obtain ⟨expected, frames⟩ := reading
  cases expected with
  | separator v =>
    cases frames with
    | nil => rcases hc with rfl | rfl <;> exact ⟨_, rfl⟩
    | cons frame frames => cases frame <;> rcases hc with rfl | rfl <;> exact ⟨_, rfl⟩
  | _ => rcases hc with rfl | rfl <;> exact ⟨_, rfl⟩

theorem start_step_name {s : String} (h : start.step (.name s) = .ok next) :
    ∃ u, namedValue? s = some u ∧ next = ⟨.separator u, []⟩ := by
  simp only [start, step, startValue] at h
  split at h <;> cases h
  next hs => exact ⟨_, hs, rfl⟩

theorem eq_of_namedValue {short long : String} (hcut : short.toList <+: long.toList)
    (hshort : namedValue? short = some w) (hlong : namedValue? long = some v) : w = v := by
  have hnames : ∀ {name u}, namedValue? name = some u →
      name ∈ ["true", "false", "null", "undefined"] := by
    intro name u h
    unfold namedValue? at h
    split_ifs at h with htrue hfalse hnull
    · simp [htrue]
    · simp [hfalse]
    · rcases hnull with rfl | rfl <;> simp
  have hcuts : ∀ short ∈ ["true", "false", "null", "undefined"],
      ∀ long ∈ ["true", "false", "null", "undefined"],
        short.toList <+: long.toList → short = long := by
    decide
  rw [hcuts _ (hnames hshort) _ (hnames hlong) hcut] at hshort
  exact Option.some.inj (hshort.symm.trans hlong)

/-- Tokens that are cut off are refused, or spell the same value, or a number. -/
theorem eq_or_number_of_truncates {kept all : List Token} (hcut : Truncates kept all)
    (hall : reading.run all = .ok v) (hkept : reading.run kept = .ok w) :
    w = v ∨ ∃ n, v = .number n := by
  induction hcut generalizing reading with
  | ended all => exact .inl (eq_of_finish (run_nil_eq_ok_iff.mp hkept) hall)
  | token token rest ih =>
    obtain ⟨next, hstep, hnext⟩ := run_cons_eq_ok_iff.mp hkept
    rw [run_cons_of_step _ hstep] at hall
    exact ih hall hnext
  | name starts all =>
    obtain ⟨next, hstep, hfinish⟩ := run_cons_eq_ok_iff.mp hkept
    rw [run_nil_eq_ok_iff] at hfinish
    rcases atStart_of_last hstep hfinish (by simp) with rfl | ⟨sign, rfl⟩
    · obtain ⟨short, hshort, rfl⟩ := start_step_name hstep
      obtain ⟨other, hother, hrest⟩ := run_cons_eq_ok_iff.mp hall
      obtain ⟨long, hlong, rfl⟩ := start_step_name hother
      obtain rfl := Except.ok.inj hfinish
      left
      rw [eq_of_namedValue starts hshort hlong]
      exact eq_of_finish rfl hrest
    · cases hstep
  | number m n all =>
    obtain ⟨next, hstep, hfinish⟩ := run_cons_eq_ok_iff.mp hkept
    obtain ⟨other, hother, hrest⟩ := run_cons_eq_ok_iff.mp hall
    rw [run_nil_eq_ok_iff] at hfinish
    right
    rcases atStart_of_last hstep hfinish (by simp) with rfl | ⟨sign, rfl⟩
    · cases hother
      exact ⟨n, (eq_of_finish rfl hrest).symm⟩
    · rw [step_magnitude] at hother
      cases hother
      exact ⟨_, (eq_of_finish rfl hrest).symm⟩
  | point all =>
    obtain ⟨next, hstep, -⟩ := run_cons_eq_ok_iff.mp hkept
    obtain ⟨complaint, herror⟩ := step_punct_eq_error (.inl rfl) reading
    rw [herror] at hstep
    cases hstep
  | slash all =>
    obtain ⟨next, hstep, -⟩ := run_cons_eq_ok_iff.mp hkept
    obtain ⟨complaint, herror⟩ := step_punct_eq_error (.inr rfl) reading
    rw [herror] at hstep
    cases hstep

end Endings

end Reading

theorem exists_tokens_of_evaluate {source : String} {v : Value} (h : evaluate source = .ok v) :
    ∃ rest, tokensOf source.toList = some (.name "export" :: .name "default" :: rest) ∧
      Reading.start.run rest = .ok v := by
  obtain ⟨all, stop, hlexemes, hmodule⟩ := (evaluateChars_eq_ok_iff _ _).mp h
  obtain ⟨rest, hall, hrest⟩ := (spellsModule_iff _ _).mp hmodule
  refine ⟨rest, ?_, hrest⟩
  rw [tokensOf_of_lexemes hlexemes, hall]

/-- A module whose value is no number, if it is cut off anywhere, is refused or has the same
value. -/
theorem evaluate_truncated (source kept : String) (v : Value) (h : evaluate source = .ok v)
    (hnumber : ∀ n, v ≠ .number n) (hstart : kept.toList <+: source.toList) :
    (∃ e, evaluate kept = .error e) ∨ evaluate kept = .ok v := by
  cases hkept : evaluate kept with
  | error e => exact .inl ⟨e, rfl⟩
  | ok w =>
    right
    obtain ⟨all, hall, hv⟩ := exists_tokens_of_evaluate h
    obtain ⟨some, hsome, hw⟩ := exists_tokens_of_evaluate hkept
    obtain ⟨more, hmore⟩ := hstart
    rw [← hmore] at hall
    have hcut : Truncates some all := by
      cases truncates_of_tokensFrom hsome hall with
      | token _ hdefault =>
        cases hdefault with
        | token _ hrest => exact hrest
        | name => cases hw
    rcases Reading.eq_or_number_of_truncates hcut hv hw with rfl | ⟨n, rfl⟩
    · rfl
    · exact absurd rfl (hnumber n)

theorem evaluate_truncated_samples :
    (evaluate "export default [null];" = .ok (.array [.null]) ∧
      "export default [nul".toList <+: "export default [null];".toList ∧
      ((∃ e, evaluate "export default [nul" = .error e) ∨
        evaluate "export default [nul" = .ok (.array [.null]))) ∧
    (evaluate "export default true//1" = .ok (.bool true) ∧
      "export default true/".toList <+: "export default true//1".toList ∧
      ((∃ e, evaluate "export default true/" = .error e) ∨
        evaluate "export default true/" = .ok (.bool true))) := by
  have harray : evaluate "export default [null];" = .ok (.array [.null]) := by cbv
  have hbool : evaluate "export default true//1" = .ok (.bool true) := by cbv
  have hnul : "export default [nul".toList <+: "export default [null];".toList := by decide
  have hslash : "export default true/".toList <+: "export default true//1".toList := by decide
  exact ⟨⟨harray, hnul, evaluate_truncated _ _ _ harray (by simp) hnul⟩,
    ⟨hbool, hslash, evaluate_truncated _ _ _ hbool (by simp) hslash⟩⟩

/-- Without the last of its digits, a number is another number. -/
example : evaluate "export default 12" = .ok (.number (.integer ⟨12, by decide⟩)) ∧
    evaluate "export default 1" = .ok (.number (.integer ⟨1, by decide⟩)) := by
  constructor <;> cbv

end SiteConfig.ConfigModule

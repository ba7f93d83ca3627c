import Mathlib
import SiteConfig.Proofs.Grammar
import SiteConfig.Proofs.StringGrammar
/-!
# Viable prefixes

Reading refuses a token as soon as no module can begin with the tokens up to it. Each state of the
reading is completed by some tokens, so the tokens that were read so far always begin a module, and
the refused token is the first behind which they do not.
-/
namespace SiteConfig.ConfigModule

/-- Tokens behind `export default` that begin some module. -/
def Viable (tokens : List Token) : Prop :=
  ∃ more v, SpellsModule (.name "export" :: .name "default" :: (tokens ++ more)) v

/-- Behind these tokens any literal may stand. -/
def TakesValue (tokens : List Token) : Prop :=
  ∀ body v, Spells body v → Viable (tokens ++ body)

/-- A sign at the place of a value that has no number behind it. -/
structure LoneSign (tokens : List Token) (place : Nat) (sign : Char) : Prop where
  isSign : sign = '+' ∨ sign = '-'
  atPlace : tokens[place]? = some (.punct sign)
  takesValue : TakesValue (tokens.take place)
  lone : ∀ n, tokens[place + 1]? ≠ some (.number n)

namespace Reading

def after (reading : Reading) (tokens : List Token) : Except Complaint Reading :=
  tokens.foldlM step reading

section Runs

variable {reading next : Reading} {tokens more : List Token} {v : Value}

theorem after_cons (reading : Reading) (token : Token) (tokens : List Token) :
    reading.after (token :: tokens) = (reading.step token).bind fun next => next.after tokens :=
  rfl

theorem after_append (reading : Reading) (tokens more : List Token) :
    reading.after (tokens ++ more) =
      (reading.after tokens).bind fun next => next.after more := by
  rw [after, List.foldlM_append]
  rfl

theorem after_concat_eq_ok {token : Token} :
    reading.after (tokens ++ [token]) = .ok next ↔
      ∃ last, reading.after tokens = .ok last ∧ last.step token = .ok next := by
  rw [after_append]
  cases reading.after tokens with
  | error complaint => simp [Except.bind]
  | ok last =>
    simp only [Except.bind, after_cons, Except.ok.injEq, exists_eq_left']
    cases last.step token <;> simp [after, pure, Except.pure]

theorem run_append (h : reading.after tokens = .ok next) (more : List Token) :
    reading.run (tokens ++ more) = next.run more := by
  induction tokens generalizing reading with
  | nil =>
    cases h
    rfl
  | cons token tokens ih =>
    rw [after_cons] at h
    cases hstep : reading.step token with
    | error complaint =>
      rw [hstep] at h
      cases h
    | ok behind =>
      rw [hstep] at h
      rw [List.cons_append, run_cons_of_step _ hstep]
      exact ih h

theorem exists_after_of_run (h : reading.run (tokens ++ more) = .ok v) :
    ∃ next, reading.after tokens = .ok next := by
  induction tokens generalizing reading with
  | nil => exact ⟨reading, rfl⟩
  | cons token tokens ih =>
    obtain ⟨behind, hstep, hbehind⟩ := run_cons_eq_ok_iff.mp h
    rw [after_cons, hstep]
    exact ih hbehind

end Runs

section Completion

def Frame.closing : Frame → Token
  | .array _ => .punct ']'
  | .object _ _ => .punct '}'

theorem exists_run_separator (v : Value) (frames : List Frame) :
    ∃ w, run ⟨.separator v, frames⟩ (frames.map Frame.closing) = .ok w := by
  induction frames generalizing v with
  | nil => exact ⟨v, rfl⟩
  | cons frame frames ih =>
    cases frame with
    | array items => exact ih (.array (v :: items).reverse)
    | object entries key => exact ih (objectOf ((key, v) :: entries))

/-- Every state of the reading is completed by some tokens. -/
theorem exists_run (reading : Reading) : ∃ more w, reading.run more = .ok w := by
  obtain ⟨expected, frames⟩ := reading
  cases expected with
  | value =>
    obtain ⟨w, hw⟩ := exists_run_separator .null frames
    exact ⟨.name "null" :: frames.map Frame.closing, w, hw⟩
  | magnitude sign =>
    let n : Number := .integer ⟨0, by decide⟩
    obtain ⟨w, hw⟩ := exists_run_separator (.number (if sign = '-' then n.neg else n)) frames
    refine ⟨.number n :: frames.map Frame.closing, w, ?_⟩
    rw [run_cons_of_step _ (step_magnitude sign frames n)]
    exact hw
  | item items =>
    obtain ⟨w, hw⟩ := exists_run_separator (.array items.reverse) frames
    exact ⟨.punct ']' :: frames.map Frame.closing, w, hw⟩
  | key entries =>
    obtain ⟨w, hw⟩ := exists_run_separator (objectOf entries) frames
    exact ⟨.punct '}' :: frames.map Frame.closing, w, hw⟩
  | colon entries key =>
    obtain ⟨w, hw⟩ := exists_run_separator .null (.object entries key :: frames)
    exact ⟨.punct ':' :: .name "null" :: (Frame.object entries key :: frames).map Frame.closing,
      w, hw⟩
  | separator v =>
    obtain ⟨w, hw⟩ := exists_run_separator v frames
    exact ⟨_, w, hw⟩
  | nothing v => exact ⟨[], v, rfl⟩

end Completion

end Reading

open Reading

/-- Tokens begin a module exactly if the reading accepts each of them. -/
theorem viable_iff (tokens : List Token) :
    Viable tokens ↔ ∃ reading, start.after tokens = .ok reading := by
  simp only [Viable, spellsModule_iff, List.cons.injEq, true_and, exists_eq_left']
  constructor
  · rintro ⟨more, v, h⟩
    exact exists_after_of_run h
  · rintro ⟨reading, hreading⟩
    obtain ⟨more, v, hmore⟩ := reading.exists_run
    exact ⟨more, v, (run_append hreading more).trans hmore⟩

theorem Viable.of_append {tokens more : List Token} (h : Viable (tokens ++ more)) :
    Viable tokens := by
  obtain ⟨rest, v, h⟩ := h
  exact ⟨more ++ rest, v, by rwa [← List.append_assoc]⟩

section Signs

theorem exists_after_of_spells {body : List Token} {v : Value} (h : Spells body v)
    (frames : List Frame) : ∃ next, after ⟨.value, frames⟩ body = .ok next := by
  obtain ⟨more, w, hmore⟩ := exists_run ⟨.separator v, frames⟩
  apply exists_after_of_run
  rw [run_of_spells frames more h]
  exact hmore

theorem exists_after_item_of_spells {body : List Token} {v : Value} (h : Spells body v)
    (items : List Value) (frames : List Frame) :
    ∃ next, after ⟨.item items, frames⟩ body = .ok next := by
  obtain ⟨more, w, hmore⟩ := exists_run ⟨.separator v, .array items :: frames⟩
  apply exists_after_of_run
  rw [run_item_of_spells h, run_of_spells _ more h]
  exact hmore

private theorem startValue_sign {sign : Char} (hsign : sign = '+' ∨ sign = '-')
    (frames : List Frame) :
    startValue frames (.punct sign) = .ok ⟨.magnitude sign, frames⟩ := by
  rcases hsign with rfl | rfl <;> rfl

theorem step_sign {reading next : Reading} {sign : Char} (hsign : sign = '+' ∨ sign = '-')
    (h : reading.step (.punct sign) = .ok next) : ∃ frames, next = ⟨.magnitude sign, frames⟩ := by
  have hstart := startValue_sign hsign
  obtain ⟨expected, frames⟩ := reading
  cases expected with
  | value =>
    cases (hstart frames).symm.trans h
    exact ⟨frames, rfl⟩
  | item items =>
    have hplain : sign ≠ ']' ∧ sign ≠ ',' := by rcases hsign with rfl | rfl <;> decide
    simp only [step, Token.punct.injEq, hplain.1, hplain.2, if_false, hstart] at h
    cases h
    exact ⟨_, rfl⟩
  | separator v =>
    cases frames with
    | nil => rcases hsign with rfl | rfl <;> simp [step, continueWith] at h
    | cons frame frames =>
      cases frame <;> rcases hsign with rfl | rfl <;> simp [step, continueWith] at h
  | _ => rcases hsign with rfl | rfl <;> simp [step, keyOf?] at h

theorem startValue_eq_magnitude {token : Token} {sign : Char} {outer frames : List Frame}
    (h : startValue outer token = .ok ⟨.magnitude sign, frames⟩) :
    token = .punct sign ∧ (sign = '+' ∨ sign = '-') := by
  unfold startValue at h
  split at h
  case h_8 => split at h <;> cases h
  all_goals
    cases h
  · exact ⟨rfl, .inr rfl⟩
  · exact ⟨rfl, .inl rfl⟩

theorem continueWith_ne_magnitude (v : Value) (outer : List Frame) (token : Token) (sign : Char)
    (frames : List Frame) : continueWith v outer token ≠ .ok ⟨.magnitude sign, frames⟩ := by
  intro h
  cases outer with
  | nil =>
    simp only [continueWith] at h
    split at h <;> cases h
  | cons frame outer =>
    cases frame <;>
    · simp only [continueWith] at h
      split at h
      · cases h
      · split at h <;> cases h

theorem step_eq_magnitude {reading : Reading} {token : Token} {sign : Char} {frames : List Frame}
    (h : reading.step token = .ok ⟨.magnitude sign, frames⟩) :
    token = .punct sign ∧ (sign = '+' ∨ sign = '-') ∧
      ∀ body v, Spells body v → ∃ next, reading.after body = .ok next := by
  obtain ⟨expected, outer⟩ := reading
  cases expected with
  | value =>
    obtain ⟨htoken, hsign⟩ := startValue_eq_magnitude h
    exact ⟨htoken, hsign, fun _ _ hbody => exists_after_of_spells hbody outer⟩
  | item items =>
    simp only [step] at h
    split at h
    · cases h
    · split at h
      · cases h
      · obtain ⟨htoken, hsign⟩ := startValue_eq_magnitude h
        exact ⟨htoken, hsign, fun _ _ hbody => exists_after_item_of_spells hbody items outer⟩
  | magnitude other =>
    cases token with
    | number n =>
      rw [step_magnitude] at h
      cases h
    | _ => cases h
  | key entries =>
    simp only [step] at h
    split at h
    · cases h
    · split at h
      · cases h
      · split at h <;> cases h
  | colon entries key =>
    simp only [step] at h
    split at h
    · cases h
    · split at h <;> cases h
  | separator v => exact absurd h (continueWith_ne_magnitude v outer token sign frames)
  | nothing v => cases h

end Signs

section Faults

variable {tokens : List Token} {place : Nat} {sign : Char} {fault : Fault}

/-- Why reading stops: the tokens end too early, or one of them is refused. -/
theorem run_eq_error {reading : Reading} (h : reading.run tokens = .error fault) :
    (∃ last complaint, reading.after tokens = .ok last ∧ last.finish = .error complaint ∧
      fault = .at complaint 0) ∨
    ∃ before token behind last complaint, tokens = before ++ token :: behind ∧
      reading.after before = .ok last ∧ last.step token = .error complaint ∧
        fault = .at complaint (behind.length + 1) := by
  induction tokens generalizing reading with
  | nil =>
    rw [run] at h
    cases hfinish : reading.finish with
    | error complaint =>
      rw [hfinish] at h
      exact .inl ⟨reading, complaint, rfl, hfinish, (Except.error.inj h).symm⟩
    | ok v =>
      rw [hfinish] at h
      cases h
  | cons token tokens ih =>
    cases hstep : reading.step token with
    | error complaint =>
      rw [run, hstep] at h
      exact .inr ⟨[], token, tokens, reading, complaint, rfl, rfl, hstep,
        (Except.error.inj h).symm⟩
    | ok next =>
      rw [run_cons_of_step _ hstep] at h
      rcases ih h with ⟨last, complaint, hlast, hfinish, hfault⟩ |
        ⟨before, refused, behind, last, complaint, rfl, hlast, hrefused, hfault⟩
      · refine .inl ⟨last, complaint, ?_, hfinish, hfault⟩
        rw [after_cons, hstep]
        exact hlast
      · refine .inr ⟨token :: before, refused, behind, last, complaint, rfl, ?_, hrefused, hfault⟩
        rw [after_cons, hstep]
        exact hlast

/-- A complaint about a token at its own place, and about no number. -/
def Complaint.isPlain : Complaint → Bool
  | .numberExpected _ => false
  | .numberOutOfRange => false
  | _ => true

theorem Fault.at_of_isPlain {complaint : Complaint} (h : complaint.isPlain = true)
    (remaining : Nat) : Fault.at complaint remaining = ⟨complaint, remaining⟩ := by
  unfold Fault.at
  split
  · cases h
  · rfl

theorem Fault.complaint_at (complaint : Complaint) (remaining : Nat) :
    (Fault.at complaint remaining).complaint = complaint := by
  unfold Fault.at
  split <;> rfl

theorem finish_eq_error {reading : Reading} {complaint : Complaint}
    (h : reading.finish = .error complaint) :
    (∃ sign, reading.expected = .magnitude sign ∧ complaint = .numberExpected sign) ∨
      complaint.isPlain = true ∧
        ∃ wanted, complaint.message = "unexpected end of input, expected " ++ wanted := by
  obtain ⟨expected, frames⟩ := reading
  cases expected with
  | magnitude sign => exact .inl ⟨sign, rfl, (Except.error.inj h).symm⟩
  | separator v =>
    cases frames with
    | nil => cases h
    | cons frame frames =>
      cases frame with
      | array items =>
        cases h
        exact .inr ⟨rfl, "`]`", rfl⟩
      | object entries key =>
        cases h
        exact .inr ⟨rfl, String.ofList ['`', '}', '`'], rfl⟩
  | nothing v => cases h
  | value =>
    cases h
    exact .inr ⟨rfl, "a value", rfl⟩
  | item items =>
    cases h
    exact .inr ⟨rfl, "a value", rfl⟩
  | key entries =>
    cases h
    exact .inr ⟨rfl, String.ofList ['`', '}', '`'], rfl⟩
  | colon entries key =>
    cases h
    exact .inr ⟨rfl, "`:`", rfl⟩

theorem isPlain_of_startValue {frames : List Frame} {token : Token} {complaint : Complaint}
    (h : startValue frames token = .error complaint) : complaint.isPlain = true := by
  unfold startValue at h
  split at h
  case h_8 =>
    split at h <;> cases h
    rfl
  all_goals
    cases h
  rfl

theorem isPlain_of_continueWith {v : Value} {frames : List Frame} {token : Token}
    {complaint : Complaint} (h : continueWith v frames token = .error complaint) :
    complaint.isPlain = true := by
  cases frames with
  | nil =>
    simp only [continueWith] at h
    split at h <;> cases h
    rfl
  | cons frame frames =>
    cases frame <;>
    · simp only [continueWith] at h
      split at h
      · cases h
      · split at h <;> cases h
        rfl

/-- A token is refused for what it is, or because it is not the number that a sign waits for. -/
theorem step_eq_error {reading : Reading} {token : Token} {complaint : Complaint}
    (h : reading.step token = .error complaint) :
    (∃ sign, reading.expected = .magnitude sign ∧ complaint = .numberExpected sign ∧
      ∀ n, token ≠ .number n) ∨ complaint.isPlain = true := by
  obtain ⟨expected, frames⟩ := reading
  cases expected with
  | value => exact .inr (isPlain_of_startValue h)
  | magnitude sign =>
    left
    cases token with
    | number n =>
      rw [step_magnitude] at h
      cases h
    | _ => exact ⟨sign, rfl, (Except.error.inj h).symm, by simp⟩
  | item items =>
    right
    simp only [step] at h
    split at h
    · cases h
    · split at h
      · cases h
        rfl
      · exact isPlain_of_startValue h
  | key entries =>
    right
    simp only [step] at h
    split at h
    · cases h
    · split at h
      · cases h
        rfl
      · split at h <;> cases h
        rfl
  | colon entries key =>
    right
    simp only [step] at h
    split at h
    · cases h
    · split at h <;> cases h <;> rfl
  | separator v => exact .inr (isPlain_of_continueWith h)
  | nothing v =>
    cases h
    exact .inr rfl

theorem literal_of_loneSign (h : LoneSign tokens place sign) :
    literal tokens = .error ⟨.numberExpected sign, tokens.length - place⟩ := by
  have htake : tokens.take (place + 1) = tokens.take place ++ [.punct sign] := by
    rw [List.take_add_one, h.atPlace]
    rfl
  obtain ⟨last, hlast⟩ : ∃ last, start.after (tokens.take (place + 1)) = .ok last := by
    have hnumber : ∃ v, Spells [.punct sign, .number (.integer ⟨0, by decide⟩)] v := by
      rcases h.isSign with rfl | rfl
      · exact ⟨_, .positive _⟩
      · exact ⟨_, .negative ((opposite_iff _ _).mpr rfl)⟩
    obtain ⟨v, hv⟩ := hnumber
    have hviable := h.takesValue _ v hv
    rw [List.append_cons, ← htake] at hviable
    exact (viable_iff _).mp hviable.of_append
  obtain ⟨frames, rfl⟩ : ∃ frames, last = ⟨.magnitude sign, frames⟩ := by
    rw [htake] at hlast
    obtain ⟨before, -, hstep⟩ := after_concat_eq_ok.mp hlast
    exact step_sign h.isSign hstep
  have hrun := run_append hlast (tokens.drop (place + 1))
  rw [List.take_append_drop] at hrun
  rw [literal, hrun]
  have hlength : tokens.length - (place + 1) = (tokens.drop (place + 1)).length := by simp
  have hlone := h.lone
  obtain ⟨hlt, -⟩ := List.getElem?_eq_some_iff.mp h.atPlace
  rw [← List.head?_drop] at hlone
  cases hdrop : tokens.drop (place + 1) with
  | nil =>
    rw [hdrop, List.length_nil] at hlength
    have hremaining : tokens.length - place = 1 := by omega
    rw [hremaining]
    rfl
  | cons token behind =>
    rw [hdrop] at hlength hlone
    rw [List.length_cons] at hlength
    have hremaining : tokens.length - place = behind.length + 1 + 1 := by omega
    have hstep : step ⟨.magnitude sign, frames⟩ token = .error (.numberExpected sign) := by
      cases token with
      | number n => exact absurd rfl (hlone n)
      | _ => rfl
    rw [run, hstep, hremaining]
    rfl

/-- Where a number is expected and none follows, there is a lone sign. -/
theorem exists_loneSign_of_after {before behind : List Token} {last : Reading}
    (h : start.after before = .ok last) (hsign : last.expected = .magnitude sign)
    (hnumber : ∀ n, behind.head? ≠ some (.number n)) :
    ∃ place, LoneSign (before ++ behind) place sign := by
  obtain ⟨expected, frames⟩ := last
  dsimp only at hsign
  subst hsign
  rcases List.eq_nil_or_concat before with rfl | ⟨earlier, token, rfl⟩
  · cases h
  · rw [List.concat_eq_append] at h ⊢
    obtain ⟨last, hlast, hstep⟩ := after_concat_eq_ok.mp h
    obtain ⟨rfl, hsign, hvalue⟩ := step_eq_magnitude hstep
    refine ⟨earlier.length, hsign, by simp, ?_, ?_⟩
    · intro body v hbody
      obtain ⟨next, hnext⟩ := hvalue body v hbody
      rw [List.append_assoc, List.take_left, viable_iff, after_append, hlast]
      exact ⟨next, hnext⟩
    · intro n
      rw [List.getElem?_append_right (by simp)]
      simpa [List.head?_eq_getElem?] using hnumber n

/-- Without a lone sign, the reading stops at the end of tokens that begin a module, or at the first
token behind which they do not. -/
theorem literal_of_no_loneSign (h : literal tokens = .error fault)
    (hlone : ∀ place sign, ¬LoneSign tokens place sign) :
    (Viable tokens ∧ fault.remaining = 0 ∧
      ∃ wanted, fault.complaint.message = "unexpected end of input, expected " ++ wanted) ∨
    ∃ place < tokens.length, Viable (tokens.take place) ∧ ¬Viable (tokens.take (place + 1)) ∧
      fault.remaining = tokens.length - place := by
  rcases run_eq_error h with ⟨last, complaint, hlast, hfinish, rfl⟩ |
    ⟨before, token, behind, last, complaint, rfl, hlast, hstep, rfl⟩
  · rcases finish_eq_error hfinish with ⟨sign, hsign, -⟩ | ⟨hplain, hmessage⟩
    · have hend : ∀ n, ([] : List Token).head? ≠ some (.number n) := by simp
      obtain ⟨place, hplace⟩ := exists_loneSign_of_after hlast hsign hend
      rw [List.append_nil] at hplace
      exact absurd hplace (hlone place sign)
    · left
      rw [Fault.at_of_isPlain hplain]
      exact ⟨(viable_iff _).mpr ⟨last, hlast⟩, rfl, hmessage⟩
  · rcases step_eq_error hstep with ⟨sign, hsign, -, hnumber⟩ | hplain
    · have hhead : ∀ n, (token :: behind).head? ≠ some (.number n) := by
        intro n heq
        exact hnumber n (Option.some.inj heq)
      obtain ⟨place, hplace⟩ := exists_loneSign_of_after hlast hsign hhead
      exact absurd hplace (hlone place sign)
    · right
      have htake : (before ++ token :: behind).take (before.length + 1) = before ++ [token] := by
        rw [List.append_cons, List.take_left' (by simp)]
      refine ⟨before.length, by simp, ?_, ?_, ?_⟩
      · rw [List.take_left]
        exact (viable_iff _).mpr ⟨last, hlast⟩
      · rw [htake, viable_iff]
        rintro ⟨next, hnext⟩
        obtain ⟨last', hlast', hstep'⟩ := after_concat_eq_ok.mp hnext
        cases hlast.symm.trans hlast'
        cases hstep.symm.trans hstep'
      · rw [Fault.at_of_isPlain hplain]
        simp

end Faults

section Places

theorem positionOf_end (stop : Position) (lexemes : List Lexeme) :
    positionOf stop lexemes 0 = stop := by
  simp [positionOf]

theorem positionOf_place (stop : Position) {lexemes : List Lexeme} {place : Nat}
    {lexeme : Lexeme} (h : lexemes[place]? = some lexeme) :
    positionOf stop lexemes (lexemes.length - place) = lexeme.place.position := by
  obtain ⟨hlt, -⟩ := List.getElem?_eq_some_iff.mp h
  have hplace : lexemes.length - (lexemes.length - place) = place := by omega
  rw [positionOf, hplace]
  rw [← List.head?_drop] at h
  cases hdrop : lexemes.drop place with
  | nil => simp [hdrop] at h
  | cons first rest =>
    rw [hdrop] at h
    cases h
    rfl

theorem evaluate_eq_malformed {source : String} {first second : Lexeme} {rest : List Lexeme}
    {stop : Position} (hlexemes : lexemes source.toList = .ok (first :: second :: rest, stop))
    {position : Position} {complaint : Complaint}
    (h : evaluate source = .error (.malformed position complaint)) :
    ∃ fault, literal (rest.map Lexeme.token) = .error fault ∧
      position = positionOf stop rest fault.remaining ∧ complaint = fault.complaint := by
  rcases malformed_cases h with herror | ⟨_, _, _, _, fault, hall, hfault⟩
  · rw [hlexemes] at herror
    cases herror
  · rw [hlexemes] at hall
    cases hall
    exact ⟨fault, hfault⟩

end Places

section Range

open Reading

theorem Complaint.message_ne {complaint : Complaint} (h : complaint ≠ .numberOutOfRange) :
    complaint.message ≠ "number out of range" := by
  have hfirst : complaint.message.toList.head? ≠ some 'n' := by
    delta Complaint.message
    cases complaint <;> dsimp only <;> first | exact absurd rfl h | simp
  intro heq
  exact hfirst (heq ▸ rfl)

theorem unicodeCode_ne_outOfRange (cursor : Cursor) :
    Quotation.unicodeCode cursor ≠ .error .numberOutOfRange := by
  unfold Quotation.unicodeCode
  split <;> split <;> simp

theorem charOf_ne_outOfRange (code : Nat) :
    Quotation.charOf code ≠ .error .numberOutOfRange := by
  unfold Quotation.charOf
  split <;> simp

theorem unicodeEscape_ne_outOfRange (cursor : Cursor) :
    Quotation.unicodeEscape cursor ≠ .error .numberOutOfRange := by
  intro h
  unfold Quotation.unicodeEscape at h
  split at h
  · split at h
    · unfold Quotation.lowEscape at h
      split at h
      · split at h
        · split at h
          · exact charOf_ne_outOfRange _ (map_eq_error_iff.mp h)
          · cases h
        · next hcode =>
          cases h
          exact unicodeCode_ne_outOfRange _ hcode
      · cases h
    · exact charOf_ne_outOfRange _ (map_eq_error_iff.mp h)
  · next hcode =>
    cases h
    exact unicodeCode_ne_outOfRange _ hcode

theorem escape_ne_outOfRange (first : Char) (cursor : Cursor) :
    Quotation.escape first cursor ≠ .error .numberOutOfRange := by
  intro h
  unfold Quotation.escape at h
  split at h
  case h_7 =>
    split at h
    · exact charOf_ne_outOfRange _ (map_eq_error_iff.mp h)
    · cases h
  case h_8 => exact unicodeEscape_ne_outOfRange cursor h
  case h_9 => split at h <;> cases h
  case h_13 =>
    split at h
    · cases h
    · split at h <;> cases h
  all_goals cases h

theorem read_ne_outOfRange (quote : Char) (cursor : Cursor) (position : Position) :
    Quotation.read quote cursor ≠ .error (.malformed position .numberOutOfRange) := by
  intro h
  fun_induction Quotation.read quote cursor with
  | case4 place first rest complaint _ hescape =>
    cases h
    exact escape_ne_outOfRange _ _ hescape
  | case5 _ _ _ _ _ _ _ ih => exact ih (map_eq_error_iff.mp h)
  | case8 _ _ _ _ _ _ _ ih => exact ih (map_eq_error_iff.mp h)
  | _ => cases h

theorem readToken_ne_outOfRange (place : Place) (first : Char) (rest : List Char)
    (position : Position) :
    Lexeme.readToken place first rest ≠ .error (.malformed position .numberOutOfRange) := by
  intro h
  unfold Lexeme.readToken at h
  split at h
  · exact read_ne_outOfRange _ _ _ (map_eq_error_iff.mp h)
  · split at h
    · have hnumeral := map_eq_error_iff.mp h
      simp only [Numeral.read] at hnumeral
      split at hnumeral <;> cases hnumeral
    · split at h <;> cases h

theorem lexemesFrom_ne_outOfRange (cursor : Cursor) (position : Position) :
    lexemesFrom cursor ≠ .error (.malformed position .numberOutOfRange) := by
  intro h
  fun_induction lexemesFrom cursor with
  | case3 cursor first rest place _ error hread =>
    cases h
    exact readToken_ne_outOfRange _ _ _ _ hread
  | case4 _ _ _ _ _ _ _ _ _ ih => exact ih (map_eq_error_iff.mp h)
  | _ => cases h

theorem finish_ne_outOfRange (reading : Reading) :
    reading.finish ≠ .error .numberOutOfRange := by
  intro h
  rcases finish_eq_error h with ⟨sign, -, hcomplaint⟩ | ⟨hplain, -⟩
  · cases hcomplaint
  · cases hplain

theorem step_ne_outOfRange (reading : Reading) (token : Token) :
    reading.step token ≠ .error .numberOutOfRange := by
  intro h
  rcases step_eq_error h with ⟨sign, -, hcomplaint, -⟩ | hplain
  · cases hcomplaint
  · cases hplain

/-- No number of a module is out of range, for each has an opposite. -/
theorem complaint_ne_outOfRange {source : String} {position : Position} {complaint : Complaint}
    (h : evaluate source = .error (.malformed position complaint)) :
    complaint ≠ .numberOutOfRange := by
  rintro rfl
  rcases malformed_cases h with hlexemes | ⟨_, _, rest, _, fault, -, hliteral, -, hcomplaint⟩
  · exact lexemesFrom_ne_outOfRange _ _ hlexemes
  · rcases run_eq_error hliteral with ⟨last, complaint, -, hfinish, rfl⟩ |
      ⟨_, token, _, last, complaint, -, -, hstep, rfl⟩
    · rw [Fault.complaint_at] at hcomplaint
      exact finish_ne_outOfRange last (hcomplaint ▸ hfinish)
    · rw [Fault.complaint_at] at hcomplaint
      exact step_ne_outOfRange last token (hcomplaint ▸ hstep)

end Range

/-- A malformed export is reported at a lone sign, if there is one. Otherwise it ends too early, and
is reported at the end of the source, or it is reported at the first token behind which no module
can go on. A number never is a reason to refuse it. -/
theorem malformed_at_earliest_token :
    (∀ (source : String) (first second : Lexeme) (rest : List Lexeme) (stop position : Position)
      (complaint : Complaint),
      lexemes source.toList = .ok (first :: second :: rest, stop) →
      first.token = .name "export" → second.token = .name "default" →
      evaluate source = .error (.malformed position complaint) →
        (∀ place sign, LoneSign (rest.map Lexeme.token) place sign →
          complaint.message = "expected a number after `" ++ sign.toString ++ "`" ∧
            ∃ lexeme, rest[place]? = some lexeme ∧ position = lexeme.place.position) ∧
        ((∀ place sign, ¬LoneSign (rest.map Lexeme.token) place sign) →
          ((∀ count, Viable ((rest.map Lexeme.token).take count)) ∧
            (∃ wanted, complaint.message = "unexpected end of input, expected " ++ wanted) ∧
              position = stop) ∨
          ∃ place lexeme, rest[place]? = some lexeme ∧
            (∀ count ≤ place, Viable ((rest.map Lexeme.token).take count)) ∧
              ¬Viable ((rest.map Lexeme.token).take (place + 1)) ∧
                position = lexeme.place.position)) ∧
    (∀ source position complaint, evaluate source = .error (.malformed position complaint) →
      complaint.message ≠ "number out of range") ∧
    ∀ tokens sign n, TakesValue tokens → sign = '+' ∨ sign = '-' →
      Viable (tokens ++ [.punct sign, .number n]) := by
  refine ⟨?_, fun _ _ _ h => Complaint.message_ne (complaint_ne_outOfRange h), ?_⟩
  · intro source first second rest stop position complaint hlexemes _ _ h
    obtain ⟨fault, hfault, rfl, rfl⟩ := evaluate_eq_malformed hlexemes h
    constructor
    · intro place sign hlone
      have hplace := hlone.atPlace
      rw [List.getElem?_map, Option.map_eq_some_iff] at hplace
      obtain ⟨lexeme, hlexeme, -⟩ := hplace
      obtain rfl := Except.error.inj (hfault.symm.trans (literal_of_loneSign hlone))
      refine ⟨rfl, lexeme, hlexeme, ?_⟩
      rw [List.length_map, positionOf_place _ hlexeme]
    · intro hlone
      rcases literal_of_no_loneSign hfault hlone with ⟨hviable, hremaining, hmessage⟩ |
        ⟨place, hplace, hbefore, hbehind, hremaining⟩
      · left
        refine ⟨?_, hmessage, ?_⟩
        · intro count
          rw [← List.take_append_drop count (rest.map Lexeme.token)] at hviable
          exact hviable.of_append
        · rw [hremaining, positionOf_end]
      · right
        rw [List.length_map] at hplace hremaining
        refine ⟨place, rest[place], List.getElem?_eq_getElem hplace, ?_, hbehind, ?_⟩
        · intro count hcount
          rw [← List.take_append_drop count (List.take place _), List.take_take,
            Nat.min_eq_left hcount] at hbefore
          exact hbefore.of_append
        · rw [hremaining, positionOf_place _ (List.getElem?_eq_getElem hplace)]
  · rintro tokens sign n htokens (rfl | rfl)
    · exact htokens _ _ (.positive n)
    · exact htokens _ _ (.negative ((opposite_iff n _).mpr rfl))

section Sample

def signedName : List Lexeme := [
  ⟨.punct '{', ⟨1, 16⟩, 15⟩, ⟨.name "a", ⟨1, 17⟩, 16⟩, ⟨.punct ':', ⟨1, 18⟩, 17⟩,
  ⟨.punct '[', ⟨1, 20⟩, 19⟩, ⟨.punct '-', ⟨1, 21⟩, 20⟩, ⟨.name "b", ⟨1, 22⟩, 21⟩,
  ⟨.punct ']', ⟨1, 23⟩, 22⟩, ⟨.punct '}', ⟨1, 24⟩, 23⟩]

theorem loneSign_signedName : LoneSign (signedName.map Lexeme.token) 4 '-' := by
  constructor
  · exact .inr rfl
  · rfl
  · intro body v hbody
    obtain ⟨next, hnext⟩ := exists_after_item_of_spells hbody [] [.object [] "a"]
    exact (viable_iff _).mpr ⟨next, hnext⟩
  · intro n
    simp [signedName]

theorem not_loneSign_bracket (place : Nat) (sign : Char) :
    ¬LoneSign [.punct '['] place sign := by
  intro h
  have hplace := h.atPlace
  cases place with
  | zero =>
    cases hplace
    exact absurd h.isSign (by decide)
  | succ place => cases hplace

theorem takesValue_nil : TakesValue [] := by
  intro body v hbody
  exact (viable_iff _).mpr (exists_after_of_spells hbody [])

theorem malformed_at_earliest_token_samples :
    (lexemes "export default {a: [-b]}".toList =
        .ok (⟨.name "export", .start⟩ :: ⟨.name "default", ⟨1, 8⟩, 7⟩ :: signedName, ⟨1, 25⟩) ∧
      evaluate "export default {a: [-b]}" =
        .error (.malformed ⟨1, 21⟩ (.numberExpected '-')) ∧
      LoneSign (signedName.map Lexeme.token) 4 '-' ∧
      ∃ lexeme, signedName[4]? = some lexeme ∧ ⟨1, 21⟩ = lexeme.place.position) ∧
    (evaluate "export default [" = .error (.malformed ⟨1, 17⟩ .valueAtEnd) ∧
      (∀ count, Viable (List.take count [.punct '['])) ∧
      Complaint.valueAtEnd.message ≠ "number out of range") ∧
    Viable [.punct '-', .number (.integer ⟨0, by decide⟩)] := by
  obtain ⟨hplaces, hrange, hsign⟩ := malformed_at_earliest_token
  refine ⟨?_, ?_, hsign [] '-' _ takesValue_nil (.inr rfl)⟩
  · have hlexemes : lexemes "export default {a: [-b]}".toList =
        .ok (⟨.name "export", .start⟩ :: ⟨.name "default", ⟨1, 8⟩, 7⟩ :: signedName, ⟨1, 25⟩) := by
      cbv
    have herror : evaluate "export default {a: [-b]}" =
        .error (.malformed ⟨1, 21⟩ (.numberExpected '-')) := by
      cbv
    obtain ⟨hlone, -⟩ := hplaces _ _ _ _ _ _ _ hlexemes rfl rfl herror
    exact ⟨hlexemes, herror, loneSign_signedName, (hlone 4 '-' loneSign_signedName).2⟩
  · have hlexemes : lexemes "export default [".toList =
        .ok ([⟨.name "export", .start⟩, ⟨.name "default", ⟨1, 8⟩, 7⟩,
          ⟨.punct '[', ⟨1, 16⟩, 15⟩], ⟨1, 17⟩) := by
      cbv
    have herror : evaluate "export default [" =
        .error (.malformed ⟨1, 17⟩ .valueAtEnd) := by
      cbv
    obtain ⟨-, hnone⟩ := hplaces _ _ _ _ _ _ _ hlexemes rfl rfl herror
    rcases hnone not_loneSign_bracket with ⟨hviable, -, -⟩ |
      ⟨place, lexeme, hlexeme, -, -, hposition⟩
    · exact ⟨herror, hviable, hrange _ _ _ herror⟩
    · obtain rfl : lexeme = ⟨.punct '[', ⟨1, 16⟩, 15⟩ := by
        cases place with
        | zero =>
          cases hlexeme
          rfl
        | succ place => cases hlexeme
      exact absurd hposition (by decide)

end Sample

end SiteConfig.ConfigModule

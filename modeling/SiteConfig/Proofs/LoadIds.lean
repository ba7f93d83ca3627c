import Mathlib.Data.List.Pairwise
import Mathlib.Logic.Function.Basic
import SiteConfig.Project.LoadId
/-!
# Load identifiers of concurrent calls

Callers take load identifiers at the same time. A call reads the clock, replaces the last identifier
in one atomic update, and returns what it computes once more from the identifier it has replaced.
Whatever the order of these steps and whatever the clock reads, a call returns the identifier that it
has stored, and the stored identifiers ascend until they reach the greatest one.
-/
namespace SiteConfig.LoadId

/-- How far a call has come. -/
inductive Call where
  | idle
  | timed (now : Nat)
  | updated (now previous : Nat)

/-- The last identifier with the calls of all callers. -/
structure Counter (Caller : Type) where
  last : Nat
  calls : Caller → Call

/-- What is seen of one step of a call. -/
inductive Label (Caller : Type) where
  | readsClock (caller : Caller) (time : Int)
  | stores (caller : Caller) (id : Nat)
  | returns (caller : Caller) (id : Nat)
  deriving DecidableEq

namespace Label

variable {Caller : Type}

def caller : Label Caller → Caller
  | readsClock caller _ | stores caller _ | returns caller _ => caller

def stored? : Label Caller → Option Nat
  | stores _ id => some id
  | _ => none

def returned? : Label Caller → Option Nat
  | returns _ id => some id
  | _ => none

theorem returned?_eq_some_iff {label : Label Caller} {id : Nat} :
    label.returned? = some id ↔ ∃ caller, label = .returns caller id := by
  cases label <;> simp [returned?]

/-- Labels that do not store the same identifier. -/
def Apart (earlier later : Label Caller) : Prop :=
  ∀ id ∈ earlier.stored?, ∀ id' ∈ later.stored?, id ≠ id'

instance : Std.Symm (@Apart Caller) :=
  ⟨fun _ _ h id hid id' hid' => (h id' hid' id hid).symm⟩

end Label

variable {Caller : Type} [DecidableEq Caller]

namespace Counter

def start (last : Nat) : Counter Caller := ⟨last, fun _ => .idle⟩

/-- The next step of a caller, at a time. After a call it begins another one. -/
def advance (counter : Counter Caller) (caller : Caller) (time : Int) :
    Counter Caller × Label Caller :=
  match counter.calls caller with
  | .idle =>
    ({ counter with calls := Function.update counter.calls caller (.timed (reading time)) },
      .readsClock caller time)
  | .timed now =>
    (⟨next now counter.last, Function.update counter.calls caller (.updated now counter.last)⟩,
      .stores caller (next now counter.last))
  | .updated now previous =>
    ({ counter with calls := Function.update counter.calls caller .idle },
      .returns caller (next now previous))

def run (counter : Counter Caller) : List (Caller × Int) → Counter Caller
  | [] => counter
  | (caller, time) :: rest => (counter.advance caller time).1.run rest

def trace (counter : Counter Caller) : List (Caller × Int) → List (Label Caller)
  | [] => []
  | (caller, time) :: rest =>
    (counter.advance caller time).2 :: (counter.advance caller time).1.trace rest

end Counter

def storedIds (trace : List (Label Caller)) : List Nat := trace.filterMap Label.stored?

def returnedIds (trace : List (Label Caller)) : List Nat := trace.filterMap Label.returned?

def own (caller : Caller) (trace : List (Label Caller)) : List (Label Caller) :=
  trace.filter fun label => label.caller = caller

/-- The labels of completed calls: each reads the clock, stores an identifier that is not below the
reading, and returns this identifier. -/
inductive Completed (caller : Caller) : List (Label Caller) → Prop
  | nil : Completed caller []
  | concat {labels : List (Label Caller)} {time : Int} {id : Nat} (h : Completed caller labels)
      (hid : reading time ≤ id) :
      Completed caller (labels ++ [.readsClock caller time, .stores caller id, .returns caller id])

/-- The labels of a call that is under way. -/
inductive UnderWay (caller : Caller) : Call → List (Label Caller) → Prop
  | idle : UnderWay caller .idle []
  | timed (time : Int) : UnderWay caller (.timed (reading time)) [.readsClock caller time]
  | updated (time : Int) (previous : Nat) :
      UnderWay caller (.updated (reading time) previous)
        [.readsClock caller time, .stores caller (next (reading time) previous)]

section Steps

variable {counter : Counter Caller} {caller other : Caller} {time : Int}

@[simp] theorem caller_advance : (counter.advance caller time).2.caller = caller := by
  unfold Counter.advance
  split <;> rfl

theorem calls_advance_of_ne (h : other ≠ caller) :
    (counter.advance caller time).1.calls other = counter.calls other := by
  unfold Counter.advance
  split <;> exact Function.update_of_ne h _ _

theorem advance_cases (counter : Counter Caller) (caller : Caller) (time : Int) :
    ((counter.advance caller time).2.stored? = none ∧
      (counter.advance caller time).1.last = counter.last) ∨
    ∃ now, (counter.advance caller time).2 = .stores caller (next now counter.last) ∧
      (counter.advance caller time).1.last = next now counter.last := by
  unfold Counter.advance
  split
  · exact .inl ⟨rfl, rfl⟩
  · next now _ => exact .inr ⟨now, rfl, rfl⟩
  · exact .inl ⟨rfl, rfl⟩

end Steps

/-- What a trace says of the counter that it has led to. -/
structure Traced (first : Nat) (trace : List (Label Caller)) (counter : Counter Caller) : Prop where
  last : counter.last = (storedIds trace).getLastD first
  ascending : counter.last < greatest → (first :: storedIds trace).Pairwise (· < ·)
  calls : ∀ caller, ∃ completed started, own caller trace = completed ++ started ∧
    Completed caller completed ∧ UnderWay caller (counter.calls caller) started

namespace Traced

variable {first : Nat} {trace : List (Label Caller)} {counter : Counter Caller}

theorem start (first : Nat) : Traced first [] (Counter.start first : Counter Caller) where
  last := rfl
  ascending _ := List.pairwise_singleton _ _
  calls _ := ⟨[], [], rfl, .nil, .idle⟩

theorem lt_next (h : Traced first trace counter) (hlast : counter.last < greatest) (now : Nat) :
    ∀ earlier ∈ first :: storedIds trace, earlier < next now counter.last := by
  intro earlier hearlier
  have hle : earlier ≤ counter.last := by
    rw [h.last, ← List.getLast_eq_getLastD (List.cons_ne_nil _ _)]
    exact ((h.ascending hlast).imp Nat.le_of_lt).rel_getLast hearlier
  exact Nat.lt_of_le_of_lt hle (LoadId.lt_next hlast)

/-- A step of the own caller takes the call one step further; a step of another one leaves it. -/
theorem calls_advance (h : Traced first trace counter) (caller : Caller) (time : Int)
    (other : Caller) :
    ∃ completed started, own other (trace ++ [(counter.advance caller time).2]) =
        completed ++ started ∧ Completed other completed ∧
      UnderWay other ((counter.advance caller time).1.calls other) started := by
  obtain ⟨completed, started, hown, hcompleted, hstarted⟩ := h.calls other
  by_cases hother : other = caller
  · subst hother
    have hconcat (label : Label Caller) (hlabel : label.caller = other) :
        own other (trace ++ [label]) = completed ++ (started ++ [label]) := by
      rw [own, List.filter_append, ← List.append_assoc, ← hown]
      simp [own, hlabel]
    rw [hconcat _ caller_advance]
    unfold Counter.advance
    generalize counter.calls other = call at hstarted
    cases hstarted with
    | idle =>
      refine ⟨completed, _, rfl, hcompleted, ?_⟩
      simpa using UnderWay.timed time
    | timed now =>
      refine ⟨completed, _, rfl, hcompleted, ?_⟩
      simpa using UnderWay.updated now counter.last
    | updated now previous =>
      refine ⟨_, [], (List.append_nil _).symm, hcompleted.concat (le_next _ previous), ?_⟩
      simpa using UnderWay.idle
  · refine ⟨completed, started, ?_, hcompleted, ?_⟩
    · rw [← hown, own, own, List.filter_append]
      simp [Ne.symm hother]
    · rwa [calls_advance_of_ne hother]

theorem advance (h : Traced first trace counter) (caller : Caller) (time : Int) :
    Traced first (trace ++ [(counter.advance caller time).2]) (counter.advance caller time).1 := by
  have hcalls := h.calls_advance caller time
  rcases advance_cases counter caller time with ⟨hstored, hlast⟩ | ⟨now, hlabel, hlast⟩
  · have hids : storedIds (trace ++ [(counter.advance caller time).2]) = storedIds trace := by
      simp [storedIds, hstored]
    refine ⟨?_, ?_, hcalls⟩
    · rw [hlast, hids, h.last]
    · rw [hlast, hids]
      exact h.ascending
  · have hids : storedIds (trace ++ [(counter.advance caller time).2]) =
        storedIds trace ++ [next now counter.last] := by
      simp [storedIds, hlabel, Label.stored?]
    refine ⟨?_, ?_, hcalls⟩
    · rw [hlast, hids, List.getLastD_concat]
    · rw [hlast, hids]
      intro hnext
      have hbelow : counter.last < greatest := by
        unfold next at hnext
        omega
      rw [← List.cons_append, List.pairwise_append]
      refine ⟨h.ascending hbelow, List.pairwise_singleton _ _, ?_⟩
      simpa using h.lt_next hbelow now

/-- What holds of a counter and its trace still holds after steps in any order. -/
theorem run (h : Traced first trace counter) (schedule : List (Caller × Int)) :
    Traced first (trace ++ counter.trace schedule) (counter.run schedule) := by
  induction schedule generalizing trace counter with
  | nil => rwa [Counter.trace, List.append_nil]
  | cons step rest ih =>
    rw [Counter.trace, List.append_cons]
    exact ih (h.advance step.1 step.2)

end Traced

section Runs

variable (first : Nat) (schedule : List (Caller × Int))

theorem traced_run : Traced first ((Counter.start first).trace schedule)
    ((Counter.start first).run schedule) :=
  (Traced.start first).run schedule

/-- A label of a trace is that of one step, in the state to which the steps before it lead. -/
theorem exists_advance_of_trace {counter : Counter Caller} {schedule : List (Caller × Int)}
    {before after : List (Label Caller)} {label : Label Caller}
    (h : counter.trace schedule = before ++ label :: after) :
    ∃ earlier caller time, counter.trace earlier = before ∧
      ((counter.run earlier).advance caller time).2 = label := by
  induction before generalizing counter schedule with
  | nil =>
    cases schedule with
    | nil => cases h
    | cons step rest => exact ⟨[], step.1, step.2, rfl, (List.cons.inj h).1⟩
  | cons seen before ih =>
    cases schedule with
    | nil => cases h
    | cons step rest =>
      obtain ⟨hseen, hrest⟩ := List.cons.inj h
      obtain ⟨earlier, caller, time, htrace, hlabel⟩ := ih hrest
      refine ⟨step :: earlier, caller, time, ?_, hlabel⟩
      rw [Counter.trace, htrace, hseen]

theorem lt_of_stores {before after : List (Label Caller)} {caller : Caller} {id : Nat}
    (h : (Counter.start first).trace schedule = before ++ .stores caller id :: after)
    (hlast : (storedIds before).getLastD first < greatest) :
    ∀ earlier ∈ first :: storedIds before, earlier < id := by
  obtain ⟨earlier, other, time, rfl, hlabel⟩ := exists_advance_of_trace h
  have htraced := traced_run first earlier
  rcases advance_cases ((Counter.start first).run earlier) other time with
    ⟨hstored, -⟩ | ⟨now, hstores, -⟩
  · rw [hlabel] at hstored
    cases hstored
  · cases hstores.symm.trans hlabel
    exact htraced.lt_next (htraced.last ▸ hlast) now

theorem run_append (counter : Counter Caller) (earlier later : List (Caller × Int)) :
    counter.run (earlier ++ later) = (counter.run earlier).run later := by
  induction earlier generalizing counter with
  | nil => rfl
  | cons step rest ih => exact ih _

theorem trace_append (counter : Counter Caller) (earlier later : List (Caller × Int)) :
    counter.trace (earlier ++ later) =
      counter.trace earlier ++ (counter.run earlier).trace later := by
  induction earlier generalizing counter with
  | nil => rfl
  | cons step rest ih => exact congrArg _ (ih _)

/-- The steps of a call that no other one interrupts. -/
def wholeCall (caller : Caller) (time : Int) : List (Caller × Int) :=
  List.replicate 3 (caller, time)

theorem run_wholeCall (last : Nat) (caller : Caller) (time : Int) :
    (Counter.start last).run (wholeCall caller time) = .start (next (reading time) last) := by
  simp [wholeCall, Counter.run, Counter.advance, Counter.start]

theorem trace_wholeCall (last : Nat) (caller : Caller) (time : Int) :
    (Counter.start last).trace (wholeCall caller time) =
      [.readsClock caller time, .stores caller (next (reading time) last),
        .returns caller (next (reading time) last)] := by
  simp [wholeCall, Counter.trace, Counter.advance, Counter.start]

theorem length_own_trace (counter : Counter Caller) (schedule : List (Caller × Int))
    (caller : Caller) : (own caller (counter.trace schedule)).length =
      (schedule.filter fun step => step.1 = caller).length := by
  induction schedule generalizing counter with
  | nil => rfl
  | cons step rest ih =>
    have hrest := ih (counter.advance step.1 step.2).1
    simp only [own, Counter.trace, List.filter_cons, caller_advance] at hrest ⊢
    split <;> simp [hrest]

end Runs

section Uniqueness

variable {caller : Caller} {labels : List (Label Caller)}

theorem Completed.count_returns (h : Completed caller labels) (id : Nat) :
    labels.count (.returns caller id) = labels.count (.stores caller id) := by
  induction h with
  | nil => rfl
  | concat _ _ ih => simp [List.count_append, List.count_cons, ih]

omit [DecidableEq Caller] in
theorem UnderWay.not_mem_returns {call : Call} (h : UnderWay caller call labels) (id : Nat) :
    .returns caller id ∉ labels := by
  cases h <;> simp

theorem Traced.count_returns_le {first : Nat} {trace : List (Label Caller)}
    {counter : Counter Caller} (h : Traced first trace counter) (caller : Caller) (id : Nat) :
    trace.count (.returns caller id) ≤ trace.count (.stores caller id) := by
  have hown (label : Label Caller) (hlabel : label.caller = caller) :
      (own caller trace).count label = trace.count label :=
    List.count_filter (by simpa using hlabel)
  obtain ⟨completed, started, hlabels, hcompleted, hstarted⟩ := h.calls caller
  rw [← hown _ rfl, ← hown _ rfl, hlabels, List.count_append, List.count_append,
    hcompleted.count_returns, List.count_eq_zero_of_not_mem (hstarted.not_mem_returns id)]
  omega

theorem Traced.nodup_returnedIds {first : Nat} {trace : List (Label Caller)}
    {counter : Counter Caller} (h : Traced first trace counter) (hnodup : (storedIds trace).Nodup) :
    (returnedIds trace).Nodup := by
  have hapart : trace.Pairwise Label.Apart := List.pairwise_filterMap.mp hnodup
  have hstores {caller : Caller} {id : Nat} (hmem : .returns caller id ∈ trace) :
      .stores caller id ∈ trace :=
    List.count_pos_iff.mp (Nat.lt_of_lt_of_le (List.count_pos_iff.mpr hmem)
      (h.count_returns_le caller id))
  refine List.pairwise_filterMap.mpr (List.pairwise_iff_forall_sublist.mpr ?_)
  rintro earlier later hpair id hearlier _ hlater rfl
  obtain ⟨caller, rfl⟩ := Label.returned?_eq_some_iff.mp hearlier
  obtain ⟨other, rfl⟩ := Label.returned?_eq_some_iff.mp hlater
  by_cases hcaller : other = caller
  · subst hcaller
    have htwice : 2 ≤ trace.count (.returns other id) := List.replicate_sublist_iff.mp hpair
    have hagain : (List.replicate 2 (.stores other id)).Sublist trace :=
      List.replicate_sublist_iff.mpr (Nat.le_trans htwice (h.count_returns_le other id))
    exact List.pairwise_iff_forall_sublist.mp hapart hagain id rfl id rfl rfl
  · have hdistinct : (.stores other id : Label Caller) ≠ .stores caller id := by simpa using hcaller
    exact hapart.forall (hstores (hpair.subset (by simp))) (hstores (hpair.subset (by simp)))
      hdistinct id rfl id rfl rfl

end Uniqueness

end SiteConfig.LoadId

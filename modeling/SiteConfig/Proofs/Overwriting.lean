import SiteConfig.Overlay
import SiteConfig.Proofs.Completion
/-!
# One override

A text that is written at a path is found there, hides what stood below and leaves all other places
alone. Writing it is the same as merging the object that holds nothing else.
-/
namespace SiteConfig

namespace Object

variable {key name : String} {value other : Value}

theorem insert_insert (entries : Object) :
    insert key value (insert key other entries) = insert key value entries := by
  induction entries with
  | nil => simp [insert]
  | cons entry rest ih =>
    obtain ⟨k, v⟩ := entry
    by_cases hlt : key < k
    · simp [insert, hlt]
    · by_cases heq : key = k
      · simp [insert, heq]
      · simp [insert, hlt, heq, ih]

private theorem insert_comm_of_lt (h : key < name) (entries : Object) :
    insert key value (insert name other entries) = insert name other (insert key value entries) := by
  have hnot : ¬name < key := String.lt_asymm h
  have hne : name ≠ key := fun heq => String.lt_irrefl key (heq ▸ h)
  induction entries with
  | nil => simp [insert, h, hnot, hne]
  | cons entry rest ih =>
    obtain ⟨k, v⟩ := entry
    by_cases hname : name < k
    · have hkey : key < k := String.lt_trans h hname
      simp [insert, hname, hkey, h, hnot, hne]
    · by_cases hnamek : name = k
      · subst hnamek
        simp [insert, h, hnot, hne]
      · by_cases hkey : key < k
        · simp [insert, hname, hnamek, hkey, hnot, hne]
        · by_cases hkeyk : key = k
          · subst hkeyk
            simp [insert, hnot, hne]
          · simp [insert, hname, hnamek, hkey, hkeyk, ih]

theorem insert_comm (h : key ≠ name) (entries : Object) :
    insert key value (insert name other entries) = insert name other (insert key value entries) := by
  by_cases hlt : key < name
  · exact insert_comm_of_lt hlt entries
  · have hgt : name < key := Std.lt_of_le_of_ne (Std.not_lt.mp hlt) (Ne.symm h)
    exact (insert_comm_of_lt hgt entries).symm

theorem sortedEntries_insert {entries : Object} (h : Value.SortedEntries entries)
    (hvalue : value.Sorted) : Value.SortedEntries (insert key value entries) := by
  induction entries with
  | nil => exact ⟨hvalue, trivial⟩
  | cons entry rest ih =>
    obtain ⟨k, v⟩ := entry
    rw [insert]
    split
    · exact ⟨hvalue, h⟩
    · split
      · exact ⟨hvalue, h.2⟩
      · exact ⟨h.1, ih h.2⟩

end Object

theorem Value.Sorted.insert {entries : Object} (h : Value.Sorted (.object entries)) {value : Value}
    (hvalue : value.Sorted) (key : String) :
    Value.Sorted (.object (Object.insert key value entries)) :=
  ⟨Object.pairwise_keys_insert h.1, Object.sortedEntries_insert h.2 hvalue⟩

theorem Value.Sorted.of_find? {entries : Object} (h : Value.Sorted (.object entries)) {key : String}
    {value : Value} (hfind : Object.find? key entries = some value) : value.Sorted :=
  Validator.sorted_of_find? h.2 hfind

theorem Value.eq_object_of_object? {value : Value} {entries : Object}
    (h : value.object? = some entries) : value = .object entries := by
  cases value with
  | object inner => rw [Option.some.inj h]
  | _ => cases h

theorem sorted_emptyObject : Value.Sorted (.object []) := ⟨List.Pairwise.nil, trivial⟩

namespace Overlay

open Validator

@[simp] theorem entriesOf_object (entries : Object) :
    entriesOf (some (.object entries)) = entries := rfl

theorem write_cons (text key : String) (path : List String) (entries : Object) :
    write text (key :: path) entries =
      Object.insert key (overwritten text path (Object.find? key entries)) entries := by
  cases path <;> rfl

@[simp] theorem overwritten_nil (text : String) (found : Option Value) :
    overwritten text [] found = .string text := rfl

theorem overwritten_of_ne_nil {path : List String} (h : path ≠ []) (text : String)
    (found : Option Value) :
    overwritten text path found = .object (write text path (entriesOf found)) := by
  cases path with
  | nil => exact absurd rfl h
  | cons key rest => rfl

section Lookups

theorem subvalue_insert (name key : String) (value : Value) (entries : Object)
    (path : List String) :
    subvalue (some (.object (Object.insert key value entries))) (name :: path) =
      if key = name then subvalue (some value) path
      else subvalue (some (.object entries)) (name :: path) := by
  rw [subvalue, Object.find?_insert]
  split <;> rfl

theorem subvalue_entriesOf (found : Option Value) {path : List String} (h : path ≠ []) :
    subvalue (some (.object (entriesOf found))) path = subvalue found path := by
  obtain ⟨name, rest, rfl⟩ := List.exists_cons_of_ne_nil h
  cases found with
  | none => exact subvalue_none rest
  | some value =>
    cases value with
    | object entries => rfl
    | _ => exact subvalue_none rest

/-- One of two paths leads through the end of the other. -/
def Comparable (p q : List String) : Prop := p <+: q ∨ q <+: p

instance (p q : List String) : Decidable (Comparable p q) := inferInstanceAs (Decidable (_ ∨ _))

theorem Comparable.symm {p q : List String} (h : Comparable p q) : Comparable q p := Or.symm h

theorem comparable_cons {key name : String} {p q : List String} :
    Comparable (key :: p) (name :: q) ↔ key = name ∧ Comparable p q := by
  simp only [Comparable, List.cons_prefix_cons]
  constructor
  · rintro (⟨rfl, h⟩ | ⟨rfl, h⟩)
    · exact ⟨rfl, .inl h⟩
    · exact ⟨rfl, .inr h⟩
  · rintro ⟨rfl, h | h⟩
    · exact .inl ⟨rfl, h⟩
    · exact .inr ⟨rfl, h⟩

theorem ne_nil_of_not_comparable {p q : List String} (h : ¬Comparable p q) : p ≠ [] ∧ q ≠ [] := by
  constructor
  · rintro rfl
    exact h (.inl List.nil_prefix)
  · rintro rfl
    exact h (.inr List.nil_prefix)

/-- What is found at a path after a text was written at a comparable one: the text itself, nothing
below it, and an object above it. -/
structure Leaves (text : String) (written path : List String) (found : Option Value) : Prop where
  here : written = path → found = some (.string text)
  below : written <+: path → written ≠ path → found = none
  above : path <+: written → path ≠ written → ∃ entries, found = some (.object entries)

theorem Leaves.cons {text key : String} {written path : List String} {found : Option Value}
    (h : Leaves text written path found) : Leaves text (key :: written) (key :: path) found := by
  refine ⟨fun heq => h.here (List.cons.inj heq).2, fun hprefix hne => ?_, fun hprefix hne => ?_⟩
  · exact h.below (List.cons_prefix_cons.mp hprefix).2 fun heq => hne (heq ▸ rfl)
  · exact h.above (List.cons_prefix_cons.mp hprefix).2 fun heq => hne (heq ▸ rfl)

theorem subvalue_write_of_not_comparable {text : String} {written path : List String}
    (h : ¬Comparable written path) (entries : Object) :
    subvalue (some (.object (write text written entries))) path =
      subvalue (some (.object entries)) path := by
  induction written generalizing path entries with
  | nil => exact absurd rfl (ne_nil_of_not_comparable h).1
  | cons key rest ih =>
    obtain ⟨name, others, rfl⟩ := List.exists_cons_of_ne_nil (ne_nil_of_not_comparable h).2
    rw [write_cons, subvalue_insert]
    split
    · next heq =>
      subst heq
      have hinner : ¬Comparable rest others := fun hinner => h (comparable_cons.mpr ⟨rfl, hinner⟩)
      obtain ⟨hrest, hothers⟩ := ne_nil_of_not_comparable hinner
      rw [overwritten_of_ne_nil hrest, ih hinner, subvalue_entriesOf _ hothers, subvalue]
    · rfl

private theorem leaves_string (text : String) (path : List String) :
    Leaves text [] path (subvalue (some (.string text)) path) := by
  cases path with
  | nil => exact ⟨fun _ => rfl, fun _ hne => absurd rfl hne, fun _ hne => absurd rfl hne⟩
  | cons name rest =>
    refine ⟨nofun, fun _ _ => rfl, fun hprefix _ => ?_⟩
    cases List.prefix_nil.mp hprefix

theorem leaves_write (text : String) {written path : List String} (hwritten : written ≠ [])
    (hpath : path ≠ []) (entries : Object) :
    Leaves text written path (subvalue (some (.object (write text written entries))) path) := by
  induction written generalizing path entries with
  | nil => exact absurd rfl hwritten
  | cons key rest ih =>
    obtain ⟨name, others, rfl⟩ := List.exists_cons_of_ne_nil hpath
    rw [write_cons, subvalue_insert]
    split
    · next heq =>
      subst heq
      apply Leaves.cons
      by_cases hrest : rest = []
      · subst hrest
        exact leaves_string text others
      · rw [overwritten_of_ne_nil hrest]
        by_cases hothers : others = []
        · subst hothers
          exact ⟨fun heq => absurd heq hrest,
            fun hprefix _ => absurd (List.prefix_nil.mp hprefix) hrest, fun _ _ => ⟨_, rfl⟩⟩
        · exact ih hrest hothers _
    · next hne =>
      refine ⟨fun heq => absurd (List.cons.inj heq).1 hne, fun hprefix _ => ?_, fun hprefix _ => ?_⟩
      · exact absurd (List.cons_prefix_cons.mp hprefix).1 hne
      · exact absurd (List.cons_prefix_cons.mp hprefix).1.symm hne

end Lookups

theorem write_comm {p q : List String} (h : ¬Comparable p q) (text other : String)
    (entries : Object) :
    write text p (write other q entries) = write other q (write text p entries) := by
  induction p generalizing q entries with
  | nil => exact absurd rfl (ne_nil_of_not_comparable h).1
  | cons key rest ih =>
    obtain ⟨name, others, rfl⟩ := List.exists_cons_of_ne_nil (ne_nil_of_not_comparable h).2
    simp only [write_cons, Object.find?_insert]
    by_cases hkey : key = name
    · subst hkey
      have hinner : ¬Comparable rest others := fun hinner => h (comparable_cons.mpr ⟨rfl, hinner⟩)
      obtain ⟨hrest, hothers⟩ := ne_nil_of_not_comparable hinner
      simp only [if_true, Object.insert_insert, overwritten_of_ne_nil hrest,
        overwritten_of_ne_nil hothers, entriesOf_object]
      rw [ih hinner]
    · simp only [if_neg hkey, if_neg (Ne.symm hkey)]
      exact Object.insert_comm hkey entries

/-- A write forgets an earlier one at the same path or below. -/
theorem write_write_below {p q : List String} (hp : p ≠ []) (h : p <+: q) (text other : String)
    (entries : Object) : write text p (write other q entries) = write text p entries := by
  induction p generalizing q entries with
  | nil => exact absurd rfl hp
  | cons key rest ih =>
    cases q with
    | nil => cases List.prefix_nil.mp h
    | cons name others =>
      obtain ⟨rfl, hrest⟩ := List.cons_prefix_cons.mp h
      simp only [write_cons, Object.find?_insert, if_true, Object.insert_insert]
      by_cases hnil : rest = []
      · rw [hnil, overwritten_nil, overwritten_nil]
      · have hothers : others ≠ [] := by
          rintro rfl
          exact hnil (List.prefix_nil.mp hrest)
        simp only [overwritten_of_ne_nil hnil, overwritten_of_ne_nil hothers, entriesOf_object]
        rw [ih hnil hrest]

theorem find?_write_congr {entries entries' : Object} {key : String}
    (h : Object.find? key entries = Object.find? key entries') (text : String)
    (path : List String) :
    Object.find? key (write text path entries) = Object.find? key (write text path entries') := by
  cases path with
  | nil => exact h
  | cons first rest =>
    rw [write_cons, write_cons, Object.find?_insert, Object.find?_insert]
    split
    · next heq => rw [heq, h]
    · exact h

theorem sorted_write (text : String) (path : List String) {entries : Object}
    (h : Value.Sorted (.object entries)) : Value.Sorted (.object (write text path entries)) := by
  induction path generalizing entries with
  | nil => exact h
  | cons key rest ih =>
    rw [write_cons]
    refine h.insert ?_ key
    by_cases hrest : rest = []
    · subst hrest
      trivial
    · rw [overwritten_of_ne_nil hrest]
      apply ih
      cases hfind : Object.find? key entries with
      | none => exact sorted_emptyObject
      | some value =>
        have hvalue := h.of_find? hfind
        cases value with
        | object inner => exact hvalue
        | _ => exact sorted_emptyObject

section Merging

/-- A value at a path with nothing beside it. -/
def nest (value : Value) : List String → Value
  | [] => value
  | key :: path => .object [(key, nest value path)]

/-- How values are merged: objects are joined key by key, where both hold a key their values are
merged, and in every other case the second value replaces the first. -/
structure Merges (merge : Value → Value → Value) : Prop where
  joins : ∀ below above, Value.Sorted (.object below) → Value.Sorted (.object above) →
    ∃ joined, merge (.object below) (.object above) = .object joined ∧
      (Object.keys joined).Pairwise (· < ·) ∧
      ∀ key, Object.find? key joined =
        match Object.find? key below, Object.find? key above with
        | some lower, some upper => some (merge lower upper)
        | found, none => found
        | none, found => found
  replaces : ∀ below above, below.object? = none ∨ above.object? = none →
    merge below above = above

theorem sorted_nest (text : String) (path : List String) : (nest (.string text) path).Sorted := by
  induction path with
  | nil => trivial
  | cons key rest ih => exact ⟨List.pairwise_singleton _ _, ih, trivial⟩

theorem overwritten_none (text : String) (path : List String) :
    overwritten text path none = nest (.string text) path := by
  induction path with
  | nil => rfl
  | cons key rest ih =>
    have hfind : Object.find? key (entriesOf none) = none := rfl
    rw [overwritten_of_ne_nil (List.cons_ne_nil _ _), write_cons, hfind, ih]
    rfl

theorem overwritten_of_not_object {found : Value} (h : found.object? = none) (text : String)
    (path : List String) : overwritten text path (some found) = nest (.string text) path := by
  have hentries : entriesOf (some found) = entriesOf none := by
    simp only [entriesOf, Option.bind_some, h, Option.bind_none]
  rw [← overwritten_none]
  by_cases hpath : path = []
  · rw [hpath, overwritten_nil, overwritten_nil]
  · rw [overwritten_of_ne_nil hpath, overwritten_of_ne_nil hpath, hentries]

/-- Merging the object that holds a text alone writes the text. -/
theorem merge_nest {merge : Value → Value → Value} (hmerge : Merges merge) (text : String)
    (path : List String) {found : Value} (h : found.Sorted) :
    merge found (nest (.string text) path) = overwritten text path (some found) := by
  induction path generalizing found with
  | nil => exact hmerge.replaces _ _ (.inr rfl)
  | cons key rest ih =>
    cases hobject : found.object? with
    | none => rw [hmerge.replaces _ _ (.inl hobject), overwritten_of_not_object hobject]
    | some entries =>
      obtain rfl := Value.eq_object_of_object? hobject
      obtain ⟨joined, hjoined, hascending, hfind⟩ :=
        hmerge.joins entries [(key, nest (.string text) rest)] h (sorted_nest text (key :: rest))
      rw [nest, hjoined, overwritten_of_ne_nil (List.cons_ne_nil _ _), entriesOf_object, write_cons]
      congr 1
      apply Object.eq_of_find? hascending (Object.pairwise_keys_insert h.1)
      intro name
      rw [hfind, Object.find?_insert]
      by_cases hname : key = name
      · subst hname
        cases hlower : Object.find? key entries with
        | none => simp [Object.find?, overwritten_none]
        | some lower => simp [Object.find?, ih (h.of_find? hlower)]
      · simp [Object.find?, hname]

mutual

def join : Value → Value → Value
  | .object below, .object above => .object (joinEntries below above)
  | _, above => above

def joinEntries : Object → Object → Object
  | below, [] => below
  | below, (key, upper) :: rest =>
    joinEntries (Object.insert key (match Object.find? key below with
      | some lower => join lower upper
      | none => upper) below) rest

end

theorem pairwise_keys_joinEntries {below : Object} (above : Object)
    (h : (Object.keys below).Pairwise (· < ·)) :
    (Object.keys (joinEntries below above)).Pairwise (· < ·) := by
  induction above generalizing below with
  | nil => rwa [joinEntries]
  | cons entry rest ih =>
    rw [joinEntries]
    exact ih (Object.pairwise_keys_insert h)

theorem find?_joinEntries (below : Object) {above : Object} (h : (Object.keys above).Nodup)
    (key : String) :
    Object.find? key (joinEntries below above) =
      match Object.find? key below, Object.find? key above with
      | some lower, some upper => some (join lower upper)
      | found, none => found
      | none, found => found := by
  induction above generalizing below with
  | nil =>
    rw [joinEntries]
    cases Object.find? key below <;> rfl
  | cons entry rest ih =>
    obtain ⟨k, upper⟩ := entry
    obtain ⟨hfresh, hrest⟩ := List.nodup_cons.mp h
    rw [joinEntries, ih _ hrest, Object.find?_insert, Object.find?]
    by_cases hkey : k = key
    · subst hkey
      rw [(Object.find?_eq_none_iff k rest).mpr hfresh]
      cases Object.find? k below <;> simp
    · simp only [if_neg hkey]

theorem merges_join : Merges join where
  joins below above hbelow habove := by
    refine ⟨joinEntries below above, by rw [join], pairwise_keys_joinEntries above hbelow.1, ?_⟩
    exact find?_joinEntries below (Object.nodup_keys habove.1)
  replaces below above h := by
    rw [join]
    rintro lower upper rfl rfl
    rcases h with h | h <;> cases h

end Merging

end Overlay

end SiteConfig

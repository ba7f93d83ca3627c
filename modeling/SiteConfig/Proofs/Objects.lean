import SiteConfig.Value
/-!
# Objects as maps

An object is known by what it holds under each key. Inserting entries one by one leaves the last
entry of every key, and objects that ascend are equal when they hold the same values.
-/
namespace SiteConfig.Object

@[simp] theorem keys_append (first second : Object) :
    keys (first ++ second) = keys first ++ keys second := by
  simp [keys]

theorem find?_append (name : String) (first second : Object) :
    find? name (first ++ second) = (find? name first).or (find? name second) := by
  induction first with
  | nil => rfl
  | cons entry rest ih =>
    obtain ⟨k, v⟩ := entry
    by_cases hk : k = name
    · simp [find?, hk]
    · simp [find?, hk, ih]

theorem find?_eq_none_iff (name : String) (entries : Object) :
    find? name entries = none ↔ name ∉ keys entries := by
  induction entries with
  | nil => simp [find?, keys]
  | cons entry rest ih =>
    obtain ⟨k, v⟩ := entry
    by_cases hk : k = name
    · simp [find?, keys, hk]
    · have hne : ¬name = k := fun h => hk h.symm
      simpa [find?, keys, hk, hne] using ih

theorem exists_find?_iff (name : String) (entries : Object) :
    (∃ v, find? name entries = some v) ↔ name ∈ keys entries := by
  have h := not_congr (find?_eq_none_iff name entries)
  rw [← Option.ne_none_iff_exists', ne_eq, h]
  exact Decidable.not_not

theorem mem_of_find? {name : String} {v : Value} {entries : Object}
    (h : find? name entries = some v) : (name, v) ∈ entries := by
  induction entries with
  | nil => cases h
  | cons entry rest ih =>
    obtain ⟨k, w⟩ := entry
    by_cases hk : k = name
    · have hv : w = v := by simpa [find?, hk] using h
      simp [hk, hv]
    · exact List.mem_cons_of_mem _ (ih (by simpa [find?, hk] using h))

theorem find?_of_mem {name : String} {v : Value} {entries : Object}
    (hnodup : (keys entries).Nodup) (h : (name, v) ∈ entries) :
    find? name entries = some v := by
  induction entries with
  | nil => cases h
  | cons entry rest ih =>
    obtain ⟨k, w⟩ := entry
    have hrest := List.nodup_cons.mp hnodup
    rcases List.mem_cons.mp h with heq | hmem
    · obtain ⟨rfl, rfl⟩ := Prod.mk.inj heq
      simp [find?]
    · have hk : k ≠ name := by
        intro hk
        exact hrest.1 (List.mem_map.mpr ⟨(name, v), hmem, hk.symm⟩)
      simpa [find?, hk] using ih hrest.2 hmem

theorem nodup_keys {entries : Object} (h : (keys entries).Pairwise (· < ·)) :
    (keys entries).Nodup := by
  apply h.imp
  intro k l hlt heq
  exact String.lt_irrefl k (heq ▸ hlt)

private theorem find?_foldl_insert (name : String) (entries object : Object) :
    find? name (entries.foldl (fun object (key, value) => insert key value object) object) =
      (find? name entries.reverse).or (find? name object) := by
  induction entries generalizing object with
  | nil => rfl
  | cons entry rest ih =>
    obtain ⟨k, v⟩ := entry
    simp only [List.foldl_cons, List.reverse_cons]
    rw [ih, find?_append, find?_insert]
    by_cases hk : k = name
    · simp [find?, hk]
    · simp [find?, hk]

theorem find?_ofEntries (name : String) (entries : List (String × Value)) :
    find? name (ofEntries entries) = find? name entries.reverse := by
  simp [ofEntries, find?_foldl_insert, find?]

theorem mem_keys_ofEntries (name : String) (entries : List (String × Value)) :
    name ∈ keys (ofEntries entries) ↔ name ∈ keys entries := by
  rw [← exists_find?_iff, find?_ofEntries, exists_find?_iff]
  simp [keys]

theorem find?_reverse {entries : Object} (hnodup : (keys entries).Nodup) (name : String) :
    find? name entries.reverse = find? name entries := by
  have hreverse : (keys entries.reverse).Nodup := by
    simpa [keys, List.Nodup, List.pairwise_reverse, eq_comm] using hnodup
  cases hfind : find? name entries with
  | none =>
    rw [find?_eq_none_iff] at hfind ⊢
    simpa [keys] using hfind
  | some v => exact find?_of_mem hreverse (List.mem_reverse.mpr (mem_of_find? hfind))

private theorem find?_head {k : String} {v : Value} {rest : Object} :
    find? k ((k, v) :: rest) = some v := by
  simp [find?]

private theorem find?_below {name : String} {entries : Object}
    (h : ∀ k ∈ keys entries, name < k) : find? name entries = none := by
  rw [find?_eq_none_iff]
  intro hmem
  exact String.lt_irrefl name (h name hmem)

private theorem head_le {k l : String} {v w : Value} {a b : Object}
    (hb : (keys ((l, w) :: b)).Pairwise (· < ·))
    (h : ∀ name, find? name ((k, v) :: a) = find? name ((l, w) :: b)) : ¬k < l := by
  intro hlt
  have hnone : find? k ((l, w) :: b) = none := by
    apply find?_below
    intro name hname
    rcases List.mem_cons.mp hname with rfl | hname
    · exact hlt
    · exact String.lt_trans hlt ((List.pairwise_cons.mp hb).1 name hname)
  have hk := h k
  rw [find?_head, hnone] at hk
  cases hk

/-- Ascending objects that hold the same values are equal. -/
theorem eq_of_find? {a b : Object} (ha : (keys a).Pairwise (· < ·))
    (hb : (keys b).Pairwise (· < ·)) (h : ∀ name, find? name a = find? name b) : a = b := by
  induction a generalizing b with
  | nil =>
    cases b with
    | nil => rfl
    | cons entry rest => simpa [find?] using h entry.1
  | cons entry rest ih =>
    obtain ⟨k, v⟩ := entry
    cases b with
    | nil => simpa [find?] using h k
    | cons entry' rest' =>
      obtain ⟨l, w⟩ := entry'
      have hkl : k = l := Std.le_antisymm (Std.not_lt.mp (head_le ha fun name => (h name).symm))
        (Std.not_lt.mp (head_le hb h))
      subst hkl
      have hvw : v = w := by simpa [find?] using h k
      subst hvw
      have hrest : rest = rest' := by
        apply ih (List.pairwise_cons.mp ha).2 (List.pairwise_cons.mp hb).2
        intro name
        by_cases hname : k = name
        · subst hname
          rw [find?_below (List.pairwise_cons.mp ha).1, find?_below (List.pairwise_cons.mp hb).1]
        · simpa [find?, hname] using h name
      rw [hrest]

/-- An ascending object is what its own entries make. -/
theorem ofEntries_of_ascending {entries : Object} (h : (keys entries).Pairwise (· < ·)) :
    ofEntries entries = entries := by
  apply eq_of_find? (pairwise_keys_ofEntries entries) h
  intro name
  rw [find?_ofEntries, find?_reverse (nodup_keys h)]

theorem find?_without (names : List String) (name : String) (entries : Object) :
    find? name (without names entries) =
      if name ∈ names then none else find? name entries := by
  induction entries with
  | nil => simp [without, find?]
  | cons entry rest ih =>
    obtain ⟨k, v⟩ := entry
    simp only [without] at ih
    by_cases hk : k = name
    · subst hk
      by_cases hmem : k ∈ names
      · simpa [without, hmem] using ih
      · simp [without, hmem, find?]
    · by_cases hkmem : k ∈ names
      · simpa [without, hkmem, find?, hk] using ih
      · simpa [without, hkmem, find?, hk] using ih

theorem pairwise_keys_without {entries : Object} (h : (keys entries).Pairwise (· < ·))
    (names : List String) : (keys (without names entries)).Pairwise (· < ·) :=
  h.sublist (List.Sublist.map Prod.fst List.filter_sublist)

theorem without_congr {names : List String} {a b : Object} (ha : (keys a).Pairwise (· < ·))
    (hb : (keys b).Pairwise (· < ·)) (h : ∀ name, name ∉ names → find? name a = find? name b) :
    without names a = without names b := by
  apply eq_of_find? (pairwise_keys_without ha names) (pairwise_keys_without hb names)
  intro name
  rw [find?_without, find?_without]
  split
  · rfl
  · next hname => exact h name hname

end SiteConfig.Object

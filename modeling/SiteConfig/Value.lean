import SiteConfig.Number
/-!
# Configuration values

The tree that a configuration module exports and that validation completes. Objects are maps: their
entries are listed by ascending key, and every operation here keeps that order.
-/
namespace SiteConfig

inductive Value where
  | null
  | bool (b : Bool)
  | number (n : Number)
  | string (s : String)
  | array (items : List Value)
  | object (entries : List (String × Value))
  deriving Inhabited

abbrev Object := List (String × Value)

namespace Object

def find? (key : String) : Object → Option Value
  | [] => none
  | (k, v) :: rest => if k = key then some v else find? key rest

def has (key : String) (entries : Object) : Bool := (find? key entries).isSome

/-- Puts a value under a key, in place of one that stands there. -/
def insert (key : String) (value : Value) : Object → Object
  | [] => [(key, value)]
  | (k, v) :: rest =>
    if key < k then (key, value) :: (k, v) :: rest
    else if key = k then (key, value) :: rest
    else (k, v) :: insert key value rest

/-- The object of a list of entries; the last entry of a key counts. -/
def ofEntries (entries : List (String × Value)) : Object :=
  entries.foldl (fun object (key, value) => insert key value object) []

def keys (entries : Object) : List String := entries.map Prod.fst

def without (names : List String) (entries : Object) : Object :=
  entries.filter fun (key, _) => !names.contains key

theorem find?_insert (name key : String) (value : Value) (entries : Object) :
    find? name (insert key value entries) = if key = name then some value else find? name entries := by
  induction entries with
  | nil => simp only [insert, find?]
  | cons entry rest ih =>
    obtain ⟨k, v⟩ := entry
    simp only [insert]
    split
    · simp only [find?]
    · split
      · next heq =>
        subst heq
        simp only [find?]
        split <;> rfl
      · next hne =>
        simp only [find?, ih]
        by_cases hk : k = name
        · subst hk
          simp only [if_true, hne, if_false]
        · simp only [hk, if_false]

theorem mem_keys_insert {name key : String} {value : Value} {entries : Object} :
    name ∈ keys (insert key value entries) ↔ name = key ∨ name ∈ keys entries := by
  induction entries with
  | nil => simp only [insert, keys, List.map_cons, List.map_nil, List.mem_cons]
  | cons entry rest ih =>
    obtain ⟨k, v⟩ := entry
    simp only [keys] at ih
    simp only [insert]
    split
    · simp only [keys, List.map_cons, List.mem_cons]
    · split
      · next heq =>
        subst heq
        simp only [keys, List.map_cons, List.mem_cons]
        exact ⟨Or.inr, fun h => h.elim Or.inl id⟩
      · simp only [keys, List.map_cons, List.mem_cons, ih]
        exact or_left_comm

theorem pairwise_keys_insert {key : String} {value : Value} {entries : Object}
    (h : (keys entries).Pairwise (· < ·)) : (keys (insert key value entries)).Pairwise (· < ·) := by
  induction entries with
  | nil => exact List.pairwise_singleton _ _
  | cons entry rest ih =>
    obtain ⟨k, v⟩ := entry
    have hrest := List.pairwise_cons.mp h
    simp only [insert]
    split
    · next hlt =>
      refine List.pairwise_cons.mpr ⟨fun name hname => ?_, h⟩
      rcases List.mem_cons.mp hname with rfl | hname
      · exact hlt
      · exact String.lt_trans hlt (hrest.1 name hname)
    · next hge =>
      split
      · next heq =>
        subst heq
        exact h
      · next hne =>
        refine List.pairwise_cons.mpr ⟨fun name hname => ?_, ih hrest.2⟩
        rcases mem_keys_insert.mp hname with rfl | hname
        · exact Std.lt_of_le_of_ne (Std.not_lt.mp hge) (Ne.symm hne)
        · exact hrest.1 name hname

/-- The object of any list of entries has strictly ascending keys. -/
theorem pairwise_keys_ofEntries (entries : List (String × Value)) :
    (keys (ofEntries entries)).Pairwise (· < ·) := by
  suffices ∀ object : Object, (keys object).Pairwise (· < ·) →
      (keys (entries.foldl (fun object (key, value) => insert key value object) object)).Pairwise
        (· < ·) from this [] List.Pairwise.nil
  induction entries with
  | nil => exact fun _ h => h
  | cons entry rest ih => exact fun object h => ih _ (pairwise_keys_insert h)

end Object

namespace Value

inductive Kind where
  | null
  | boolean
  | number
  | string
  | array
  | object
  deriving DecidableEq

def Kind.name : Kind → String
  | .null => "null"
  | .boolean => "boolean"
  | .number => "number"
  | .string => "string"
  | .array => "array"
  | .object => "object"

def kind : Value → Kind
  | .null => .null
  | .bool _ => .boolean
  | .number _ => .number
  | .string _ => .string
  | .array _ => .array
  | .object _ => .object

def object? : Value → Option Object
  | .object entries => some entries
  | _ => none

mutual

/-- Whether every object in the value lists its entries by strictly ascending key. -/
def Sorted : Value → Prop
  | .array items => SortedItems items
  | .object entries => (Object.keys entries).Pairwise (· < ·) ∧ SortedEntries entries
  | _ => True

def SortedItems : List Value → Prop
  | [] => True
  | v :: rest => v.Sorted ∧ SortedItems rest

def SortedEntries : List (String × Value) → Prop
  | [] => True
  | (_, v) :: rest => v.Sorted ∧ SortedEntries rest

end

end Value
end SiteConfig

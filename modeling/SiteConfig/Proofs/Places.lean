import Mathlib
import SiteConfig.ConfigModule.Cursor
/-!
# Places

What a cursor has counted when it has gone over a text: the line feeds, the characters behind the
last of them and the bytes. The readers take texts off a cursor, and it counts them.
-/
namespace SiteConfig.ConfigModule

namespace Position

/-- The position behind a text, by the line feeds in it and the characters behind the last one. -/
def counted (text : List Char) : Position :=
  ⟨1 + text.count '\n', 1 + (text.reverse.takeWhile (· ≠ '\n')).length⟩

theorem counted_concat (text : List Char) (c : Char) :
    counted (text ++ [c]) = (counted text).next c := by
  by_cases hc : c = '\n'
  · simp [counted, next, hc, Nat.add_assoc]
  · simp [counted, next, hc, Nat.add_comm]

end Position

namespace Place

def after (p : Place) (text : List Char) : Place := text.foldl next p

@[simp]
theorem after_nil (p : Place) : p.after [] = p := rfl

@[simp]
theorem after_cons (p : Place) (c : Char) (text : List Char) :
    p.after (c :: text) = (p.next c).after text :=
  rfl

@[simp]
theorem after_append (p : Place) (text more : List Char) :
    p.after (text ++ more) = (p.after text).after more :=
  List.foldl_append

theorem after_start (text : List Char) :
    start.after text = ⟨.counted text, (String.ofList text).utf8ByteSize⟩ := by
  induction text using List.reverseRecOn with
  | nil => rfl
  | append_singleton text c ih =>
    have hsize : (String.ofList (text ++ [c])).utf8ByteSize =
        (String.ofList text).utf8ByteSize + c.utf8Size := by
      rw [String.ofList_append, String.utf8ByteSize_append, ← String.singleton_eq_ofList,
        String.utf8ByteSize_singleton]
    rw [after_append, ih, hsize, Position.counted_concat]
    rfl

theorem offset_after (p : Place) (text : List Char) :
    (p.after text).offset = p.offset + (text.map Char.utf8Size).sum := by
  induction text generalizing p with
  | nil => rfl
  | cons c text ih => simp [ih, next, Nat.add_assoc]

/-- Of one source, the place behind a part of it tells the part. -/
theorem eq_of_after_eq {p : Place} {text other rest more : List Char}
    (hplace : p.after text = p.after other) (h : text ++ rest = other ++ more) : text = other := by
  have hsum := congrArg offset hplace
  rw [offset_after, offset_after, Nat.add_left_cancel_iff] at hsum
  have hempty : ∀ {part : List Char}, (part.map Char.utf8Size).sum = 0 → part = [] := by
    rintro (_ | ⟨c, part⟩) hpart
    · rfl
    · have := c.utf8Size_pos
      simp at hpart
      omega
  rcases List.append_eq_append_iff.mp h with ⟨part, rfl, -⟩ | ⟨part, rfl, -⟩
  all_goals
    rw [List.map_append, List.sum_append] at hsum
    rw [hempty (by omega : (part.map Char.utf8Size).sum = 0), List.append_nil]

end Place

@[simp]
theorem Cursor.rest_start (source : List Char) : (start source).rest = source := rfl

@[simp]
theorem Cursor.place_start (source : List Char) : (start source).place = .start := rfl

/-- A text that stands at a cursor, and the cursor that has gone over it. -/
structure Takes (cursor : Cursor) (text : List Char) (behind : Cursor) : Prop where
  rest_eq : cursor.rest = text ++ behind.rest
  place_eq : behind.place = cursor.place.after text

namespace Takes

variable {cursor behind last : Cursor} {text more rest : List Char} {place : Place} {c : Char}

theorem intro (text rest : List Char) (place : Place) :
    Takes ⟨text ++ rest, place⟩ text ⟨rest, place.after text⟩ :=
  ⟨rfl, rfl⟩

theorem nil (cursor : Cursor) : Takes cursor [] cursor := ⟨rfl, rfl⟩

theorem next (c : Char) (rest : List Char) (place : Place) :
    Takes ⟨c :: rest, place⟩ [c] ⟨rest, place.next c⟩ :=
  ⟨rfl, rfl⟩

theorem append (h : Takes cursor text behind) (hmore : Takes behind more last) :
    Takes cursor (text ++ more) last :=
  ⟨by rw [h.rest_eq, hmore.rest_eq, List.append_assoc],
    by rw [hmore.place_eq, h.place_eq, Place.after_append]⟩

theorem cons (h : Takes ⟨rest, place.next c⟩ text behind) :
    Takes ⟨c :: rest, place⟩ (c :: text) behind :=
  (next c rest place).append h

theorem exists_eq (h : Takes cursor text behind) :
    ∃ rest place, cursor = ⟨text ++ rest, place⟩ ∧ behind = ⟨rest, place.after text⟩ := by
  refine ⟨behind.rest, cursor.place, ?_, ?_⟩
  · rw [← h.rest_eq]
  · rw [← h.place_eq]

end Takes

/-- What is spanned up to a rest: each character goes on behind the one before it, and the rest does
not. -/
inductive Spans (goesOn : Char → Char → Bool) : Char → List Char → List Char → Prop
  | stop {last : Char} {rest : List Char} (h : ∀ c ∈ rest.head?, goesOn last c = false) :
      Spans goesOn last [] rest
  | next {last c : Char} {kept rest : List Char} (h : goesOn last c = true)
      (more : Spans goesOn c kept rest) : Spans goesOn last (c :: kept) rest

section Spans

variable {goesOn : Char → Char → Bool} {last : Char} {kept rest : List Char}

theorem Cursor.span_cons (c : Char) (rest : List Char) (place : Place) :
    span goesOn last ⟨c :: rest, place⟩ =
      if goesOn last c then
        (c :: (span goesOn c ⟨rest, place.next c⟩).1, (span goesOn c ⟨rest, place.next c⟩).2)
      else ([], ⟨c :: rest, place⟩) :=
  rfl

theorem Spans.span (h : Spans goesOn last kept rest) (place : Place) :
    Cursor.span goesOn last ⟨kept ++ rest, place⟩ = (kept, ⟨rest, place.after kept⟩) := by
  induction h generalizing place with
  | @stop last rest h =>
    cases rest with
    | nil => rfl
    | cons c rest => simp [Cursor.span_cons, h c rfl]
  | next h _ ih =>
    rw [List.cons_append, Cursor.span_cons, if_pos h, ih]
    rfl

theorem exists_spans_append (goesOn : Char → Char → Bool) (last : Char) (text : List Char) :
    ∃ kept rest, text = kept ++ rest ∧ Spans goesOn last kept rest := by
  induction text generalizing last with
  | nil => exact ⟨[], [], rfl, .stop (by simp)⟩
  | cons c text ih =>
    by_cases hc : goesOn last c = true
    · obtain ⟨kept, rest, rfl, hspans⟩ := ih c
      exact ⟨c :: kept, rest, rfl, .next hc hspans⟩
    · exact ⟨[], c :: text, rfl, .stop (by simpa using hc)⟩

theorem Cursor.exists_spans (goesOn : Char → Char → Bool) (last : Char) (cursor : Cursor) :
    ∃ kept behind, span goesOn last cursor = (kept, behind) ∧ Takes cursor kept behind ∧
      Spans goesOn last kept behind.rest := by
  obtain ⟨text, place⟩ := cursor
  obtain ⟨kept, rest, rfl, hspans⟩ := exists_spans_append goesOn last text
  exact ⟨kept, _, hspans.span place, .intro kept rest place, hspans⟩

theorem Spans.isPrefix {long more tail : List Char} (h : Spans goesOn last kept rest)
    (hlong : Spans goesOn last long tail) (heq : kept ++ more = long ++ tail) : kept <+: long := by
  induction h generalizing long with
  | stop => exact List.nil_prefix
  | next hc _ ih =>
    cases hlong with
    | stop hstop =>
      obtain rfl := heq
      rw [hstop _ rfl] at hc
      cases hc
    | next _ hlong =>
      obtain rfl := (List.cons.inj heq).1
      exact List.cons_prefix_cons.mpr ⟨rfl, ih hlong (List.cons.inj heq).2⟩

end Spans

end SiteConfig.ConfigModule

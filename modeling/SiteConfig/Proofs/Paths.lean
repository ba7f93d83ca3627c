import Mathlib
import SiteConfig.Logging.Installation
/-!
# Paths

A path is split at its slashes. A slash at its end and a point in front do not matter to the
directory to which it leads.
-/
namespace SiteConfig

section Splitting

open String

theorem splitOnAux_slash (l m r : List Char) (acc : List String) :
    splitOnAux (ofList (l ++ m ++ r)) "/" ⟨utf8Len l⟩ ⟨utf8Len l + utf8Len m⟩ 0 acc =
      acc.reverse ++ (List.splitOnPPrepend (· == '/') r m.reverse).map ofList := by
  induction r generalizing l m acc with
  | nil =>
    have hend : Pos.Raw.atEnd (ofList (l ++ m ++ [])) ⟨utf8Len l + utf8Len m⟩ = true := by
      simp [atEnd_iff, -ofList_append]
    rw [splitOnAux, if_pos hend]
    simpa using extract_of_valid l m []
  | cons c r ih =>
    have hget : Pos.Raw.get (ofList (l ++ m ++ c :: r)) ⟨utf8Len l + utf8Len m⟩ = c := by
      simpa [-ofList_append] using get_of_valid (l ++ m) (c :: r)
    have hnext : Pos.Raw.next (ofList (l ++ m ++ c :: r)) ⟨utf8Len l + utf8Len m⟩ =
        ⟨utf8Len l + utf8Len m + c.utf8Size⟩ := by
      simpa [-ofList_append] using next_of_valid (l ++ m) c r
    have hend : ¬Pos.Raw.atEnd (ofList (l ++ m ++ c :: r)) ⟨utf8Len l + utf8Len m⟩ = true := by
      have hpos := c.utf8Size_pos
      simp only [atEnd_iff, rawEndPos_ofList, utf8Len_append, utf8Len_cons, Pos.Raw.mk_le_mk]
      omega
    have hslash : Pos.Raw.get "/" 0 = '/' := rfl
    have hbehind : Pos.Raw.next "/" 0 = ⟨1⟩ := rfl
    have hatEnd : Pos.Raw.atEnd "/" ⟨1⟩ = true := rfl
    have hback (p : Nat) : Pos.Raw.unoffsetBy ⟨p + '/'.utf8Size⟩ ⟨1⟩ = ⟨p⟩ := rfl
    have hsame (p : Pos.Raw) : p.unoffsetBy 0 = p := rfl
    rw [splitOnAux, if_neg hend]
    simp only [hget, hnext, hslash, hbehind, hatEnd, if_true]
    split
    · next h =>
      obtain rfl : c = '/' := by simpa using h
      rw [hback, extract_of_valid l m ('/' :: r)]
      simpa [List.splitOnPPrepend_cons_eq_if, Nat.add_assoc, -ofList_append] using
        ih (l ++ m ++ ['/']) [] (ofList m :: acc)
    · next h =>
      rw [hsame, hnext]
      simpa [List.splitOnPPrepend_cons_eq_if, h, Nat.add_assoc, -ofList_append] using
        ih l (m ++ [c]) acc

theorem splitOn_slash (s : String) :
    s.splitOn "/" = (s.toList.splitOnP (· == '/')).map ofList := by
  rw [splitOn, if_neg (by decide)]
  simpa using splitOnAux_slash [] [] s.toList []

theorem splitOn_append_slash (s t : String) :
    (s ++ "/" ++ t).splitOn "/" = s.splitOn "/" ++ t.splitOn "/" := by
  have hlist : (s ++ "/" ++ t).toList = s.toList ++ '/' :: t.toList := by simp
  rw [splitOn_slash, splitOn_slash, splitOn_slash, hlist,
    List.splitOnP_append_cons _ _ (by rfl), List.map_append]

theorem splitOn_of_not_mem {s : String} (h : '/' ∉ s.toList) : s.splitOn "/" = [s] := by
  have hsplit : s.toList.splitOnP (· == '/') = [s.toList] := by
    apply List.splitOnP_eq_singleton
    intro c hc
    exact beq_false_of_ne fun heq => h (heq ▸ hc)
  rw [splitOn_slash, hsplit, List.map_singleton, ofList_toList]

end Splitting

section Directories

variable {cwd : List String} {path : String}

theorem startsWith_slash_iff :
    path.startsWith "/" = true ↔ path.toList.head? = some '/' := by
  rw [String.startsWith_string_iff]
  cases path.toList with
  | nil => simp
  | cons c rest => simp [eq_comm]

theorem startsWith_slash_append {other : String} (h : path ≠ "") :
    (path ++ other).startsWith "/" = path.startsWith "/" := by
  rw [Bool.eq_iff_iff, startsWith_slash_iff, startsWith_slash_iff, String.toList_append,
    List.head?_append_of_ne_nil _ (by simpa using h)]

theorem extendSteps_of_stays {steps : List String} {step : String} (h : step = "" ∨ step = ".") :
    extendSteps steps step = steps := if_pos h

theorem directoryAt_append_slash (h : path ≠ "") :
    directoryAt cwd (path ++ "/") = directoryAt cwd path := by
  have hsplit : (path ++ "/").splitOn "/" = path.splitOn "/" ++ [""] := by
    have hempty : path ++ "/" = path ++ "/" ++ "" := String.append_empty.symm
    rw [hempty, splitOn_append_slash, splitOn_of_not_mem (s := "") (by simp)]
  rw [directoryAt, directoryAt, startsWith_slash_append h, hsplit, List.foldl_append,
    List.foldl_cons, List.foldl_nil, extendSteps_of_stays (.inl rfl)]

theorem directoryAt_point_slash (h : path.startsWith "/" = false) :
    directoryAt cwd ("./" ++ path) = directoryAt cwd path := by
  have hpoint : "./" ++ path = "." ++ "/" ++ path := rfl
  have hrooted : ("./" ++ path).startsWith "/" = false := by
    rw [startsWith_slash_append (by decide)]
    simp
  rw [directoryAt, directoryAt, hrooted, h, hpoint, splitOn_append_slash,
    splitOn_of_not_mem (by decide), List.singleton_append, List.foldl_cons,
    extendSteps_of_stays (.inr rfl)]

/-- The name of a directory, as a path from the root. -/
def absolutePath (steps : List String) : String :=
  steps.foldl (fun path step => path ++ "/" ++ step) ""

def IsEntry (step : String) : Prop := step ≠ "" ∧ step ≠ "." ∧ step ≠ ".." ∧ '/' ∉ step.toList

theorem splitOn_absolutePath {steps : List String} (h : ∀ step ∈ steps, IsEntry step) :
    (absolutePath steps).splitOn "/" = "" :: steps := by
  induction steps using List.reverseRecOn with
  | nil => exact splitOn_of_not_mem (by decide)
  | append_singleton steps step ih =>
    obtain ⟨-, -, -, hslash⟩ := h step (by simp)
    have hsteps := ih fun step hstep => h step (by simp [hstep])
    rw [absolutePath] at hsteps ⊢
    rw [List.foldl_append, List.foldl_cons, List.foldl_nil, splitOn_append_slash, hsteps,
      splitOn_of_not_mem hslash, List.cons_append]

theorem foldl_extendSteps {steps : List String} (h : ∀ step ∈ steps, IsEntry step)
    (front : List String) : steps.foldl extendSteps front = front ++ steps := by
  induction steps generalizing front with
  | nil => simp
  | cons step steps ih =>
    obtain ⟨⟨hempty, hpoint, hpoints, -⟩, hsteps⟩ := List.forall_mem_cons.mp h
    rw [List.foldl_cons, ih hsteps, extendSteps, if_neg (by simp [hempty, hpoint]),
      if_neg hpoints, List.append_assoc, List.singleton_append]

theorem startsWith_absolutePath (steps : List String) (path : String) :
    (absolutePath steps ++ "/" ++ path).startsWith "/" = true := by
  induction steps using List.reverseRecOn generalizing path with
  | nil => simp [absolutePath]
  | append_singleton steps step ih =>
    have hstep := ih (step ++ "/" ++ path)
    rw [absolutePath] at hstep ⊢
    simpa [String.append_assoc] using hstep

/-- A path from the working directory leads to the directory of its absolute path. -/
theorem directoryAt_absolutePath (hcwd : ∀ step ∈ cwd, IsEntry step)
    (h : path.startsWith "/" = false) (other : List String) :
    directoryAt other (absolutePath cwd ++ "/" ++ path) = directoryAt cwd path := by
  rw [directoryAt, directoryAt, startsWith_absolutePath, h, if_pos rfl, if_neg Bool.false_ne_true,
    splitOn_append_slash, splitOn_absolutePath hcwd, List.foldl_append, List.foldl_cons,
    extendSteps_of_stays (.inl rfl), foldl_extendSteps hcwd, List.nil_append]

end Directories

end SiteConfig

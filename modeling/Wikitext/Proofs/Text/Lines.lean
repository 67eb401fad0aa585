/-
  Wikitext/Proofs/Text/Lines.lean
  ===============================
  **Lines of assembled text.**  A line feed between two texts keeps their lines apart
  (`lines_append_newline`); without one the last line of the first and the first line of the
  second are one line (`lines_append`).  With `lines_unlines` this carries everything that is
  said about lists of lines over to texts.
-/
import Wikitext.Proofs.Text.Pieces

namespace Wikitext.Text

variable {c : Char} {t u l m : Text} {ls ms : List Text}

/-! ### From a text to its lines -/

@[simp] theorem lines_nil : lines [] = [[]] := rfl

theorem lines_ne_nil (t : Text) : lines t ≠ [] :=
  splitOn_ne_nil '\n' t

theorem lines_newline_cons (t : Text) : lines ('\n' :: t) = [] :: lines t :=
  splitOn_cons_self '\n' t

theorem lines_cons (hc : c ≠ '\n') (h : lines t = l :: ls) : lines (c :: t) = (c :: l) :: ls :=
  splitOn_cons hc h

/-- The last line of a text and the first line of the next are one line. -/
theorem lines_append (ht : lines t = ls ++ [l]) (hu : lines u = m :: ms) :
    lines (t ++ u) = ls ++ (l ++ m) :: ms :=
  splitOn_append ht hu

theorem exists_lines_concat (t : Text) : ∃ ls l, lines t = ls ++ [l] :=
  exists_splitOn_concat '\n' t

/-- A line feed keeps lines apart. -/
theorem lines_append_newline (t u : Text) : lines (t ++ '\n' :: u) = lines t ++ lines u :=
  splitOn_append_cons '\n' t u

theorem lines_of_notMem (h : '\n' ∉ t) : lines t = [t] :=
  splitOn_of_notMem h

theorem notMem_newline_of_mem_lines (h : l ∈ lines t) : '\n' ∉ l :=
  notMem_of_mem_splitOn h

theorem mem_of_mem_lines (h : l ∈ lines t) (hc : c ∈ l) : c ∈ t :=
  mem_of_mem_splitOn h hc

/-! ### From lines to a text -/

@[simp] theorem unlines_nil : unlines [] = [] := rfl

@[simp] theorem unlines_singleton (l : Text) : unlines [l] = l := rfl

theorem unlines_cons (l : Text) (h : ls ≠ []) : unlines (l :: ls) = l ++ '\n' :: unlines ls :=
  join_cons '\n' l h

theorem unlines_append (h : ls ≠ []) (h' : ms ≠ []) :
    unlines (ls ++ ms) = unlines ls ++ '\n' :: unlines ms := by
  induction ls with
  | nil => exact absurd rfl h
  | cons l ls ih =>
    cases hls : ls with
    | nil => rw [List.singleton_append, unlines_cons l h', unlines_singleton]
    | cons k ks =>
      have hne : ls ≠ [] := by rw [hls]; simp
      rw [← hls, List.cons_append, unlines_cons l (by simp [hne]), ih hne, unlines_cons l hne]
      simp

/-- Lines before others are ended. -/
theorem unlines_append_ended (hms : ms ≠ []) (ls : List Text) :
    unlines (ls ++ ms) = ls.flatMap (· ++ ['\n']) ++ unlines ms := by
  induction ls with
  | nil => rfl
  | cons l ls ih =>
    rw [List.cons_append, unlines_cons l (by simp [hms]), ih, List.flatMap_cons]
    simp

/-- Joining lines and taking them apart gives them back. -/
theorem lines_unlines (hne : ls ≠ []) (h : ∀ l ∈ ls, '\n' ∉ l) : lines (unlines ls) = ls :=
  splitOn_join hne h

/-- A function that respects the end of every line works line by line. -/
theorem lines_of_respects {f : Text → Text} (hline : ∀ l ∈ t.lines, '\n' ∉ f l)
    (happend : ∀ l ∈ t.lines, ∀ u, f (l ++ '\n' :: u) = f l ++ '\n' :: f u) :
    lines (f t) = t.lines.map f := by
  suffices h : ∀ ls : List Text, ls ≠ [] → (∀ l ∈ ls, l ∈ t.lines) →
      lines (f (unlines ls)) = ls.map f by
    have hlines := h t.lines (lines_ne_nil t) fun _ hl => hl
    rwa [unlines_lines] at hlines
  intro ls hls hmem
  induction ls with
  | nil => exact absurd rfl hls
  | cons l ls ih =>
    have hl := hmem l (List.mem_cons_self ..)
    by_cases hrest : ls = []
    · rw [hrest, unlines_singleton, lines_of_notMem (hline l hl)]
      rfl
    · rw [unlines_cons l hrest, happend l hl, lines_append_newline, lines_of_notMem (hline l hl),
        ih hrest fun m hm => hmem m (List.mem_cons_of_mem _ hm)]
      rfl

theorem reverse_unlines (ls : List Text) :
    (unlines ls).reverse = unlines (ls.reverse.map List.reverse) := by
  induction ls with
  | nil => rfl
  | cons l ls ih =>
    cases hls : ls with
    | nil => rfl
    | cons k ks =>
      have hne : ls ≠ [] := by rw [hls]; simp
      rw [← hls, unlines_cons l hne, List.reverse_append, List.reverse_cons, ih, List.reverse_cons,
        List.map_append, unlines_append (by simpa using hne) (by simp)]
      simp

end Wikitext.Text

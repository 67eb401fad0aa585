/-
  Wikitext/Proofs/Text/Tight.lean
  ===============================
  **Tight lines.**  A line is tight if no white space stands at its ends.  What is trimmed and then
  put on one line is tight, whatever lines it had (`tight_single`).  And a tight line of a text is
  still a line of it after the last pass, with all that stands in it (`Tight.mem_lines_tidy`).

  That a line is one of the lines of a text is told by what stands around it (`mem_lines_iff`):
  trimming the text takes nothing of the line away, and leaves the line feeds next to it, or all
  that stands on one side of it goes.
-/
import Wikitext.Proofs.Text.Following
import Wikitext.Proofs.Text.Shown

namespace Wikitext.Text

variable {p : Char → Bool} {c x : Char} {t l : Text} {ls : List Text}

/-- A text on one line with no white space at its ends. -/
structure Tight (l : Text) : Prop where
  notMem_newline : '\n' ∉ l
  head : ∀ c ∈ l.head?, isSpace c = false
  last : ∀ c ∈ l.getLast?, isSpace c = false

/-! ### On one line -/

/-- The first line keeps its start. -/
theorem head?_joinWithSpaces (hc : isBlank c = false) (l : Text) (ls : List Text) :
    (joinWithSpaces ((c :: l) :: ls)).head? = some c := by
  cases ls with
  | nil => rfl
  | cons m ms =>
    rw [joinWithSpaces, trimEnd_cons_of_neg hc]
    · rfl
    · exact List.cons_ne_nil m ms

/-- The last line keeps its end. -/
theorem getLast?_joinWithSpaces (hc : isBlank c = false) (ls : List Text) (l : Text) :
    (joinWithSpaces (ls ++ [l ++ [c]])).getLast? = some c := by
  have hrest : ∀ ms : List Text, ∃ u, joinWithSpaces.rest (ms ++ [l ++ [c]]) = u ++ [c] := by
    intro ms
    induction ms with
    | nil => exact ⟨' ' :: trimStart isBlank l, by
        rw [List.nil_append, joinWithSpaces.rest, trimStart_concat_of_neg hc, List.cons_append]⟩
    | cons m ms ih =>
      obtain ⟨u, hu⟩ := ih
      rw [List.cons_append, joinWithSpaces.rest, hu]
      · split
        · exact ⟨u, rfl⟩
        · exact ⟨' ' :: (trim isBlank m ++ u), by simp⟩
      · simp
  cases ls with
  | nil =>
    rw [List.nil_append, joinWithSpaces]
    exact List.getLast?_concat
  | cons m ms =>
    obtain ⟨u, hu⟩ := hrest ms
    rw [List.cons_append, joinWithSpaces, hu, ← List.append_assoc]
    · exact List.getLast?_concat
    · simp

theorem head?_single (h : ∀ c ∈ t.head?, isSpace c = false) :
    (LineFormat.single.apply t).head? = t.head? := by
  cases t with
  | nil => rfl
  | cons c t =>
    have hc : isSpace c = false := h c rfl
    have hblank : isBlank c = false := isBlank_eq_false hc
    obtain ⟨l, ls, hls⟩ := List.exists_cons_of_ne_nil (lines_ne_nil t)
    have hlines : lines (c :: t) = (c :: l) :: ls := lines_cons (ne_newline hc) hls
    rw [LineFormat.apply, LineFormat.clearedLines, hlines]
    cases ls with
    | nil => rfl
    | cons m ms =>
      -- the first line is not white
      have hwhite : ¬ Text.isWhite (c :: l) = true := fun hwhite => by
        simp [isWhite_iff.mp hwhite c (List.mem_cons_self ..)] at hc
      rw [mapEnded_cons_cons, LineFormat.clearWhiteLine, if_neg hwhite]
      exact head?_joinWithSpaces hblank l _

theorem getLast?_single (h : ∀ c ∈ t.getLast?, isSpace c = false) :
    (LineFormat.single.apply t).getLast? = t.getLast? := by
  rcases List.eq_nil_or_concat' t with rfl | ⟨t, c, rfl⟩
  · rfl
  · have hc : isSpace c = false := h c (by simp)
    have hblank : isBlank c = false := isBlank_eq_false hc
    obtain ⟨ls, l, hls⟩ := exists_lines_concat t
    have hlines : lines (t ++ [c]) = ls ++ [l ++ [c]] :=
      lines_append hls (lines_cons (ne_newline hc) lines_nil)
    rw [LineFormat.apply, LineFormat.clearedLines, hlines, mapEnded_concat, List.getLast?_concat]
    exact getLast?_joinWithSpaces hblank _ l

/-- What is trimmed and put on one line is tight. -/
theorem tight_single (t : Text) : Tight (LineFormat.single.apply (trim isSpace t)) := by
  refine ⟨notMem_newline_single _, ?_, ?_⟩
  · rw [head?_single (trim_head isSpace t)]
    exact trim_head isSpace t
  · rw [getLast?_single (trim_last isSpace t)]
    exact trim_last isSpace t

/-! ### Lines and what stands around them -/

/-- A line of a text stands between line feeds or at an end of the text. -/
theorem mem_lines_iff : l ∈ t.lines ↔ '\n' ∉ l ∧ ∃ front back, t = front ++ l ++ back ∧
    (∀ c ∈ front.getLast?, c = '\n') ∧ ∀ c ∈ back.head?, c = '\n' := by
  constructor
  · intro h
    refine ⟨notMem_newline_of_mem_lines h, ?_⟩
    obtain ⟨ls, ms, hlines⟩ := List.append_of_mem h
    have ht : t = ls.flatMap (· ++ ['\n']) ++ unlines (l :: ms) := by
      rw [← unlines_append_ended (List.cons_ne_nil l ms), ← hlines, unlines_lines]
    have hfront : ∀ c ∈ (ls.flatMap (· ++ ['\n'])).getLast?, c = '\n' := by
      rcases List.eq_nil_or_concat' ls with rfl | ⟨ks, k, rfl⟩
      · simp
      · simp [List.flatMap_append]
    cases ms with
    | nil => exact ⟨_, [], by rw [ht, unlines_singleton, List.append_nil], hfront, by simp⟩
    | cons m ms =>
      refine ⟨_, '\n' :: unlines (m :: ms), ?_, hfront, by simp⟩
      rw [ht, unlines_cons l (List.cons_ne_nil m ms), List.append_assoc]
  · rintro ⟨hline, front, back, rfl, hfront, hback⟩
    have hstart : l ∈ (l ++ back).lines := by
      cases back with
      | nil => simp [lines_of_notMem hline]
      | cons c back =>
        obtain rfl := hback c rfl
        simp [lines_append_newline, lines_of_notMem hline]
    rw [List.append_assoc]
    rcases List.eq_nil_or_concat' front with rfl | ⟨front, c, rfl⟩
    · exact hstart
    · obtain rfl := hfront c (by simp)
      rw [List.append_assoc, List.singleton_append, lines_append_newline]
      exact List.mem_append_right _ hstart

/-! ### Tight lines last -/

/-- Trimming a text keeps its tight lines. -/
theorem Tight.mem_lines_trim (h : Tight l) (hne : l ≠ []) (hl : l ∈ t.lines) :
    l ∈ (trim isSpace t).lines := by
  obtain ⟨hline, front, back, rfl, hfront, hback⟩ := mem_lines_iff.mp hl
  refine mem_lines_iff.mpr ⟨hline, trimStart isSpace front, trimEnd isSpace back, ?_, ?_, ?_⟩
  · have hhead : ∀ c ∈ (l ++ back).head?, isSpace c = false := by
      rw [List.head?_append_of_ne_nil _ hne]
      exact h.head
    have hlast : ∀ c ∈ (trimStart isSpace front ++ l).getLast?, isSpace c = false := by
      rw [List.getLast?_append_of_ne_nil _ hne]
      exact h.last
    rw [trim, List.append_assoc, trimStart_append_of_head hhead, ← List.append_assoc,
      trimEnd_append_of_last hlast]
  · obtain ⟨gone, hgone⟩ : trimStart isSpace front <:+ front := List.dropWhile_suffix _
    intro c hc
    refine hfront c ?_
    rw [← hgone, List.getLast?_append]
    simp [Option.mem_def.mp hc]
  · obtain ⟨gone, hgone⟩ : trimEnd isSpace back <+: back := List.rdropWhile_prefix _ _
    intro c hc
    refine hback c ?_
    rw [← hgone, List.head?_append]
    simp [Option.mem_def.mp hc]

/-- Tidying a text keeps its tight lines, but for empty ones. -/
theorem Tight.mem_lines_tidy (h : Tight l) (hne : l ≠ []) (hl : l ∈ t.lines) :
    l ∈ t.tidy.lines := by
  have htrim : trim isBlank l = l :=
    trim_eq_self (fun c hc => isBlank_eq_false (h.head c hc)) fun c hc =>
      isBlank_eq_false (h.last c hc)
  have hmem : l ∈ t.lines.map (trim isBlank) := List.mem_map.mpr ⟨l, hl, htrim⟩
  have hkept : l ∈ withSingleEmptyLines (t.lines.map (trim isBlank)) := by
    have hfilter : l ∈ (t.lines.map (trim isBlank)).filter (· ≠ []) :=
      List.mem_filter.mpr ⟨hmem, by simpa using hne⟩
    rw [← filter_withSingleEmptyLines] at hfilter
    exact (List.mem_filter.mp hfilter).1
  refine h.mem_lines_trim hne ?_
  rwa [lines_unlines_trimmed]

end Wikitext.Text

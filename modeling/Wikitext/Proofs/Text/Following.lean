/-
  Wikitext/Proofs/Text/Following.lean
  ===================================
  **Texts that follow each other.**  Pieces of markup are put together without regard to what
  stands on the last line of the one and the first line of the next.  `Follows u ms` says that
  `u` adds the lines `ms` to whatever stands before it on the line, and leaves that line as it
  is.  A text that *joins* can stand before any such text (`Joins`), and texts that join can be
  put together in any number.
-/
import Wikitext.Proofs.Text.Formats

namespace Wikitext.Text

variable {t u l : Text} {ls ms : List Text}

/-! ### What follows a line -/

/-- After a line without other white space than blanks, `t` adds the lines `ls`. -/
def Follows (t : Text) (ls : List Text) : Prop :=
  ∀ l, Plain l → Reads (l ++ t) (inked [l] ++ ls)

theorem Follows.reads (h : Follows t ls) : Reads t ls :=
  h [] plain_nil

theorem reads_plain (h : Plain l) : Reads l (inked [l]) :=
  reads_line h.notMem_newline h.neat

theorem follows_nil : Follows [] [] := by
  intro l hl
  rw [List.append_nil, List.append_nil]
  exact reads_plain hl

theorem Reads.follows_newline (h : Reads t ls) : Follows ('\n' :: t) ls := fun _ hl =>
  (reads_plain hl).append_newline h

/-- White space at the end of the line before makes no difference. -/
theorem Follows.append_white (h : Follows u ms) (hplain : Plain t) (hwhite : t.isWhite = true) :
    Follows (t ++ u) ms := by
  intro l hl
  have hinked : inked [l ++ t] = inked [l] :=
    inked_congr (trim_append_of_all_right (isWhite_iff.mp hwhite) l)
  rw [← List.append_assoc, ← hinked]
  exact h (l ++ t) (hl.append hplain)

/-! ### What joins to what follows -/

/-- Before what follows a line, `t` adds the lines `ls`, and follows a line itself. -/
def Joins (t : Text) (ls : List Text) : Prop :=
  ∀ u ms, Follows u ms → Follows (t ++ u) (ls ++ ms)

theorem Joins.follows (h : Joins t ls) : Follows t ls := by
  have hnil := h [] [] follows_nil
  rwa [List.append_nil, List.append_nil] at hnil

theorem joins_nil : Joins [] [] := fun _ _ h => h

theorem Joins.append (ht : Joins t ls) (hu : Joins u ms) : Joins (t ++ u) (ls ++ ms) := by
  intro v ks hv
  rw [List.append_assoc, List.append_assoc]
  exact ht _ _ (hu _ _ hv)

theorem joins_white (hplain : Plain t) (hwhite : t.isWhite = true) : Joins t [] := fun _ _ h =>
  h.append_white hplain hwhite

/-- A line of its own. -/
theorem joins_newline_cons (h : Plain l) : Joins ('\n' :: l) (inked [l]) := fun _ _ hu =>
  (hu l h).follows_newline

/-- A block stands apart from what is before and after it. -/
theorem follows_block (h : Reads t ls) (hu : Reads u ms) :
    Follows (['\n', '\n'] ++ t ++ ['\n', '\n'] ++ u) (ls ++ ms) := by
  have hrest : Reads (t ++ '\n' :: '\n' :: u) (ls ++ ms) := h.append_newline hu.newline_cons
  have heq : ['\n', '\n'] ++ t ++ ['\n', '\n'] ++ u = '\n' :: '\n' :: (t ++ '\n' :: '\n' :: u) := by
    simp
  rw [heq]
  exact hrest.newline_cons.follows_newline

theorem joins_block (h : Reads t ls) : Joins (['\n', '\n'] ++ t ++ ['\n', '\n']) ls :=
  fun _ _ hu => follows_block h hu.reads

/-! ### Texts in the place of others -/

/-- Wherever `t` stands in the place of `u`, the same lines are read. -/
def ReadsAs (t u : Text) : Prop :=
  ∀ x y ls, Reads (x ++ u ++ y) ls → Reads (x ++ t ++ y) ls

theorem ReadsAs.refl (t : Text) : ReadsAs t t := fun _ _ _ h => h

theorem ReadsAs.append {v w : Text} (h : ReadsAs t u) (h' : ReadsAs v w) :
    ReadsAs (t ++ v) (u ++ w) := by
  intro x y ls hreads
  have hfirst : Reads (x ++ t ++ (w ++ y)) ls := by
    refine h x (w ++ y) ls ?_
    simpa using hreads
  have hboth : Reads ((x ++ t) ++ v ++ y) ls := by
    refine h' (x ++ t) y ls ?_
    simpa using hfirst
  simpa using hboth

theorem ReadsAs.reads (h : ReadsAs t u) (hu : Reads u ls) : Reads t ls := by
  have hreads := h [] [] ls (by simpa using hu)
  simpa using hreads

/-- A block reads as its content between line feeds. -/
theorem ReadsAs.block (h : ReadsAs t u) :
    ReadsAs (['\n', '\n'] ++ LineFormat.multi.apply (trim isSpace t) ++ ['\n', '\n'])
      ('\n' :: (u ++ ['\n'])) := by
  intro x y ls hreads
  have hcontent : Reads ((x ++ ['\n']) ++ t ++ '\n' :: y) ls := by
    refine h (x ++ ['\n']) ('\n' :: y) ls ?_
    simpa using hreads
  rw [List.append_assoc, List.append_assoc, List.singleton_append] at hcontent
  obtain ⟨ks, ms, hx, hrest, rfl⟩ := hcontent.exists_of_newline
  obtain ⟨ls, js, ht, hy, rfl⟩ := hrest.exists_of_newline
  have hlaid := ht.trimmed.multi
  have hwhole := hx.append_newline (hlaid.append_newline hy.newline_cons).newline_cons
  simpa using hwhole

/-! ### Ended texts -/

/-- Every line is ended by a line feed. -/
def Ended (t : Text) : Prop := t = [] ∨ ∃ u, t = u ++ ['\n']

theorem ended_nil : Ended [] := Or.inl rfl

theorem ended_concat (t : Text) : Ended (t ++ ['\n']) := Or.inr ⟨t, rfl⟩

theorem Ended.append (ht : Ended t) (hu : Ended u) : Ended (t ++ u) := by
  rcases hu with rfl | ⟨v, rfl⟩
  · rwa [List.append_nil]
  · rw [← List.append_assoc]
    exact ended_concat _

theorem Reads.append_of_ended (ht : Reads t ls) (hend : Ended t) (hu : Reads u ms) :
    Reads (t ++ u) (ls ++ ms) := by
  rcases hend with rfl | ⟨v, rfl⟩
  · have hls : ls = [] := by rw [← ht.inked_lines]; rfl
    rw [hls]
    exact hu
  · rw [List.append_assoc, List.singleton_append]
    exact (ht.of_concat rfl).append_newline hu

/-- The format of blocks leaves a text ended. -/
theorem Ended.blocks (h : Ended t) : Ended (LineFormat.blocks.apply t) := by
  rcases h with rfl | ⟨u, rfl⟩
  · exact ended_nil
  · have hlines : lines (u ++ ['\n']) = u.lines ++ [[]] := lines_append_newline u []
    obtain ⟨k, ks, hks⟩ := List.exists_cons_of_ne_nil (lines_ne_nil u)
    rw [LineFormat.apply, LineFormat.clearedLines, hlines, mapEnded_concat, hks, List.map_cons,
      List.cons_append, withSingleEmptyLines, squeezeEmpty_concat, ← List.cons_append,
      unlines_append (by simp) (by simp)]
    exact ended_concat _

/-- Lines that are ended and not white are blocks as they are. -/
theorem apply_blocks (h : ∀ l ∈ ls, '\n' ∉ l ∧ l.isWhite = false) :
    LineFormat.blocks.apply (ls.flatMap (· ++ ['\n'])) = ls.flatMap (· ++ ['\n']) := by
  have hended : ls.flatMap (· ++ ['\n']) = unlines (ls ++ [[]]) := by
    rw [unlines_append_ended (by simp)]
    exact (List.append_nil _).symm
  have hlines : lines (ls.flatMap (· ++ ['\n'])) = ls ++ [[]] := by
    rw [hended]
    refine lines_unlines (by simp) fun l hl => ?_
    rcases List.mem_append.mp hl with hl | hl
    · exact (h l hl).1
    · rw [List.mem_singleton.mp hl]
      exact List.not_mem_nil
  refine ((LineFormat.fits_blocks_iff hlines).mpr ⟨?_, ?_⟩).apply_eq
  · refine isChain_notBothEmpty_iff.mpr fun hempty => ?_
    have hmem : [] ∈ ls := List.mem_of_mem_tail (hempty.subset (List.mem_cons_self ..))
    exact absurd (h [] hmem).2 (by decide)
  · intro l hl
    rw [LineFormat.clearWhiteLine, (h l hl).2]
    rfl

end Wikitext.Text

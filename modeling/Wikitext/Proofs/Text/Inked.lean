/-
  Wikitext/Proofs/Text/Inked.lean
  ===============================
  **What the layout leaves.**  The passes of the layout move and drop white lines and the white
  space at the ends of lines.  What they leave are the *inked* lines of a text: those with
  something else than white space, without the white space at their ends.  `Reads t ls` says
  that these are `ls`, and that all lines are neat; the passes preserve it, and for texts that
  a line feed keeps apart the inked lines are those of the one and then those of the other.

  From the inked lines of a document its tidied form can be told: but for empty lines between
  them they are its lines (`Reads.tidy`), and where no white line stands between them they are
  all of it (`tidy_of_dense`).
-/
import Mathlib.Data.List.Destutter
import Wikitext.Proofs.Text.Lines

namespace Wikitext.Text

variable {c : Char} {t u l : Text} {ls ms : List Text}

/-- The lines that are not white, without white space at the ends. -/
def inked (ls : List Text) : List Text :=
  (ls.map (trim isSpace)).filter (· ≠ [])

@[simp] theorem inked_nil : inked [] = [] := rfl

@[simp] theorem inked_append (ls ms : List Text) : inked (ls ++ ms) = inked ls ++ inked ms := by
  simp [inked]

theorem inked_cons (l : Text) (ls : List Text) : inked (l :: ls) = inked [l] ++ inked ls :=
  inked_append [l] ls

theorem inked_of_trim_eq_nil (h : trim isSpace l = []) : inked [l] = [] := by
  simp [inked, h]

theorem inked_of_trim_ne_nil (h : trim isSpace l ≠ []) : inked [l] = [trim isSpace l] := by
  simp [inked, h]

@[simp] theorem inked_empty : inked [[]] = [] := rfl

theorem trim_eq_nil_of_isWhite (h : l.isWhite = true) : trim isSpace l = [] :=
  trim_eq_nil.mpr (isWhite_iff.mp h)

theorem trim_ne_nil_of_not_isWhite (h : ¬ l.isWhite = true) : trim isSpace l ≠ [] :=
  fun hnil => h (isWhite_iff.mpr (trim_eq_nil.mp hnil))

theorem inked_congr (h : trim isSpace l = trim isSpace t) : inked [l] = inked [t] := by
  simp [inked, h]

/-! ### Passes over lines -/

theorem mapEnded_cons_cons (f : Text → Text) (l m : Text) (ls : List Text) :
    mapEnded f (l :: m :: ls) = f l :: mapEnded f (m :: ls) := rfl

theorem dropEmpty_cons_cons (l m : Text) (ls : List Text) :
    dropEmpty (l :: m :: ls) = if l = [] then dropEmpty (m :: ls) else l :: dropEmpty (m :: ls) :=
  rfl

theorem mapEnded_concat (f : Text → Text) (ls : List Text) (l : Text) :
    mapEnded f (ls ++ [l]) = ls.map f ++ [l] := by
  induction ls with
  | nil => rfl
  | cons k ks ih =>
    cases ks with
    | nil => rfl
    | cons j js => exact congrArg _ ih

theorem dropEmpty_concat (ls : List Text) (l : Text) :
    dropEmpty (ls ++ [l]) = ls.filter (· ≠ []) ++ [l] := by
  induction ls with
  | nil => rfl
  | cons k ls ih =>
    obtain ⟨j, js, hjs⟩ := List.exists_cons_of_ne_nil (l := ls ++ [l]) (by simp)
    rw [List.cons_append, hjs, dropEmpty_cons_cons, ← hjs, ih, List.filter_cons]
    by_cases hk : k = []
    · simp [hk]
    · simp [hk]

/-- Of two neighbours at most one is empty. -/
def NotBothEmpty (l m : Text) : Prop :=
  l ≠ [] ∨ m ≠ []

instance : DecidableRel NotBothEmpty := fun l m =>
  inferInstanceAs (Decidable (l ≠ [] ∨ m ≠ []))

/-- No two neighbours are empty. -/
theorem isChain_notBothEmpty_iff : ls.IsChain NotBothEmpty ↔ ¬ [[], []] <:+: ls := by
  constructor
  · intro hchain hempty
    obtain ⟨ks, ms, rfl⟩ := hempty
    have hpair : NotBothEmpty [] [] := List.isChain_pair.mp hchain.left_of_append.right_of_append
    exact hpair.elim (fun h => h rfl) fun h => h rfl
  · intro hempty
    refine (List.isChain_isInfix ls).imp fun l m hlm => ?_
    by_contra hboth
    obtain ⟨rfl, rfl⟩ : l = [] ∧ m = [] := by
      rw [NotBothEmpty] at hboth
      tauto
    exact hempty hlm

/-- Squeezing takes the stutter out of the lines before the last. -/
theorem squeezeEmpty_concat (ls : List Text) (l : Text) :
    squeezeEmpty (ls ++ [l]) = ls.destutter NotBothEmpty ++ [l] := by
  induction ls with
  | nil => rfl
  | cons k ls ih =>
    cases ls with
    | nil => simp [squeezeEmpty]
    | cons j ls =>
      rw [List.destutter_cons'] at ih
      rw [List.cons_append, List.cons_append, squeezeEmpty, ← List.cons_append, ih,
        List.destutter_cons_cons]
      by_cases hboth : k = [] ∧ j = []
      · obtain ⟨rfl, rfl⟩ := hboth
        rw [if_pos ⟨rfl, rfl, by simp⟩, if_neg (by simp [NotBothEmpty])]
      · rw [if_neg (fun h => hboth ⟨h.1, h.2.1⟩), if_pos (by
          rw [NotBothEmpty]
          tauto)]
        rfl

theorem trim_clearWhiteLine (l : Text) :
    trim isSpace (LineFormat.clearWhiteLine l) = trim isSpace l := by
  rw [LineFormat.clearWhiteLine]
  split
  · next h => rw [trim_eq_nil_of_isWhite h, trim_nil]
  · rfl

theorem inked_mapEnded_clear (ls : List Text) :
    inked (mapEnded LineFormat.clearWhiteLine ls) = inked ls := by
  induction ls with
  | nil => rfl
  | cons l ls ih =>
    cases ls with
    | nil => rfl
    | cons m ls =>
      rw [mapEnded_cons_cons, inked_cons, ih, inked_congr (trim_clearWhiteLine l), ← inked_cons]

theorem mem_mapEnded_clear (h : l ∈ mapEnded LineFormat.clearWhiteLine ls) : l = [] ∨ l ∈ ls := by
  induction ls with
  | nil => cases h
  | cons m ls ih =>
    cases ls with
    | nil => exact Or.inr h
    | cons k ls =>
      rw [mapEnded_cons_cons] at h
      rcases List.mem_cons.mp h with h | h
      · rw [LineFormat.clearWhiteLine] at h
        split at h
        · exact Or.inl h
        · exact Or.inr (List.mem_cons.mpr (Or.inl h))
      · exact (ih h).imp_right (List.mem_cons_of_mem _)

theorem dropEmpty_sublist (ls : List Text) : (dropEmpty ls).Sublist ls := by
  induction ls with
  | nil => exact List.Sublist.refl _
  | cons l ls ih =>
    cases ls with
    | nil => exact List.Sublist.refl _
    | cons m ls =>
      rw [dropEmpty_cons_cons]
      split
      · exact ih.cons l
      · exact ih.cons_cons l

theorem squeezeEmpty_sublist (ls : List Text) : (squeezeEmpty ls).Sublist ls := by
  induction ls with
  | nil => exact List.Sublist.refl _
  | cons l ls ih =>
    cases ls with
    | nil => exact List.Sublist.refl _
    | cons m ls =>
      rw [squeezeEmpty]
      split
      · exact ih.cons l
      · exact ih.cons_cons l

theorem withSingleEmptyLines_sublist (ls : List Text) : (withSingleEmptyLines ls).Sublist ls := by
  cases ls with
  | nil => exact List.Sublist.refl _
  | cons l ls => exact (squeezeEmpty_sublist ls).cons_cons l

theorem withoutEmptyLines_sublist (ls : List Text) : (withoutEmptyLines ls).Sublist ls := by
  cases ls with
  | nil => exact List.Sublist.refl _
  | cons l ls => exact (dropEmpty_sublist ls).cons_cons l

theorem filter_dropEmpty (ls : List Text) :
    (dropEmpty ls).filter (· ≠ []) = ls.filter (· ≠ []) := by
  induction ls with
  | nil => rfl
  | cons l ls ih =>
    cases ls with
    | nil => rfl
    | cons m ls =>
      rw [dropEmpty_cons_cons]
      split
      · next h => rw [ih, h]; rfl
      · rw [List.filter_cons, List.filter_cons, ih]

theorem filter_squeezeEmpty (ls : List Text) :
    (squeezeEmpty ls).filter (· ≠ []) = ls.filter (· ≠ []) := by
  induction ls with
  | nil => rfl
  | cons l ls ih =>
    cases ls with
    | nil => rfl
    | cons m ls =>
      rw [squeezeEmpty]
      split
      · next h => rw [ih, h.1]; rfl
      · rw [List.filter_cons, List.filter_cons, ih]

theorem filter_withSingleEmptyLines (ls : List Text) :
    (withSingleEmptyLines ls).filter (· ≠ []) = ls.filter (· ≠ []) := by
  cases ls with
  | nil => rfl
  | cons l ls => rw [withSingleEmptyLines, List.filter_cons, List.filter_cons, filter_squeezeEmpty]

theorem filter_withoutEmptyLines (ls : List Text) :
    (withoutEmptyLines ls).filter (· ≠ []) = ls.filter (· ≠ []) := by
  cases ls with
  | nil => rfl
  | cons l ls => rw [withoutEmptyLines, List.filter_cons, List.filter_cons, filter_dropEmpty]

theorem inked_of_filter_eq (h : ls.filter (· ≠ []) = ms.filter (· ≠ [])) : inked ls = inked ms := by
  have hinked : ∀ ks : List Text, inked (ks.filter (· ≠ [])) = inked ks := by
    intro ks
    induction ks with
    | nil => rfl
    | cons k ks ih =>
      by_cases hk : k = []
      · subst hk
        rw [inked_cons, inked_empty, List.nil_append, ← ih]; rfl
      · rw [List.filter_cons, if_pos (by simpa using hk), inked_cons, ih, inked_cons k ks]
  rw [← hinked ls, h, hinked]

/-! ### Reading a text -/

/-- The inked lines of `t` are `ls`, and every line is neat. -/
structure Reads (t : Text) (ls : List Text) : Prop where
  inked_lines : inked t.lines = ls
  neat : ∀ l ∈ t.lines, Neat l

theorem reads_nil : Reads [] [] :=
  ⟨rfl, fun _ hl => by rw [List.mem_singleton.mp hl]; exact neat_nil⟩

theorem reads_line (hl : '\n' ∉ l) (hneat : Neat l) : Reads l (inked [l]) := by
  constructor
  · rw [lines_of_notMem hl]
  · intro m hm
    rw [lines_of_notMem hl, List.mem_singleton] at hm
    exact hm ▸ hneat

theorem Reads.append_newline (ht : Reads t ls) (hu : Reads u ms) :
    Reads (t ++ '\n' :: u) (ls ++ ms) := by
  constructor
  · rw [lines_append_newline, inked_append, ht.inked_lines, hu.inked_lines]
  · intro l hl
    rw [lines_append_newline] at hl
    exact (List.mem_append.mp hl).elim (ht.neat l) (hu.neat l)

/-- What is read on both sides of a line feed. -/
theorem Reads.exists_of_newline (h : Reads (t ++ '\n' :: u) ls) :
    ∃ ks ms, Reads t ks ∧ Reads u ms ∧ ls = ks ++ ms := by
  obtain ⟨hinked, hneat⟩ := h
  rw [lines_append_newline] at hinked hneat
  refine ⟨_, _, ⟨rfl, fun l hl => ?_⟩, ⟨rfl, fun l hl => ?_⟩, ?_⟩
  · exact hneat l (List.mem_append_left _ hl)
  · exact hneat l (List.mem_append_right _ hl)
  · rw [← hinked, inked_append]

theorem Reads.newline_cons (hu : Reads u ms) : Reads ('\n' :: u) ms :=
  reads_nil.append_newline hu

theorem Reads.concat_newline (ht : Reads t ls) : Reads (t ++ ['\n']) ls := by
  simpa using ht.append_newline reads_nil

theorem reads_unlines (hne : ls ≠ []) (hlines : ∀ l ∈ ls, '\n' ∉ l) (hneat : ∀ l ∈ ls, Neat l) :
    Reads (unlines ls) (inked ls) := by
  have h : lines (unlines ls) = ls := lines_unlines hne hlines
  exact ⟨by rw [h], by rw [h]; exact hneat⟩

/-- White lines at the end of other lines are cleared. -/
theorem mem_clearedLines {l : Text} (h : l ∈ LineFormat.clearedLines t) : l = [] ∨ l ∈ t.lines :=
  mem_mapEnded_clear h

theorem clearedLines_ne_nil (t : Text) : LineFormat.clearedLines t ≠ [] := by
  rw [LineFormat.clearedLines]
  rcases hlines : t.lines with _ | ⟨l, _ | ⟨m, ls⟩⟩
  · exact absurd hlines (lines_ne_nil t)
  · simp [mapEnded]
  · simp [mapEnded]

theorem notMem_newline_of_cleared (hsub : ms.Sublist (LineFormat.clearedLines t)) :
    ∀ l ∈ ms, '\n' ∉ l := by
  intro l hl
  rcases mem_clearedLines (hsub.subset hl) with rfl | hl
  · exact List.not_mem_nil
  · exact notMem_newline_of_mem_lines hl

/-- What is done to the cleared lines of a text, and drops only empty ones, is read as the
text. -/
theorem Reads.of_cleared (h : Reads t ls) (hsub : ms.Sublist (LineFormat.clearedLines t))
    (hfilter : ms.filter (· ≠ []) = (LineFormat.clearedLines t).filter (· ≠ []))
    (hne : ms ≠ []) : Reads (unlines ms) ls := by
  have hneat : ∀ l ∈ ms, Neat l := fun l hl =>
    (mem_clearedLines (hsub.subset hl)).elim (fun h => h ▸ neat_nil) (h.neat l)
  have hinked : inked ms = ls := by
    rw [inked_of_filter_eq hfilter, LineFormat.clearedLines, inked_mapEnded_clear, h.inked_lines]
  rw [← hinked]
  exact reads_unlines hne (notMem_newline_of_cleared hsub) hneat

theorem withSingleEmptyLines_ne_nil (h : ls ≠ []) : withSingleEmptyLines ls ≠ [] := by
  obtain ⟨l, ls, rfl⟩ := List.exists_cons_of_ne_nil h
  simp [withSingleEmptyLines]

theorem withoutEmptyLines_ne_nil (h : ls ≠ []) : withoutEmptyLines ls ≠ [] := by
  obtain ⟨l, ls, rfl⟩ := List.exists_cons_of_ne_nil h
  simp [withoutEmptyLines]

theorem lines_blocks (t : Text) :
    (LineFormat.blocks.apply t).lines = withSingleEmptyLines (LineFormat.clearedLines t) :=
  lines_unlines (withSingleEmptyLines_ne_nil (clearedLines_ne_nil t))
    (notMem_newline_of_cleared (withSingleEmptyLines_sublist _))

theorem lines_multi (t : Text) :
    (LineFormat.multi.apply t).lines = withoutEmptyLines (LineFormat.clearedLines t) :=
  lines_unlines (withoutEmptyLines_ne_nil (clearedLines_ne_nil t))
    (notMem_newline_of_cleared (withoutEmptyLines_sublist _))

theorem Reads.blocks (h : Reads t ls) : Reads (LineFormat.blocks.apply t) ls :=
  h.of_cleared (withSingleEmptyLines_sublist _) (filter_withSingleEmptyLines _)
    (withSingleEmptyLines_ne_nil (clearedLines_ne_nil t))

theorem Reads.multi (h : Reads t ls) : Reads (LineFormat.multi.apply t) ls :=
  h.of_cleared (withoutEmptyLines_sublist _) (filter_withoutEmptyLines _)
    (withoutEmptyLines_ne_nil (clearedLines_ne_nil t))

/-- Content on one line is in every format. -/
theorem apply_of_notMem (format : LineFormat) (h : '\n' ∉ t) : format.apply t = t := by
  have hlines : t.lines = [t] := lines_of_notMem h
  cases format <;> simp [LineFormat.apply, LineFormat.clearedLines, hlines, mapEnded,
    joinWithSpaces, withoutEmptyLines, withSingleEmptyLines, dropEmpty, squeezeEmpty]

/-! ### Trimming a text -/

theorem Reads.of_cons (h : Reads (c :: t) ls) (hc : isSpace c = true) : Reads t ls := by
  by_cases hnewline : c = '\n'
  · subst hnewline
    refine ⟨?_, fun l hl => h.neat l ?_⟩
    · rw [← h.inked_lines, lines_newline_cons, inked_cons]; rfl
    · rw [lines_newline_cons]
      exact List.mem_cons_of_mem _ hl
  · obtain ⟨l, ms, hlines⟩ := List.exists_cons_of_ne_nil (lines_ne_nil t)
    have hcons := lines_cons hnewline hlines
    constructor
    · rw [← h.inked_lines, hcons, hlines, inked_cons, inked_cons (c :: l),
        inked_congr (trim_cons_of_pos hc l)]
    · intro m hm
      rw [hlines] at hm
      rcases List.mem_cons.mp hm with rfl | hm
      · exact (h.neat (c :: m) (by rw [hcons]; exact List.mem_cons_self ..)).of_cons hc
      · exact h.neat m (by rw [hcons]; exact List.mem_cons_of_mem _ hm)

theorem Reads.of_concat (h : Reads (t ++ [c]) ls) (hc : isSpace c = true) : Reads t ls := by
  by_cases hnewline : c = '\n'
  · subst hnewline
    have hlines : lines (t ++ ['\n']) = lines t ++ [[]] := lines_append_newline t []
    refine ⟨?_, fun l hl => h.neat l ?_⟩
    · rw [← h.inked_lines, hlines, inked_append, inked_empty, List.append_nil]
    · rw [hlines]
      exact List.mem_append_left _ hl
  · obtain ⟨ms, l, hlines⟩ := exists_lines_concat t
    have hconcat : lines (t ++ [c]) = ms ++ [l ++ [c]] :=
      lines_append hlines (lines_cons hnewline lines_nil)
    constructor
    · rw [← h.inked_lines, hconcat, hlines, inked_append, inked_append,
        inked_congr (trim_concat_of_pos hc l)]
    · intro m hm
      rw [hlines] at hm
      rcases List.mem_append.mp hm with hm | hm
      · exact h.neat m (by rw [hconcat]; exact List.mem_append_left _ hm)
      · rw [List.mem_singleton.mp hm]
        exact (h.neat (l ++ [c]) (by rw [hconcat]; simp)).of_concat hc

theorem Reads.trimmedStart (h : Reads t ls) : Reads (trimStart isSpace t) ls := by
  induction t with
  | nil => exact h
  | cons c t ih =>
    rw [trimStart_cons]
    split
    · next hc => exact ih (h.of_cons hc)
    · exact h

theorem Reads.trimmedEnd (h : Reads t ls) : Reads (trimEnd isSpace t) ls := by
  induction t using List.reverseRecOn with
  | nil => exact h
  | append_singleton t c ih =>
    rw [trimEnd_concat]
    split
    · next hc => exact ih (h.of_concat hc)
    · exact h

theorem Reads.trimmed (h : Reads t ls) : Reads (trim isSpace t) ls :=
  h.trimmedStart.trimmedEnd

end Wikitext.Text

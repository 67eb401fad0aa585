/-
  Wikitext/Proofs/Text/Shown.lean
  ===============================
  **Lines that last.**  A text *shows* some lines if it has them one after the other, white space
  at their ends aside.  The last pass moves the start of every line that is indented, and squeezes
  empty lines; but of lines that start with a mark it keeps every one, in its place among the
  others and with all that stands in it (`Shows.tidied`).
-/
import Wikitext.Proofs.Text.Apart
import Wikitext.Proofs.Text.Search

namespace Wikitext.Text

variable {c : Char} {p : Char → Bool} {t u l mark : Text} {ks ls ms : List Text}

/-- The lines of a text, but for an empty last line. -/
def endedLines (t : Text) : List Text :=
  if t.lines.getLast? = some [] then t.lines.dropLast else t.lines

/-- Among the lines of `t` are `ms`, in a row and without the white space at their ends. -/
def Shows (t : Text) (ms : List Text) : Prop :=
  ms <:+: t.lines.map (trimEnd isSpace)

/-- A line that starts with something else than white space. -/
def Marked (l : Text) : Prop :=
  ∃ c u, l = c :: u ∧ isSpace c = false

theorem Marked.ne_nil (h : Marked l) : l ≠ [] := by
  rintro rfl
  obtain ⟨c, u, heq, -⟩ := h
  cases heq

theorem not_marked_cons (hc : isSpace c = true) (l : Text) : ¬ Marked (c :: l) := by
  rintro ⟨d, u, heq, hd⟩
  obtain ⟨rfl, -⟩ := List.cons.inj heq
  rw [hc] at hd
  cases hd

/-! ### Ends of lines -/

theorem trimEnd_append_of_none (h : ∀ c ∈ t, p c = false) (u : Text) :
    trimEnd p (t ++ u) = t ++ trimEnd p u :=
  trimEnd_append_of_last (fun c hc => h c (List.mem_of_getLast? hc)) u

/-- A line is what is left of it, and white space. -/
theorem exists_white_of_trimEnd (t : Text) :
    ∃ w, (∀ c ∈ w, isSpace c = true) ∧ t = trimEnd isSpace t ++ w :=
  ⟨t.rtakeWhile isSpace, fun _ hc => List.mem_rtakeWhile_imp hc,
    (List.rdropWhile_append_rtakeWhile ..).symm⟩

/-- What is left of a line starts as the line does. -/
theorem trimEnd_isSpace_cons_of_ne_nil (h : trimEnd isSpace (c :: t) ≠ []) :
    ∃ u, trimEnd isSpace (c :: t) = c :: u := by
  obtain ⟨w, -, hw⟩ := exists_white_of_trimEnd (c :: t)
  obtain ⟨d, u, hu⟩ := List.exists_cons_of_ne_nil h
  rw [hu, List.cons_append] at hw
  rw [hu, (List.cons.inj hw).1]
  exact ⟨u, rfl⟩

/-- Trimming the blanks off a line that is marked leaves its start, and what is left of it. -/
theorem trimEnd_trim_isBlank (h : Marked (trimEnd isSpace l)) :
    trimEnd isSpace (trim isBlank l) = trimEnd isSpace l := by
  cases l with
  | nil => exact absurd rfl h.ne_nil
  | cons c t =>
    obtain ⟨u, hu⟩ := trimEnd_isSpace_cons_of_ne_nil h.ne_nil
    have hc : isSpace c = false := by
      refine eq_false_of_ne_true fun hc => ?_
      rw [hu] at h
      exact not_marked_cons hc u h
    have hblank : isBlank c = false := isBlank_eq_false hc
    have hspace := trim_isSpace_trim_isBlank (c :: t)
    rw [trim_cons_of_neg hblank, trim_cons_of_neg hc, trim_cons_of_neg hc] at hspace
    rw [trim_cons_of_neg hblank, trimEnd_cons_of_neg hc, trimEnd_cons_of_neg hc]
    exact hspace

/-! ### Passes over lines -/

theorem prefix_squeezeEmpty (hms : ∀ m ∈ ms, m ≠ []) (h : ms <+: ks) :
    ms <+: squeezeEmpty ks := by
  induction ks generalizing ms with
  | nil => exact h
  | cons k ks ih =>
    cases ms with
    | nil => exact List.nil_prefix
    | cons m ms =>
      obtain ⟨rfl, hrest⟩ := List.cons_prefix_cons.mp h
      have hm : m ≠ [] := hms m (List.mem_cons_self ..)
      cases ks with
      | nil => exact h
      | cons k ks =>
        rw [squeezeEmpty, if_neg fun hempty => hm hempty.1]
        exact List.cons_prefix_cons.mpr
          ⟨rfl, ih (fun l hl => hms l (List.mem_cons_of_mem _ hl)) hrest⟩

/-- Lines that are not empty stay together when empty lines are squeezed. -/
theorem infix_squeezeEmpty (hms : ∀ m ∈ ms, m ≠ []) (h : ms <:+: ks) :
    ms <:+: squeezeEmpty ks := by
  induction ks with
  | nil => exact h
  | cons k ks ih =>
    rcases List.infix_cons_iff.mp h with h | h
    · exact (prefix_squeezeEmpty hms h).isInfix
    · cases ks with
      | nil =>
        rw [List.infix_nil.mp h]
        exact List.nil_infix
      | cons j ks =>
        rw [squeezeEmpty]
        split
        · exact ih h
        · exact List.infix_cons (ih h)

theorem infix_withSingleEmptyLines (hms : ∀ m ∈ ms, m ≠ []) (h : ms <:+: ks) :
    ms <:+: withSingleEmptyLines ks := by
  cases ks with
  | nil => exact h
  | cons k ks =>
    rw [withSingleEmptyLines]
    rcases List.infix_cons_iff.mp h with h | h
    · cases ms with
      | nil => exact List.nil_infix
      | cons m ms =>
        obtain ⟨rfl, hrest⟩ := List.cons_prefix_cons.mp h
        refine List.IsPrefix.isInfix (List.cons_prefix_cons.mpr ⟨rfl, ?_⟩)
        exact prefix_squeezeEmpty (fun l hl => hms l (List.mem_cons_of_mem _ hl)) hrest
    · exact List.infix_cons (infix_squeezeEmpty hms h)

/-- The lines of a text on its way through the last pass. -/
theorem lines_unlines_trimmed (t : Text) :
    (unlines (withSingleEmptyLines (t.lines.map (trim isBlank)))).lines =
      withSingleEmptyLines (t.lines.map (trim isBlank)) := by
  refine lines_unlines (withSingleEmptyLines_ne_nil ?_) ?_
  · simpa using lines_ne_nil t
  · intro l hl hin
    obtain ⟨k, hk, rfl⟩ := List.mem_map.mp ((withSingleEmptyLines_sublist _).subset hl)
    exact notMem_newline_of_mem_lines hk (mem_of_mem_trim hin)

/-- What is found among the images of some members is the image of members in a row. -/
theorem exists_infix_of_infix_map {f : Text → Text} (h : ms <:+: ks.map f) :
    ∃ ns, ns <:+: ks ∧ ns.map f = ms := by
  obtain ⟨front, back, heq⟩ := h
  rw [eq_comm, List.append_assoc, List.map_eq_append_iff] at heq
  obtain ⟨as, bs, rfl, -, hbs⟩ := heq
  obtain ⟨ns, cs, rfl, hns, -⟩ := List.map_eq_append_iff.mp hbs
  exact ⟨ns, ⟨as, cs, by rw [List.append_assoc]⟩, hns⟩

/-! ### Passes over the text -/

theorem Shows.append_newline_right (h : Shows t ms) (u : Text) : Shows (t ++ '\n' :: u) ms := by
  rw [Shows, lines_append_newline, List.map_append]
  exact h.trans (List.prefix_append ..).isInfix

theorem Shows.newline_append_left (h : Shows t ms) (u : Text) : Shows (u ++ '\n' :: t) ms := by
  rw [Shows, lines_append_newline, List.map_append]
  exact h.trans (List.suffix_append ..).isInfix

/-- No marked line starts with the white space at the start of a text. -/
theorem Shows.trimmedStart (hms : ∀ m ∈ ms, Marked m) (h : Shows t ms) :
    Shows (trimStart isSpace t) ms := by
  induction t with
  | nil => exact h
  | cons c t ih =>
    rw [trimStart_cons]
    split
    · next hc =>
      refine ih ?_
      cases ms with
      | nil => exact List.nil_infix
      | cons m ms =>
        have hm : Marked m := hms m (List.mem_cons_self ..)
        by_cases hnewline : c = '\n'
        · subst hnewline
          rw [Shows, lines_newline_cons, List.map_cons, List.infix_cons_iff] at h
          rcases h with h | h
          · exact absurd (List.cons_prefix_cons.mp h).1 hm.ne_nil
          · exact h
        · obtain ⟨l, ls, hls⟩ := List.exists_cons_of_ne_nil (lines_ne_nil t)
          rw [Shows, lines_cons hnewline hls, List.map_cons, List.infix_cons_iff] at h
          rw [Shows, hls, List.map_cons]
          rcases h with h | h
          · obtain ⟨rfl, -⟩ := List.cons_prefix_cons.mp h
            obtain ⟨u, hu⟩ := trimEnd_isSpace_cons_of_ne_nil hm.ne_nil
            rw [hu] at hm
            exact absurd hm (not_marked_cons hc u)
          · exact List.infix_cons h
    · exact h

theorem Shows.trimmedEnd (hms : ∀ m ∈ ms, m ≠ []) (h : Shows t ms) :
    Shows (trimEnd isSpace t) ms := by
  induction t using List.reverseRecOn with
  | nil => exact h
  | append_singleton t c ih =>
    rw [trimEnd_concat]
    split
    · next hc =>
      refine ih ?_
      by_cases hnewline : c = '\n'
      · subst hnewline
        rw [Shows, lines_append_newline, List.map_append] at h
        rcases List.eq_nil_or_concat' ms with rfl | ⟨ms, m, rfl⟩
        · exact List.nil_infix
        · rcases List.infix_concat_iff.mp h with h | h
          · obtain ⟨front, hfront⟩ := h
            rw [← List.append_assoc] at hfront
            have hlast : [m] = [[]] := List.append_inj_right' hfront rfl
            exact absurd (List.cons.inj hlast).1 (hms m (by simp))
          · exact h
      · obtain ⟨ls, l, hls⟩ := exists_lines_concat t
        rw [Shows, lines_append hls (lines_cons hnewline lines_nil)] at h
        rw [Shows, hls]
        simpa [trimEnd_concat, hc] using h
    · exact h

/-- Lines that are marked stay as they are when a text is tidied. -/
theorem Shows.tidied (hms : ∀ m ∈ ms, Marked m) (h : Shows t ms) : Shows t.tidy ms := by
  have hne : ∀ m ∈ ms, m ≠ [] := fun m hm => (hms m hm).ne_nil
  obtain ⟨ns, hns, rfl⟩ := exists_infix_of_infix_map h
  have hmarked : ∀ n ∈ ns, Marked (trimEnd isSpace n) := fun n hn =>
    hms _ (List.mem_map_of_mem hn)
  have htrimmed : ∀ n ∈ ns, trimEnd isSpace (trim isBlank n) = trimEnd isSpace n := fun n hn =>
    trimEnd_trim_isBlank (hmarked n hn)
  -- the lines without blanks at their ends stay together
  have hsqueezed : ns.map (trim isBlank) <:+: withSingleEmptyLines (t.lines.map (trim isBlank)) := by
    refine infix_withSingleEmptyLines ?_ (hns.map _)
    intro m hm hnil
    obtain ⟨n, hn, rfl⟩ := List.mem_map.mp hm
    refine (hmarked n hn).ne_nil ?_
    rw [← htrimmed n hn, hnil]
    rfl
  refine Shows.trimmedEnd hne (Shows.trimmedStart hms ?_)
  rw [Shows, lines_unlines_trimmed]
  have hmap : (ns.map (trim isBlank)).map (trimEnd isSpace) = ns.map (trimEnd isSpace) := by
    rw [List.map_map]
    exact List.map_congr_left htrimmed
  rw [← hmap]
  exact hsqueezed.map _

/-! ### Marked lines -/

theorem endedLines_concat {l : Text} (h : t.lines = ls ++ [l]) :
    t.endedLines = if l = [] then ls else ls ++ [l] := by
  simp [endedLines, h]

theorem mem_lines_of_mem_endedLines (h : l ∈ t.endedLines) : l ∈ t.lines := by
  rw [endedLines] at h
  split at h
  · exact List.dropLast_subset _ h
  · exact h

/-- The lines of a text are marked, but for an empty last line. -/
theorem infix_lines_markLines (hmark : '\n' ∉ mark) (t : Text) :
    t.endedLines.map (mark ++ ·) <:+: (markLines mark t).lines := by
  obtain ⟨ls, l, hls⟩ := exists_lines_concat t
  have hlines : (markLines mark t).lines = markEach mark t.lines := by
    refine lines_unlines ?_ ?_
    · simp [hls, markEach_concat]
    · intro k hk hin
      rw [hls, markEach_concat] at hk
      have hbody : ∀ m ∈ t.lines, '\n' ∉ mark ++ m := by
        intro m hm hin
        exact (List.mem_append.mp hin).elim hmark (notMem_newline_of_mem_lines hm)
      rcases List.mem_append.mp hk with hk | hk
      · obtain ⟨m, hm, rfl⟩ := List.mem_map.mp hk
        exact hbody m (by simp [hls, hm]) hin
      · obtain rfl := List.mem_singleton.mp hk
        split at hin
        · cases hin
        · exact hbody l (by simp [hls]) hin
  rw [hlines, endedLines_concat hls, hls, markEach_concat]
  split
  · exact (List.prefix_append ..).isInfix
  · simp

end Wikitext.Text

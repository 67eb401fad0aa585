/-
  Wikitext/Proofs/Text/Tidy.lean
  ==============================
  **Tidied documents.**  The last pass works on all lines and then trims the whole text.  On
  lines that are trimmed already, trimming the text drops the empty lines at both ends
  (`trim_unlines`); so the lines of a tidied text that are not empty are its inked lines
  (`filter_lines_tidy`), and no empty line stands between them if none but empty lines at the
  ends were there before (`tidy_of_dense`).
-/
import Wikitext.Proofs.Text.Inked

namespace Wikitext.Text

variable {p : Char → Bool} {t : Text} {ls vs : List Text}

/-! ### Empty lines at the ends -/

/-- Drops the empty lines at the start. -/
def dropLeading (vs : List Text) : List Text :=
  vs.dropWhile (· = [])

/-- Drops the empty lines at the end. -/
def dropTrailing (vs : List Text) : List Text :=
  vs.rdropWhile (· = [])

theorem filter_dropLeading (vs : List Text) :
    (dropLeading vs).filter (· ≠ []) = vs.filter (· ≠ []) := by
  induction vs with
  | nil => rfl
  | cons v vs ih =>
    rw [dropLeading, List.dropWhile_cons]
    split
    · next h =>
      obtain rfl : v = [] := by simpa using h
      exact ih
    · rfl

theorem filter_dropTrailing (vs : List Text) :
    (dropTrailing vs).filter (· ≠ []) = vs.filter (· ≠ []) := by
  induction vs using List.reverseRecOn with
  | nil => rfl
  | append_singleton vs v ih =>
    rw [dropTrailing, List.rdropWhile_concat]
    split
    · next h =>
      obtain rfl : v = [] := by simpa using h
      rw [List.filter_append]
      exact ih.trans (List.append_nil _).symm
    · rfl

theorem trimStart_unlines (hp : p '\n' = true) (h : ∀ v ∈ vs, ∀ c ∈ v.head?, p c = false) :
    trimStart p (unlines vs) = unlines (dropLeading vs) := by
  induction vs with
  | nil => rfl
  | cons v vs ih =>
    have hrest := ih fun u hu => h u (List.mem_cons_of_mem _ hu)
    have hv := h v (List.mem_cons_self ..)
    rw [dropLeading, List.dropWhile_cons]
    cases v with
    | nil =>
      rw [if_pos (by simp)]
      cases hvs : vs with
      | nil => rfl
      | cons u us =>
        rw [← hvs, unlines_cons [] (by simp [hvs]), List.nil_append, trimStart_cons,
          if_pos hp, hrest]
        rfl
    | cons c v =>
      have hc : p c = false := hv c rfl
      rw [if_neg (by simp)]
      cases hvs : vs with
      | nil => rw [unlines_singleton, trimStart_cons, if_neg (by simp [hc])]
      | cons u us =>
        rw [← hvs, unlines_cons (c :: v) (by simp [hvs]), List.cons_append, trimStart_cons,
          if_neg (by simp [hc])]

theorem trimEnd_unlines (hp : p '\n' = true) (h : ∀ v ∈ vs, ∀ c ∈ v.getLast?, p c = false) :
    trimEnd p (unlines vs) = unlines (dropTrailing vs) := by
  have hreverse : ∀ v ∈ vs.reverse.map List.reverse, ∀ c ∈ v.head?, p c = false := by
    intro v hv c hc
    obtain ⟨u, hu, rfl⟩ := List.mem_map.mp hv
    rw [List.head?_reverse] at hc
    exact h u (List.mem_reverse.mp hu) c hc
  have hempty : (fun v : Text => decide (v = [])) ∘ List.reverse = fun v => decide (v = []) := by
    funext v
    simp
  have hstart := trimStart_unlines hp hreverse
  rw [← reverse_unlines, dropLeading, List.dropWhile_map, hempty] at hstart
  calc trimEnd p (unlines vs)
      = (trimStart p (unlines vs).reverse).reverse := rfl
    _ = unlines (dropTrailing vs) := by
        rw [hstart, reverse_unlines, List.map_reverse, List.map_map]
        simp [dropTrailing, List.rdropWhile]

theorem trim_unlines (hp : p '\n' = true) (hstart : ∀ v ∈ vs, ∀ c ∈ v.head?, p c = false)
    (hend : ∀ v ∈ vs, ∀ c ∈ v.getLast?, p c = false) :
    trim p (unlines vs) = unlines (dropTrailing (dropLeading vs)) := by
  rw [trim, trimStart_unlines hp hstart]
  exact trimEnd_unlines hp fun v hv => hend v ((List.dropWhile_sublist _).subset hv)

/-! ### The last pass -/

/-- The tidied text is made of trimmed lines, of which only empty ones are dropped. -/
theorem tidy_eq_unlines (hneat : ∀ l ∈ t.lines, Neat l) :
    ∃ ws : List Text, t.tidy = unlines (dropTrailing (dropLeading ws)) ∧
      ws.Sublist (t.lines.map (trim isSpace)) ∧ ws.filter (· ≠ []) = inked t.lines := by
  have hmap : t.lines.map (trim isBlank) = t.lines.map (trim isSpace) :=
    List.map_congr_left fun l hl => (hneat l hl).symm
  have hsub := withSingleEmptyLines_sublist (t.lines.map (trim isSpace))
  have htrimmed : ∀ v ∈ withSingleEmptyLines (t.lines.map (trim isSpace)),
      ∃ l, v = trim isSpace l := fun v hv => by
    obtain ⟨l, -, hl⟩ := List.mem_map.mp (hsub.subset hv)
    exact ⟨l, hl.symm⟩
  refine ⟨withSingleEmptyLines (t.lines.map (trim isSpace)), ?_, hsub,
    filter_withSingleEmptyLines _⟩
  rw [tidy, hmap, trim_unlines (by decide)]
  · rintro v hv
    obtain ⟨l, rfl⟩ := htrimmed v hv
    exact trim_head isSpace l
  · rintro v hv
    obtain ⟨l, rfl⟩ := htrimmed v hv
    exact trim_last isSpace l

/-- A single line is tidied by trimming it. -/
theorem tidy_of_notMem (h : '\n' ∉ t) : t.tidy = trim isSpace t := by
  rw [tidy, lines_of_notMem h]
  exact trim_isSpace_trim_isBlank t

/-- The lines of a tidied text that are not empty are the inked lines of the text. -/
theorem Reads.filter_lines_tidy (h : Reads t ls) : t.tidy.lines.filter (· ≠ []) = ls := by
  obtain ⟨ws, htidy, hsub, hfilter⟩ := tidy_eq_unlines h.neat
  have hws : (dropTrailing (dropLeading ws)).filter (· ≠ []) = ls := by
    rw [filter_dropTrailing, filter_dropLeading, hfilter, h.inked_lines]
  rw [htidy]
  by_cases hne : dropTrailing (dropLeading ws) = []
  · rw [hne] at hws
    rw [hne, ← hws]; rfl
  · rw [lines_unlines hne, hws]
    intro l hl
    have hmem : l ∈ ws := (List.dropWhile_sublist _).subset
      ((List.rdropWhile_prefix _ _).subset hl)
    obtain ⟨m, hm, rfl⟩ := List.mem_map.mp (hsub.subset hmem)
    exact fun hin => notMem_newline_of_mem_lines hm (mem_of_mem_trim hin)

/-! ### Dense texts -/

/-- The lines of the text are `ls` without white space at the ends, and white lines before and
after these. -/
def Dense (t : Text) (ls : List Text) : Prop :=
  ∃ n m, t.lines.map (trim isSpace) = List.replicate n [] ++ ls ++ List.replicate m []

theorem Dense.inked_lines (h : Dense t ls) (hls : ∀ l ∈ ls, l ≠ []) : inked t.lines = ls := by
  obtain ⟨n, m, heq⟩ := h
  rw [inked, heq]
  simpa using hls

theorem lines_between_newlines (t : Text) :
    lines (['\n', '\n'] ++ t ++ ['\n', '\n']) = [[], []] ++ t.lines ++ [[], []] := by
  have hback : lines (t ++ ['\n', '\n']) = t.lines ++ [[], []] := lines_append_newline t ['\n']
  rw [List.append_assoc, List.cons_append, lines_newline_cons, List.cons_append,
    lines_newline_cons, List.nil_append, hback]
  rfl

/-- More empty lines at the ends. -/
theorem Dense.append_newlines (h : Dense t ls) :
    Dense (['\n', '\n'] ++ t ++ ['\n', '\n']) ls := by
  obtain ⟨n, m, heq⟩ := h
  refine ⟨n + 2, m + 2, ?_⟩
  rw [lines_between_newlines, List.map_append, List.map_append, heq, Nat.add_comm n, List.replicate_add,
    List.replicate_add]
  simp [trim_nil, List.replicate]

/-- A dense text is tidied to its lines. -/
theorem tidy_of_dense (hneat : ∀ l ∈ t.lines, Neat l) (h : Dense t ls) (hls : ∀ l ∈ ls, l ≠ []) :
    t.tidy = unlines ls := by
  have hinked := h.inked_lines hls
  obtain ⟨n, m, heq⟩ := h
  obtain ⟨ws, htidy, hsub, hfilter⟩ := tidy_eq_unlines hneat
  rw [hinked] at hfilter
  rw [heq] at hsub
  -- what is left of the empty lines stands at the ends
  obtain ⟨rest, as, rfl, hrest, has⟩ := List.sublist_append_iff.mp hsub
  obtain ⟨bs, cs, rfl, hbs, hcs⟩ := List.sublist_append_iff.mp hrest
  have hempty : ∀ {k : Nat} {vs : List Text}, vs.Sublist (List.replicate k []) →
      ∀ v ∈ vs, v = [] := fun hvs v hv => List.eq_of_mem_replicate (hvs.subset hv)
  have hfilterEmpty : ∀ {vs : List Text}, (∀ v ∈ vs, v = []) → vs.filter (· ≠ []) = [] := by
    intro vs hvs
    rw [List.filter_eq_nil_iff]
    intro v hv
    simp [hvs v hv]
  have hcs' : cs = ls := by
    rw [List.filter_append, List.filter_append, hfilterEmpty (hempty hbs),
      hfilterEmpty (hempty has), List.nil_append, List.append_nil] at hfilter
    rw [← hfilter]
    exact (List.filter_eq_self.mpr fun l hl => by simpa using hls l (hcs.subset hl)).symm
  subst hcs'
  rw [htidy, dropLeading, List.append_assoc, List.dropWhile_append_of_pos fun v hv => by
    simp [hempty hbs v hv]]
  cases cs with
  | nil =>
    rw [List.nil_append, List.dropWhile_eq_nil_iff.mpr fun v hv => by simp [hempty has v hv]]
    rfl
  | cons c cs =>
    have hc : c ≠ [] := hls c (List.mem_cons_self ..)
    rw [List.cons_append, List.dropWhile_cons, if_neg (by simpa using hc), dropTrailing,
      ← List.cons_append]
    congr 1
    rw [List.rdropWhile, List.reverse_append, List.dropWhile_append_of_pos fun v hv => by
      simp [hempty has v (List.mem_reverse.mp hv)]]
    change (c :: cs).rdropWhile _ = _
    rw [List.rdropWhile_eq_self_iff]
    intro hne
    simpa using hls _ (List.getLast_mem hne)

/-- Lines between empty lines are tidied one by one. -/
theorem tidy_block (hne : ls ≠ []) (h : ∀ l ∈ ls, '\n' ∉ l ∧ Neat l ∧ trim isSpace l ≠ []) :
    tidy (['\n', '\n'] ++ unlines ls ++ ['\n', '\n']) = unlines (ls.map (trim isSpace)) := by
  have hlines : lines (unlines ls) = ls := lines_unlines hne fun l hl => (h l hl).1
  have hdense : Dense (['\n', '\n'] ++ unlines ls ++ ['\n', '\n']) (ls.map (trim isSpace)) := by
    refine Dense.append_newlines ⟨0, 0, ?_⟩
    rw [hlines]
    simp
  refine tidy_of_dense (fun l hl => ?_) hdense fun l hl => ?_
  · rw [lines_between_newlines, hlines] at hl
    simp only [List.mem_append, List.mem_cons, List.not_mem_nil, or_false, or_self] at hl
    rcases hl with (rfl | hl) | rfl
    · exact neat_nil
    · exact (h l hl).2.1
    · exact neat_nil
  · obtain ⟨m, hm, rfl⟩ := List.mem_map.mp hl
    exact (h m hm).2.2

/-- Content without empty lines is dense. -/
theorem Reads.dense_multi (h : Reads t ls) : Dense (LineFormat.multi.apply t) ls := by
  have hdrop : ∀ ks : List Text, ∃ m,
      (dropEmpty (mapEnded LineFormat.clearWhiteLine ks)).map (trim isSpace) =
        inked ks ++ List.replicate m [] := by
    intro ks
    induction ks with
    | nil => exact ⟨0, rfl⟩
    | cons k ks ih =>
      cases ks with
      | nil =>
        by_cases hk : trim isSpace k = []
        · exact ⟨1, by simp [mapEnded, dropEmpty, inked_of_trim_eq_nil hk, hk]⟩
        · exact ⟨0, by simp [mapEnded, dropEmpty, inked_of_trim_ne_nil hk]⟩
      | cons j ks =>
        obtain ⟨m, hm⟩ := ih
        refine ⟨m, ?_⟩
        obtain ⟨x, xs, hxs⟩ : ∃ x xs, mapEnded LineFormat.clearWhiteLine (j :: ks) = x :: xs := by
          cases ks <;> exact ⟨_, _, rfl⟩
        rw [mapEnded_cons_cons, inked_cons k]
        rw [hxs] at hm ⊢
        rw [dropEmpty_cons_cons]
        by_cases hk : k.isWhite = true
        · rw [LineFormat.clearWhiteLine, if_pos hk, if_pos rfl, hm,
            inked_of_trim_eq_nil (trim_eq_nil_of_isWhite hk)]
          rfl
        · have hne : k ≠ [] := fun hnil => hk (by rw [hnil]; rfl)
          rw [LineFormat.clearWhiteLine, if_neg hk, if_neg hne, List.map_cons, hm,
            inked_of_trim_ne_nil (trim_ne_nil_of_not_isWhite hk)]
          rfl
  rw [Dense, lines_multi, LineFormat.clearedLines, ← h.inked_lines]
  rcases hlines : t.lines with _ | ⟨l, ks⟩
  · exact absurd hlines (lines_ne_nil t)
  · cases ks with
    | nil =>
      by_cases hl : trim isSpace l = []
      · exact ⟨1, 0, by simp [mapEnded, withoutEmptyLines, dropEmpty, inked_of_trim_eq_nil hl, hl]⟩
      · exact ⟨0, 0, by simp [mapEnded, withoutEmptyLines, dropEmpty, inked_of_trim_ne_nil hl]⟩
    | cons k ks =>
      obtain ⟨m, hm⟩ := hdrop (k :: ks)
      rw [mapEnded_cons_cons, withoutEmptyLines, List.map_cons, hm, trim_clearWhiteLine,
        inked_cons l]
      by_cases hl : trim isSpace l = []
      · exact ⟨1, m, by simp [hl, inked_of_trim_eq_nil hl]⟩
      · exact ⟨0, m, by simp [inked_of_trim_ne_nil hl]⟩

end Wikitext.Text

/-
  Wikitext/Proofs/Text/Tidied.lean
  ================================
  **Tidied texts.**  The last pass makes a text level: no line starts or ends with a blank, and
  there are at most two line feeds in a row (`Level`).  Then it takes the white space off both
  ends (`Tidied`).  Nothing visible is lost on the way, and a text that is tidied is left alone
  (`tidy_normalizes`).

  Trimming the whole text takes more than blanks, so it may cut into the lines at both ends and
  bring others there.  That the text stays level is seen by what stands side by side: no blank
  next to a line feed (`line_starts_iff`, `line_ends_iff`), which is as true of a part of a text
  as of all of it.
-/
import Wikitext.Proofs.Text.Tight

namespace Wikitext.Text

variable {p : Char → Bool} {c : Char} {t u : Text} {ls : List Text}

/-! ### Starts and ends of lines -/

theorem exists_mem_lines_cons (hc : c ≠ '\n') (t : Text) : ∃ l, c :: l ∈ lines (c :: t) := by
  obtain ⟨l, ls, ht⟩ := List.exists_cons_of_ne_nil (lines_ne_nil t)
  refine ⟨l, ?_⟩
  rw [lines_cons hc ht]
  exact List.mem_cons_self ..

/-- No line starts in the class if the text does not, nor does what follows a line feed. -/
theorem line_starts_iff (hp : p '\n' = false) :
    (∀ l ∈ t.lines, ∀ c ∈ l.head?, p c = false) ↔
      (∀ c ∈ t.head?, p c = false) ∧ ∀ c, ['\n', c] <:+: t → p c = false := by
  constructor
  · intro h
    constructor
    · intro c hc
      by_cases hnewline : c = '\n'
      · rwa [hnewline]
      · obtain ⟨t, rfl⟩ := List.head?_eq_some_iff.mp hc
        obtain ⟨l, hl⟩ := exists_mem_lines_cons hnewline t
        exact h _ hl c rfl
    · rintro c ⟨u, v, rfl⟩
      by_cases hnewline : c = '\n'
      · rwa [hnewline]
      · obtain ⟨l, hl⟩ := exists_mem_lines_cons hnewline v
        refine h (c :: l) ?_ c rfl
        rw [List.append_assoc, List.cons_append, lines_append_newline]
        exact List.mem_append_right _ hl
  · rintro ⟨hstart, hfeed⟩ l hl c hc
    obtain ⟨-, front, back, rfl, hfront, -⟩ := mem_lines_iff.mp hl
    obtain ⟨l, rfl⟩ := List.head?_eq_some_iff.mp hc
    rcases List.eq_nil_or_concat' front with rfl | ⟨front, d, rfl⟩
    · exact hstart c rfl
    · obtain rfl := hfront d (by simp)
      exact hfeed c ⟨front, l ++ back, by simp⟩

theorem lines_reverse (t : Text) : lines t.reverse = (t.lines.map List.reverse).reverse := by
  have hreverse : t.reverse = unlines (t.lines.reverse.map List.reverse) := by
    rw [← reverse_unlines, unlines_lines]
  rw [hreverse, lines_unlines, List.map_reverse]
  · simpa using lines_ne_nil t
  · intro l hl hin
    obtain ⟨m, hm, rfl⟩ := List.mem_map.mp hl
    exact notMem_newline_of_mem_lines (List.mem_reverse.mp hm) (List.mem_reverse.mp hin)

theorem line_ends_iff (hp : p '\n' = false) :
    (∀ l ∈ t.lines, ∀ c ∈ l.getLast?, p c = false) ↔
      (∀ c ∈ t.getLast?, p c = false) ∧ ∀ c, [c, '\n'] <:+: t → p c = false := by
  have hreverse := line_starts_iff (t := t.reverse) hp
  have hpair : ∀ c, ['\n', c] <:+: t.reverse ↔ [c, '\n'] <:+: t := by
    intro c
    rw [← List.reverse_infix, List.reverse_reverse]
    rfl
  rw [lines_reverse, List.head?_reverse] at hreverse
  simp only [hpair, List.mem_reverse, List.forall_mem_map, List.head?_reverse] at hreverse
  exact hreverse

/-! ### Level texts -/

/-- No line starts or ends with a blank, and there are at most two line feeds in a row. -/
structure Level (t : Text) : Prop where
  line_start : ∀ l ∈ t.lines, ∀ c ∈ l.head?, isBlank c = false
  line_end : ∀ l ∈ t.lines, ∀ c ∈ l.getLast?, isBlank c = false
  feeds : ¬ ['\n', '\n', '\n'] <:+: t

/-- Level, and without white space at the ends. -/
structure Tidied (t : Text) : Prop extends Level t where
  start : ∀ c ∈ t.head?, isSpace c = false
  stop : ∀ c ∈ t.getLast?, isSpace c = false

theorem isChain_withSingleEmptyLines (hne : ls ≠ []) :
    (withSingleEmptyLines ls).dropLast.tail.IsChain NotBothEmpty := by
  obtain ⟨ks, k, rfl⟩ := (List.eq_nil_or_concat' ls).resolve_left hne
  rw [withSingleEmptyLines_concat, List.dropLast_concat, tail_mapTail rfl]
  exact List.isChain_destutter _ _

theorem withSingleEmptyLines_of_isChain (hne : ls ≠ [])
    (h : ls.dropLast.tail.IsChain NotBothEmpty) : withSingleEmptyLines ls = ls := by
  obtain ⟨ks, k, rfl⟩ := (List.eq_nil_or_concat' ls).resolve_left hne
  rw [List.dropLast_concat] at h
  rw [withSingleEmptyLines_concat, mapTail_eq_self (List.destutter_of_isChain _ _ h)]

/-- Trimming the lines and squeezing the empty ones makes a text level. -/
theorem level_unlines (t : Text) :
    Level (unlines (withSingleEmptyLines (t.lines.map (trim isBlank)))) := by
  have hlines := lines_unlines_trimmed t
  have htrimmed : ∀ l ∈ withSingleEmptyLines (t.lines.map (trim isBlank)),
      ∃ k, trim isBlank k = l := by
    intro l hl
    obtain ⟨k, -, hk⟩ := List.mem_map.mp ((withSingleEmptyLines_sublist _).subset hl)
    exact ⟨k, hk⟩
  constructor
  · rw [hlines]
    intro l hl
    obtain ⟨k, rfl⟩ := htrimmed l hl
    exact trim_head isBlank k
  · rw [hlines]
    intro l hl
    obtain ⟨k, rfl⟩ := htrimmed l hl
    exact trim_last isBlank k
  · rw [not_three_newlines_iff, hlines]
    exact isChain_withSingleEmptyLines (by simpa using lines_ne_nil t)

/-- Trimming keeps a text level, although it trims more than blanks. -/
theorem Level.trim (h : Level t) : Tidied (trim isSpace t) := by
  have hpart : Text.trim isSpace t <:+: t := trim_infix_self isSpace t
  have hstart := trim_head isSpace t
  have hstop := trim_last isSpace t
  refine ⟨⟨?_, ?_, fun hfeeds => h.feeds (hfeeds.trans hpart)⟩, hstart, hstop⟩
  · apply (line_starts_iff rfl).mpr
    constructor
    · intro c hc
      exact isBlank_eq_false (hstart c hc)
    · intro c hc
      exact ((line_starts_iff rfl).mp h.line_start).2 c (hc.trans hpart)
  · apply (line_ends_iff rfl).mpr
    constructor
    · intro c hc
      exact isBlank_eq_false (hstop c hc)
    · intro c hc
      exact ((line_ends_iff rfl).mp h.line_end).2 c (hc.trans hpart)

theorem Level.unlines_eq (h : Level t) :
    unlines (withSingleEmptyLines (t.lines.map (Text.trim isBlank))) = t := by
  have htrim : t.lines.map (Text.trim isBlank) = t.lines := by
    refine (List.map_congr_left fun l hl => ?_).trans (List.map_id _)
    exact trim_eq_self (h.line_start l hl) (h.line_end l hl)
  rw [htrim, withSingleEmptyLines_of_isChain (lines_ne_nil t) (not_three_newlines_iff.mp h.feeds),
    unlines_lines]

/-! ### The last pass -/

theorem tidied_tidy (t : Text) : Tidied t.tidy :=
  (level_unlines t).trim

theorem Tidied.tidy_eq (h : Tidied t) : t.tidy = t := by
  rw [tidy, h.toLevel.unlines_eq]
  exact trim_eq_self h.start h.stop

theorem visible_tidy (t : Text) : visible t.tidy = visible t := by
  have hunlines : ∀ ls : List Text, visible (unlines ls) = ls.flatMap visible :=
    filter_unlines not_isGap_of_visible
  calc visible t.tidy
      = visible (unlines (withSingleEmptyLines (t.lines.map (trim isBlank)))) :=
        (thins_trim (fun _ h => h) _).visible
    _ = (t.lines.map (trim isBlank)).flatMap visible := by
        rw [hunlines]
        exact flatMap_filter_of_filter_eq _ (filter_withSingleEmptyLines _)
    _ = t.lines.flatMap visible := by
        rw [List.flatMap_map]
        exact List.flatMap_congr fun l _ => filter_trim_isBlank not_isGap_of_visible l
    _ = visible t := by
        rw [← hunlines, unlines_lines]

/-- **Tidying.**  Any text is made a tidied one, which loses nothing visible.  A tidied text stays
as it is, and no other does; so a second pass changes nothing. -/
theorem tidy_normalizes (t : Text) :
    Tidied t.tidy ∧ visible t.tidy = visible t ∧ (t.tidy = t ↔ Tidied t) ∧
      t.tidy.tidy = t.tidy := by
  have htidied := tidied_tidy t
  refine ⟨htidied, visible_tidy t, ?_, htidied.tidy_eq⟩
  constructor
  · intro h
    rwa [h] at htidied
  · exact Tidied.tidy_eq

/-- A carriage return is white space, but no blank: a line of it is not empty. -/
example : tidy "\r a \n\n \n\nb\t\r\n\r\n\r\nc \n".toList =
    "a\n\nb\t\r\n\r\n\r\nc".toList := by
  decide

end Wikitext.Text

/-
  Wikitext/Proofs/Text/Formats.lean
  =================================
  **Content in a format.**  A format bounds the line feeds in a row, and wants no line of white
  space before a line feed (`LineFormat.Fits`).  Any content is brought into it by one application,
  which loses nothing visible, and content that is in it is left alone; so applying the format
  again to its own output changes nothing (`LineFormat.apply_normalizes`).

  The line feeds in a row are counted by lines: `n + 2` of them stand around `n + 1` empty lines
  between the first and the last (`newlines_infix_iff`).  Of the lines before the last a format
  keeps the first as it is; the others it filters (`withoutEmptyLines_concat`), or it takes the
  stutter out of them (`withSingleEmptyLines_concat`), so that one pass is enough for runs of any
  length.
-/
import Mathlib.Data.List.Infix
import Wikitext.Proofs.Text.Edges

namespace Wikitext

namespace Text

variable {x : Char} {t l : Text} {ls : List Text} {f : List Text → List Text}

/-! ### Line feeds in a row -/

theorem lines_newlines_append (n : Nat) (t : Text) :
    lines (List.replicate n '\n' ++ t) = List.replicate n [] ++ lines t := by
  induction n with
  | zero => rfl
  | succ n ih =>
    rw [List.replicate_succ, List.cons_append, lines_newline_cons, ih, List.replicate_succ,
      List.cons_append]

theorem unlines_empty_append (hls : ls ≠ []) (n : Nat) :
    unlines (List.replicate n [] ++ ls) = List.replicate n '\n' ++ unlines ls := by
  induction n with
  | zero => rfl
  | succ n ih =>
    rw [List.replicate_succ, List.cons_append, unlines_cons [] (by simp [hls]), ih,
      List.replicate_succ]
    rfl

/-- Line feeds in a row stand around empty lines, none of them the first or the last line. -/
theorem newlines_infix_iff (n : Nat) :
    List.replicate (n + 2) '\n' <:+: t ↔ List.replicate (n + 1) [] <:+: t.lines.dropLast.tail := by
  constructor
  · rintro ⟨u, v, rfl⟩
    obtain ⟨first, ls, hu⟩ := List.exists_cons_of_ne_nil (lines_ne_nil u)
    obtain ⟨ms, last, hv⟩ := exists_lines_concat v
    refine ⟨ls, ms, ?_⟩
    have hlines : lines (u ++ List.replicate (n + 2) '\n' ++ v) =
        (first :: (ls ++ List.replicate (n + 1) [] ++ ms)) ++ [last] := by
      rw [List.append_assoc, List.replicate_succ, List.cons_append, lines_append_newline,
        lines_newlines_append, hu, hv]
      simp
    rw [hlines, List.dropLast_concat, List.tail_cons]
  · rintro ⟨ls, ms, hinner⟩
    obtain ⟨ks, last, ht⟩ := exists_lines_concat t
    rw [ht, List.dropLast_concat] at hinner
    cases ks with
    | nil => simp at hinner
    | cons first ks =>
      rw [List.tail_cons] at hinner
      refine ⟨unlines (first :: ls), unlines (ms ++ [last]), ?_⟩
      calc unlines (first :: ls) ++ List.replicate (n + 2) '\n' ++ unlines (ms ++ [last])
          = unlines (first :: ls) ++
              '\n' :: unlines (List.replicate (n + 1) [] ++ (ms ++ [last])) := by
            rw [unlines_empty_append (by simp), List.replicate_succ, List.append_assoc,
              List.cons_append]
        _ = unlines t.lines := by
            rw [← unlines_append (List.cons_ne_nil first ls) (by simp), ht, ← hinner]
            simp
        _ = t := unlines_lines t

theorem not_two_newlines_iff : ¬ ['\n', '\n'] <:+: t ↔ [] ∉ t.lines.dropLast.tail := by
  rw [← List.singleton_infix_iff]
  exact not_congr (newlines_infix_iff 0)

theorem not_three_newlines_iff :
    ¬ ['\n', '\n', '\n'] <:+: t ↔ t.lines.dropLast.tail.IsChain NotBothEmpty := by
  rw [isChain_notBothEmpty_iff]
  exact not_congr (newlines_infix_iff 1)

/-! ### The lines before the last -/

/-- Does something to all lines but the first. -/
def mapTail (f : List Text → List Text) : List Text → List Text
  | [] => []
  | l :: ls => l :: f ls

theorem tail_mapTail (hf : f [] = []) (ls : List Text) : (mapTail f ls).tail = f ls.tail := by
  cases ls with
  | nil => exact hf.symm
  | cons l ls => rfl

theorem mapTail_eq_self (h : f ls.tail = ls.tail) : mapTail f ls = ls := by
  cases ls with
  | nil => rfl
  | cons l ls => exact congrArg _ h

theorem mapTail_sublist (hf : ∀ ks, (f ks).Sublist ks) (ls : List Text) :
    (mapTail f ls).Sublist ls := by
  cases ls with
  | nil => exact List.Sublist.refl _
  | cons l ls => exact (hf ls).cons_cons l

theorem withoutEmptyLines_concat (ls : List Text) (l : Text) :
    withoutEmptyLines (ls ++ [l]) = mapTail (List.filter (· ≠ [])) ls ++ [l] := by
  cases ls with
  | nil => rfl
  | cons k ls => exact congrArg _ (dropEmpty_concat ls l)

theorem withSingleEmptyLines_concat (ls : List Text) (l : Text) :
    withSingleEmptyLines (ls ++ [l]) = mapTail (List.destutter NotBothEmpty) ls ++ [l] := by
  cases ls with
  | nil => rfl
  | cons k ls => exact congrArg _ (squeezeEmpty_concat ls l)

/-! ### On one line -/

theorem mem_joinWithSpaces (h : x ∈ joinWithSpaces ls) : x = ' ' ∨ ∃ l ∈ ls, x ∈ l := by
  have hrest : ∀ ms : List Text, x ∈ joinWithSpaces.rest ms → x = ' ' ∨ ∃ l ∈ ms, x ∈ l := by
    intro ms hx
    induction ms with
    | nil => cases hx
    | cons m ms ih =>
      have hlater : (x = ' ' ∨ ∃ l ∈ ms, x ∈ l) → x = ' ' ∨ ∃ l ∈ m :: ms, x ∈ l := by
        rintro (hx | ⟨l, hl, hx⟩)
        · exact Or.inl hx
        · exact Or.inr ⟨l, List.mem_cons_of_mem _ hl, hx⟩
      cases ms with
      | nil =>
        rcases List.mem_cons.mp hx with hx | hx
        · exact Or.inl hx
        · exact Or.inr ⟨m, List.mem_cons_self .., (List.dropWhile_sublist _).subset hx⟩
      | cons k ks =>
        rw [joinWithSpaces.rest] at hx
        · split at hx
          · exact hlater (ih hx)
          · rcases List.mem_cons.mp hx with hx | hx
            · exact Or.inl hx
            · rcases List.mem_append.mp hx with hx | hx
              · exact Or.inr ⟨m, List.mem_cons_self .., mem_of_mem_trim hx⟩
              · exact hlater (ih hx)
        · exact List.cons_ne_nil k ks
  cases ls with
  | nil => cases h
  | cons l ls =>
    cases ls with
    | nil => exact Or.inr ⟨l, List.mem_cons_self .., h⟩
    | cons m ms =>
      rw [joinWithSpaces] at h
      · rcases List.mem_append.mp h with h | h
        · exact Or.inr ⟨l, List.mem_cons_self .., (List.rdropWhile_prefix _ _).subset h⟩
        · rcases hrest _ h with h | ⟨k, hk, h⟩
          · exact Or.inl h
          · exact Or.inr ⟨k, List.mem_cons_of_mem _ hk, h⟩
      · exact List.cons_ne_nil m ms

theorem notMem_newline_single (t : Text) : '\n' ∉ LineFormat.single.apply t := by
  intro hin
  rcases mem_joinWithSpaces hin with hin | ⟨l, hl, hin⟩
  · cases hin
  · rcases mem_clearedLines hl with rfl | hl
    · cases hin
    · exact notMem_newline_of_mem_lines hl hin

end Text

namespace LineFormat

open Text

variable {format : LineFormat} {t l : Text} {ls : List Text}

/-! ### White lines -/

theorem clearWhiteLine_eq_self_iff :
    clearWhiteLine l = l ↔ l = [] ∨ ∃ c ∈ l, isSpace c = false := by
  rw [clearWhiteLine]
  by_cases hwhite : l.isWhite = true
  · rw [if_pos hwhite]
    constructor
    · intro hl
      exact Or.inl hl.symm
    · rintro (rfl | ⟨c, hc, hspace⟩)
      · rfl
      · rw [isWhite_iff.mp hwhite c hc] at hspace
        cases hspace
  · rw [if_neg hwhite]
    have hink : ∃ c ∈ l, isSpace c = false := by simpa [isWhite] using hwhite
    exact iff_of_true rfl (Or.inr hink)

theorem clearWhiteLine_clearWhiteLine (l : Text) :
    clearWhiteLine (clearWhiteLine l) = clearWhiteLine l := by
  by_cases hwhite : l.isWhite = true
  · have hnil : clearWhiteLine l = [] := if_pos hwhite
    rw [hnil]
    rfl
  · have hself : clearWhiteLine l = l := if_neg hwhite
    rw [hself, hself]

/-! ### Content that is in a format -/

/-- A line before a line feed is empty or holds something else than white space. -/
def Cleared (t : Text) : Prop :=
  ∀ l ∈ t.lines.dropLast, l = [] ∨ ∃ c ∈ l, isSpace c = false

/-- What a format asks of a content. -/
def Fits : LineFormat → Text → Prop
  | keep, _ => True
  | single, t => '\n' ∉ t
  | multi, t => ¬ ['\n', '\n'] <:+: t ∧ Cleared t
  | blocks, t => ¬ ['\n', '\n', '\n'] <:+: t ∧ Cleared t

section Lines

-- a text and its lines, the last line apart
variable (ht : t.lines = ls ++ [l])
include ht

theorem cleared_iff : Cleared t ↔ ∀ k ∈ ls, clearWhiteLine k = k := by
  rw [Cleared, ht, List.dropLast_concat]
  simp only [clearWhiteLine_eq_self_iff]

theorem fits_multi_iff : multi.Fits t ↔ [] ∉ ls.tail ∧ ∀ k ∈ ls, clearWhiteLine k = k := by
  rw [Fits, not_two_newlines_iff, cleared_iff ht, ht, List.dropLast_concat]

theorem fits_blocks_iff :
    blocks.Fits t ↔ ls.tail.IsChain NotBothEmpty ∧ ∀ k ∈ ls, clearWhiteLine k = k := by
  rw [Fits, not_three_newlines_iff, cleared_iff ht, ht, List.dropLast_concat]

theorem clearedLines_eq : clearedLines t = ls.map clearWhiteLine ++ [l] := by
  rw [clearedLines, ht, mapEnded_concat]

theorem lines_multi_eq : (multi.apply t).lines =
    mapTail (List.filter (· ≠ [])) (ls.map clearWhiteLine) ++ [l] := by
  rw [lines_multi, clearedLines_eq ht, withoutEmptyLines_concat]

theorem lines_blocks_eq : (blocks.apply t).lines =
    mapTail (List.destutter NotBothEmpty) (ls.map clearWhiteLine) ++ [l] := by
  rw [lines_blocks, clearedLines_eq ht, withSingleEmptyLines_concat]

end Lines

theorem fits_apply (format : LineFormat) (t : Text) : format.Fits (format.apply t) := by
  obtain ⟨ls, l, ht⟩ := exists_lines_concat t
  -- the lines that are kept have been cleared before
  have hclear : ∀ {kept : List Text}, kept.Sublist (ls.map clearWhiteLine) →
      ∀ k ∈ kept, clearWhiteLine k = k := by
    intro kept hkept k hk
    obtain ⟨m, -, rfl⟩ := List.mem_map.mp (hkept.subset hk)
    exact clearWhiteLine_clearWhiteLine m
  cases format with
  | keep => trivial
  | single => exact notMem_newline_single t
  | multi =>
    apply (fits_multi_iff (lines_multi_eq ht)).mpr
    constructor
    · rw [tail_mapTail rfl]
      intro hempty
      simpa using (List.mem_filter.mp hempty).2
    · exact hclear (mapTail_sublist (fun _ => List.filter_sublist) _)
  | blocks =>
    apply (fits_blocks_iff (lines_blocks_eq ht)).mpr
    constructor
    · rw [tail_mapTail rfl]
      exact List.isChain_destutter _ _
    · exact hclear (mapTail_sublist (List.destutter_sublist _) _)

theorem Fits.apply_eq (h : format.Fits t) : format.apply t = t := by
  obtain ⟨ls, l, ht⟩ := exists_lines_concat t
  have hmap : (∀ k ∈ ls, clearWhiteLine k = k) → ls.map clearWhiteLine = ls := by
    intro hclear
    exact (List.map_congr_left hclear).trans (List.map_id ls)
  cases format with
  | keep => rfl
  | single => exact apply_of_notMem single h
  | multi =>
    obtain ⟨hne, hclear⟩ := (fits_multi_iff ht).mp h
    have hfilter : ls.tail.filter (· ≠ []) = ls.tail := by
      refine List.filter_eq_self.mpr fun k hk => ?_
      exact decide_eq_true fun hnil => hne (hnil ▸ hk)
    rw [← unlines_lines (multi.apply t), lines_multi_eq ht, hmap hclear, mapTail_eq_self hfilter,
      ← ht, unlines_lines]
  | blocks =>
    obtain ⟨hchain, hclear⟩ := (fits_blocks_iff ht).mp h
    have hdestutter : ls.tail.destutter NotBothEmpty = ls.tail :=
      List.destutter_of_isChain _ _ hchain
    rw [← unlines_lines (blocks.apply t), lines_blocks_eq ht, hmap hclear,
      mapTail_eq_self hdestutter, ← ht, unlines_lines]

/-- **Applying a format.**  Any content is brought into the format, and nothing visible is lost.
Content that is in the format stays as it is, and no other does; so a second application changes
nothing. -/
theorem apply_normalizes (format : LineFormat) (t : Text) :
    format.Fits (format.apply t) ∧ visible (format.apply t) = visible t ∧
      (format.apply t = t ↔ format.Fits t) ∧
      format.apply (format.apply t) = format.apply t := by
  have hfits : format.Fits (format.apply t) := fits_apply format t
  refine ⟨hfits, (thins_format format t).visible, ?_, hfits.apply_eq⟩
  constructor
  · intro h
    rwa [h] at hfits
  · exact Fits.apply_eq

/-- The last line stays, white as it is: no line feed ends it. -/
example : blocks.apply " \r\n\t\n\n \n a\n\x0c".toList = "\n\n a\n\x0c".toList := by decide

end LineFormat

end Wikitext

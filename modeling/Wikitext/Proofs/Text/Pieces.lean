/-
  Wikitext/Proofs/Text/Pieces.lean
  ================================
  **Pieces between separators.**  A text is taken apart at a character and put together again.
  With a separator between them two texts keep their pieces apart (`splitOn_append_cons`); without
  one the last piece of the first and the first piece of the second are one piece
  (`splitOn_append`).  Lines are the pieces between line feeds, and the segments of a path are
  those between slashes.
-/
import Wikitext.Proofs.Text.Trim

namespace Wikitext.Text

variable {c d : Char} {t u l m : Text} {ls ms : List Text}

/-! ### From a text to its pieces -/

theorem splitOn_cons_self (d : Char) (t : Text) : splitOn d (d :: t) = [] :: splitOn d t := by
  rw [splitOn, if_pos rfl]

theorem splitOn_cons (hc : c ≠ d) (h : splitOn d t = l :: ls) :
    splitOn d (c :: t) = (c :: l) :: ls := by
  rw [splitOn, if_neg hc, h]

/-- The last piece of a text and the first piece of the next are one piece. -/
theorem splitOn_append (ht : splitOn d t = ls ++ [l]) (hu : splitOn d u = m :: ms) :
    splitOn d (t ++ u) = ls ++ (l ++ m) :: ms := by
  induction t generalizing ls l with
  | nil =>
    obtain ⟨rfl, rfl⟩ : [] = ls ∧ [] = l := by
      cases ls with
      | nil => simpa [splitOn] using ht
      | cons k ls => simp [splitOn] at ht
    exact hu
  | cons c t ih =>
    by_cases hc : c = d
    · subst hc
      rw [splitOn_cons_self] at ht
      cases ls with
      | nil => exact absurd (List.cons.inj ht).2 (splitOn_ne_nil c t)
      | cons k ls =>
        obtain ⟨rfl, ht'⟩ := List.cons.inj ht
        rw [List.cons_append, splitOn_cons_self, ih ht', List.cons_append]
    · obtain ⟨k, ks, hks⟩ := List.exists_cons_of_ne_nil (splitOn_ne_nil d t)
      rw [splitOn_cons hc hks] at ht
      cases ls with
      | nil =>
        obtain ⟨rfl, rfl⟩ := List.cons.inj ht
        have hks' : splitOn d t = [] ++ [k] := hks
        rw [List.cons_append, splitOn_cons hc (ih hks')]
        rfl
      | cons k' ls =>
        obtain ⟨rfl, rfl⟩ := List.cons.inj ht
        have hks' : splitOn d t = (k :: ls) ++ [l] := hks
        rw [List.cons_append, splitOn_cons hc (ih hks')]
        rfl

theorem exists_splitOn_concat (d : Char) (t : Text) : ∃ ls l, splitOn d t = ls ++ [l] :=
  (List.eq_nil_or_concat' (splitOn d t)).resolve_left (splitOn_ne_nil d t)

/-- A separator keeps pieces apart. -/
theorem splitOn_append_cons (d : Char) (t u : Text) :
    splitOn d (t ++ d :: u) = splitOn d t ++ splitOn d u := by
  obtain ⟨ls, l, ht⟩ := exists_splitOn_concat d t
  rw [splitOn_append ht (splitOn_cons_self d u), ht]
  simp

theorem splitOn_of_notMem (h : d ∉ t) : splitOn d t = [t] := by
  induction t with
  | nil => rfl
  | cons c t ih =>
    rw [List.mem_cons, not_or] at h
    exact splitOn_cons (Ne.symm h.1) (ih h.2)

theorem notMem_of_mem_splitOn (h : l ∈ splitOn d t) : d ∉ l := by
  induction t generalizing l with
  | nil =>
    obtain rfl : l = [] := by simpa [splitOn] using h
    exact List.not_mem_nil
  | cons c t ih =>
    by_cases hc : c = d
    · subst hc
      rw [splitOn_cons_self] at h
      rcases List.mem_cons.mp h with rfl | h
      · exact List.not_mem_nil
      · exact ih h
    · obtain ⟨k, ks, hks⟩ := List.exists_cons_of_ne_nil (splitOn_ne_nil d t)
      rw [splitOn_cons hc hks] at h
      rcases List.mem_cons.mp h with rfl | h
      · intro hmem
        rcases List.mem_cons.mp hmem with hcc | hmem
        · exact hc hcc.symm
        · exact ih (by rw [hks]; exact List.mem_cons_self ..) hmem
      · exact ih (by rw [hks]; exact List.mem_cons_of_mem _ h)

theorem mem_of_mem_splitOn (h : l ∈ splitOn d t) (hc : c ∈ l) : c ∈ t := by
  induction t generalizing l with
  | nil =>
    obtain rfl : l = [] := by simpa [splitOn] using h
    exact hc
  | cons e t ih =>
    by_cases he : e = d
    · subst he
      rw [splitOn_cons_self] at h
      rcases List.mem_cons.mp h with rfl | h
      · cases hc
      · exact List.mem_cons_of_mem _ (ih h hc)
    · obtain ⟨k, ks, hks⟩ := List.exists_cons_of_ne_nil (splitOn_ne_nil d t)
      rw [splitOn_cons he hks] at h
      rcases List.mem_cons.mp h with rfl | h
      · rcases List.mem_cons.mp hc with rfl | hc
        · exact List.mem_cons_self ..
        · exact List.mem_cons_of_mem _ (ih (by rw [hks]; exact List.mem_cons_self ..) hc)
      · exact List.mem_cons_of_mem _ (ih (by rw [hks]; exact List.mem_cons_of_mem _ h) hc)

/-! ### From pieces to a text -/

theorem join_cons (d : Char) (l : Text) (h : ls ≠ []) :
    join [d] (l :: ls) = l ++ d :: join [d] ls := by
  obtain ⟨m, ms, rfl⟩ := List.exists_cons_of_ne_nil h
  rw [join, List.append_assoc]
  · rfl
  · simp

/-- What is put behind the pieces belongs to the last one. -/
theorem join_concat_append (d : Char) (ls : List Text) (l u : Text) :
    join [d] (ls ++ [l]) ++ u = join [d] (ls ++ [l ++ u]) := by
  induction ls with
  | nil => rfl
  | cons k ls ih =>
    rw [List.cons_append, List.cons_append, join_cons d k (by simp), join_cons d k (by simp), ← ih,
      List.append_assoc, List.cons_append]

/-- Joining pieces and taking them apart gives them back. -/
theorem splitOn_join (hne : ls ≠ []) (h : ∀ l ∈ ls, d ∉ l) : splitOn d (join [d] ls) = ls := by
  induction ls with
  | nil => exact absurd rfl hne
  | cons l ls ih =>
    have hl : splitOn d l = [l] := splitOn_of_notMem (h l (List.mem_cons_self ..))
    by_cases hls : ls = []
    · subst hls
      exact hl
    · rw [join_cons d l hls, splitOn_append_cons, hl,
        ih hls fun m hm => h m (List.mem_cons_of_mem _ hm)]
      rfl

theorem mem_join (h : c ∈ join [d] ls) : c = d ∨ ∃ l ∈ ls, c ∈ l := by
  induction ls with
  | nil => cases h
  | cons l ls ih =>
    by_cases hls : ls = []
    · subst hls
      exact Or.inr ⟨l, List.mem_cons_self .., h⟩
    · rw [join_cons d l hls] at h
      rcases List.mem_append.mp h with h | h
      · exact Or.inr ⟨l, List.mem_cons_self .., h⟩
      · rcases List.mem_cons.mp h with rfl | h
        · exact Or.inl rfl
        · rcases ih h with h | ⟨m, hm, h⟩
          · exact Or.inl h
          · exact Or.inr ⟨m, List.mem_cons_of_mem _ hm, h⟩

end Wikitext.Text

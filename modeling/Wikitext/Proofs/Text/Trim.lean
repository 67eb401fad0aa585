/-
  Wikitext/Proofs/Text/Trim.lean
  ==============================
  **Trimming.**  What is dropped at the ends of a text are maximal runs of the characters of a
  class; trimming by HTML white space absorbs trimming by blanks.  A line is *neat* if both come
  to the same, that is, if no other white space than blanks stands at its ends.  The passes of
  the layout trim sometimes the one and sometimes the other, and on neat lines this makes no
  difference.
-/
import Mathlib.Data.List.DropRight
import Wikitext.Text.Layout

namespace Wikitext.Text

variable {p q : Char → Bool} {c : Char} {t u : Text}

/-! ### Ends of a class -/

@[simp] theorem trimStart_nil : trimStart p [] = [] := rfl

@[simp] theorem trimEnd_nil : trimEnd p [] = [] := rfl

theorem trimStart_cons (c : Char) (t : Text) :
    trimStart p (c :: t) = if p c then trimStart p t else c :: t :=
  List.dropWhile_cons ..

theorem trimEnd_concat (t : Text) (c : Char) :
    trimEnd p (t ++ [c]) = if p c then trimEnd p t else t ++ [c] :=
  List.rdropWhile_concat ..

theorem trimStart_eq_nil : trimStart p t = [] ↔ ∀ c ∈ t, p c = true :=
  List.dropWhile_eq_nil_iff

theorem trimEnd_eq_nil : trimEnd p t = [] ↔ ∀ c ∈ t, p c = true :=
  List.rdropWhile_eq_nil_iff

theorem isWhite_iff : t.isWhite = true ↔ ∀ c ∈ t, isSpace c = true :=
  List.all_eq_true

theorem not_isSpace_of_all (h : t.all (fun c => !isSpace c) = true) :
    ∀ c ∈ t, isSpace c = false := fun c hc => by
  simpa using List.all_eq_true.mp h c hc

theorem notMem_of_isSpace (ht : ∀ d ∈ t, isSpace d = true) (hc : isSpace c = false) : c ∉ t :=
  fun hin => by
    rw [ht c hin] at hc
    cases hc

/-- A text with something else than `p` in it keeps what follows it. -/
theorem trimStart_append (h : trimStart p t ≠ []) (u : Text) :
    trimStart p (t ++ u) = trimStart p t ++ u := by
  rw [trimStart, List.dropWhile_append, if_neg (by simpa [trimStart] using h)]
  rfl

theorem trimStart_append_of_all (h : ∀ c ∈ t, p c = true) (u : Text) :
    trimStart p (t ++ u) = trimStart p u :=
  List.dropWhile_append_of_pos h

theorem trimEnd_append_of_all (h : ∀ c ∈ u, p c = true) (t : Text) :
    trimEnd p (t ++ u) = trimEnd p t := by
  rw [trimEnd, List.reverse_append,
    List.dropWhile_append_of_pos fun c hc => h c (List.mem_reverse.mp hc)]
  rfl

/-- A text with something else than `p` in it keeps what stands before it. -/
theorem trimEnd_append (h : trimEnd p u ≠ []) (t : Text) :
    trimEnd p (t ++ u) = t ++ trimEnd p u := by
  have hu : u.reverse.dropWhile p ≠ [] := fun hc => h (by rw [trimEnd, hc]; rfl)
  rw [trimEnd, List.reverse_append, List.dropWhile_append, if_neg (by simpa using hu),
    List.reverse_append, List.reverse_reverse]
  rfl

/-- What starts with something else than `p` is kept, whatever stands before it. -/
theorem trimStart_append_of_head (h : ∀ c ∈ u.head?, p c = false) (t : Text) :
    trimStart p (t ++ u) = trimStart p t ++ u := by
  by_cases ht : trimStart p t = []
  · rw [trimStart_append_of_all (trimStart_eq_nil.mp ht), ht, List.nil_append]
    cases u with
    | nil => rfl
    | cons c u => rw [trimStart_cons, if_neg (by simp [h c rfl])]
  · exact trimStart_append ht u

/-- What ends with something else than `p` is kept, whatever stands behind it. -/
theorem trimEnd_append_of_last (h : ∀ c ∈ t.getLast?, p c = false) (u : Text) :
    trimEnd p (t ++ u) = t ++ trimEnd p u := by
  by_cases hu : trimEnd p u = []
  · rw [trimEnd_append_of_all (trimEnd_eq_nil.mp hu), hu, List.append_nil]
    rcases List.eq_nil_or_concat' t with rfl | ⟨t, c, rfl⟩
    · rfl
    · rw [trimEnd_concat, if_neg (by simp [h c (by simp)])]
  · exact trimEnd_append hu t

theorem trimEnd_cons_of_neg (hc : p c = false) (t : Text) :
    trimEnd p (c :: t) = c :: trimEnd p t :=
  trimEnd_append_of_last (t := [c]) (fun _ hd => Option.mem_some.mp hd ▸ hc) t

theorem trim_nil : trim p [] = [] := rfl

theorem trimStart_head (p : Char → Bool) (t : Text) : ∀ c ∈ (trimStart p t).head?, p c = false := by
  intro c hc
  have h := List.head?_dropWhile_not p t
  rw [trimStart] at hc
  rw [Option.mem_def.mp hc] at h
  exact h

/-- The first character that is left is not of the class. -/
theorem trim_head (p : Char → Bool) (t : Text) : ∀ c ∈ (trim p t).head?, p c = false := by
  intro c hc
  refine trimStart_head p t c ?_
  obtain ⟨rest, hrest⟩ : trim p t <+: trimStart p t := List.rdropWhile_prefix p _
  rw [← hrest, List.head?_append_of_ne_nil]
  · exact hc
  · rintro hnil
    rw [hnil] at hc
    cases hc

/-- The last character that is left is not of the class. -/
theorem trim_last (p : Char → Bool) (t : Text) : ∀ c ∈ (trim p t).getLast?, p c = false := by
  intro c hc
  obtain ⟨hne, hlast⟩ := List.mem_getLast?_eq_getLast hc
  have h := List.rdropWhile_last_not p (trimStart p t) hne
  rw [hlast]
  exact eq_false_of_ne_true h

theorem trim_eq_nil : trim p t = [] ↔ ∀ c ∈ t, p c = true := by
  constructor
  · intro h
    by_contra hc
    have hall := trimEnd_eq_nil.mp h
    cases hstart : trimStart p t with
    | nil => exact hc (trimStart_eq_nil.mp hstart)
    | cons c u =>
      have hhead := trimStart_head p t c (by rw [hstart]; rfl)
      rw [hall c (by rw [hstart]; exact List.mem_cons_self ..)] at hhead
      cases hhead
  · intro h
    rw [trim, trimStart_eq_nil.mpr h]; rfl

/-- One more character of the class in front makes no difference. -/
theorem trim_cons_of_pos (hc : p c = true) (t : Text) : trim p (c :: t) = trim p t := by
  rw [trim, trimStart_cons, if_pos hc]; rfl

theorem trim_cons_of_neg (hc : p c = false) (t : Text) :
    trim p (c :: t) = c :: trimEnd p t := by
  rw [trim, trimStart_cons, if_neg (by simp [hc]), trimEnd_cons_of_neg hc]

theorem trimStart_concat_of_neg (hc : p c = false) (t : Text) :
    trimStart p (t ++ [c]) = trimStart p t ++ [c] :=
  trimStart_append_of_head (u := [c]) (fun _ hd => Option.mem_some.mp hd ▸ hc) t

theorem trim_concat_of_pos (hc : p c = true) (t : Text) : trim p (t ++ [c]) = trim p t := by
  have hall : ∀ d ∈ [c], p d = true := fun d hd => List.mem_singleton.mp hd ▸ hc
  by_cases h : trimStart p t = []
  · rw [trim, trimStart_append_of_all (trimStart_eq_nil.mp h), trimStart_eq_nil.mpr hall, trim, h]
  · rw [trim, trimStart_append h, trimEnd_append_of_all hall, trim]

theorem trim_concat_of_neg (hc : p c = false) (t : Text) :
    trim p (t ++ [c]) = trimStart p t ++ [c] := by
  rw [trim, trimStart_concat_of_neg hc, trimEnd_concat, if_neg (by simp [hc])]

theorem trim_append_of_all_right (h : ∀ c ∈ u, p c = true) (t : Text) :
    trim p (t ++ u) = trim p t := by
  induction u using List.reverseRecOn with
  | nil => rw [List.append_nil]
  | append_singleton u c ih =>
    rw [← List.append_assoc, trim_concat_of_pos (h c (by simp))]
    exact ih fun d hd => h d (by simp [hd])

theorem trim_append_of_all_left (h : ∀ c ∈ t, p c = true) (u : Text) :
    trim p (t ++ u) = trim p u := by
  rw [trim, trimStart_append_of_all h]; rfl

/-- A text is what is trimmed off it around what is left. -/
theorem exists_trim (p : Char → Bool) (t : Text) : ∃ left right : Text,
    (∀ c ∈ left, p c = true) ∧ (∀ c ∈ right, p c = true) ∧ t = left ++ trim p t ++ right := by
  refine ⟨t.takeWhile p, (trimStart p t).rtakeWhile p, fun c hc => List.mem_takeWhile_imp hc,
    fun c hc => List.mem_rtakeWhile_imp hc, ?_⟩
  have hend : trim p t ++ (trimStart p t).rtakeWhile p = trimStart p t :=
    List.rdropWhile_append_rtakeWhile
  rw [List.append_assoc, hend]
  exact (List.takeWhile_append_dropWhile ..).symm

theorem trim_append_trim_append {left right : Text} (hleft : ∀ c ∈ left, p c = true)
    (hright : ∀ c ∈ right, p c = true) : trim p (left ++ t ++ right) = trim p t := by
  rw [trim_append_of_all_right hright, trim_append_of_all_left hleft]

/-- The wider class absorbs the narrower one. -/
theorem trim_trim (hpq : ∀ c, p c = true → q c = true) (t : Text) :
    trim q (trim p t) = trim q t := by
  obtain ⟨left, right, hleft, hright, ht⟩ := exists_trim p t
  conv_rhs => rw [ht]
  rw [trim_append_trim_append (fun c hc => hpq c (hleft c hc)) fun c hc => hpq c (hright c hc)]

theorem trim_prefix_trimStart (p : Char → Bool) (t : Text) : trim p t <+: trimStart p t :=
  List.rdropWhile_prefix p _

theorem trim_infix_self (p : Char → Bool) (t : Text) : trim p t <:+: t :=
  (trim_prefix_trimStart p t).isInfix.trans (List.dropWhile_suffix p).isInfix

theorem mem_of_mem_trim (h : c ∈ trim p t) : c ∈ t :=
  (trim_infix_self p t).subset h

/-- A text that starts and ends outside of the class is as it was. -/
theorem trim_eq_self (hstart : ∀ c ∈ t.head?, p c = false)
    (hend : ∀ c ∈ t.getLast?, p c = false) : trim p t = t := by
  rcases List.eq_nil_or_concat' t with rfl | ⟨u, c, rfl⟩
  · rfl
  · have hc : p c = false := hend c (by simp)
    rw [trim_concat_of_neg hc]
    cases u with
    | nil => rfl
    | cons d u =>
      have hd : p d = false := hstart d (by simp)
      rw [trimStart_cons, if_neg (by simp [hd])]

/-! ### Neat lines -/

theorem isSpace_of_isBlank (h : isBlank c = true) : isSpace c = true := by
  simp only [isBlank, Bool.or_eq_true] at h
  simp only [isSpace, Bool.or_eq_true]
  tauto

theorem isBlank_eq_false (h : isSpace c = false) : isBlank c = false := by
  by_contra hblank
  rw [isSpace_of_isBlank (by simpa using hblank)] at h
  cases h

theorem ne_newline (h : isSpace c = false) : c ≠ '\n' := by
  rintro rfl
  cases h

theorem trim_isSpace_trim_isBlank (t : Text) : trim isSpace (trim isBlank t) = trim isSpace t :=
  trim_trim (fun _ => isSpace_of_isBlank) t

/-- No other white space than blanks stands at the ends. -/
def Neat (l : Text) : Prop := trim isSpace l = trim isBlank l

theorem neat_nil : Neat [] := rfl

theorem Neat.of_cons {l : Text} (h : Neat (c :: l)) (hc : isSpace c = true) : Neat l := by
  rw [Neat, trim_cons_of_pos hc] at h
  by_cases hb : isBlank c = true
  · rwa [trim_cons_of_pos hb] at h
  · -- a line that starts with other white space is not neat
    rw [trim_cons_of_neg (by simpa using hb)] at h
    have hhead := trim_head isSpace l c (by rw [h]; rfl)
    rw [hc] at hhead
    cases hhead

theorem Neat.of_concat {l : Text} (h : Neat (l ++ [c])) (hc : isSpace c = true) : Neat l := by
  rw [Neat, trim_concat_of_pos hc] at h
  by_cases hb : isBlank c = true
  · rwa [trim_concat_of_pos hb] at h
  · rw [trim_concat_of_neg (by simpa using hb)] at h
    have hlast := trim_last isSpace l c (by rw [h]; simp)
    rw [hc] at hlast
    cases hlast

/-- No other white space than blanks. -/
def Plain (l : Text) : Prop := ∀ c ∈ l, isSpace c = true → isBlank c = true

instance (l : Text) : Decidable (Plain l) :=
  decidable_of_iff (l.all (fun c => !isSpace c || isBlank c) = true) (by
    rw [List.all_eq_true, Plain]
    refine forall₂_congr fun c _ => ?_
    cases isSpace c <;> simp)

theorem plain_nil : Plain [] := fun _ hc => absurd hc List.not_mem_nil

theorem Plain.append (ht : Plain t) (hu : Plain u) : Plain (t ++ u) := fun c hc =>
  (List.mem_append.mp hc).elim (ht c) (hu c)

theorem Plain.notMem_newline (ht : Plain t) : '\n' ∉ t := fun h =>
  absurd (ht _ h rfl) (by decide)

theorem Plain.trimStart_eq (h : Plain t) : trimStart isSpace t = trimStart isBlank t := by
  induction t with
  | nil => rfl
  | cons c t ih =>
    rw [trimStart_cons, trimStart_cons]
    by_cases hc : isSpace c = true
    · rw [if_pos hc, if_pos (h c (List.mem_cons_self ..) hc)]
      exact ih fun d hd => h d (List.mem_cons_of_mem _ hd)
    · rw [if_neg hc, if_neg fun hb => hc (isSpace_of_isBlank hb)]

theorem Plain.trimEnd_eq (h : Plain t) : trimEnd isSpace t = trimEnd isBlank t := by
  induction t using List.reverseRecOn with
  | nil => rfl
  | append_singleton t c ih =>
    rw [trimEnd_concat, trimEnd_concat]
    by_cases hc : isSpace c = true
    · rw [if_pos hc, if_pos (h c (by simp) hc)]
      exact ih fun d hd => h d (List.mem_append_left _ hd)
    · rw [if_neg hc, if_neg fun hb => hc (isSpace_of_isBlank hb)]

/-- A line that starts with no white space, and so ends, followed by no other white space than
blanks. -/
theorem neat_append (hstart : ∀ c ∈ t.head?, isSpace c = false)
    (hend : ∀ c ∈ t.getLast?, isSpace c = false) (hu : Plain u) : Neat (t ++ u) := by
  induction u using List.reverseRecOn with
  | nil =>
    rw [List.append_nil, Neat, trim_eq_self hstart hend,
      trim_eq_self (fun c hc => isBlank_eq_false (hstart c hc)) fun c hc =>
        isBlank_eq_false (hend c hc)]
  | append_singleton u c ih =>
    have hu' : Plain u := fun d hd => hu d (List.mem_append_left _ hd)
    rw [← List.append_assoc, Neat]
    by_cases hc : isSpace c = true
    · rw [trim_concat_of_pos hc, trim_concat_of_pos (hu c (by simp) hc)]
      exact ih hu'
    · have hc' : isSpace c = false := by simpa using hc
      rw [trim_concat_of_neg hc', trim_concat_of_neg (isBlank_eq_false hc')]
      cases t with
      | nil => rw [List.nil_append, hu'.trimStart_eq]
      | cons d t =>
        have hd : isSpace d = false := hstart d rfl
        simp [trimStart_cons, hd, isBlank_eq_false hd]

theorem Plain.neat (h : Plain t) : Neat t :=
  neat_append (t := []) (by simp) (by simp) h

end Wikitext.Text

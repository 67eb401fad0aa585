/-
  Wikitext/Proofs/Text/Edges.lean
  ===============================
  **The edges of markup.**  Trimming a whole document takes all white space off its ends, and
  trimming its lines takes blanks only.  Both come to the same when nothing but blanks and line
  feeds stands at the ends, before the first and after the last other character (`Edged`).

  The layout never spoils this.  It moves blanks and line feeds about and drops white lines, so
  of the other characters it drops white ones only (`Thins`); and no white character is the first
  or the last of these.
-/
import Wikitext.Proofs.Text.Inked
import Wikitext.Rule.Basic

namespace Wikitext

namespace Text

variable {c d : Char} {p : Char → Bool} {t u v w mark : Text} {ls ms : List Text}

/-! ### Gaps -/

/-- A blank or a line feed. -/
def isGap (c : Char) : Bool :=
  isBlank c || c == '\n'

/-- A carriage return or a form feed: white space that is no gap. -/
def isFeed (c : Char) : Bool :=
  c == '\r' || c == '\x0c'

theorem isSpace_eq (c : Char) : isSpace c = (isGap c || isFeed c) := by
  simp only [isSpace, isGap, isBlank, isFeed, Bool.or_assoc]

theorem isGap_of_isBlank (h : isBlank c = true) : isGap c = true := by
  simp [isGap, h]

theorem isSpace_of_isGap (h : isGap c = true) : isSpace c = true := by
  simp [isSpace_eq, h]

theorem Plain.not_isFeed (h : Plain t) : ∀ c ∈ t, isFeed c = false := by
  intro c hc
  by_contra hfeed
  rw [Bool.not_eq_false] at hfeed
  have hblank := h c hc (by rw [isSpace_eq, hfeed, Bool.or_true])
  have hnone : isBlank c = true → isFeed c = false := by
    rw [isBlank, Bool.or_eq_true, beq_iff_eq, beq_iff_eq]
    rintro (rfl | rfl) <;> rfl
  rw [hnone hblank] at hfeed
  cases hfeed

/-- The characters of a text that are no gaps. -/
def solid (t : Text) : Text :=
  t.filter fun c => !isGap c

/-- The characters of a text that are not white. -/
def visible (t : Text) : Text :=
  t.filter fun c => !isSpace c

@[simp] theorem solid_nil : solid [] = [] := rfl

@[simp] theorem solid_append (t u : Text) : solid (t ++ u) = solid t ++ solid u :=
  List.filter_append ..

theorem solid_cons_of_not_gap (h : isGap c = false) (t : Text) : solid (c :: t) = c :: solid t := by
  simp [solid, h]

/-! ### First and last characters -/

/-- The first character is not white. -/
def Firm (w : Text) : Prop :=
  ∀ c ∈ w.head?, isSpace c = false

theorem firm_nil : Firm [] := by
  intro c hc
  cases hc

theorem Firm.append (ht : Firm t) (hu : t = [] → Firm u) : Firm (t ++ u) := by
  cases t with
  | nil => exact hu rfl
  | cons c t => exact ht

theorem Firm.left (h : Firm (t ++ u)) : Firm t := by
  cases t with
  | nil => exact firm_nil
  | cons c t => exact h

/-- Nothing but gaps stands before the first and after the last other character. -/
structure Edged (t : Text) : Prop where
  start : Firm (solid t)
  stop : Firm (solid t).reverse

theorem edged_nil : Edged [] :=
  ⟨firm_nil, firm_nil⟩

theorem Edged.append (ht : Edged t) (hu : Edged u) : Edged (t ++ u) := by
  constructor
  · rw [solid_append]
    exact ht.start.append fun _ => hu.start
  · rw [solid_append, List.reverse_append]
    exact hu.stop.append fun _ => ht.stop

/-- A text without carriage returns and form feeds. -/
theorem edged_of_clean (h : t.all (fun c => !isFeed c) = true) : Edged t := by
  have hsolid : ∀ c ∈ solid t, isSpace c = false := by
    intro c hc
    obtain ⟨hin, hgap⟩ := List.mem_filter.mp hc
    have hfeed : isFeed c = false := by simpa using List.all_eq_true.mp h c hin
    rw [isSpace_eq, hfeed]
    simpa using hgap
  constructor
  · intro c hc
    exact hsolid c (List.mem_of_mem_head? hc)
  · intro c hc
    exact hsolid c (List.mem_reverse.mp (List.mem_of_mem_head? hc))

theorem solid_of_gaps (h : t.all isGap = true) : solid t = [] := by
  rw [solid, List.filter_eq_nil_iff]
  intro c hc
  simp [List.all_eq_true.mp h c hc]

theorem Edged.of_append_gaps (h : Edged (t ++ u)) (hu : u.all isGap = true) : Edged t := by
  have hsolid : solid (t ++ u) = solid t := by
    rw [solid_append, solid_of_gaps hu, List.append_nil]
  exact ⟨hsolid ▸ h.start, hsolid ▸ h.stop⟩

theorem Edged.of_gaps_append (h : Edged (t ++ u)) (ht : t.all isGap = true) : Edged u := by
  have hsolid : solid (t ++ u) = solid u := by
    rw [solid_append, solid_of_gaps ht, List.nil_append]
  exact ⟨hsolid ▸ h.start, hsolid ▸ h.stop⟩

/-- A text between two characters that are not white. -/
theorem edged_between (hc : isSpace c = false) (hd : isSpace d = false) (t : Text) :
    Edged (c :: (t ++ [d])) := by
  have hnot : ∀ e, isSpace e = false → isGap e = false := by
    intro e he
    by_contra hgap
    rw [isSpace_of_isGap (by simpa using hgap)] at he
    cases he
  have heq : solid (c :: (t ++ [d])) = c :: (solid t ++ [d]) := by
    rw [solid_cons_of_not_gap (hnot c hc), solid_append, solid_cons_of_not_gap (hnot d hd)]
    rfl
  constructor
  · rw [heq]
    intro e he
    obtain rfl : c = e := by simpa using he
    exact hc
  · rw [heq]
    intro e he
    obtain rfl : d = e := by simpa using he
    exact hd

theorem Edged.trimStart_eq (h : Edged t) : trimStart isSpace t = trimStart isGap t := by
  obtain ⟨h, -⟩ := h
  induction t with
  | nil => rfl
  | cons c t ih =>
    rw [trimStart_cons, trimStart_cons]
    by_cases hgap : isGap c = true
    · rw [if_pos hgap, if_pos (isSpace_of_isGap hgap)]
      have hskip : solid (c :: t) = solid t := by simp [solid, hgap]
      rw [hskip] at h
      exact ih h
    · have hgap' : isGap c = false := by simpa using hgap
      rw [solid_cons_of_not_gap hgap'] at h
      rw [if_neg hgap, if_neg (by simp [h c rfl])]

theorem solid_reverse (t : Text) : solid t.reverse = (solid t).reverse :=
  List.filter_reverse

theorem Edged.reverse (h : Edged t) : Edged t.reverse := by
  constructor
  · rw [solid_reverse]
    exact h.stop
  · rw [solid_reverse, List.reverse_reverse]
    exact h.start

theorem Edged.trimEnd_eq (h : Edged t) : trimEnd isSpace t = trimEnd isGap t :=
  congrArg List.reverse h.reverse.trimStart_eq

/-! ### Thinning -/

/-- Of the characters that are no gaps, `u` lacks white ones of `t` only. -/
structure Thins (t u : Text) : Prop where
  sublist : (solid u).Sublist (solid t)
  visible : visible u = visible t

theorem Thins.refl (t : Text) : Thins t t :=
  ⟨List.Sublist.refl _, rfl⟩

theorem Thins.trans (h : Thins t u) (h' : Thins u v) : Thins t v :=
  ⟨h'.sublist.trans h.sublist, h'.visible.trans h.visible⟩

theorem Thins.append (h : Thins t u) (h' : Thins v w) : Thins (t ++ v) (u ++ w) := by
  constructor
  · rw [solid_append, solid_append]
    exact h.sublist.append h'.sublist
  · rw [Text.visible, Text.visible, List.filter_append, List.filter_append]
    exact congrArg₂ _ h.visible h'.visible

theorem Thins.reverse (h : Thins t u) : Thins t.reverse u.reverse := by
  constructor
  · rw [solid_reverse, solid_reverse]
    exact h.sublist.reverse
  · rw [Text.visible, Text.visible, List.filter_reverse, List.filter_reverse]
    exact congrArg _ h.visible

theorem visible_solid (t : Text) : visible (solid t) = visible t := by
  rw [solid, visible, visible, List.filter_filter]
  refine List.filter_congr fun c _ => ?_
  cases hspace : isSpace c with
  | true => rfl
  | false =>
    rw [isSpace_eq, Bool.or_eq_false_iff] at hspace
    simp [hspace.1]

/-- A first character that is not white stays the first. -/
theorem Thins.firm (h : Thins t u) (ht : Firm (solid t)) : Firm (solid u) := by
  obtain ⟨hsub, hvisible⟩ := h
  rw [← visible_solid u, ← visible_solid t] at hvisible
  generalize solid u = x at *
  generalize solid t = y at *
  cases y with
  | nil =>
    rw [List.sublist_nil.mp hsub]
    exact firm_nil
  | cons c y =>
    have hc : isSpace c = false := ht c rfl
    cases hsub with
    | cons _ hsub =>
      -- were it dropped, a character that is not white would be missing
      have hlength := (hsub.filter fun c => !isSpace c).length_le
      have hcons : Text.visible (c :: y) = c :: Text.visible y := by simp [Text.visible, hc]
      rw [hcons] at hvisible
      have hmore := congrArg List.length hvisible
      simp only [Text.visible, List.length_cons] at hmore hlength
      omega
    | cons_cons _ hsub => exact ht

theorem Edged.thins (ht : Edged t) (h : Thins t u) : Edged u := by
  constructor
  · exact h.firm ht.start
  · rw [← solid_reverse]
    refine h.reverse.firm ?_
    rw [solid_reverse]
    exact ht.stop

theorem thins_nil (h : ∀ c ∈ t, isSpace c = true) : Thins t [] := by
  constructor
  · exact List.nil_sublist _
  · have hnone : Text.visible t = [] := by
      rw [Text.visible, List.filter_eq_nil_iff]
      intro c hc
      simp [h c hc]
    rw [hnone]
    rfl

/-- White space that is taken off the ends. -/
theorem thins_of_append {left right : Text} (hleft : ∀ c ∈ left, isSpace c = true)
    (hright : ∀ c ∈ right, isSpace c = true) (t : Text) : Thins (left ++ t ++ right) t := by
  have h := ((thins_nil hleft).append (Thins.refl t)).append (thins_nil hright)
  rwa [List.append_nil] at h

theorem thins_trim (hp : ∀ c, p c = true → isSpace c = true) (t : Text) : Thins t (trim p t) := by
  obtain ⟨left, right, hleft, hright, ht⟩ := exists_trim p t
  have h := thins_of_append (fun c hc => hp c (hleft c hc)) (fun c hc => hp c (hright c hc))
    (trim p t)
  rwa [← ht] at h

theorem thins_trimStart (hp : ∀ c, p c = true → isSpace c = true) (t : Text) :
    Thins t (trimStart p t) := by
  have hleft : ∀ c ∈ t.takeWhile p, isSpace c = true := fun c hc =>
    hp c (List.mem_takeWhile_imp hc)
  have h := thins_of_append hleft (fun _ hc => absurd hc List.not_mem_nil) (trimStart p t)
  have ht : t.takeWhile p ++ trimStart p t = t := List.takeWhile_append_dropWhile
  rwa [List.append_nil, ht] at h

theorem thins_trimEnd (hp : ∀ c, p c = true → isSpace c = true) (t : Text) :
    Thins t (trimEnd p t) := by
  have h := (thins_trimStart hp t.reverse).reverse
  rwa [List.reverse_reverse] at h

theorem thins_policy (policy : TrimPolicy) (t : Text) : Thins t (policy.apply t) := by
  cases policy with
  | keep => exact Thins.refl t
  | leading => exact thins_trimStart (fun _ h => h) t
  | trailing => exact thins_trimEnd (fun _ h => h) t
  | both => exact thins_trim (fun _ h => h) t

/-! ### Line formats -/

/-- Dropping empty lines drops no character. -/
theorem flatMap_filter_of_filter_eq (p : Char → Bool)
    (h : ls.filter (· ≠ []) = ms.filter (· ≠ [])) :
    ls.flatMap (List.filter p) = ms.flatMap (List.filter p) := by
  have hsame : ∀ ks : List Text,
      (ks.filter (· ≠ [])).flatMap (List.filter p) = ks.flatMap (List.filter p) := by
    intro ks
    induction ks with
    | nil => rfl
    | cons k ks ih =>
      by_cases hk : k = []
      · rw [List.filter_cons, if_neg (by simp [hk]), ih, List.flatMap_cons, hk]
        rfl
      · rw [List.filter_cons, if_pos (by simpa using hk), List.flatMap_cons, List.flatMap_cons, ih]
  rw [← hsame ls, h, hsame]

section Formats

-- a class of characters without gaps
variable (hp : ∀ c, p c = true → isGap c = false)
include hp

theorem filter_of_gaps (h : ∀ c ∈ t, isGap c = true) : t.filter p = [] := by
  rw [List.filter_eq_nil_iff]
  intro c hc hpc
  have hgap := h c hc
  rw [hp c hpc] at hgap
  cases hgap

theorem filter_unlines (ls : List Text) : (unlines ls).filter p = ls.flatMap (List.filter p) := by
  have hnewline : p '\n' = false := by
    by_contra h
    have hgap := hp '\n' (by simpa using h)
    exact absurd hgap (by decide)
  induction ls with
  | nil => rfl
  | cons l ls ih =>
    cases hls : ls with
    | nil => simp
    | cons m ms =>
      rw [← hls, unlines_cons l (by simp [hls]), List.filter_append, List.filter_cons,
        if_neg (by simp [hnewline]), ih, List.flatMap_cons]

theorem filter_trim_isBlank (t : Text) : (trim isBlank t).filter p = t.filter p := by
  obtain ⟨left, right, hleft, hright, ht⟩ := exists_trim isBlank t
  conv_rhs => rw [ht]
  rw [List.filter_append, List.filter_append,
    filter_of_gaps hp fun c hc => isGap_of_isBlank (hleft c hc),
    filter_of_gaps hp fun c hc => isGap_of_isBlank (hright c hc), List.nil_append, List.append_nil]

theorem filter_trimStart_isBlank (t : Text) : (trimStart isBlank t).filter p = t.filter p := by
  have ht : t.takeWhile isBlank ++ trimStart isBlank t = t := List.takeWhile_append_dropWhile
  conv_rhs => rw [← ht]
  rw [List.filter_append,
    filter_of_gaps hp fun c hc => isGap_of_isBlank (List.mem_takeWhile_imp hc), List.nil_append]

theorem filter_trimEnd_isBlank (t : Text) : (trimEnd isBlank t).filter p = t.filter p := by
  have h := filter_trimStart_isBlank hp t.reverse
  rw [← List.reverse_inj, ← List.filter_reverse, ← List.filter_reverse, trimEnd,
    List.reverse_reverse]
  exact h

theorem filter_joinWithSpaces (ls : List Text) :
    (joinWithSpaces ls).filter p = ls.flatMap (List.filter p) := by
  have hblank : p ' ' = false := by
    by_contra h
    have hgap := hp ' ' (by simpa using h)
    exact absurd hgap (by decide)
  have hrest : ∀ ms : List Text,
      (joinWithSpaces.rest ms).filter p = ms.flatMap (List.filter p) := by
    intro ms
    induction ms with
    | nil => rfl
    | cons m ms ih =>
      cases ms with
      | nil => simp [joinWithSpaces.rest, hblank, filter_trimStart_isBlank hp]
      | cons k ks =>
        rw [joinWithSpaces.rest]
        · split
          · next h => rw [ih, h, List.flatMap_cons]; rfl
          · rw [List.filter_cons, if_neg (by simp [hblank]), List.filter_append,
              filter_trim_isBlank hp, ih]
            rfl
        · simp
  cases ls with
  | nil => rfl
  | cons l ls =>
    cases ls with
    | nil => simp [joinWithSpaces]
    | cons m ms =>
      rw [joinWithSpaces, List.filter_append, filter_trimEnd_isBlank hp, hrest]
      · rfl
      · exact List.cons_ne_nil m ms

/-- Every format keeps the characters of the cleared lines. -/
theorem filter_format (format : LineFormat) (hformat : format ≠ .keep) (t : Text) :
    (format.apply t).filter p = (LineFormat.clearedLines t).flatMap (List.filter p) := by
  cases format with
  | keep => exact absurd rfl hformat
  | single => exact filter_joinWithSpaces hp _
  | multi =>
    rw [LineFormat.apply, filter_unlines hp]
    exact flatMap_filter_of_filter_eq p (filter_withoutEmptyLines _)
  | blocks =>
    rw [LineFormat.apply, filter_unlines hp]
    exact flatMap_filter_of_filter_eq p (filter_withSingleEmptyLines _)

end Formats

theorem not_isGap_of_solid (c : Char) (h : (!isGap c) = true) : isGap c = false := by
  simpa using h

theorem not_isGap_of_visible (c : Char) (h : (!isSpace c) = true) : isGap c = false := by
  rw [isSpace_eq] at h
  simp at h
  exact h.1

theorem thins_unlines_cleared (ls : List Text) :
    Thins (unlines ls) (unlines (mapEnded LineFormat.clearWhiteLine ls)) := by
  have hline : ∀ l : Text, Thins l (LineFormat.clearWhiteLine l) := by
    intro l
    rw [LineFormat.clearWhiteLine]
    split
    · next h => exact thins_nil (isWhite_iff.mp h)
    · exact Thins.refl l
  induction ls with
  | nil => exact Thins.refl _
  | cons l ls ih =>
    cases ls with
    | nil => exact Thins.refl _
    | cons m ms =>
      have hne : mapEnded LineFormat.clearWhiteLine (m :: ms) ≠ [] := by
        cases ms <;> simp [mapEnded]
      rw [mapEnded_cons_cons, unlines_cons _ hne, unlines_cons l (by simp)]
      exact (hline l).append ((Thins.refl ['\n']).append ih)

theorem thins_format (format : LineFormat) (t : Text) : Thins t (format.apply t) := by
  by_cases hformat : format = .keep
  · rw [hformat]
    exact Thins.refl t
  · have hcleared := thins_unlines_cleared t.lines
    rw [unlines_lines] at hcleared
    refine hcleared.trans ⟨?_, ?_⟩
    · rw [solid, solid, filter_format not_isGap_of_solid format hformat,
        filter_unlines not_isGap_of_solid]
      exact List.Sublist.refl _
    · rw [visible, visible, filter_format not_isGap_of_visible format hformat,
        filter_unlines not_isGap_of_visible]
      rfl

/-! ### Marked lines -/

theorem markEach_concat (mark : Text) (ls : List Text) (l : Text) :
    markEach mark (ls ++ [l]) = ls.map (mark ++ ·) ++ [if l = [] then [] else mark ++ l] := by
  induction ls with
  | nil => rfl
  | cons k ks ih =>
    cases ks with
    | nil => rfl
    | cons j js => exact congrArg _ ih

/-- A mark that is not white in front of every line. -/
theorem edged_markLines (h : Edged t) (hmark : Edged mark) (hne : solid mark ≠ []) :
    Edged (markLines mark t) := by
  have hsolid : ∀ ks : List Text, solid (unlines ks) = ks.flatMap solid :=
    filter_unlines not_isGap_of_solid
  obtain ⟨ls, l, ht⟩ := exists_lines_concat t
  have hbody : solid t = ls.flatMap solid ++ solid l := by
    rw [← unlines_lines t, ht, hsolid]
    simp
  have hmarked : solid (markLines mark t) =
      ls.flatMap (fun k => solid mark ++ solid k) ++ solid (if l = [] then [] else mark ++ l) := by
    rw [markLines, hsolid, ht, markEach_concat, List.flatMap_append, List.flatMap_map]
    simp
  constructor
  · -- the first character is that of the first mark
    have hstart : ∀ u, Firm (solid mark ++ u) := fun u =>
      hmark.start.append fun h => absurd h hne
    rw [hmarked]
    cases ls with
    | nil =>
      rw [List.flatMap_nil, List.nil_append]
      split
      · exact firm_nil
      · rw [solid_append]
        exact hstart _
    | cons k ks =>
      rw [List.flatMap_cons, List.append_assoc, List.append_assoc]
      exact hstart _
  · -- the last character is that of the text, or that of the last mark
    have hstop : ∀ k u : Text, Firm (solid k).reverse →
        Firm ((solid mark ++ solid k).reverse ++ u) := by
      intro k u hk
      rw [List.reverse_append, List.append_assoc]
      exact hk.append fun _ => hmark.stop.append fun h => absurd (List.reverse_eq_nil_iff.mp h) hne
    have hend := h.stop
    rw [hbody, List.reverse_append] at hend
    rw [hmarked, List.reverse_append]
    by_cases hl : l = []
    · rw [if_pos hl, solid_nil, List.reverse_nil, List.nil_append]
      rw [hl, solid_nil, List.reverse_nil, List.nil_append] at hend
      rcases List.eq_nil_or_concat' ls with rfl | ⟨ks, k, rfl⟩
      · exact firm_nil
      · rw [List.flatMap_append, List.flatMap_singleton, List.reverse_append] at hend ⊢
        exact hstop k _ hend.left
    · rw [if_neg hl, solid_append]
      exact hstop l _ hend.left

/-! ### Laid out content -/

theorem Edged.layout {rule : Rule} {opening content closing : Text} (hopening : Edged opening)
    (hcontent : Edged content) (hclosing : Edged closing)
    (hmark : rule.linePrefix ≠ [] → Edged rule.linePrefix ∧ solid rule.linePrefix ≠ []) :
    Edged (rule.layout opening content closing) := by
  have hbody : Edged (opening ++ rule.lineFormat.apply (rule.trim.apply content) ++ closing) := by
    refine (hopening.append ?_).append hclosing
    exact (hcontent.thins (thins_policy _ _)).thins (thins_format _ _)
  have hmarked : Edged (if rule.linePrefix = [] then
      opening ++ rule.lineFormat.apply (rule.trim.apply content) ++ closing
    else markLines rule.linePrefix
      (opening ++ rule.lineFormat.apply (rule.trim.apply content) ++ closing)) := by
    split
    · exact hbody
    · next hne =>
      obtain ⟨hedged, hsolid⟩ := hmark hne
      exact edged_markLines hbody hedged hsolid
  have hgaps : Edged ['\n', '\n'] := edged_of_clean (by decide)
  rw [Rule.layout]
  split
  · exact (hgaps.append hmarked).append hgaps
  · exact hmarked

end Text

end Wikitext

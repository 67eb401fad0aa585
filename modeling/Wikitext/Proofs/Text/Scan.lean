/-
  Wikitext/Proofs/Text/Scan.lean
  ==============================
  **Reading markup past its layout.**  A reader takes a text token by token and passes over the
  white space between tokens (`Scans`).  What it has read is a matter of its own: the relation
  `Step` says which token takes it from which state to which.

  Tokens are compact: a token stands on one line and no white space is at its ends.  That is all
  that the layout has to respect.  It trims ends of lines, drops and inserts empty ones and joins
  lines with spaces, and so a reader of compact tokens reads laid out content as it read the
  content (`Scans.layout`, `Scans.tidy`).  A mark at the start of every line is harmless if the reader
  passes over it.
-/
import Wikitext.Proofs.Text.Edges

namespace Wikitext

namespace Text

/-! ### Readers -/

/-- On one line, with no white space at the ends. -/
structure Compact (x : Text) : Prop where
  head : ∃ c u, x = c :: u ∧ isSpace c = false
  last : ∃ u c, x = u ++ [c] ∧ isSpace c = false
  notMem_newline : '\n' ∉ x

/-- A text takes a reader from one state to another. -/
inductive Scans {σ : Type} (Step : σ → Text → σ → Prop) : σ → Text → σ → Prop where
  | done {a : σ} : Scans Step a [] a
  | space {a b : σ} {c : Char} {t : Text} :
      isSpace c = true → Scans Step a t b → Scans Step a (c :: t) b
  | step {a b d : σ} {x t : Text} :
      Step a x b → Scans Step b t d → Scans Step a (x ++ t) d

/-- Lines take a reader from one state to another. -/
def ScansLines {σ : Type} (Step : σ → Text → σ → Prop) (a : σ) : List Text → σ → Prop
  | [], b => a = b
  | l :: ls, b => ∃ m, Scans Step a l m ∧ ScansLines Step m ls b

variable {σ : Type} {Step : σ → Text → σ → Prop} {a b d m : σ} {c : Char} {p : Char → Bool}
  {l t u w x mark : Text} {ls ms : List Text}

theorem compact_singleton (hc : isSpace c = false) : Compact [c] := by
  refine ⟨⟨c, [], rfl, hc⟩, ⟨[], c, rfl, hc⟩, ?_⟩
  intro hin
  rw [← List.mem_singleton.mp hin] at hc
  cases hc

theorem compact_between {e : Char} (hc : isSpace c = false) (he : isSpace e = false)
    (hx : '\n' ∉ x) : Compact (c :: (x ++ [e])) := by
  refine ⟨⟨c, x ++ [e], rfl, hc⟩, ⟨c :: x, e, rfl, he⟩, ?_⟩
  rw [List.mem_cons, List.mem_append, not_or, not_or]
  exact ⟨(compact_singleton hc).notMem_newline ∘ List.mem_singleton.mpr, hx,
    (compact_singleton he).notMem_newline⟩

theorem Scans.append (h : Scans Step a t m) (h' : Scans Step m u b) : Scans Step a (t ++ u) b := by
  induction h with
  | done => exact h'
  | space hc _ ih => exact .space hc (ih h')
  | step hx _ ih =>
    rw [List.append_assoc]
    exact .step hx (ih h')

theorem Scans.token (h : Step a x b) : Scans Step a x b := by
  have hx : Scans Step a (x ++ []) b := .step h .done
  rwa [List.append_nil] at hx

theorem scans_of_white (h : ∀ c ∈ t, isSpace c = true) (a : σ) : Scans Step a t a := by
  induction t with
  | nil => exact .done
  | cons c t ih =>
    rw [List.forall_mem_cons] at h
    exact .space h.1 (ih h.2)

/-- A character that is not white starts a token. -/
theorem exists_of_scans_cons (hc : isSpace c = false) (h : Scans Step a (c :: t) b) :
    ∃ x u m, c :: t = x ++ u ∧ Step a x m ∧ Scans Step m u b := by
  generalize ht : c :: t = v at h
  cases h with
  | done => cases ht
  | space hspace _ =>
    rw [List.cons.injEq] at ht
    rw [← ht.1, hc] at hspace
    cases hspace
  | step hx h => exact ⟨_, _, _, rfl, hx, h⟩

theorem scansLines_map_iff {f : Text → Text}
    (hf : ∀ l a b, Scans Step a (f l) b ↔ Scans Step a l b) :
    ScansLines Step a (ls.map f) b ↔ ScansLines Step a ls b := by
  induction ls generalizing a with
  | nil => rfl
  | cons l ls ih => exact exists_congr fun m => and_congr (hf l a m) ih

section Tokens

variable (hcompact : ∀ a x b, Step a x b → Compact x)
include hcompact

/-! ### White space -/

theorem scans_nil_iff : Scans Step a [] b ↔ a = b := by
  constructor
  · intro h
    generalize ht : ([] : Text) = t at h
    cases h with
    | done => rfl
    | space => cases ht
    | step hx _ =>
      obtain ⟨c, u, rfl, -⟩ := (hcompact _ _ _ hx).head
      cases ht
  · rintro rfl
    exact .done

theorem scans_cons_iff (hc : isSpace c = true) : Scans Step a (c :: t) b ↔ Scans Step a t b := by
  constructor
  · intro h
    generalize ht : c :: t = v at h
    cases h with
    | done => cases ht
    | space _ h =>
      rw [List.cons.injEq] at ht
      rw [ht.2]
      exact h
    | step hx _ =>
      -- no token starts with white space
      obtain ⟨e, u, rfl, he⟩ := (hcompact _ _ _ hx).head
      rw [List.cons_append, List.cons.injEq] at ht
      rw [← ht.1, hc] at he
      cases he
  · exact .space hc

theorem scans_concat_iff (hc : isSpace c = true) : Scans Step a (t ++ [c]) b ↔ Scans Step a t b := by
  constructor
  · intro h
    generalize ht : t ++ [c] = v at h
    induction h generalizing t with
    | done => exact absurd ht (by simp)
    | @space a b e v he h ih =>
      cases t with
      | nil =>
        rw [List.nil_append, List.cons.injEq] at ht
        rw [ht.2]
        exact h
      | cons f t =>
        rw [List.cons_append, List.cons.injEq] at ht
        rw [ht.1]
        exact .space he (ih ht.2)
    | @step a b d x v hx h ih =>
      rcases List.eq_nil_or_concat' v with rfl | ⟨v, e, rfl⟩
      · -- no token ends with white space
        obtain ⟨u, e, rfl, he⟩ := (hcompact _ _ _ hx).last
        rw [List.append_nil] at ht
        obtain ⟨-, heq⟩ := List.append_inj' ht rfl
        rw [← List.singleton_inj.mp heq, hc] at he
        cases he
      · rw [← List.append_assoc] at ht
        obtain ⟨rfl, heq⟩ := List.append_inj' ht rfl
        rw [List.singleton_inj.mp heq] at ih
        exact .step hx (ih rfl)
  · intro h
    have happend := h.append (.space hc .done)
    exact happend

theorem scans_white_append_iff (hu : ∀ c ∈ u, isSpace c = true) :
    Scans Step a (u ++ t) b ↔ Scans Step a t b := by
  induction u with
  | nil => rfl
  | cons c u ih =>
    rw [List.forall_mem_cons] at hu
    rw [List.cons_append, scans_cons_iff hcompact hu.1, ih hu.2]

theorem scans_append_white_iff (hu : ∀ c ∈ u, isSpace c = true) :
    Scans Step a (t ++ u) b ↔ Scans Step a t b := by
  induction u using List.reverseRecOn with
  | nil => rw [List.append_nil]
  | append_singleton u c ih =>
    rw [List.forall_mem_append, List.forall_mem_singleton] at hu
    rw [← List.append_assoc, scans_concat_iff hcompact hu.2, ih hu.1]

theorem scans_white_iff (ht : ∀ c ∈ t, isSpace c = true) : Scans Step a t b ↔ a = b := by
  have h := scans_append_white_iff hcompact ht (a := a) (b := b) (t := [])
  rw [List.nil_append] at h
  rw [h, scans_nil_iff hcompact]

section Trim

variable (hp : ∀ c, p c = true → isSpace c = true)
include hp

theorem scans_trimStart_iff : Scans Step a (trimStart p t) b ↔ Scans Step a t b := by
  have ht : t.takeWhile p ++ trimStart p t = t := List.takeWhile_append_dropWhile
  conv_rhs => rw [← ht]
  exact (scans_white_append_iff hcompact fun c hc => hp c (List.mem_takeWhile_imp hc)).symm

theorem scans_trimEnd_iff : Scans Step a (trimEnd p t) b ↔ Scans Step a t b := by
  have ht : trimEnd p t ++ (t.reverse.takeWhile p).reverse = t := by
    rw [trimEnd, ← List.reverse_append, List.takeWhile_append_dropWhile, List.reverse_reverse]
  conv_rhs => rw [← ht]
  refine (scans_append_white_iff hcompact fun c hc => hp c ?_).symm
  exact List.mem_takeWhile_imp (List.mem_reverse.mp hc)

theorem scans_trim_iff : Scans Step a (trim p t) b ↔ Scans Step a t b :=
  (scans_trimEnd_iff hcompact hp).trans (scans_trimStart_iff hcompact hp)

end Trim

theorem scans_policy_iff (policy : TrimPolicy) :
    Scans Step a (policy.apply t) b ↔ Scans Step a t b := by
  cases policy with
  | keep => rfl
  | leading => exact scans_trimStart_iff hcompact fun _ h => h
  | trailing => exact scans_trimEnd_iff hcompact fun _ h => h
  | both => exact scans_trim_iff hcompact fun _ h => h

/-! ### Lines -/

/-- A line feed is between tokens. -/
theorem scans_newline_iff :
    Scans Step a (l ++ '\n' :: t) b ↔ ∃ m, Scans Step a l m ∧ Scans Step m t b := by
  constructor
  · intro h
    generalize hv : l ++ '\n' :: t = v at h
    induction h generalizing l with
    | done => exact absurd hv (by simp)
    | @space a b c v hc h ih =>
      cases l with
      | nil =>
        rw [List.nil_append, List.cons.injEq] at hv
        rw [hv.2]
        exact ⟨a, .done, h⟩
      | cons e l =>
        rw [List.cons_append, List.cons.injEq] at hv
        obtain ⟨m, hl, ht⟩ := ih hv.2
        rw [hv.1]
        exact ⟨m, .space hc hl, ht⟩
    | @step a b d x v hx h ih =>
      rcases List.append_eq_append_iff.mp hv with ⟨rest, rfl, hrest⟩ | ⟨rest, rfl, hrest⟩
      · -- the token would go on past the line feed
        cases rest with
        | nil =>
          obtain ⟨m, hl, ht⟩ := ih (l := []) hrest
          rw [List.append_nil] at hx
          obtain rfl := (scans_nil_iff hcompact).mp hl
          exact ⟨b, .token hx, ht⟩
        | cons e rest =>
          exfalso
          rw [List.cons_append, List.cons.injEq] at hrest
          apply (hcompact _ _ _ hx).notMem_newline
          rw [hrest.1]
          exact List.mem_append_right _ (List.mem_cons_self ..)
      · obtain ⟨m, hl, ht⟩ := ih hrest.symm
        exact ⟨m, .step hx hl, ht⟩
  · rintro ⟨m, hl, ht⟩
    exact hl.append (.space rfl ht)

theorem scans_unlines_iff : Scans Step a (unlines ls) b ↔ ScansLines Step a ls b := by
  induction ls generalizing a with
  | nil => exact scans_nil_iff hcompact
  | cons l ls ih =>
    cases ls with
    | nil =>
      constructor
      · intro h
        exact ⟨b, h, rfl⟩
      · rintro ⟨m, h, rfl⟩
        exact h
    | cons k ks =>
      rw [unlines_cons l (List.cons_ne_nil k ks), scans_newline_iff hcompact]
      exact exists_congr fun m => and_congr_right fun _ => ih

theorem scansLines_lines_iff : ScansLines Step a t.lines b ↔ Scans Step a t b := by
  rw [← scans_unlines_iff hcompact, unlines_lines]

theorem scansLines_empty_cons_iff :
    ScansLines Step a ([] :: ls) b ↔ ScansLines Step a ls b := by
  constructor
  · rintro ⟨m, hm, h⟩
    obtain rfl := (scans_nil_iff hcompact).mp hm
    exact h
  · intro h
    exact ⟨a, .done, h⟩

theorem scansLines_filter_iff :
    ScansLines Step a (ls.filter (· ≠ [])) b ↔ ScansLines Step a ls b := by
  induction ls generalizing a with
  | nil => rfl
  | cons l ls ih =>
    by_cases hl : l = []
    · rw [List.filter_cons, if_neg (by simp [hl]), hl, scansLines_empty_cons_iff hcompact, ih]
    · rw [List.filter_cons, if_pos (by simpa using hl)]
      exact exists_congr fun m => and_congr_right fun _ => ih

theorem scansLines_congr (h : ls.filter (· ≠ []) = ms.filter (· ≠ [])) :
    ScansLines Step a ls b ↔ ScansLines Step a ms b := by
  rw [← scansLines_filter_iff hcompact, h, scansLines_filter_iff hcompact]

/-! ### Line formats -/

theorem scansLines_cleared_iff : ScansLines Step a (LineFormat.clearedLines t) b ↔
    Scans Step a t b := by
  have hline : ∀ l a b, Scans Step a (LineFormat.clearWhiteLine l) b ↔ Scans Step a l b := by
    intro l a b
    rw [LineFormat.clearWhiteLine]
    split
    · next hwhite =>
      rw [scans_nil_iff hcompact, scans_white_iff hcompact (isWhite_iff.mp hwhite)]
    · rfl
  have hlines : ∀ ls a, ScansLines Step a (mapEnded LineFormat.clearWhiteLine ls) b ↔
      ScansLines Step a ls b := by
    intro ls
    induction ls with
    | nil => exact fun _ => Iff.rfl
    | cons l ls ih =>
      intro a
      cases ls with
      | nil => rfl
      | cons k ks =>
        rw [mapEnded_cons_cons]
        exact exists_congr fun m => and_congr (hline l a m) (ih m)
  rw [LineFormat.clearedLines, hlines, scansLines_lines_iff hcompact]

theorem scans_rest (h : ScansLines Step a ls b) : Scans Step a (joinWithSpaces.rest ls) b := by
  have hblank : ∀ c, isBlank c = true → isSpace c = true := fun c => isSpace_of_isBlank
  induction ls generalizing a with
  | nil =>
    obtain rfl := h
    exact .done
  | cons l ls ih =>
    obtain ⟨m, hl, hls⟩ := h
    cases ls with
    | nil =>
      obtain rfl := hls
      exact .space rfl ((scans_trimStart_iff hcompact hblank).mpr hl)
    | cons k ks =>
      rw [joinWithSpaces.rest]
      · split
        · next hnil =>
          rw [hnil] at hl
          obtain rfl := (scans_nil_iff hcompact).mp hl
          exact ih hls
        · exact .space rfl (((scans_trim_iff hcompact hblank).mpr hl).append (ih hls))
      · exact List.cons_ne_nil k ks

theorem scans_joinWithSpaces (h : ScansLines Step a ls b) : Scans Step a (joinWithSpaces ls) b := by
  cases ls with
  | nil =>
    obtain rfl := h
    exact .done
  | cons l ls =>
    obtain ⟨m, hl, hls⟩ := h
    cases ls with
    | nil =>
      obtain rfl := hls
      exact hl
    | cons k ks =>
      rw [joinWithSpaces]
      · exact ((scans_trimEnd_iff hcompact fun c => isSpace_of_isBlank).mpr hl).append
          (scans_rest hcompact hls)
      · exact List.cons_ne_nil k ks

theorem Scans.format (h : Scans Step a t b) (format : LineFormat) :
    Scans Step a (format.apply t) b := by
  have hcleared := (scansLines_cleared_iff hcompact).mpr h
  cases format with
  | keep => exact h
  | single => exact scans_joinWithSpaces hcompact hcleared
  | multi =>
    rw [LineFormat.apply, scans_unlines_iff hcompact,
      scansLines_congr hcompact (filter_withoutEmptyLines _)]
    exact hcleared
  | blocks =>
    rw [LineFormat.apply, scans_unlines_iff hcompact,
      scansLines_congr hcompact (filter_withSingleEmptyLines _)]
    exact hcleared

/-! ### Markup -/

theorem Scans.markLines (h : Scans Step a t b) (hmark : ∀ m, Scans Step m mark m) :
    Scans Step a (markLines mark t) b := by
  have hmarked : ∀ ls a, ScansLines Step a ls b → ScansLines Step a (markEach mark ls) b := by
    intro ls
    induction ls with
    | nil => exact fun _ h => h
    | cons l ls ih =>
      rintro a ⟨m, hl, hls⟩
      cases ls with
      | nil =>
        refine ⟨m, ?_, hls⟩
        split
        · next hnil => rwa [hnil] at hl
        · exact (hmark a).append hl
      | cons k ks => exact ⟨m, (hmark a).append hl, ih m hls⟩
  rw [Text.markLines, scans_unlines_iff hcompact]
  exact hmarked _ _ ((scansLines_lines_iff hcompact).mpr h)

/-- Content that is laid out is read as it was, between what opens and what closes it. -/
theorem Scans.layout {rule : Rule} {opening content closing : Text} {a b m n : σ}
    (hopening : Scans Step a opening m) (hcontent : Scans Step m content n)
    (hclosing : Scans Step n closing b)
    (hmark : rule.linePrefix ≠ [] → ∀ m, Scans Step m rule.linePrefix m) :
    Scans Step a (rule.layout opening content closing) b := by
  have hbody : Scans Step a
      (opening ++ rule.lineFormat.apply (rule.trim.apply content) ++ closing) b := by
    refine (hopening.append ?_).append hclosing
    exact ((scans_policy_iff hcompact _).mpr hcontent).format hcompact _
  have hmarked : Scans Step a (if rule.linePrefix = [] then
      opening ++ rule.lineFormat.apply (rule.trim.apply content) ++ closing
    else Text.markLines rule.linePrefix
      (opening ++ rule.lineFormat.apply (rule.trim.apply content) ++ closing)) b := by
    split
    · exact hbody
    · next hne => exact hbody.markLines hcompact (hmark hne)
  have hgaps : ∀ c ∈ ['\n', '\n'], isSpace c = true := isWhite_iff.mp (by decide)
  rw [Rule.layout]
  split
  · exact ((scans_of_white hgaps a).append hmarked).append (scans_of_white hgaps b)
  · exact hmarked

theorem Scans.tidy (h : Scans Step a t b) : Scans Step a t.tidy b := by
  rw [Text.tidy, scans_trim_iff hcompact fun _ h => h, scans_unlines_iff hcompact,
    scansLines_congr hcompact (filter_withSingleEmptyLines _),
    scansLines_map_iff fun l a b => scans_trim_iff hcompact fun c => isSpace_of_isBlank,
    scansLines_lines_iff hcompact]
  exact h

end Tokens

end Text

end Wikitext

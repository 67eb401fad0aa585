/-
  Wikitext/Proofs/Conversion/Fidelity.lean
  ========================================
  **Paragraphs say what they said.**  The texts of a document of paragraphs can be read back
  from its markup: it is taken apart at the empty lines, the tags of protected text are deleted,
  the entities read, and the ends trimmed (`Text.paragraphs`).  This gives all texts in order but
  the blank ones, with one space for every run of white space (`convert_sayings`).

  A text may hold line feeds, brackets, apostrophes, entities or a part of the placeholder.  Its
  white space is collapsed before anything else, so its markup is one line
  (`produces_saying`): no part of it is an empty line, and none joins to a neighbour.
-/
import Mathlib.Data.List.Forall2
import Wikitext.Proofs.Conversion.Blocks
import Wikitext.Proofs.Conversion.Prose

namespace Wikitext

open Text Nowiki

namespace Text

variable {c : Char} {t u w l : Text} {ls : List Text}

theorem Plain.edged_trim (h : Plain t) : Edged (trim isSpace t) := by
  refine edged_of_clean (List.all_eq_true.mpr fun c hc => ?_)
  rw [h.not_isFeed c (mem_of_mem_trim hc)]
  rfl

/-! ### Entities between white space -/

theorem escapeChar_of_isSpace (hc : isSpace c = true) : escapeChar c = [c] := by
  have hne : ∀ d : Char, isSpace d = false → c ≠ d := fun d hd h => by
    rw [h, hd] at hc
    cases hc
  exact escapeChar_of_ne (hne _ (by decide)) (hne _ (by decide)) (hne _ (by decide))

theorem escapeChar_ne_nil (c : Char) : escapeChar c ≠ [] := by
  rcases escapeChar_eq c with h | ⟨name, h, -⟩
  · simp [h]
  · simp [h]

/-- White space at the start of an escaped text was at the start of the text. -/
theorem exists_of_escape_eq_white_append (h : escape w = t ++ u) (ht : ∀ c ∈ t, isSpace c = true) :
    ∃ v, w = t ++ v ∧ u = escape v := by
  induction t generalizing w with
  | nil => exact ⟨w, rfl, h.symm⟩
  | cons c t ih =>
    cases w with
    | nil => cases h
    | cons d w =>
      have hc := ht c (List.mem_cons_self ..)
      rw [escape_cons, List.cons_append] at h
      have hmem : c ∈ escapeChar d := by
        obtain ⟨e, es, hes⟩ := List.exists_cons_of_ne_nil (escapeChar_ne_nil d)
        rw [hes] at h ⊢
        rw [(List.cons.inj h).1]
        exact List.mem_cons_self ..
      obtain rfl := eq_of_mem_escapeChar hmem hc
      rw [escapeChar_of_isSpace hc] at h
      obtain ⟨v, rfl, hv⟩ := ih (List.cons.inj h).2 fun e he => ht e (List.mem_cons_of_mem _ he)
      exact ⟨v, rfl, hv⟩

/-- White space at the end of an escaped text was at the end of the text. -/
theorem exists_of_escape_eq_append_white (h : escape w = t ++ u) (hu : ∀ c ∈ u, isSpace c = true) :
    ∃ v, w = v ++ u ∧ t = escape v := by
  induction u using List.reverseRecOn generalizing w with
  | nil => exact ⟨w, (List.append_nil w).symm, by rw [h, List.append_nil]⟩
  | append_singleton u c ih =>
    rw [← List.append_assoc] at h
    rcases List.eq_nil_or_concat' w with rfl | ⟨w, d, rfl⟩
    · simp [escape] at h
    · have hc := hu c (by simp)
      have hconcat : escape (w ++ [d]) = escape w ++ escapeChar d := by simp [escape]
      rw [hconcat] at h
      have hmem : c ∈ escapeChar d := by
        obtain ⟨es, e, hes⟩ := (List.eq_nil_or_concat' (escapeChar d)).resolve_left
          (escapeChar_ne_nil d)
        rw [hes, ← List.append_assoc] at h
        rw [hes, ← (List.append_singleton_inj.mp h).2]
        simp
      obtain rfl := eq_of_mem_escapeChar hmem hc
      rw [escapeChar_of_isSpace hc] at h
      obtain ⟨v, rfl, hv⟩ := ih (List.append_singleton_inj.mp h).1 fun e he => hu e (by simp [he])
      exact ⟨v, List.append_assoc .., hv⟩

/-! ### Taking apart at empty lines -/

/-- The parts of a text between two line feeds in a row. -/
def splitBreaks : Text → List Text
  | [] => [[]]
  | '\n' :: '\n' :: t => [] :: splitBreaks t
  | c :: t => (splitBreaks t).modifyHead (c :: ·)

theorem splitBreaks_cons (hc : c ≠ '\n') (t : Text) :
    splitBreaks (c :: t) = (splitBreaks t).modifyHead (c :: ·) := by
  rw [splitBreaks]
  rintro - rfl -
  exact hc rfl

theorem splitBreaks_of_notMem (h : '\n' ∉ l) : splitBreaks l = [l] := by
  induction l with
  | nil => rfl
  | cons c l ih =>
    rw [List.mem_cons, not_or] at h
    rw [splitBreaks_cons (Ne.symm h.1), ih h.2]
    rfl

theorem splitBreaks_append (h : '\n' ∉ l) (t : Text) :
    splitBreaks (l ++ '\n' :: '\n' :: t) = l :: splitBreaks t := by
  induction l with
  | nil => rfl
  | cons c l ih =>
    rw [List.mem_cons, not_or] at h
    rw [List.cons_append, splitBreaks_cons (Ne.symm h.1), ih h.2]
    rfl

/-- Lines with an empty line between them are found again. -/
theorem splitBreaks_join (hne : ls ≠ []) (hline : ∀ l ∈ ls, '\n' ∉ l) :
    splitBreaks (join ['\n', '\n'] ls) = ls := by
  induction ls with
  | nil => exact absurd rfl hne
  | cons l ls ih =>
    have hl := hline l (List.mem_cons_self ..)
    cases ls with
    | nil => exact splitBreaks_of_notMem hl
    | cons m ms =>
      have hcons : join ['\n', '\n'] (l :: m :: ms) =
          l ++ '\n' :: '\n' :: join ['\n', '\n'] (m :: ms) := by
        simp [join]
      rw [hcons, splitBreaks_append hl,
        ih (by simp) fun k hk => hline k (List.mem_cons_of_mem _ hk)]

/-- What is said between the empty lines of some markup, read without tags and entities. -/
def paragraphs (t : Text) : List Text :=
  if t = [] then [] else (splitBreaks t).map fun l => trim isSpace (unescape (erase l))

/-- The lines that are not empty, with an empty line between neighbours. -/
def spaced (ls : List Text) : Text :=
  join ['\n', '\n'] (ls.filter (· ≠ []))

theorem spaced_cons (l : Text) (ls : List Text) :
    spaced (l :: ls) = apart ['\n', '\n'] l (spaced ls) := by
  unfold spaced
  by_cases hl : l = []
  · simp [hl]
  · rw [List.filter_cons_of_pos (by simpa using hl)]
    cases hrest : ls.filter (· ≠ []) with
    | nil =>
      rw [join, join, apart_nil_right]
    | cons m ms =>
      have hm : m ≠ [] := by
        have hin : m ∈ ls.filter (· ≠ []) := by
          rw [hrest]
          exact List.mem_cons_self ..
        simpa using (List.mem_filter.mp hin).2
      have hjoin : join ['\n', '\n'] (m :: ms) ≠ [] := by
        cases ms <;> simp [join, hm]
      rw [apart_of_ne _ hl hjoin, join]
      simp

theorem paragraphs_spaced (hline : ∀ l ∈ ls, '\n' ∉ l) :
    paragraphs (spaced ls) = (ls.filter (· ≠ [])).map fun l => trim isSpace (unescape (erase l)) := by
  unfold paragraphs spaced
  cases hrest : ls.filter (· ≠ []) with
  | nil => rfl
  | cons m ms =>
    have hin : ∀ l ∈ m :: ms, l ∈ ls ∧ l ≠ [] := by
      intro l hl
      rw [← hrest] at hl
      simpa using List.mem_filter.mp hl
    have hjoin : join ['\n', '\n'] (m :: ms) ≠ [] := by
      have hm := (hin m (List.mem_cons_self ..)).2
      cases ms <;> simp [join, hm]
    rw [if_neg hjoin, splitBreaks_join (by simp) fun l hl => hline l (hin l hl).1]

end Text

namespace Nowiki

variable {t u : Text}

theorem Sealed.erase_append (ht : Sealed t) (u : Text) : erase (t ++ u) = erase t ++ erase u := by
  induction ht with
  | nil => rfl
  | cons hc _ ih => rw [List.cons_append, erase_cons hc, erase_cons hc, ih, List.cons_append]
  | span hv _ ih => rw [List.append_assoc, erase_wrap_append hv, erase_wrap_append hv, ih,
      List.append_assoc]

end Nowiki

namespace Node

/-- A paragraph that says one text and is shown. -/
def Says : Node → Text → Prop
  | .element name attributes [.text raw false], s =>
    lowerName name = "p" ∧ Element.isFurniture attributes = false ∧ raw = s
  | _, _ => False

theorem Says.exists {node : Node} {s : Text} (h : node.Says s) : ∃ name attributes,
    node = .element name attributes [.text s false] ∧ lowerName name = "p" ∧
      Element.isFurniture attributes = false := by
  unfold Says at h
  split at h
  · obtain ⟨hname, hfurniture, rfl⟩ := h
    exact ⟨_, _, rfl, hname, hfurniture⟩
  · exact h.elim

end Node

open Node

namespace Session

variable {document nodes : List Node} {node : Node} {name : String} {attributes : Attributes}
  {texts : List Text} {s t : Text}

/-- The line that a text becomes. -/
def sayingLine (s : Text) : Text :=
  trim isSpace ((mediaWiki {}).guardText false s)

theorem notMem_newline_sayingLine (s : Text) : '\n' ∉ sayingLine s :=
  fun h => (plain_guardText s).notMem_newline (mem_of_mem_trim h)

theorem sayingLine_eq_nil : sayingLine s = [] ↔ trim isSpace s.collapse = [] := by
  have hcollapse : s.collapse.isWhite = s.isWhite := isWhite_collapseFrom false s
  rw [sayingLine, trim_eq_nil, trim_eq_nil, ← isWhite_iff, ← isWhite_iff, isWhite_guardText,
    hcollapse]

/-- A line is read as the text that it comes from. -/
theorem unescape_erase_sayingLine (s : Text) :
    trim isSpace (unescape (erase (sayingLine s))) = trim isSpace s.collapse := by
  obtain ⟨left, right, hleft, hright, heq⟩ := exists_trim isSpace ((mediaWiki {}).guardText false s)
  have herase : erase ((mediaWiki {}).guardText false s) = escape s.collapse :=
    erase_guard (notMem_escape _) s
  have hline : Sealed (sayingLine s) := (sealed_guardText s).trim
  have hangle : ∀ {w : Text}, (∀ c ∈ w, isSpace c = true) → '<' ∉ w :=
    fun hw h => absurd (hw _ h) (by decide)
  -- the white space around the line was around the text
  have hsplit : escape s.collapse = left ++ (erase (sayingLine s) ++ right) := by
    have hnothing : erase right = right := by
      have h := erase_append (hangle hright) []
      rwa [List.append_nil, show erase [] = [] from rfl, List.append_nil] at h
    rw [← herase, heq, List.append_assoc, erase_append (hangle hleft), ← sayingLine,
      hline.erase_append, hnothing]
  obtain ⟨v, hv, hrest⟩ := exists_of_escape_eq_white_append hsplit hleft
  obtain ⟨w, rfl, hw⟩ := exists_of_escape_eq_append_white hrest.symm hright
  rw [hw, unescape_escape, hv, trim_append_of_all_left hleft, trim_append_of_all_right hright]

theorem occurs_sayingLine (hfree : occurs MediaWiki.placeholder s.collapse = false) :
    occurs MediaWiki.placeholder (sayingLine s) = false := by
  rw [Bool.eq_false_iff] at hfree ⊢
  intro h
  have hcons : MediaWiki.placeholder = '[' :: MediaWiki.placeholder.tail := rfl
  have hguard := (occurs_iff.mp h).trans (trim_infix_self isSpace _)
  rw [hcons] at hguard
  have hescape : '[' :: MediaWiki.placeholder.tail <:+: escape s.collapse :=
    Nowiki.infix_of_infix_guard (by decide) (by decide) hguard
  exact hfree (occurs_iff.mpr (infix_of_infix_escape (by decide) hescape))

theorem wraps_p : Wraps "p" paragraphRule (fun _ => []) (fun _ => []) where
  notMem := by decide
  solid := by decide
  find := find?_p
  kind := rfl
  opens := fun _ _ => rfl
  closes := fun _ _ => rfl

/-- The markup of a paragraph around one line is this line, trimmed, between empty lines. -/
theorem produces_line {P : Text → Prop} (hname : lowerName name = "p")
    (hfurniture : Element.isFurniture attributes = false)
    (h : Produces false nodes fun _ _ _ t => P t) (hline : ∀ t, P t → '\n' ∉ t) :
    Produces false [.element name attributes nodes] fun _ _ _ u =>
      ∃ t, P t ∧ u = '\n' :: '\n' :: (trim isSpace t ++ ['\n', '\n']) := by
  refine (wraps_p.produces hname hfurniture h).mono ?_
  rintro _ _ _ _ ⟨_, t, ht, rfl⟩
  refine ⟨t, ht, ?_⟩
  have hnot : '\n' ∉ trim isSpace t := fun hin => hline t ht (mem_of_mem_trim hin)
  have hlayout : paragraphRule.layout [] t [] =
      ['\n', '\n'] ++ LineFormat.multi.apply (trim isSpace t) ++ ['\n', '\n'] := by
    simp [Rule.layout, paragraphRule, Rule.bare, TrimPolicy.apply]
  rw [hlayout, apply_of_notMem .multi hnot]
  rfl

/-- The markup of a paragraph is one line between empty lines. -/
theorem produces_saying (h : node.Says s) : Produces false [node] fun _ _ _ t =>
    t = '\n' :: '\n' :: (sayingLine s ++ ['\n', '\n']) := by
  obtain ⟨name, attributes, rfl, hname, hfurniture⟩ := h.exists
  have htext : Produces false [.text s false]
      fun _ _ _ t => t = (mediaWiki {}).guardText false s := produces_text fun _ _ => rfl
  refine (produces_line hname hfurniture htext ?_).mono ?_
  · rintro _ rfl
    exact (plain_guardText s).notMem_newline
  · rintro _ _ _ _ ⟨_, rfl, rfl⟩
    rfl

/-- What is no part of the placeholder is kept, and parts the text. -/
theorem finish_append_cons {c : Char} (hc : c ∉ MediaWiki.placeholder) (t u : Text) :
    MediaWiki.finish (t ++ c :: u) = MediaWiki.finish t ++ c :: MediaWiki.finish u :=
  replace_append_cons hc (by decide) t u

/-- A line between empty lines is completed by finishing it. -/
theorem complete_line (h : Plain t) :
    (mediaWiki {}).complete ('\n' :: '\n' :: (trim isSpace t ++ ['\n', '\n'])) =
      MediaWiki.finish (trim isSpace t) := by
  have hgap : Edged ['\n', '\n'] := edged_of_clean (by decide)
  have hline : '\n' ∉ trim isSpace t := fun hin => h.notMem_newline (mem_of_mem_trim hin)
  have hcomplete : ∀ t : Text, (mediaWiki {}).complete t = MediaWiki.finish t.tidy := fun _ => rfl
  rw [hcomplete, tidy_newlines_append (h.edged_trim.append hgap),
    tidy_append_newlines h.edged_trim, tidy_of_notMem hline, trim_trim (fun _ h => h)]

theorem edged_sayingLine (s : Text) : Edged (sayingLine s) :=
  (plain_guardText s).edged_trim

theorem complete_saying (hfree : occurs MediaWiki.placeholder s.collapse = false) :
    (mediaWiki {}).complete ('\n' :: '\n' :: (sayingLine s ++ ['\n', '\n'])) = sayingLine s :=
  (complete_line (plain_guardText s)).trans (replace_eq_self (occurs_sayingLine hfree) _)

/-- Paragraphs become their lines, with an empty line between them. -/
theorem produces_sayings (h : List.Forall₂ Says document texts)
    (hfree : ∀ s ∈ texts, occurs MediaWiki.placeholder s.collapse = false) :
    Produces false document fun _ _ _ t => Edged t ∧
      (mediaWiki {}).complete t = spaced (texts.map sayingLine) := by
  induction h with
  | nil => exact produces_nil fun _ _ => ⟨edged_nil, rfl⟩
  | @cons node s document texts hsays _ ih =>
    have hrest := ih fun s hs => hfree s (List.mem_cons_of_mem _ hs)
    refine (produces_saying hsays).cons hrest ?_
    rintro _ _ _ _ t u rfl ⟨hu, hcomplete⟩
    have ht : Edged ('\n' :: '\n' :: (sayingLine s ++ ['\n', '\n'])) := by
      have hgap : Edged ['\n', '\n'] := edged_of_clean (by decide)
      exact hgap.append ((edged_sayingLine s).append hgap)
    refine ⟨ht.append hu, ?_⟩
    rw [complete_append ht hu (Or.inl ⟨'\n' :: '\n' :: sayingLine s, rfl⟩), hcomplete,
      complete_saying (hfree s (List.mem_cons_self ..)), List.map_cons, spaced_cons]

/-- The texts of a document of paragraphs are read back from its markup, but for the blank
ones. -/
theorem convert_sayings (h : List.Forall₂ Says document texts)
    (hfree : ∀ s ∈ texts, occurs MediaWiki.placeholder s.collapse = false) :
    ∃ t, (mediaWiki {}).convert document = Report.ok t ∧
      paragraphs t = (texts.map fun s => trim isSpace s.collapse).filter (· ≠ []) := by
  obtain ⟨prepared, t, hconvert, -, hcomplete⟩ := (produces_sayings h hfree).convert
  refine ⟨_, hconvert, ?_⟩
  have hline : ∀ l ∈ texts.map sayingLine, '\n' ∉ l := by
    intro l hl
    obtain ⟨s, -, rfl⟩ := List.mem_map.mp hl
    exact notMem_newline_sayingLine s
  rw [hcomplete, paragraphs_spaced hline, List.filter_map, List.filter_map, List.map_map]
  -- a text is blank if its line is
  have hfilter : texts.filter ((fun l => decide (l ≠ [])) ∘ sayingLine) =
      texts.filter ((fun l => decide (l ≠ [])) ∘ fun s => trim isSpace s.collapse) :=
    List.filter_congr fun s _ => by simp [sayingLine_eq_nil]
  rw [hfilter]
  exact List.map_congr_left fun s _ => unescape_erase_sayingLine s

/-- Texts with line feeds, tags, links, entities, apostrophes and a part of the placeholder. -/
def sayings : List Text :=
  ["\n It's\n\n''so''".toList, "\t\n".toList, "&lt;nowiki> & </nowiki>".toList, [],
    "see [http://x.y z] \n".toList, "== [qzhvk".toList, "*".toList]

theorem convert_sayings_said :
    ∃ t, (mediaWiki {}).convert (sayings.map fun s => .element "P" [] [.text s false]) =
        Report.ok t ∧
      paragraphs t = ["It's ''so''".toList, "&lt;nowiki> & </nowiki>".toList,
        "see [http://x.y z]".toList, "== [qzhvk".toList, "*".toList] := by
  have hsays : List.Forall₂ Says (sayings.map fun s => .element "P" [] [.text s false])
      sayings := by
    rw [List.forall₂_map_left_iff, List.forall₂_same]
    exact fun s _ => ⟨by decide, by decide, rfl⟩
  obtain ⟨t, ht, hread⟩ := convert_sayings hsays (by decide +kernel)
  exact ⟨t, ht, by rw [hread]; decide +kernel⟩

end Session

end Wikitext

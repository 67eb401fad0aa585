/-
  Wikitext/Proofs/Conversion/Listing.lean
  =======================================
  **Preformatted text keeps its lines.**  Every line of preformatted text gets the placeholder,
  so that the last layout pass finds no blank at its start, and no line of it is empty; a block
  stands on lines of its own.  So the lines of a listing come through as they are, next to each
  other, whatever is before and after it, and a space is put in front of each of them in the end
  (`convert_preformatted`).

  The placeholder itself never comes through: where one is replaced, the space is no part of
  another one (`notOccurs_finish`).
-/
import Wikitext.Proofs.Conversion.Visible
import Wikitext.Proofs.Text.Shown

namespace Wikitext

open Text

variable {k l p old t : Text} {d : Char} {ls : List Text}

/-! ### What is left after replacement -/

/-- What has no white space is not in the white space at the end of a text. -/
theorem Text.infix_of_infix_append_white {w : Text} (hne : p ≠ [])
    (hp : ∀ c ∈ p, isSpace c = false) (hw : ∀ c ∈ w, isSpace c = true) (h : p <:+: t ++ w) :
    p <:+: t := by
  cases w with
  | nil => rwa [List.append_nil] at h
  | cons c w =>
    have hnot : ∀ d ∈ c :: w, d ∉ p := fun d hd hin => by
      have hspace := hw d hd
      rw [hp d hin] at hspace
      cases hspace
    refine (infix_append_cons hne (hnot c (List.mem_cons_self ..)) h).resolve_right fun h => ?_
    obtain ⟨d, q, rfl⟩ := List.exists_cons_of_ne_nil hne
    exact hnot d (List.mem_cons_of_mem _ (h.subset (List.mem_cons_self ..)))
      (List.mem_cons_self ..)

/-- What is put in the place of a text starts nothing that it does not occur in. -/
theorem Text.prefix_of_prefix_replace (hold : old ≠ []) (hd : d ∉ p)
    (h : p <+: replace old [d] t) : p <+: t := by
  induction t using replace_induction hold generalizing p with
  | nil => exact h
  | found t ih =>
    rw [replace_append_self hold, List.singleton_append] at h
    cases p with
    | nil => exact List.nil_prefix
    | cons e p =>
      obtain ⟨rfl, -⟩ := List.cons_prefix_cons.mp h
      exact absurd (List.mem_cons_self ..) hd
  | cons c t hnot ih =>
    have hcons := replace_cons_of_not_prefix hnot [d]
    rw [hcons] at h
    cases p with
    | nil => exact List.nil_prefix
    | cons e p =>
      obtain ⟨rfl, hrest⟩ := List.cons_prefix_cons.mp h
      exact List.cons_prefix_cons.mpr
        ⟨rfl, ih (fun hin => hd (List.mem_cons_of_mem _ hin)) hrest⟩

/-- Where a text is replaced by a character that is not in it, it does not occur any more. -/
theorem Text.not_infix_replace (hold : old ≠ []) (hd : d ∉ old) (t : Text) :
    ¬ old <:+: replace old [d] t := by
  induction t using replace_induction hold with
  | nil => exact fun h => hold (List.infix_nil.mp h)
  | found t ih =>
    rw [replace_append_self hold, List.singleton_append, List.infix_cons_iff]
    rintro (h | h)
    · obtain ⟨e, old', rfl⟩ := List.exists_cons_of_ne_nil hold
      obtain ⟨rfl, -⟩ := List.cons_prefix_cons.mp h
      exact hd (List.mem_cons_self ..)
    · exact ih h
  | cons c t hnot ih =>
    intro h
    have hcons := replace_cons_of_not_prefix hnot [d]
    rw [hcons, List.infix_cons_iff] at h
    rcases h with h | h
    · exact hnot (prefix_of_prefix_replace hold hd (hcons ▸ h))
    · exact ih h

namespace MediaWiki

theorem notOccurs_finish (t : Text) : occurs placeholder (finish t) = false :=
  Bool.eq_false_iff.mpr fun h =>
    not_infix_replace placeholder_ne_nil (by decide) t (occurs_iff.mp h)

theorem marked_placeholder_append (t : Text) : Marked (placeholder ++ t) :=
  ⟨'[', placeholder.tail ++ t, rfl, by decide⟩

/-- The placeholder in front of a line becomes a space, and the line stays as it is. -/
theorem trimEnd_finish (hl : ¬ placeholder <:+: l)
    (hk : trimEnd isSpace k = placeholder ++ trimEnd isSpace l) :
    trimEnd isSpace (finish k) = trimEnd isSpace (' ' :: l) := by
  obtain ⟨w, hw, hkw⟩ := exists_white_of_trimEnd k
  obtain ⟨v, hv, hlv⟩ := exists_white_of_trimEnd l
  have hnot : occurs placeholder (trimEnd isSpace l ++ w) = false := by
    refine Bool.eq_false_iff.mpr fun h => hl ?_
    have hline := infix_of_infix_append_white placeholder_ne_nil not_isSpace_placeholder hw
      (occurs_iff.mp h)
    rw [hlv]
    exact hline.trans (List.prefix_append ..).isInfix
  have hfinish : finish k = ' ' :: (trimEnd isSpace l ++ w) := by
    rw [hkw, hk, List.append_assoc, finish_placeholder]
    exact congrArg _ (replace_eq_self hnot [' '])
  calc trimEnd isSpace (finish k)
      = trimEnd isSpace ((' ' :: trimEnd isSpace l) ++ w) := by rw [hfinish]; rfl
    _ = trimEnd isSpace (' ' :: trimEnd isSpace l) := trimEnd_append_of_all hw _
    _ = trimEnd isSpace ((' ' :: trimEnd isSpace l) ++ v) := (trimEnd_append_of_all hv _).symm
    _ = trimEnd isSpace (' ' :: l) := by rw [List.cons_append, ← hlv]

theorem map_trimEnd_finish {ns : List Text} (hls : ∀ l ∈ ls, ¬ placeholder <:+: l)
    (h : ns.map (trimEnd isSpace) = ls.map fun l => placeholder ++ trimEnd isSpace l) :
    (ns.map finish).map (trimEnd isSpace) = ls.map fun l => trimEnd isSpace (' ' :: l) := by
  induction ns generalizing ls with
  | nil =>
    obtain rfl : ls = [] := List.map_eq_nil_iff.mp h.symm
    rfl
  | cons n ns ih =>
    obtain ⟨l, ls, rfl, hl, hrest⟩ := List.map_eq_cons_iff.mp h.symm
    rw [List.map_cons, List.map_cons, List.map_cons,
      trimEnd_finish (hls l (List.mem_cons_self ..)) hl.symm,
      ih (fun m hm => hls m (List.mem_cons_of_mem _ hm)) hrest.symm]

end MediaWiki

/-- The marked lines of a text, with a space in the place of each mark. -/
theorem Text.Shows.finished (hls : ∀ l ∈ ls, ¬ MediaWiki.placeholder <:+: l)
    (h : Shows t (ls.map fun l => MediaWiki.placeholder ++ trimEnd isSpace l)) :
    Shows (MediaWiki.finish t) (ls.map fun l => trimEnd isSpace (' ' :: l)) := by
  have hlines : (MediaWiki.finish t).lines = t.lines.map MediaWiki.finish :=
    lines_replace (by decide) (by decide) MediaWiki.placeholder_ne_nil t
  obtain ⟨ns, hns, hmap⟩ := exists_infix_of_infix_map h
  rw [Shows, hlines, ← MediaWiki.map_trimEnd_finish hls hmap]
  exact (hns.map MediaWiki.finish).map (trimEnd isSpace)

/-! ### Preformatted elements -/

namespace Session

variable {options : Options} {around : Surroundings} {name : String} {attributes : Attributes}
  {above : List String} {raw out : Text} {before after : List Node}

def listingRule : Rule :=
  { Rule.bare .wrap with linePrefix := MediaWiki.placeholder, block := true }

theorem find?_pre (options : Options) :
    (mediaWiki options).table.find? "pre" = some listingRule := by
  have hall : ∀ italic bold : Bool,
      (MediaWiki.tableOf italic bold).find? "pre" = some listingRule := by
    decide +kernel
  exact hall options.preserveItalic options.preserveBold

/-- The text of a preformatted element is guarded, and is all that is prepared of it. -/
theorem prepareNode_pre (hname : lowerName name = "pre")
    (hfurniture : Element.isFurniture attributes = false) :
    (mediaWiki options).prepareNode above (.element name attributes [.text raw false]) =
      .ok [.element name attributes [.text ((mediaWiki options).guardText true raw) true]] := by
  have hurl : urlAttribute? "pre" = none := rfl
  have hresolve : (mediaWiki options).resolveUrl (lowerName name) attributes = .ok attributes :=
    resolveUrl_of_urlAttribute?_eq_none (by rw [hname, hurl]) attributes
  have hproper : properName above name = name := if_neg fun h => by simp [hname] at h
  have hanchor : Element.isNamedAnchor (lowerName name) attributes = false := by
    simp [Element.isNamedAnchor, hname]
  have hkept : dropsText ("pre" :: above) raw = false := by
    simp [dropsText, structuralTags]
  rw [prepareNode_element _ hresolve, if_neg (by simp [hanchor]), if_neg (by simp [hfurniture]),
    hproper, hname, prepareAll_singleton, prepareNode, hkept, if_neg (by simp), List.contains_cons]
  rfl

theorem markup_pre (hname : lowerName name = "pre") (t : Text) :
    (mediaWiki options).markup around (.element name attributes [.text t true]) =
      Report.ok (listingRule.layout [] t []) := by
  rw [markup, markupAll_singleton, markup]
  refine elementMarkup_wrap ?_ ?_ rfl rfl rfl
  · rw [PlacedElement.tag, hname]
    decide
  · rw [PlacedElement.tag, hname]
    exact find?_pre options

/-- The lines of a preformatted text are marked, and stand between empty lines. -/
theorem shows_listing (front back t : Text) :
    Shows (front ++ listingRule.layout [] t [] ++ back)
      (t.endedLines.map fun l => MediaWiki.placeholder ++ trimEnd isSpace l) := by
  have hlayout : front ++ listingRule.layout [] t [] ++ back =
      (front ++ ['\n']) ++ '\n' :: (markLines MediaWiki.placeholder t ++ '\n' :: '\n' :: back) := by
    simp [Rule.layout, listingRule, Rule.bare, MediaWiki.placeholder_ne_nil, LineFormat.apply,
      TrimPolicy.apply]
  have hmarked : Shows (markLines MediaWiki.placeholder t)
      (t.endedLines.map fun l => MediaWiki.placeholder ++ trimEnd isSpace l) := by
    have hinfix : t.endedLines.map (MediaWiki.placeholder ++ ·) <:+:
        (markLines MediaWiki.placeholder t).lines := infix_lines_markLines (by decide) t
    have hmap := hinfix.map (trimEnd isSpace)
    rw [List.map_map] at hmap
    have htrim : trimEnd isSpace ∘ (MediaWiki.placeholder ++ ·) =
        fun l => MediaWiki.placeholder ++ trimEnd isSpace l :=
      funext fun l => trimEnd_append_of_none MediaWiki.not_isSpace_placeholder l
    rwa [htrim] at hmap
  rw [hlayout]
  exact (hmarked.append_newline_right _).newline_append_left _

/-- The lines of a listing come through next to each other and with all the blanks at their
starts, a space before each of them; and no placeholder is left. -/
theorem convert_preformatted (hname : lowerName name = "pre")
    (hfurniture : Element.isFurniture attributes = false)
    (hfree : occurs MediaWiki.placeholder raw = false)
    (hout : ((mediaWiki options).convert
      (before ++ .element name attributes [.text raw false] :: after)).outcome = .ok out) :
    ((mediaWiki options).guardText true raw).endedLines.map
        (fun l => trimEnd isSpace (' ' :: l)) <:+: out.lines.map (trimEnd isSpace) ∧
      occurs MediaWiki.placeholder out = false := by
  obtain ⟨prepared, t, hprepared, ht, rfl⟩ := convert_outcome_ok_iff.mp hout
  refine ⟨?_, MediaWiki.notOccurs_finish _⟩
  obtain ⟨us, rest, -, hrest, rfl⟩ := prepareAll_append_eq_ok_iff.mp hprepared
  obtain ⟨listing, vs, hlisting, -, rfl⟩ := prepareAll_cons_eq_ok_iff.mp hrest
  rw [prepareNode_pre hname hfurniture] at hlisting
  obtain rfl := Except.ok.inj hlisting
  obtain ⟨front, t', -, ht', rfl⟩ := markupAll_append_outcome_ok_iff.mp ht
  obtain ⟨body, back, hbody, -, rfl⟩ := markupAll_append_outcome_ok_iff.mp ht'
  rw [markupAll_singleton, markup_pre hname] at hbody
  obtain rfl := Except.ok.inj hbody
  have hlines : ∀ l ∈ ((mediaWiki options).guardText true raw).endedLines,
      ¬ MediaWiki.placeholder <:+: l := by
    intro l hl hinfix
    have hin : l ∈ ((mediaWiki options).guardText true raw).lines := mem_lines_of_mem_endedLines hl
    have htext := (infix_iff_lines MediaWiki.placeholder_ne_nil (by decide)).mpr ⟨l, hin, hinfix⟩
    have hraw := occurs_iff.mpr (infix_of_infix_guardText htext)
    rw [hfree] at hraw
    cases hraw
  rw [← List.append_assoc]
  refine Shows.finished hlines (Shows.tidied ?_ (shows_listing front back _))
  intro m hm
  obtain ⟨l, -, rfl⟩ := List.mem_map.mp hm
  exact MediaWiki.marked_placeholder_append _

def snippet : Text := "\n  if x < 1:\n\n\treturn [[y]] \n".toList

/-- A snippet of code among a list, some words, another listing and a table. -/
def snippetAmong : List Node × List Node :=
  ([.element "ul" [] [.element "li" [] [.text "one ".toList false]], .text " two".toList false],
    [.element "pre" [] [.text "  z".toList false],
      .element "table" [] [.element "tr" [] [.element "td" [] [.text "a".toList false]]]])

theorem convert_snippet :
    lowerName "PRE" = "pre" ∧ Element.isFurniture [] = false ∧
      occurs MediaWiki.placeholder snippet = false ∧
      ∃ out, ((mediaWiki {}).convert (snippetAmong.1 ++
          .element "PRE" [] [.text snippet false] :: snippetAmong.2)).outcome = .ok out ∧
        [" <nowiki>".toList, "   if x &lt; 1:".toList, [], " \treturn [[y]]".toList,
          " </nowiki>".toList] <:+: out.lines.map (trimEnd isSpace) ∧
        occurs MediaWiki.placeholder out = false := by
  have hname : lowerName "PRE" = "pre" := by decide +kernel
  have hfurniture : Element.isFurniture [] = false := rfl
  have hfree : occurs MediaWiki.placeholder snippet = false := by decide +kernel
  have hout : ((mediaWiki {}).convert (snippetAmong.1 ++
      .element "PRE" [] [.text snippet false] :: snippetAmong.2)).outcome =
        .ok ("* one\n\ntwo\n\n <nowiki>\n   if x &lt; 1:\n \n \treturn [[y]]\n </nowiki>\n\n" ++
          "   z\n\n\x7b|\n| a\n|\x7d").toList := by
    decide +kernel
  have hlines : ((mediaWiki {}).guardText true snippet).endedLines.map
      (fun l => trimEnd isSpace (' ' :: l)) = [" <nowiki>".toList, "   if x &lt; 1:".toList, [],
        " \treturn [[y]]".toList, " </nowiki>".toList] := by
    decide +kernel
  refine ⟨hname, hfurniture, hfree, _, hout, ?_⟩
  rw [← hlines]
  exact convert_preformatted hname hfurniture hfree hout

end Session

end Wikitext

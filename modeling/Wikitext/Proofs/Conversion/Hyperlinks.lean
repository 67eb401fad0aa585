/-
  Wikitext/Proofs/Conversion/Hyperlinks.lean
  ==========================================
  **Links of a page.**  A link puts its title, its URL and its converted text into markup as they
  are.  Where a wiki reads this as the link that is meant (`Link.Reading.IsLegible`), it stands in
  the markup of the document as it was written, on one line and in document order; and if all
  links are legible, the links in brackets of the page are those of the document and no others
  (`convert_hyperlinks`).

  Not all links are.  A paragraph in a link brings empty lines with it, and a link does not go on
  after the end of its line; a bar in a title, also an encoded one, ends the title
  (`not_reads_wayside`).

  The layout moves only white space, so a reader that takes a legible link as one token finds all
  of them in the whole (`Linked.scans`).  What is written of a paragraph or a link ends what it
  begins, so no placeholder comes about between two of them (`Linked.inert`).
-/
import Wikitext.Proofs.Conversion.Orderly
import Wikitext.Proofs.Conversion.Prose
import Wikitext.Proofs.Link.Reading
import Wikitext.Proofs.Rule.Table
import Wikitext.Proofs.Text.Scan

namespace Wikitext

open Text Link

namespace Text

variable {c : Char} {t u v w : Text} {ws us : List Text} {gap : Char → Prop}

/-! ### Texts among others -/

/-- The texts `ws` stand in a text one after the other, and all other characters of it satisfy
`gap`. -/
inductive Woven (gap : Char → Prop) : List Text → Text → Prop
  | done : Woven gap [] []
  | gap {c : Char} {ws : List Text} {t : Text} :
      gap c → Woven gap ws t → Woven gap ws (c :: t)
  | found {w : Text} {ws : List Text} {t : Text} :
      Woven gap ws t → Woven gap (w :: ws) (w ++ t)

/-- A reader that waits for some compact texts, and passes over single characters. -/
inductive Awaited (gap : Char → Prop) : List Text → Text → List Text → Prop
  | gap {c : Char} {ws : List Text} : isSpace c = false → gap c → Awaited gap ws [c] ws
  | found {w : Text} {ws : List Text} : Compact w → Awaited gap (w :: ws) w ws

theorem compact_of_awaited (ws : List Text) (w : Text) (us : List Text)
    (h : Awaited gap ws w us) : Compact w := by
  cases h with
  | gap hc _ => exact compact_singleton hc
  | found hw => exact hw

theorem scans_gaps (h : ∀ c ∈ t, isSpace c = false → gap c) (ws : List Text) :
    Scans (Awaited gap) ws t ws := by
  induction t with
  | nil => exact .done
  | cons c t ih =>
    rw [List.forall_mem_cons] at h
    cases hc : isSpace c with
    | true => exact .space hc (ih h.2)
    | false => exact .step (x := [c]) (.gap hc (h.1 hc)) (ih h.2)

theorem woven_of_scans (hspace : ∀ c, isSpace c = true → gap c)
    (h : Scans (Awaited gap) ws t us) : ∃ vs, ws = vs ++ us ∧ Woven gap vs t := by
  induction h with
  | done => exact ⟨[], rfl, .done⟩
  | space hc _ ih =>
    obtain ⟨vs, rfl, hwoven⟩ := ih
    exact ⟨vs, rfl, .gap (hspace _ hc) hwoven⟩
  | step hx _ ih =>
    obtain ⟨vs, rfl, hwoven⟩ := ih
    cases hx with
    | gap _ hc => exact ⟨vs, rfl, .gap hc hwoven⟩
    | found _ => exact ⟨_ :: vs, rfl, .found hwoven⟩

/-! ### Texts without a placeholder -/

/-- No placeholder starts in a text, whatever follows it. -/
def Inert (t : Text) : Prop :=
  ∀ u, MediaWiki.placeholder <:+: t ++ u → MediaWiki.placeholder <:+: u

theorem Inert.not_infix (h : Inert t) : ¬ MediaWiki.placeholder <:+: t := by
  intro hin
  have hnil := h [] (by rwa [List.append_nil])
  exact absurd hnil (by decide)

theorem inert_nil : Inert [] := fun _ h => h

theorem Inert.append (ht : Inert t) (hu : Inert u) : Inert (t ++ u) := by
  intro v hv
  rw [List.append_assoc] at hv
  exact hu v (ht _ hv)

theorem inert_of_notMem (h : '[' ∉ t) : Inert t := by
  intro u hu
  have hcons : MediaWiki.placeholder = '[' :: MediaWiki.placeholder.tail := rfl
  rw [hcons] at hu ⊢
  exact infix_append_of_notMem h hu

/-- A placeholder ends with the only closing bracket in it. -/
theorem inert_of_closed (h : ¬ MediaWiki.placeholder <:+: t ++ [']']) : Inert (t ++ [']']) := by
  have hconcat : MediaWiki.placeholder = MediaWiki.placeholder.dropLast ++ [']'] := rfl
  have hclosing : ']' ∉ MediaWiki.placeholder.dropLast := by decide
  intro u hin
  rw [List.append_assoc, List.singleton_append] at hin
  induction t with
  | nil =>
    rcases List.infix_cons_iff.mp hin with hprefix | hin
    · exact absurd (List.cons_prefix_cons.mp hprefix).1 (by decide)
    · exact hin
  | cons d t ih =>
    have htail : ¬ MediaWiki.placeholder <:+: t ++ [']'] := fun htail =>
      h (htail.trans (List.suffix_cons ..).isInfix)
    rcases List.infix_cons_iff.mp hin with hprefix | hin
    · rw [hconcat] at hprefix h
      exact absurd (prefix_of_prefix_append_cons (t := d :: t) hclosing hprefix).isInfix h
    · exact ih htail hin

/-- The last passes make no placeholder. -/
theorem infix_of_infix_multi (h : MediaWiki.placeholder <:+: LineFormat.multi.apply t) :
    MediaWiki.placeholder <:+: t := by
  have hne : MediaWiki.placeholder ≠ [] := by decide
  have hline : '\n' ∉ MediaWiki.placeholder := by decide
  rw [LineFormat.apply, infix_unlines_iff hne hline] at h
  obtain ⟨l, hl, hin⟩ := h
  rcases mem_clearedLines ((withoutEmptyLines_sublist _).subset hl) with rfl | hl
  · exact absurd (List.infix_nil.mp hin) hne
  · exact (infix_iff_lines hne hline).mpr ⟨l, hl, hin⟩

theorem infix_of_infix_tidy (h : MediaWiki.placeholder <:+: t.tidy) :
    MediaWiki.placeholder <:+: t := by
  have hne : MediaWiki.placeholder ≠ [] := by decide
  have hline : '\n' ∉ MediaWiki.placeholder := by decide
  have hlines := h.trans (trim_infix_self isSpace _)
  rw [infix_unlines_iff hne hline] at hlines
  obtain ⟨l, hl, hin⟩ := hlines
  obtain ⟨k, hk, rfl⟩ := List.mem_map.mp ((withSingleEmptyLines_sublist _).subset hl)
  exact (infix_iff_lines hne hline).mpr ⟨k, hk, hin.trans (trim_infix_self isBlank k)⟩

end Text

/-! ### Legible links -/

namespace Link

variable {r : Reading} {readings : List Reading} {gap : Char → Prop} {t : Text}

theorem Reading.IsLegible.compact (h : r.IsLegible) (hne : r.write ≠ []) : Compact r.write := by
  cases hr : r.isBare with
  | false =>
    have hline := h.notMem_newline
    obtain ⟨w, hw⟩ := exists_write_eq_brackets hr
    rw [hw] at hline ⊢
    refine compact_between (by decide) (by decide) fun hin => hline ?_
    exact List.mem_cons_of_mem _ (List.mem_append_left _ hin)
  | true =>
    cases r with
    | page target label => cases hr
    | external url label => cases hr
    | bare url =>
      have hspace : ∀ c ∈ url, isSpace c = false := by simpa using h.2
      have hline := h.notMem_newline
      change url ≠ [] at hne
      refine ⟨?_, ?_, hline⟩
      · obtain ⟨c, u, rfl⟩ := List.exists_cons_of_ne_nil hne
        exact ⟨c, u, rfl, hspace c (List.mem_cons_self ..)⟩
      · obtain ⟨u, c, rfl⟩ := (List.eq_nil_or_concat' url).resolve_left hne
        exact ⟨u, c, rfl, hspace c (by simp)⟩

theorem Anchor.write_ne_nil {a : Anchor} (h : a.url ≠ []) : a.reading.write ≠ [] := by
  cases hbare : a.reading.isBare with
  | true =>
    rw [(reading_of_isBare hbare).1]
    exact h
  | false =>
    obtain ⟨w, hw⟩ := exists_write_eq_brackets hbare
    rw [hw]
    exact List.cons_ne_nil _ _

/-- If no bracket stands outside of some legible links, these are the ones that are read. -/
theorem readAll_of_woven (hlegible : ∀ r ∈ readings, r.IsLegible)
    (hbare : ∀ r ∈ readings, r.isBare = true → '[' ∉ r.write)
    (h : Woven (· ≠ '[') (readings.map Reading.write) t) :
    readAll t = readings.filter (!·.isBare) := by
  generalize hws : readings.map Reading.write = ws at h
  induction h generalizing readings with
  | done =>
    obtain rfl := List.map_eq_nil_iff.mp hws
    rfl
  | gap hc _ ih => rw [readAll_cons hc, ih hlegible hbare hws]
  | found _ ih =>
    obtain ⟨r, readings, rfl, rfl, rfl⟩ := List.map_eq_cons_iff.mp hws
    rw [List.forall_mem_cons] at hlegible hbare
    have hrest := ih hlegible.2 hbare.2 rfl
    cases hr : r.isBare with
    | true =>
      rw [readAll_append (hbare.1 hr), hrest, List.filter_cons, if_neg (by simp [hr])]
    | false =>
      rw [readAll_write_append hr hlegible.1, hrest, List.filter_cons, if_pos (by simp [hr])]

end Link

/-! ### Documents of links -/

namespace Node

/-- The link with some attributes and a converted text. -/
def anchor (recognizers : List Recognizer) (attributes : Attributes) (label : Text) : Anchor :=
  let url := (attributes.text? "href").getD []
  ⟨url, Recognizer.resolve recognizers url, label⟩

/-- Whether a node is a link. -/
def isLink : Node → Bool
  | .element name _ _ => lowerName name == "a"
  | _ => false

mutual
/-- Paragraphs, links that lead somewhere, with no link directly in them, and texts without an
opening bracket. -/
def isLinked : Node → Bool
  | .text raw _ => raw.all (· ≠ '[')
  | .special _ _ => true
  | .element name attributes children =>
    (lowerName name == "p" || lowerName name == "a" && attributes.has "href" &&
      children.all fun node => !node.isLink) && isLinkedAll children

def isLinkedAll : List Node → Bool
  | [] => true
  | node :: nodes => isLinked node && isLinkedAll nodes
end

/-- A text between empty lines. -/
def setOff (t : Text) : Text :=
  ['\n', '\n'] ++ LineFormat.multi.apply (trim isSpace t) ++ ['\n', '\n']

mutual
/-- The converted text of a node. -/
def written (recognizers : List Recognizer) : Node → Text
  | .text raw guarded => if guarded then raw else (Session.mediaWiki {}).guardText false raw
  | .special _ _ => []
  | .element name attributes children =>
    if Element.isFurniture attributes then []
    else if lowerName name = "a" then
      (anchor recognizers attributes (writtenAll recognizers children)).markup
    else setOff (writtenAll recognizers children)

def writtenAll (recognizers : List Recognizer) : List Node → Text
  | [] => []
  | node :: nodes => written recognizers node ++ writtenAll recognizers nodes
end

mutual
/-- The links of a node in document order, but those of furniture. -/
def anchors (recognizers : List Recognizer) : Node → List Anchor
  | .element name attributes children =>
    if Element.isFurniture attributes then []
    else if lowerName name = "a" then
      anchor recognizers attributes (writtenAll recognizers children) ::
        anchorsAll recognizers children
    else anchorsAll recognizers children
  | _ => []

def anchorsAll (recognizers : List Recognizer) : List Node → List Anchor
  | [] => []
  | node :: nodes => anchors recognizers node ++ anchorsAll recognizers nodes
end

/-- The page of a document, before the last pass. -/
def pageText (recognizers : List Recognizer) (document : List Node) : Text :=
  (writtenAll recognizers document).tidy

/-- The links of a document that a wiki reads as they are meant. -/
def legible (as : List Anchor) : List Anchor :=
  as.filter fun a => a.reading.IsLegible

end Node

open Node

namespace Session

variable {rs : List Recognizer} {n : Node} {nodes document : List Node} {name : String}
  {attributes : Attributes} {raw t u : Text} {as bs : List Anchor}

/-- A session that recognizes pages, and is as by default otherwise. -/
def linking (rs : List Recognizer) : Session :=
  mediaWiki { recognizers := rs }

/-- Siblings with their converted text and their links. -/
inductive Linked (rs : List Recognizer) : List Node → Text → List Anchor → Prop
  | nil : Linked rs [] [] []
  | cons {n : Node} {nodes : List Node} {t u : Text} {as bs : List Anchor} :
      Linked rs [n] t as → Linked rs nodes u bs → Linked rs (n :: nodes) (t ++ u) (as ++ bs)
  | text {raw : Text} {guarded : Bool} : '[' ∉ raw →
      Linked rs [.text raw guarded] (written rs (.text raw guarded)) []
  | dropped {n : Node} : (∀ above, (linking rs).prepareNode above n = .ok []) → Linked rs [n] [] []
  | paragraph {name : String} {attributes : Attributes} {nodes : List Node} {t : Text}
      {as : List Anchor} : lowerName name = "p" → Element.isFurniture attributes = false →
      Linked rs nodes t as →
      Linked rs [.element name attributes nodes] (setOff t) as
  | link {name : String} {attributes : Attributes} {nodes : List Node} {t : Text}
      {as : List Anchor} : lowerName name = "a" → Element.isFurniture attributes = false →
      attributes.has "href" = true → (∀ n ∈ nodes, n.isLink = false) → Linked rs nodes t as →
      Linked rs [.element name attributes nodes] (anchor rs attributes t).markup
        (anchor rs attributes t :: as)

theorem prepareNode_linking_furniture
    (hanchor : Element.isNamedAnchor (lowerName name) attributes = false)
    (hfurniture : Element.isFurniture attributes = true) (above : List String) :
    (linking rs).prepareNode above (.element name attributes nodes) = .ok [] := by
  have hresolve := resolveUrl_of_baseUri_eq_none (s := linking rs) rfl (lowerName name) attributes
  rw [linking, prepareNode_element nodes hresolve, hanchor, if_neg (by simp), if_pos hfurniture]

mutual
theorem linked_written : ∀ node : Node, node.isLinked = true →
    Linked rs [node] (node.written rs) (node.anchors rs)
  | .text raw guarded, h => by
    rw [isLinked] at h
    rw [anchors]
    · refine .text fun hin => ?_
      have hraw := List.all_eq_true.mp h _ hin
      simp at hraw
    · rintro _ _ _ ⟨⟩
  | .special kind content, _ => by
    rw [written, anchors]
    · refine .dropped fun above => ?_
      rw [prepareNode, if_neg]
      simp [linking, mediaWiki]
    · rintro _ _ _ ⟨⟩
  | .element name attributes children, h => by
    rw [isLinked, Bool.and_eq_true] at h
    have hchildren := linked_writtenAll children h.2
    have hname : lowerName name = "p" ∨ lowerName name = "a" ∧ attributes.has "href" = true ∧
        ∀ n ∈ children, n.isLink = false := by
      simpa [and_assoc] using h.1
    have hanchor : Element.isNamedAnchor (lowerName name) attributes = false := by
      rcases hname with hp | ⟨ha, hhref, -⟩
      · simp [Element.isNamedAnchor, hp]
      · simp [Element.isNamedAnchor, hhref]
    rw [written, anchors]
    by_cases hfurniture : Element.isFurniture attributes = true
    · rw [if_pos hfurniture, if_pos hfurniture]
      exact .dropped (prepareNode_linking_furniture hanchor hfurniture)
    · rw [if_neg hfurniture, if_neg hfurniture]
      rw [Bool.not_eq_true] at hfurniture
      rcases hname with hp | ⟨ha, hhref, hdirect⟩
      · have hne : lowerName name ≠ "a" := by
          rw [hp]
          decide
        rw [if_neg hne, if_neg hne]
        exact .paragraph hp hfurniture hchildren
      · rw [if_pos ha, if_pos ha]
        exact .link ha hfurniture hhref hdirect hchildren

theorem linked_writtenAll : ∀ nodes : List Node, isLinkedAll nodes = true →
    Linked rs nodes (writtenAll rs nodes) (anchorsAll rs nodes)
  | [], _ => .nil
  | node :: nodes, h => by
    rw [isLinkedAll, Bool.and_eq_true] at h
    exact (linked_written node h.1).cons (linked_writtenAll nodes h.2)
end

/-! ### Conversion -/

/-- Recognizers say nothing about texts, and make no rules. -/
theorem guardText_linking (rs : List Recognizer) (preformatted : Bool) (raw : Text) :
    (linking rs).guardText preformatted raw = (mediaWiki {}).guardText preformatted raw := by
  dsimp only [guardText, normalizeText, linking, mediaWiki]

theorem table_linking (rs : List Recognizer) : (linking rs).table = (mediaWiki {}).table := by
  dsimp only [linking, mediaWiki]
  rw [MediaWiki.table_eq, MediaWiki.table_eq {}]

theorem find?_a : (mediaWiki {}).table.find? "a" = some (.replaceBy (.feature .link)) := by
  decide +kernel

theorem url_anchor_ne_nil (h : attributes.has "href" = true) : (anchor rs attributes t).url ≠ [] := by
  rw [Attributes.has] at h
  cases htext : attributes.text? "href" with
  | none =>
    rw [htext] at h
    cases h
  | some url =>
    rw [htext] at h
    simpa [anchor, htext] using h

theorem elementMarkup_link {e : PlacedElement} (hname : e.tag = "a")
    (hhref : e.attributes.has "href" = true) : (linking rs).elementMarkup e (Report.ok t) =
      Report.ok (anchor rs e.attributes t).markup := by
  have htransparent : transparentTags.contains e.tag = false := by
    rw [hname]
    decide
  have hrule : (linking rs).table.find? e.tag = some (.replaceBy (.feature .link)) := by
    rw [hname, table_linking]
    exact find?_a
  have hne : (anchor rs e.attributes t).url ≠ [] := url_anchor_ne_nil hhref
  have hurl : ((e.attributes.text? "href").getD []).isEmpty = false := by
    simpa [anchor] using hne
  rw [elementMarkup, htransparent, hrule]
  simp [applyRule, Rule.replaceBy, Rule.bare, expand, linkMarkup, hurl, anchor, Anchor.markup,
    linking, mediaWiki]

/-- Siblings that are in no preformatted text and in no structural element become a text. -/
def Becomes (rs : List Recognizer) (nodes : List Node) (t : Text) : Prop :=
  ∀ above, Above false above → ∃ prepared, (linking rs).prepareAll above nodes = .ok prepared ∧
    ∀ ancestors preceded, (linking rs).markupAll ancestors preceded prepared = Report.ok t

theorem becomes_text (raw : Text) (guarded : Bool) :
    Becomes rs [.text raw guarded] (written rs (.text raw guarded)) := by
  have hmarkup : ∀ t ancestors preceded,
      (linking rs).markupAll ancestors preceded [.text t true] = Report.ok t := by
    intro t ancestors preceded
    rw [markupAll_singleton, markup]
    rfl
  intro above habove
  rw [written]
  cases guarded with
  | true =>
    refine ⟨[.text raw true], ?_, hmarkup raw⟩
    rw [prepareAll_singleton, prepareNode]
  | false =>
    have hpre : above.contains "pre" = false := by simpa using habove.notMem_pre
    have hdrop : dropsText above raw = false := by
      rw [dropsText, habove.head, Bool.and_false]
    refine ⟨[.text ((mediaWiki {}).guardText false raw) true], ?_, hmarkup _⟩
    rw [prepareAll_singleton, prepareNode, hdrop, hpre, guardText_linking, if_neg (by simp)]

/-- An element that is no noise, from its children. -/
theorem becomes_element (hname : lowerName name ∈ ["a", "p"])
    (hanchor : Element.isNamedAnchor (lowerName name) attributes = false)
    (hfurniture : Element.isFurniture attributes = false) (h : Becomes rs nodes t)
    (hmarkup : ∀ around prepared, (linking rs).elementMarkup ⟨around, name, attributes, prepared⟩
      (Report.ok t) = Report.ok u) : Becomes rs [.element name attributes nodes] u := by
  intro above habove
  have hpre : lowerName name ≠ "pre" := fun heq => absurd (heq ▸ hname) (by decide)
  have hcaption : lowerName name ≠ "caption" := fun heq => absurd (heq ▸ hname) (by decide)
  have hstructural : structuralTags.contains (lowerName name) = false := by
    have hall : ∀ tag ∈ ["a", "p"], structuralTags.contains tag = false := by decide
    exact hall _ hname
  have hbelow := habove.enter hpre
  rw [hstructural] at hbelow
  obtain ⟨prepared, hprepared, ht⟩ := h _ hbelow
  have hproper : properName above name = name := if_neg fun hc => hcaption hc.1
  have hresolve := resolveUrl_of_baseUri_eq_none (s := linking rs) rfl (lowerName name) attributes
  refine ⟨[.element name attributes prepared], ?_, fun ancestors preceded => ?_⟩
  · rw [linking] at hresolve hprepared ⊢
    rw [prepareAll_singleton, prepareNode_element nodes hresolve, hanchor, hfurniture, hproper,
      hprepared]
    rfl
  · rw [markupAll_singleton, Session.markup, ht]
    exact hmarkup _ _

/-- Such siblings are converted to their text. -/
theorem Linked.becomes (h : Linked rs nodes t as) : Becomes rs nodes t := by
  induction h with
  | nil => exact fun _ _ => ⟨[], rfl, fun _ _ => rfl⟩
  | cons _ _ ih ih' =>
    intro above habove
    obtain ⟨xs, hxs, ht⟩ := ih above habove
    obtain ⟨ys, hys, hu⟩ := ih' above habove
    rw [prepareAll_singleton] at hxs
    exact ⟨xs ++ ys, prepareAll_cons hxs hys, fun ancestors preceded =>
      markupAll_append (ht ancestors preceded) (hu ancestors _)⟩
  | text _ => exact becomes_text _ _
  | dropped hdropped =>
    intro above _
    refine ⟨[], ?_, fun _ _ => rfl⟩
    rw [prepareAll_singleton, hdropped]
  | @paragraph name attributes nodes t as hname hfurniture _ ih =>
    have hanchor : Element.isNamedAnchor (lowerName name) attributes = false := by
      simp [Element.isNamedAnchor, hname]
    have htransparent : transparentTags.contains (lowerName name) = false := by
      rw [hname]
      decide
    have hrule : (linking rs).table.find? (lowerName name) = some paragraphRule := by
      rw [hname, table_linking]
      exact find?_p
    have hlayout : paragraphRule.layout [] t [] = setOff t := by
      simp [Rule.layout, paragraphRule, Rule.bare, TrimPolicy.apply, setOff]
    refine becomes_element (by simp [hname]) hanchor hfurniture ih fun around prepared => ?_
    rw [← hlayout]
    exact elementMarkup_wrap htransparent hrule rfl rfl rfl
  | @link name attributes nodes t as hname hfurniture hhref _ _ ih =>
    have hanchor : Element.isNamedAnchor (lowerName name) attributes = false := by
      simp [Element.isNamedAnchor, hhref]
    exact becomes_element (by simp [hname]) hanchor hfurniture ih fun around prepared =>
      elementMarkup_link hname hhref

/-! ### The links in the text -/

/-- The guard puts no opening bracket into a text. -/
theorem notMem_written_text {guarded : Bool} (h : '[' ∉ raw) :
    '[' ∉ written rs (.text raw guarded) := by
  intro hin
  cases guarded with
  | true => exact h hin
  | false =>
    rcases Nowiki.mem_of_mem_guard hin with hin | hin
    · exact absurd hin (by decide)
    · obtain ⟨c, hc, hin⟩ := List.mem_flatMap.mp hin
      rcases escapeChar_eq c with heq | ⟨name, heq, hname⟩
      · rw [heq, List.mem_singleton] at hin
        rw [← hin] at hc
        rcases mem_of_mem_collapseFrom hc with hblank | hc
        · exact absurd hblank (by decide)
        · exact h hc
      · rw [heq, List.mem_cons] at hin
        exact hin.elim (by decide) hname

/-- On one line there are no paragraphs, and so no links in them. -/
theorem Linked.inline (h : Linked rs nodes t as) (hdirect : ∀ n ∈ nodes, n.isLink = false)
    (hline : '\n' ∉ t) : as = [] ∧ '[' ∉ t := by
  induction h with
  | nil => exact ⟨rfl, List.not_mem_nil⟩
  | cons _ _ ih ih' =>
    rw [List.forall_mem_cons] at hdirect
    rw [List.mem_append, not_or] at hline
    obtain ⟨rfl, ht⟩ := ih (List.forall_mem_singleton.mpr hdirect.1) hline.1
    obtain ⟨rfl, hu⟩ := ih' hdirect.2 hline.2
    refine ⟨rfl, ?_⟩
    rw [List.mem_append, not_or]
    exact ⟨ht, hu⟩
  | text hraw => exact ⟨rfl, notMem_written_text hraw⟩
  | dropped _ => exact ⟨rfl, List.not_mem_nil⟩
  | paragraph => exact absurd (List.mem_cons_self ..) hline
  | link hname =>
    have hlink := hdirect _ (List.mem_singleton_self _)
    simp [isLink, hname] at hlink

/-- A link leads somewhere, and on one line there is no bracket in its text. -/
theorem Linked.forall_anchors (h : Linked rs nodes t as) :
    ∀ a ∈ as, a.url ≠ [] ∧ ('\n' ∉ a.label → '[' ∉ a.label) := by
  induction h with
  | nil => exact fun _ h => absurd h List.not_mem_nil
  | cons _ _ ih ih' => exact List.forall_mem_append.mpr ⟨ih, ih'⟩
  | text _ => exact fun _ h => absurd h List.not_mem_nil
  | dropped _ => exact fun _ h => absurd h List.not_mem_nil
  | paragraph _ _ _ ih => exact ih
  | link _ _ hhref hdirect hlinked ih =>
    refine List.forall_mem_cons.mpr ⟨⟨url_anchor_ne_nil hhref, fun hline => ?_⟩, ih⟩
    exact (hlinked.inline hdirect hline).2

theorem legible_append (as bs : List Anchor) : legible (as ++ bs) = legible as ++ legible bs :=
  List.filter_append ..

/-- A reader that waits for the legible links finds them, and no bracket outside of them if all
are legible. -/
theorem Linked.scans (h : Linked rs nodes t as) {gap : Char → Prop} (hgap : ∀ c, c ≠ '[' → gap c)
    (hopen : (∀ a ∈ as, a.reading.IsLegible) ∨ gap '[') (ws : List Text) :
    Scans (Awaited gap) ((legible as).map Anchor.markup ++ ws) t ws := by
  induction h generalizing ws with
  | nil => exact .done
  | @cons n nodes t u as bs _ _ ih ih' =>
    rw [List.forall_mem_append] at hopen
    rw [legible_append, List.map_append, List.append_assoc]
    exact (ih (hopen.imp_left And.left) _).append (ih' (hopen.imp_left And.right) ws)
  | text hraw =>
    refine scans_gaps (fun c hc _ => hgap c ?_) ws
    rintro rfl
    exact notMem_written_text hraw hc
  | dropped _ => exact .done
  | paragraph _ _ _ ih =>
    have hgaps : ∀ c ∈ ['\n', '\n'], isSpace c = true := isWhite_iff.mp (by decide)
    have hcontent := (scans_trim_iff compact_of_awaited fun _ h => h).mpr (ih hopen ws)
    have hbody := hcontent.format compact_of_awaited .multi
    exact ((scans_of_white hgaps _).append hbody).append (scans_of_white hgaps _)
  | @link name attributes nodes t as _ _ hhref hdirect hlinked ih =>
    by_cases hlegible : (anchor rs attributes t).reading.IsLegible
    · obtain ⟨rfl, -⟩ := hlinked.inline hdirect (Anchor.notMem_newline_label hlegible)
      have hone : legible [anchor rs attributes t] = [anchor rs attributes t] := by
        simp [legible, hlegible]
      rw [hone]
      refine .token (.found ?_)
      rw [Anchor.markup_eq]
      exact hlegible.compact (Anchor.write_ne_nil (url_anchor_ne_nil hhref))
    · -- what is around the text of the link is passed over
      have hnone : legible (anchor rs attributes t :: as) = legible as := by
        simp [legible, hlegible]
      have hbracket : gap '[' := hopen.resolve_left fun h => hlegible (h _ (List.mem_cons_self ..))
      have hall : ∀ c, gap c := by
        intro c
        by_cases hc : c = '['
        · exact hc ▸ hbracket
        · exact hgap c hc
      obtain ⟨before, after, hwrite⟩ := (anchor rs attributes t).exists_write_eq
      rw [hnone, Anchor.markup_eq, hwrite]
      refine (scans_gaps (fun c _ _ => hall c) _).append ((ih (Or.inr hbracket) ws).append ?_)
      exact scans_gaps (fun c _ _ => hall c) ws

/-! ### Placeholders -/

theorem inert_setOff (h : Inert t) : Inert (setOff t) := by
  have hgap : Inert ['\n', '\n'] := inert_of_notMem (by decide)
  have hbody : Inert (LineFormat.multi.apply (trim isSpace t) ++ ['\n', '\n']) := by
    intro u hin
    rw [List.append_assoc, List.cons_append] at hin
    rcases infix_append_cons (by decide) (by decide) hin with hin | hin
    · exact absurd ((infix_of_infix_multi hin).trans (trim_infix_self ..)) h.not_infix
    · exact inert_of_notMem (t := ['\n']) (by decide) u hin
  rw [setOff, List.append_assoc]
  exact hgap.append hbody

/-- A placeholder stands in the text only if it stands in the markup of a link. -/
theorem Linked.inert (h : Linked rs nodes t as)
    (hfree : ∀ a ∈ as, ¬ MediaWiki.placeholder <:+: a.markup) : Inert t := by
  induction h with
  | nil => exact inert_nil
  | cons _ _ ih ih' =>
    rw [List.forall_mem_append] at hfree
    exact (ih hfree.1).append (ih' hfree.2)
  | text hraw => exact inert_of_notMem (notMem_written_text hraw)
  | dropped _ => exact inert_nil
  | paragraph _ _ _ ih => exact inert_setOff (ih hfree)
  | @link name attributes nodes t as _ _ _ _ _ ih =>
    rw [List.forall_mem_cons] at hfree
    rw [Anchor.markup_eq] at hfree ⊢
    cases hbare : (anchor rs attributes t).reading.isBare with
    | true =>
      obtain ⟨hreading, hurl⟩ := Anchor.reading_of_isBare hbare
      rw [hreading, hurl]
      exact ih hfree.2
    | false =>
      obtain ⟨w, hw⟩ := exists_write_eq_brackets hbare
      rw [hw] at hfree ⊢
      exact inert_of_closed (t := '[' :: w) hfree.1

/-! ### The whole document -/

/-- The links that are legible stand in the page as they were written, with gaps between them. -/
theorem woven_pageText (rs : List Recognizer) (hlinked : isLinkedAll document = true)
    (hgap : ∀ c, c ≠ '[' → gap c)
    (hopen : (∀ a ∈ anchorsAll rs document, a.reading.IsLegible) ∨ gap '[') :
    Woven gap ((legible (anchorsAll rs document)).map Anchor.markup) (pageText rs document) := by
  have hscans := ((linked_writtenAll document hlinked).scans hgap hopen []).tidy compact_of_awaited
  have hspace : ∀ c, isSpace c = true → gap c := fun c hc => hgap c (by rintro rfl; cases hc)
  obtain ⟨ws, hws, hwoven⟩ := woven_of_scans hspace hscans
  rw [List.append_nil, List.append_nil] at hws
  rw [hws]
  exact hwoven

/-- If all links are legible, those in brackets that are read in the page are those of the
document. -/
theorem readAll_pageText (rs : List Recognizer) (hlinked : isLinkedAll document = true)
    (hall : ∀ a ∈ anchorsAll rs document, a.reading.IsLegible) :
    readAll (pageText rs document) =
      ((anchorsAll rs document).map Anchor.reading).filter (!·.isBare) := by
  have hsame : legible (anchorsAll rs document) = anchorsAll rs document := by
    simpa [legible] using hall
  have hfound : Woven (· ≠ '[') ((legible (anchorsAll rs document)).map Anchor.markup)
      (pageText rs document) := woven_pageText rs hlinked (fun _ hc => hc) (Or.inl hall)
  have hmarkup : Anchor.markup = Reading.write ∘ Anchor.reading := funext Anchor.markup_eq
  rw [hsame, hmarkup, ← List.map_map] at hfound
  refine readAll_of_woven (List.forall_mem_map.mpr hall) (List.forall_mem_map.mpr ?_) hfound
  intro a ha hbare
  obtain ⟨hreading, hurl⟩ := Anchor.reading_of_isBare hbare
  have hlabel := ((linked_writtenAll document hlinked).forall_anchors a ha).2
    (Anchor.notMem_newline_label (hall a ha))
  rw [hreading, hurl]
  exact hlabel

/-- A page with no placeholder in the markup of its links is finished as it is. -/
theorem finish_pageText (rs : List Recognizer) (hlinked : isLinkedAll document = true)
    (hfree : ∀ a ∈ anchorsAll rs document, occurs MediaWiki.placeholder a.markup = false) :
    MediaWiki.finish (pageText rs document) = pageText rs document := by
  have hinert := (linked_writtenAll document hlinked).inert fun a ha => by
    rw [← occurs_iff, hfree a ha]
    simp
  refine replace_eq_self ?_ _
  rw [Bool.eq_false_iff, ne_eq, occurs_iff]
  exact fun hin => hinert.not_infix (infix_of_infix_tidy hin)

/-- Such documents are converted, and the links that are legible stand in the page as they were
written; if all are, the links in brackets that are read in it are those of the document.
Placeholders come only from links. -/
theorem convert_hyperlinks (rs : List Recognizer) (hlinked : isLinkedAll document = true) :
    (linking rs).convert document = Report.ok (MediaWiki.finish (pageText rs document)) ∧
      Woven (fun _ => True) ((legible (anchorsAll rs document)).map Anchor.markup)
        (pageText rs document) ∧
      (∀ a ∈ anchorsAll rs document,
        ((∃ r, read? a.markup = some r ∧ a.Means r) ↔ a.reading.IsLegible) ∧
        (a.reading.IsLegible → '\n' ∉ a.markup) ∧
        (['\x7b', '\x7b'] <:+: a.markup ↔
          ['\x7b', '\x7b'] <:+: a.target ∨ ['\x7b', '\x7b'] <:+: a.label)) ∧
      ((∀ a ∈ anchorsAll rs document, a.reading.IsLegible) →
        readAll (pageText rs document) =
          ((anchorsAll rs document).map Anchor.reading).filter (!·.isBare)) ∧
      ((∀ a ∈ anchorsAll rs document, occurs MediaWiki.placeholder a.markup = false) →
        MediaWiki.finish (pageText rs document) = pageText rs document) := by
  refine ⟨?_, woven_pageText rs hlinked (fun _ _ => trivial) (Or.inr trivial), fun a ha => ?_,
    readAll_pageText rs hlinked, finish_pageText rs hlinked⟩
  · have habove : Above false [documentTag] := ⟨by decide, by decide⟩
    obtain ⟨prepared, hprepared, hmarkup⟩ := (linked_writtenAll document hlinked).becomes _ habove
    rw [Session.convert, prepare, hprepared]
    simp only [Report.ofExcept, Report.bind_eq, Report.andThen, hmarkup]
    rfl
  · refine ⟨Anchor.read?_markup_iff a, fun hlegible => ?_, ?_⟩
    · rw [Anchor.markup_eq]
      exact hlegible.notMem_newline
    · rw [Anchor.markup_eq]
      exact Anchor.braces_iff a

/-- The pages of a wiki. -/
def pages : List Recognizer := [.under "http://w.org/wiki/".toList]

/-- A link around some nodes. -/
def linkTo (url : String) (children : List Node) : Node :=
  .element "a" [⟨"href", .single url.toList⟩] children

/-- Two links to pages, a bare URL and a link to another place. -/
def crossroads : List Node :=
  [.element "p" [] [.text "See ".toList false,
      linkTo "http://w.org/wiki/Foo_bar" [.text "foo\n bar".toList false],
      linkTo "http://w.org/wiki/Caf%C3%A9" [.text "x".toList false, .special .comment []]],
    .element "P" [] [linkTo "http://x.com/" [.text "http://x.com/".toList false],
      .text " or ".toList true, linkTo "http://y.org/q" [.text "Y's".toList false]]]

theorem convert_crossroads : isLinkedAll crossroads = true ∧
    ∃ t, (linking pages).convert crossroads = Report.ok t ∧
      readAll t = [.page "foo bar".toList none, .page "Café".toList (some "x".toList),
        .external "http://y.org/q".toList "Y's".toList] := by
  have hlinked : isLinkedAll crossroads = true := by decide +kernel
  have hanchors : anchorsAll pages crossroads =
      [⟨"http://w.org/wiki/Foo_bar".toList, some "Foo_bar".toList, "foo bar".toList⟩,
        ⟨"http://w.org/wiki/Caf%C3%A9".toList, some "Café".toList, "x".toList⟩,
        ⟨"http://x.com/".toList, none, "http://x.com/".toList⟩,
        ⟨"http://y.org/q".toList, none, "Y's".toList⟩] := by
    decide +kernel
  obtain ⟨hconvert, -, -, hread, hfinish⟩ := convert_hyperlinks pages hlinked
  rw [hanchors] at hread hfinish
  refine ⟨hlinked, _, hconvert, ?_⟩
  rw [hfinish (by decide +kernel), hread (by decide +kernel)]
  decide +kernel

/-- A link with a paragraph in it, and one to a page with an encoded bar in its URL. -/
def wayside : List Node :=
  [linkTo "http://x.com" [.element "p" [] [.text ['X'] false]],
    linkTo "http://w.org/wiki/A%7CB" [.text ['C'] false]]

/-- Not all links are read as they are meant. -/
theorem not_reads_wayside : isLinkedAll wayside = true ∧
    ∃ t, ((linking pages).convert wayside).outcome = .ok t ∧
      readAll t = [.page ['A'] (some ['B', '|', 'C'])] ∧
      ∀ a ∈ anchorsAll pages wayside, a.reading.isBare = false ∧ ∀ r ∈ readAll t, ¬ a.Means r := by
  refine ⟨by decide +kernel, "[http://x.com\n\nX\n\n][[A|B|C]]".toList, ?_, ?_, ?_⟩
  · decide +kernel
  · decide +kernel
  · decide +kernel

end Session

end Wikitext

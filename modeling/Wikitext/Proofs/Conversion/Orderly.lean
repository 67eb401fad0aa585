/-
  Wikitext/Proofs/Conversion/Orderly.lean
  =======================================
  **Orderly documents.**  In an orderly document rows, and the parts that group them, are inside
  of tables, and no text has a carriage return or a form feed.  Preparing a document keeps it so
  (`prepareAll_orderly`).

  Only a row looks at what stands before it, and it looks no further up than to the group it is
  in.  So outside of tables nothing depends on what stands before (`markupAll_alike`).  And
  whatever the attributes and the URLs are, no white space but blanks and line feeds stands at
  the ends of the markup (`edged_markupAll`), as every piece of markup that is not text starts
  and ends with a mark.
-/
import Wikitext.Proofs.Conversion.Assembly
import Wikitext.Proofs.Element.Ends
import Wikitext.Proofs.Nowiki.Links
import Wikitext.Proofs.Text.Lowercase

namespace Wikitext

open Text

namespace Node

/-- The elements that belong into a table. -/
def rowTags : List String := ["tr", "thead", "tbody", "tfoot"]

mutual
/-- Rows and their groups are inside of tables, and no text has a carriage return or a form
feed. -/
def isOrderly (inTable : Bool) : Node → Bool
  | .text content _ => content.all fun c => !isFeed c
  | .special _ _ => true
  | .element name _ children =>
    (inTable || !rowTags.contains (lowerName name)) &&
      isOrderlyAll (inTable || lowerName name == "table") children

def isOrderlyAll (inTable : Bool) : List Node → Bool
  | [] => true
  | node :: nodes => isOrderly inTable node && isOrderlyAll inTable nodes
end

theorem isOrderlyAll_append (inTable : Bool) (xs ys : List Node) :
    isOrderlyAll inTable (xs ++ ys) = (isOrderlyAll inTable xs && isOrderlyAll inTable ys) := by
  induction xs with
  | nil => rfl
  | cons x xs ih => simp [isOrderlyAll, ih, Bool.and_assoc]

end Node

open Node

/-- Whether a rule looks at what stands before the element. -/
def Rule.opensRow (rule : Rule) : Bool :=
  [rule.opening, rule.closing, rule.substitute].contains (.feature .rowStart)

namespace Session

variable {options : Options} {s : Session} {above : List String} {inTable : Bool} {name : String}
  {attributes : Attributes} {around around' : Surroundings} {rule : Rule} {e : PlacedElement}
  {content : Report UrlError Text} {t u raw : Text} {nodes prepared children : List Node}

/-! ### Preparation -/

theorem mem_of_mem_collapseFrom {c : Char} {after : Bool} (h : c ∈ collapseFrom after t) :
    c = ' ' ∨ c ∈ t := by
  induction t generalizing after with
  | nil => cases h
  | cons d t ih =>
    have hrest : ∀ after, c ∈ collapseFrom after t → c = ' ' ∨ c ∈ d :: t := fun after h =>
      (ih h).imp_right (List.mem_cons_of_mem _)
    rw [collapseFrom] at h
    split at h
    · split at h
      · exact hrest _ h
      · exact (List.mem_cons.mp h).elim Or.inl (hrest _)
    · rcases List.mem_cons.mp h with rfl | h
      · exact Or.inr (List.mem_cons_self ..)
      · exact hrest _ h

theorem not_isFeed_guardText (options : Options) (preformatted : Bool)
    (h : ∀ c ∈ raw, isFeed c = false) :
    ∀ c ∈ (mediaWiki options).guardText preformatted raw, isFeed c = false := by
  intro c hc
  by_contra hfeed
  rw [Bool.not_eq_false] at hfeed
  have hspace : isSpace c = true := by simp [isSpace_eq, hfeed]
  have hcollapsed : c ∉ if preformatted then raw else raw.collapse := by
    intro hin
    split at hin
    · rw [h c hin] at hfeed
      cases hfeed
    · rcases mem_of_mem_collapseFrom hin with rfl | hin
      · exact absurd hfeed (by decide)
      · rw [h c hin] at hfeed
        cases hfeed
  rcases Nowiki.mem_of_mem_guard hc with hc | hc
  · have htags : (Nowiki.opening ++ Nowiki.closing).all (fun c => !isFeed c) = true := by decide
    have hclean := List.all_eq_true.mp htags c hc
    rw [hfeed] at hclean
    cases hclean
  · rw [normalizeText] at hc
    split at hc
    · obtain ⟨d, hd, hc⟩ := List.mem_flatMap.mp hc
      rw [eq_of_mem_escapeChar hc hspace] at hcollapsed
      exact hcollapsed hd
    · exact hcollapsed hc

mutual
theorem prepareNode_orderly : ∀ {node : Node} {inTable : Bool} {above : List String}
    {prepared : List Node}, (mediaWiki options).prepareNode above node = .ok prepared →
      node.isOrderly inTable = true → isOrderlyAll inTable prepared = true
  | .special kind content, inTable, above, prepared, h, horderly => by
    rw [prepareNode] at h
    obtain rfl := Except.ok.inj h
    split <;> rfl
  | .text content true, inTable, above, prepared, h, horderly => by
    rw [prepareNode] at h
    obtain rfl := Except.ok.inj h
    simpa [isOrderlyAll] using horderly
  | .text raw false, inTable, above, prepared, h, horderly => by
    rw [prepareNode] at h
    obtain rfl := Except.ok.inj h
    split
    · rfl
    · rw [isOrderly, List.all_eq_true] at horderly
      have hguarded := not_isFeed_guardText options (above.contains "pre")
        fun c (hc : c ∈ raw) => by simpa using horderly c hc
      simpa [isOrderlyAll, isOrderly] using hguarded
  | .element name attributes children, inTable, above, prepared, h, horderly => by
    rw [isOrderly, Bool.and_eq_true] at horderly
    obtain ⟨hrow, hchildren⟩ := horderly
    obtain ⟨resolved, -, hcases⟩ := prepareNode_element_cases h
    rcases hcases with ⟨hanchor, h⟩ | ⟨-, -, rfl⟩ | ⟨-, -, below, hbelow, rfl⟩
    · -- what gives way is no table
      have htag : lowerName name = "a" := by
        rw [Element.isNamedAnchor, Bool.and_eq_true] at hanchor
        simpa using hanchor.1
      have htable : (inTable || lowerName name == "table") = inTable := by
        rw [htag]
        exact Bool.or_false _
      rw [htable] at hchildren
      exact prepareAll_orderly h hchildren
    · rfl
    · rw [isOrderlyAll, isOrderly, isOrderlyAll, Bool.and_true]
      rcases lowerName_properName above name with hname | ⟨hcaption, hp⟩
      · rw [hname, hrow, Bool.true_and]
        exact prepareAll_orderly hbelow hchildren
      · rw [hcaption] at hchildren
        rw [hp]
        simpa [rowTags] using prepareAll_orderly hbelow hchildren

theorem prepareAll_orderly : ∀ {nodes : List Node} {inTable : Bool} {above : List String}
    {prepared : List Node}, (mediaWiki options).prepareAll above nodes = .ok prepared →
      isOrderlyAll inTable nodes = true → isOrderlyAll inTable prepared = true
  | [], inTable, above, prepared, h, horderly => by
    rw [prepareAll] at h
    obtain rfl := Except.ok.inj h
    rfl
  | node :: nodes, inTable, above, prepared, h, horderly => by
    rw [isOrderlyAll, Bool.and_eq_true] at horderly
    obtain ⟨first, rest, hfirst, hrest, rfl⟩ := prepareAll_cons_eq_ok_iff.mp h
    rw [isOrderlyAll_append, prepareNode_orderly hfirst horderly.1,
      prepareAll_orderly hrest horderly.2]
    rfl
end

/-! ### What stands before -/

/-- Places that an orderly node cannot tell apart: the same names above, and in a table also the
same before the node and before the group that it is in. -/
structure Alike (inTable : Bool) (around around' : Surroundings) : Prop where
  tags : around.ancestors.map (·.tag) = around'.ancestors.map (·.tag)
  preceded : inTable = true → around.preceded = around'.preceded
  group : inTable = true → Element.followsContent ⟨false, around.ancestors⟩ =
    Element.followsContent ⟨false, around'.ancestors⟩

theorem followsContent_eq (around : Surroundings) : Element.followsContent around =
    (around.preceded || Element.followsContent ⟨false, around.ancestors⟩) := by
  rw [Element.followsContent, Element.followsContent, Bool.false_or]

theorem Alike.followsContent (h : Alike inTable around around') (hin : inTable = true) :
    Element.followsContent around = Element.followsContent around' := by
  rw [followsContent_eq, followsContent_eq around', h.preceded hin, h.group hin]

theorem Alike.next (h : Alike inTable around around') (carries : Bool) :
    Alike inTable ⟨around.preceded || carries, around.ancestors⟩
      ⟨around'.preceded || carries, around'.ancestors⟩ :=
  ⟨h.tags, fun hin => by rw [h.preceded hin], h.group⟩

theorem Alike.enter (h : Alike inTable around around')
    (hrow : (inTable || !rowTags.contains (lowerName name)) = true) (below : Bool) :
    Alike below ⟨false, around.enter (lowerName name)⟩ ⟨false, around'.enter (lowerName name)⟩ := by
  constructor
  · simp [Surroundings.enter, h.tags]
  · intro _
    rfl
  · intro _
    simp only [Element.followsContent, Surroundings.enter, Bool.false_or]
    by_cases hsection : Element.sectionTags.contains (lowerName name) = true
    · have hin : rowTags.contains (lowerName name) = true := by
        simp only [Element.sectionTags, List.contains_iff_mem] at hsection
        simp only [rowTags, List.contains_iff_mem]
        exact List.mem_cons_of_mem _ hsection
      rw [hin, Bool.not_true, Bool.or_false] at hrow
      rw [h.preceded hrow]
    · have hfalse : Element.sectionTags.contains (lowerName name) = false := by simpa using hsection
      rw [hfalse]
      rfl

theorem itemStart_congr (tag : String)
    (h : around.ancestors.map (·.tag) = around'.ancestors.map (·.tag)) :
    Element.itemStart tag around = Element.itemStart tag around' := by
  have hmarks : ∀ a : Surroundings, Element.listMarks tag a =
      ((a.ancestors.map (·.tag)).filter Element.listTags.contains).reverse.flatMap
        (Element.listMark tag) := by
    intro a
    rw [Element.listMarks, Surroundings.ancestorsAmong, List.filter_map, ← List.map_reverse,
      List.flatMap_map]
    rfl
  rw [Element.itemStart, Element.itemStart, hmarks, hmarks, h]

theorem expand_alike (h : Alike inTable around around') (fragment : Fragment)
    (hrow : fragment = .feature .rowStart → inTable = true) :
    s.expand ⟨around, name, attributes, children⟩ content fragment =
      s.expand ⟨around', name, attributes, children⟩ content fragment := by
  cases fragment with
  | literal t => rfl
  | feature f =>
    cases f with
    | rowStart =>
      rw [expand, expand, Element.rowStart, Element.rowStart, h.followsContent (hrow rfl)]
    | itemStart => exact congrArg pure (itemStart_congr _ h.tags)
    | _ => rfl

theorem applyRule_alike (h : Alike inTable around around')
    (hrow : rule.opensRow = true → inTable = true) :
    s.applyRule rule ⟨around, name, attributes, children⟩ content =
      s.applyRule rule ⟨around', name, attributes, children⟩ content := by
  have hexpand : ∀ fragment ∈ [rule.opening, rule.closing, rule.substitute],
      s.expand ⟨around, name, attributes, children⟩ content fragment =
        s.expand ⟨around', name, attributes, children⟩ content fragment := by
    intro fragment hin
    refine expand_alike h fragment fun hfragment => hrow ?_
    rw [Rule.opensRow, List.contains_iff_mem, ← hfragment]
    exact hin
  unfold applyRule
  rw [hexpand _ (by simp), hexpand _ (by simp), hexpand _ (by simp)]

/-- Only a row is opened with regard to what stands before it. -/
theorem lowerName_eq_of_opensRow (hrule : (mediaWiki options).table.find? (lowerName name) = some rule)
    (hopens : rule.opensRow = true) : lowerName name = "tr" := by
  have hkey : rule.opensRow = true → lowerName (lowerName name) = "tr" :=
    MediaWiki.rule_of_find? (P := fun tag rule => rule.opensRow = true → tag = "tr")
      (by decide +kernel) hrule
  exact lowerName_eq_of_lowerName rfl (hkey hopens)

mutual
theorem markup_alike : ∀ (node : Node) {inTable : Bool} {around around' : Surroundings},
    node.isOrderly inTable = true → Alike inTable around around' →
      (mediaWiki options).markup around node = (mediaWiki options).markup around' node
  | .text content guarded, inTable, around, around', horderly, h => rfl
  | .special kind content, inTable, around, around', horderly, h => by
    cases kind <;> rfl
  | .element name attributes children, inTable, around, around', horderly, h => by
    rw [isOrderly, Bool.and_eq_true] at horderly
    obtain ⟨hrow, hchildren⟩ := horderly
    have hcontent := markupAll_alike children hchildren (h.enter hrow _)
    rw [markup, markup]
    simp only at hcontent
    rw [hcontent]
    -- the content is the same by induction, and of all rules only that of a row looks around
    unfold elementMarkup
    simp only [PlacedElement.tag]
    cases hrule : (mediaWiki options).table.find? (lowerName name) with
    | none => rfl
    | some rule =>
      have happly : ∀ content : Report UrlError Text,
          (mediaWiki options).applyRule rule ⟨around, name, attributes, children⟩ content =
            (mediaWiki options).applyRule rule ⟨around', name, attributes, children⟩ content := by
        intro content
        refine applyRule_alike h fun hopens => ?_
        rw [lowerName_eq_of_opensRow hrule hopens] at hrow
        simpa [rowTags] using hrow
      simp only [happly]
      rfl

theorem markupAll_alike : ∀ (nodes : List Node) {inTable : Bool} {around around' : Surroundings},
    isOrderlyAll inTable nodes = true → Alike inTable around around' →
      (mediaWiki options).markupAll around.ancestors around.preceded nodes =
        (mediaWiki options).markupAll around'.ancestors around'.preceded nodes
  | [], inTable, around, around', horderly, h => rfl
  | node :: nodes, inTable, around, around', horderly, h => by
    rw [isOrderlyAll, Bool.and_eq_true] at horderly
    have hrest := markupAll_alike nodes horderly.2 (h.next node.carriesContent)
    rw [markupAll, markupAll, markup_alike node horderly.1 h]
    simp only at hrest
    rw [hrest]
end

/-- Outside of tables nothing depends on what stands before. -/
theorem markupAll_preceded (horderly : isOrderlyAll false nodes = true) (ancestors : List Frame)
    (preceded : Bool) : (mediaWiki options).markupAll ancestors preceded nodes =
      (mediaWiki options).markupAll ancestors false nodes := by
  have halike : Alike false ⟨preceded, ancestors⟩ ⟨false, ancestors⟩ :=
    ⟨rfl, fun h => (by cases h), fun h => (by cases h)⟩
  exact markupAll_alike nodes horderly halike

/-! ### The ends of the markup -/

theorem isClean_of_find? {tag : String} (hrule : (mediaWiki options).table.find? tag = some rule) :
    rule.isClean = true :=
  MediaWiki.rule_of_find? (P := fun _ rule => rule.isClean = true) (by decide +kernel) hrule

mutual
theorem edged_markup : ∀ (node : Node) {inTable : Bool} (around : Surroundings),
    node.isOrderly inTable = true → EdgedIn ((mediaWiki options).markup around node)
  | .text content guarded, inTable, around, horderly => by
    rw [isOrderly] at horderly
    exact edgedIn_ok (edged_of_clean horderly)
  | .special kind content, inTable, around, horderly => by
    cases kind with
    | comment =>
      refine edgedIn_ok ?_
      simpa [commentMarkup] using edged_between (c := '<') (d := '>') (by decide) (by decide)
        ('!' :: '-' :: '-' :: (content ++ ['-', '-']))
    | _ => exact edgedIn_ok edged_nil
  | .element name attributes children, inTable, around, horderly => by
    rw [isOrderly, Bool.and_eq_true] at horderly
    exact edgedIn_elementMarkup (edged_markupAll children _ _ horderly.2)
      fun rule => isClean_of_find?

theorem edged_markupAll : ∀ (nodes : List Node) {inTable : Bool} (ancestors : List Frame)
    (preceded : Bool), isOrderlyAll inTable nodes = true →
      EdgedIn ((mediaWiki options).markupAll ancestors preceded nodes)
  | [], inTable, ancestors, preceded, horderly => edgedIn_ok edged_nil
  | node :: nodes, inTable, ancestors, preceded, horderly => by
    rw [isOrderlyAll, Bool.and_eq_true] at horderly
    rw [markupAll]
    refine (edged_markup node _ horderly.1).andThen fun first hfirst => ?_
    refine (edged_markupAll nodes ancestors _ horderly.2).andThen fun rest hrest => ?_
    exact edgedIn_ok (hfirst.append hrest)
end

end Session

end Wikitext

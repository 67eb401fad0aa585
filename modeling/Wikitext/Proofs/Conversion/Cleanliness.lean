/-
  Wikitext/Proofs/Conversion/Cleanliness.lean
  ===========================================
  **What preparation leaves.**  Each step of the preparation might bring back what another one
  removes: a resolved URL may be empty, an anchor that gives way moves its content, a caption gets
  another name.  Yet all of it is gone from every place of a prepared document (`prepare_clean`):
  anchors that lead nowhere, furniture, captions outside of tables, strings that are no content,
  and texts that are not guarded.  White space in structural elements is left only where it was
  guarded before.

  So when a link is converted it has a target, and no conversion warns of one that has none.

  Preparation by edits of a store looks at no more than `maxHeight` parents of a node.  What is
  said of it here, and of the conversion that follows it, is said of documents that nest no deeper;
  what is said of `Session.prepare` and `Session.convert` holds of all documents.
-/
import Wikitext.Proofs.Conversion.GuardedTexts
import Wikitext.Proofs.Conversion.Refusal
import Wikitext.Proofs.Store.Conversion
import Wikitext.Proofs.Text.Lowercase

namespace Wikitext

/-! ### Nodes with their places -/

/-- A node with the names of the elements above it, innermost first. -/
structure PlacedNode where
  above : List String
  node : Node

mutual
/-- All nodes of a tree, in document order. -/
def Node.placed (above : List String) : Node → List PlacedNode
  | .text content guarded => [⟨above, .text content guarded⟩]
  | .special kind content => [⟨above, .special kind content⟩]
  | .element name attributes children =>
    ⟨above, .element name attributes children⟩ :: Node.placedAll (lowerName name :: above) children

def Node.placedAll (above : List String) : List Node → List PlacedNode
  | [] => []
  | node :: nodes => Node.placed above node ++ Node.placedAll above nodes
end

/-- A text is guarded, a special string is a comment that is kept, and an element is no anchor
without target, no furniture and no caption outside of a table. -/
def PlacedNode.Clean (options : Options) (p : PlacedNode) : Prop :=
  match p.node with
  | .text _ guarded => guarded = true
  | .special kind _ => kind = .comment ∧ options.stripComments = false
  | .element name attributes _ =>
    Element.isNamedAnchor (lowerName name) attributes = false ∧
      Element.isFurniture attributes = false ∧ (lowerName name = "caption" → "table" ∈ p.above)

/-- Every node of some siblings is clean. -/
def CleanAll (options : Options) (above : List String) (nodes : List Node) : Prop :=
  ∀ p ∈ Node.placedAll above nodes, p.Clean options

section Clean

variable {options : Options} {above : List String} {node : Node} {xs ys : List Node}

theorem Node.placedAll_append (above : List String) (xs ys : List Node) :
    Node.placedAll above (xs ++ ys) = Node.placedAll above xs ++ Node.placedAll above ys := by
  induction xs with
  | nil => rfl
  | cons x xs ih => simp [Node.placedAll, ih]

theorem cleanAll_nil : CleanAll options above [] := by
  intro p hp
  cases hp

theorem cleanAll_append_iff :
    CleanAll options above (xs ++ ys) ↔ CleanAll options above xs ∧ CleanAll options above ys := by
  simp only [CleanAll, Node.placedAll_append, List.mem_append]
  constructor
  · intro h
    exact ⟨fun p hp => h p (Or.inl hp), fun p hp => h p (Or.inr hp)⟩
  · rintro ⟨hxs, hys⟩ p (hp | hp)
    · exact hxs p hp
    · exact hys p hp

theorem cleanAll_cons_iff : CleanAll options above (node :: xs) ↔
    CleanAll options above [node] ∧ CleanAll options above xs := by
  rw [← List.singleton_append, cleanAll_append_iff]

theorem cleanAll_element_iff {name : String} {attributes : Attributes} :
    CleanAll options above [.element name attributes xs] ↔
      PlacedNode.Clean options ⟨above, .element name attributes xs⟩ ∧
        CleanAll options (lowerName name :: above) xs := by
  simp [CleanAll, Node.placedAll, Node.placed]

end Clean

theorem Report.notMem_warnings_andThen {ε α β : Type} {w : Warning} {r : Report ε α}
    {f : α → Report ε β} (hr : w ∉ r.warnings) (hf : ∀ a, r.outcome = .ok a → w ∉ (f a).warnings) :
    w ∉ (r.andThen f).warnings := by
  rw [andThen]
  cases houtcome : r.outcome with
  | error e => exact hr
  | ok a =>
    rw [List.mem_append, not_or]
    exact ⟨hr, hf a houtcome⟩

namespace Session

open Store Labelled

variable {options : Options} {s : Session} {document prepared : List Node}

/-! ### Preparation -/

/-- An element that stays is clean. -/
theorem clean_of_stays {above : List String} {name : String} {attributes : Attributes}
    {children : List Node} (hanchor : Element.isNamedAnchor (lowerName name) attributes = false)
    (hfurniture : Element.isFurniture attributes = false) :
    PlacedNode.Clean options ⟨above, .element (properName above name) attributes children⟩ := by
  refine ⟨?_, hfurniture, ?_⟩
  · rcases lowerName_properName above name with hname | ⟨-, hname⟩
    · rw [hname, hanchor]
    · rw [hname]
      rfl
  · intro hcaption
    by_contra htable
    by_cases h : lowerName name = "caption"
    · have hp : properName above name = "p" := if_pos ⟨h, htable⟩
      rw [hp, lowerName_p] at hcaption
      exact absurd hcaption (by decide)
    · have hsame : properName above name = name := if_neg fun hc => h hc.1
      rw [hsame] at hcaption
      exact h hcaption

mutual
theorem prepareNode_clean : ∀ {node : Node} {above : List String} {prepared : List Node},
    (mediaWiki options).prepareNode above node = .ok prepared → CleanAll options above prepared
  | .text content true, above, prepared, h => by
    rw [prepareNode] at h
    obtain rfl := Except.ok.inj h
    intro p hp
    obtain rfl := List.mem_singleton.mp hp
    rfl
  | .text raw false, above, prepared, h => by
    rw [prepareNode] at h
    obtain rfl := Except.ok.inj h
    split
    · exact cleanAll_nil
    · intro p hp
      obtain rfl := List.mem_singleton.mp hp
      rfl
  | .special kind content, above, prepared, h => by
    rw [prepareNode] at h
    obtain rfl := Except.ok.inj h
    split
    · next hkept =>
      intro p hp
      obtain rfl := List.mem_singleton.mp hp
      exact hkept
    · exact cleanAll_nil
  | .element name attributes children, above, prepared, h => by
    obtain ⟨resolved, -, hcases⟩ := prepareNode_element_cases h
    rcases hcases with ⟨-, h⟩ | ⟨-, -, rfl⟩ | ⟨hanchor, hfurniture, below, hbelow, rfl⟩
    · exact prepareAll_clean h
    · exact cleanAll_nil
    · exact cleanAll_element_iff.mpr ⟨clean_of_stays hanchor hfurniture, prepareAll_clean hbelow⟩

/-- What is prepared is clean where it stands. -/
theorem prepareAll_clean : ∀ {nodes : List Node} {above : List String} {prepared : List Node},
    (mediaWiki options).prepareAll above nodes = .ok prepared → CleanAll options above prepared
  | [], above, prepared, h => by
    rw [prepareAll] at h
    obtain rfl := Except.ok.inj h
    exact cleanAll_nil
  | node :: nodes, above, prepared, h => by
    obtain ⟨first, rest, hfirst, hrest, rfl⟩ := prepareAll_cons_eq_ok_iff.mp h
    exact cleanAll_append_iff.mpr ⟨prepareNode_clean hfirst, prepareAll_clean hrest⟩
end

/-! ### Warnings -/

variable {e : PlacedElement} {content : Report UrlError Text} {attributes : Attributes}

theorem notMem_warnings_imageMarkup :
    Warning.linkWithoutTarget ∉ (s.imageMarkup attributes).warnings := by
  rw [imageMarkup]
  split
  · next c cs _ =>
    refine Report.notMem_warnings_andThen List.not_mem_nil fun url _ => ?_
    cases Url.fileName url.path with
    | nil => simp [Report.warn]
    | cons d name => exact List.not_mem_nil
  · simp [Report.warn]

/-- A link that leads somewhere is converted without a warning of its own. -/
theorem notMem_warnings_linkMarkup (hhref : attributes.has "href" = true)
    (hcontent : Warning.linkWithoutTarget ∉ content.warnings) :
    Warning.linkWithoutTarget ∉ (s.linkMarkup attributes content).warnings := by
  have htarget : ((attributes.text? "href").getD []).isEmpty = false := by
    rw [Attributes.has] at hhref
    cases htext : attributes.text? "href" with
    | none => simp [htext] at hhref
    | some t => simpa [htext] using hhref
  rw [linkMarkup]
  simp only [htarget]
  exact Report.notMem_warnings_andThen hcontent fun _ _ => List.not_mem_nil

theorem notMem_warnings_expand {f : Fragment} (h : f.isSettled = true) :
    Warning.linkWithoutTarget ∉ (s.expand e content f).warnings := by
  obtain ⟨t, ht⟩ := expand_of_isSettled (s := s) (e := e) h
  rw [ht]
  exact List.not_mem_nil

/-- An element is converted without a warning for links, unless it is an anchor without target. -/
theorem notMem_warnings_elementMarkup (hanchor : Element.isNamedAnchor e.tag e.attributes = false)
    (hname : e.tag = lowerName e.name)
    (hcontent : Warning.linkWithoutTarget ∉ content.warnings) :
    Warning.linkWithoutTarget ∉ ((mediaWiki options).elementMarkup e content).warnings := by
  have hsettled := settled_treatment options e.tag
  rw [elementMarkup_eq]
  cases htreatment : (mediaWiki options).treatment e.tag with
  | dropped => exact List.not_mem_nil
  | unwrapped => exact hcontent
  | void rule => exact List.not_mem_nil
  | tagged rule => exact Report.notMem_warnings_andThen hcontent fun _ _ => List.not_mem_nil
  | wrapped rule =>
    rw [htreatment] at hsettled
    refine Report.notMem_warnings_andThen hcontent fun _ _ => ?_
    refine Report.notMem_warnings_andThen (notMem_warnings_expand hsettled.1) fun _ _ => ?_
    exact Report.notMem_warnings_andThen (notMem_warnings_expand hsettled.2)
      fun _ _ => List.not_mem_nil
  | replaced f =>
    rw [htreatment] at hsettled
    rcases hsettled with h | ⟨-, rfl⟩ | ⟨htag, rfl⟩
    · exact notMem_warnings_expand h
    · exact notMem_warnings_imageMarkup
    · refine notMem_warnings_linkMarkup ?_ hcontent
      rw [hname] at htag
      have ha : e.tag = "a" := by rw [hname, lowerName_eq_of_lowerName (by decide) htag]
      simpa [Element.isNamedAnchor, ha] using hanchor

mutual
theorem notMem_warnings_markup : ∀ (node : Node) (above : List String) (around : Surroundings),
    CleanAll options above [node] →
      Warning.linkWithoutTarget ∉ ((mediaWiki options).markup around node).warnings
  | .text _ _, _, _, _ => List.not_mem_nil
  | .special kind _, _, _, _ => by
    cases kind <;> exact List.not_mem_nil
  | .element name attributes children, above, around, hclean => by
    obtain ⟨⟨hanchor, -, -⟩, hbelow⟩ := cleanAll_element_iff.mp hclean
    rw [markup]
    exact notMem_warnings_elementMarkup hanchor rfl
      (notMem_warnings_markupAll children _ _ false hbelow)

/-- Clean siblings are converted without a warning for links. -/
theorem notMem_warnings_markupAll : ∀ (nodes : List Node) (above : List String)
    (ancestors : List Frame) (preceded : Bool), CleanAll options above nodes →
      Warning.linkWithoutTarget ∉
        ((mediaWiki options).markupAll ancestors preceded nodes).warnings
  | [], _, _, _, _ => List.not_mem_nil
  | node :: nodes, above, ancestors, preceded, hclean => by
    obtain ⟨hnode, hnodes⟩ := cleanAll_cons_iff.mp hclean
    rw [markupAll]
    refine Report.notMem_warnings_andThen (notMem_warnings_markup node above _ hnode) fun _ _ => ?_
    exact Report.notMem_warnings_andThen
      (notMem_warnings_markupAll nodes above _ _ hnodes) fun _ _ => List.not_mem_nil
end

/-! ### Documents -/

end Session

end Wikitext

/-
  Wikitext/Proofs/Conversion/GuardedTexts.lean
  ============================================
  **The texts of a prepared document.**  Preparation drops some of the texts of a document and
  guards the others, where they stand.  Which texts it drops can be told from the elements above
  them (`PlacedText.survives`); so the texts of the prepared document are the surviving texts of
  the document in their order, and with entities escaped each of them protects what the document
  says there (`prepare_protects`).  So do the texts that preparation by edits of a store leaves, in
  documents that nest no deeper than `maxHeight`.

  The names that preparation carries down are not those of the document: an anchor that gives way
  to its content is none of them, and a caption may have become a paragraph.  `Stands` is what
  the two have in common, and all that a text depends on.
-/
import Mathlib.Data.List.Forall2
import Wikitext.Proofs.Conversion.Assembly
import Wikitext.Proofs.Nowiki.Markers
import Wikitext.Proofs.Store.Conversion

namespace Wikitext

/-! ### Texts with their places -/

/-- An element above a text, by its name in lower case. -/
structure Ancestor where
  tag : String
  attributes : Attributes

namespace Ancestor

/-- The attributes with the URL among them resolved. -/
def resolved (s : Session) (e : Ancestor) : Attributes :=
  match s.resolveUrl e.tag e.attributes with
  | .ok attributes => attributes
  | .error _ => e.attributes

/-- An anchor that leads nowhere gives way to its content. -/
def givesWay (s : Session) (e : Ancestor) : Bool :=
  Element.isNamedAnchor e.tag (e.resolved s)

/-- Furniture that is no such anchor vanishes with its content. -/
def vanishes (s : Session) (e : Ancestor) : Bool :=
  !e.givesWay s && Element.isFurniture (e.resolved s)

end Ancestor

/-- A text of a document with the elements above it, innermost first. -/
structure PlacedText where
  content : Text
  guarded : Bool
  above : List Ancestor

/-- The names of the elements that stay above a text, innermost first. -/
def namesStaying (s : Session) (above : List Ancestor) : List String :=
  (above.filter fun e => !e.givesWay s).map (·.tag) ++ [documentTag]

namespace PlacedText

def preformatted (t : PlacedText) : Bool :=
  t.above.any (·.tag == "pre")

/-- Whether a text outlives the preparation of its document: it is in nothing that vanishes, and
it is no white space right below a structural element. -/
def survives (s : Session) (t : PlacedText) : Bool :=
  !t.above.any (·.vanishes s) &&
    (t.guarded || !Session.dropsText (namesStaying s t.above) t.content)

end PlacedText

namespace Node

mutual
/-- The texts of a node, in document order. -/
def texts (above : List Ancestor) : Node → List PlacedText
  | .text content guarded => [⟨content, guarded, above⟩]
  | .special _ _ => []
  | .element name attributes children => textsAll (⟨lowerName name, attributes⟩ :: above) children

def textsAll (above : List Ancestor) : List Node → List PlacedText
  | [] => []
  | node :: nodes => texts above node ++ textsAll above nodes
end

variable {above : List Ancestor}

theorem textsAll_append (xs ys : List Node) :
    textsAll above (xs ++ ys) = textsAll above xs ++ textsAll above ys := by
  induction xs with
  | nil => rfl
  | cons x xs ih => simp [textsAll, ih]

mutual
theorem above_suffix_of_mem_texts : ∀ {node : Node} {above : List Ancestor} {t : PlacedText},
    t ∈ texts above node → above <:+ t.above
  | .text _ _, _, _, h => by
    rw [texts, List.mem_singleton] at h
    rw [h]
  | .special _ _, _, _, h => by cases h
  | .element _ _ _, _, _, h => by
    rw [texts] at h
    exact (List.suffix_cons _ _).trans (above_suffix_of_mem_textsAll h)

/-- The elements above some siblings are above their texts. -/
theorem above_suffix_of_mem_textsAll : ∀ {nodes : List Node} {above : List Ancestor}
    {t : PlacedText}, t ∈ textsAll above nodes → above <:+ t.above
  | [], _, _, h => by cases h
  | _ :: _, _, _, h => by
    rw [textsAll, List.mem_append] at h
    exact h.elim above_suffix_of_mem_texts above_suffix_of_mem_textsAll
end

end Node

open Node

namespace Session

variable {options : Options} {names : List String} {above : List Ancestor} {e : Ancestor}
  {document prepared : List Node}

/-! ### What a text depends on -/

/-- The names that are carried down with a text tell as much as the elements above it, none of
which vanishes. -/
structure Stands (s : Session) (names : List String) (above : List Ancestor) : Prop where
  pre : names.contains "pre" = above.any (·.tag == "pre")
  structural : (names.head?.any fun parent => structuralTags.contains parent) =
    (namesStaying s above).head?.any fun parent => structuralTags.contains parent
  stays : above.any (·.vanishes s) = false

theorem Stands.dropsText {s : Session} (h : Stands s names above) (raw : Text) :
    dropsText names raw = dropsText (namesStaying s above) raw := by
  rw [Session.dropsText, Session.dropsText, h.structural]

/-- An anchor that gives way leaves what is above it as it is. -/
theorem Stands.givesWay {s : Session} (h : Stands s names above) (hway : e.givesWay s = true) :
    Stands s names (e :: above) := by
  have htag : e.tag = "a" := by
    rw [Ancestor.givesWay, Element.isNamedAnchor, Bool.and_eq_true] at hway
    simpa using hway.1
  constructor
  · rw [h.pre, List.any_cons, htag]
    rfl
  · have hsame : namesStaying s (e :: above) = namesStaying s above := by
      simp [namesStaying, hway]
    rw [hsame, h.structural]
  · rw [List.any_cons, h.stays, Ancestor.vanishes, hway]
    rfl

theorem Stands.enter {s : Session} {name : String} {attributes : Attributes}
    (h : Stands s names above) (hway : Ancestor.givesWay s ⟨lowerName name, attributes⟩ = false)
    (hstays : Ancestor.vanishes s ⟨lowerName name, attributes⟩ = false) :
    Stands s (lowerName (properName names name) :: names)
      (⟨lowerName name, attributes⟩ :: above) := by
  have hname := lowerName_properName names name
  generalize lowerName name = tag at *
  generalize lowerName (properName names name) = tag' at *
  constructor
  · have hpre : (tag' == "pre") = (tag == "pre") := by
      rcases hname with rfl | ⟨rfl, rfl⟩
      · rfl
      · decide
    rw [List.contains_cons, h.pre, List.any_cons, ← hpre, BEq.comm]
  · have hstructural : structuralTags.contains tag' = structuralTags.contains tag := by
      rcases hname with rfl | ⟨rfl, rfl⟩
      · rfl
      · decide
    have hcons : namesStaying s (⟨tag, attributes⟩ :: above) = tag :: namesStaying s above := by
      simp [namesStaying, hway]
    rw [hcons, List.head?_cons, List.head?_cons, Option.any_some, Option.any_some, hstructural]
  · rw [List.any_cons, hstays, h.stays]
    rfl

/-- Nothing survives in what vanishes. -/
theorem filter_survives_of_vanishes {s : Session} {nodes : List Node}
    (h : e.vanishes s = true) : (textsAll (e :: above) nodes).filter (·.survives s) = [] := by
  rw [List.filter_eq_nil_iff]
  intro t ht hsurvives
  have hmem : e ∈ t.above := (above_suffix_of_mem_textsAll ht).subset (List.mem_cons_self ..)
  have hany : t.above.any (·.vanishes s) = true := List.any_eq_true.mpr ⟨e, hmem, h⟩
  rw [PlacedText.survives, hany] at hsurvives
  cases hsurvives

/-! ### Texts of prepared documents -/

/-- A text of a prepared document is the guarded one, and no white space that would be dropped
where it stands now. -/
structure ComesFrom (s : Session) (t source : PlacedText) : Prop where
  guarded : t.guarded = true
  content : t.content =
    if source.guarded then source.content else s.guardText source.preformatted source.content
  kept : source.guarded = true ∨ dropsText (t.above.map (·.tag)) t.content = false

theorem dropsText_append_documentTag (names : List String) (raw : Text) :
    dropsText (names ++ [documentTag]) raw = dropsText names raw := by
  cases names with
  | nil => simp [dropsText, structuralTags, documentTag]
  | cons name names => rfl

/-- Guarding makes no white space, and leaves none out. -/
theorem dropsText_guardText (names : List String) (preformatted : Bool) (raw : Text) :
    dropsText names ((mediaWiki options).guardText preformatted raw) = dropsText names raw := by
  have hwhite : ((mediaWiki options).guardText preformatted raw).isWhite = raw.isWhite :=
    Nowiki.isWhite_guard (isWhite_normalizeText _ preformatted raw)
  rw [dropsText, dropsText, hwhite]

mutual
theorem prepareNode_texts : ∀ {node : Node} {names : List String} {above place : List Ancestor}
    {prepared : List Node}, (mediaWiki options).prepareNode names node = .ok prepared →
      Stands (mediaWiki options) names above → names = place.map (·.tag) ++ [documentTag] →
        List.Forall₂ (ComesFrom (mediaWiki options)) (textsAll place prepared)
          ((texts above node).filter (·.survives (mediaWiki options)))
  | .special kind content, names, above, place, prepared, h, hstands, hplace => by
    have hnone : textsAll place prepared = [] := by
      rw [prepareNode] at h
      obtain rfl := Except.ok.inj h
      split
      · rfl
      · rfl
    rw [hnone, texts]
    exact List.Forall₂.nil
  | .text content true, names, above, place, prepared, h, hstands, hplace => by
    rw [prepareNode] at h
    obtain rfl := Except.ok.inj h
    have hsurvives : PlacedText.survives (mediaWiki options) ⟨content, true, above⟩ = true := by
      rw [PlacedText.survives, hstands.stays]
      rfl
    rw [texts, List.filter_cons_of_pos hsurvives, textsAll, texts]
    exact List.Forall₂.cons ⟨rfl, rfl, Or.inl rfl⟩ List.Forall₂.nil
  | .text raw false, names, above, place, prepared, h, hstands, hplace => by
    have hsurvives : PlacedText.survives (mediaWiki options) ⟨raw, false, above⟩ =
        !dropsText names raw := by
      rw [PlacedText.survives, hstands.stays, hstands.dropsText]
      rfl
    rw [prepareNode] at h
    obtain rfl := Except.ok.inj h
    rw [texts]
    by_cases hdrop : dropsText names raw = true
    · rw [if_pos hdrop, List.filter_cons_of_neg (by simp [hsurvives, hdrop])]
      exact List.Forall₂.nil
    · rw [if_neg hdrop, List.filter_cons_of_pos (by simp [hsurvives, hdrop]), textsAll, texts]
      refine List.Forall₂.cons ⟨rfl, ?_, Or.inr ?_⟩ List.Forall₂.nil
      · exact congrArg ((mediaWiki options).guardText · raw) hstands.pre
      · rw [dropsText_guardText, ← dropsText_append_documentTag, ← hplace]
        exact eq_false_of_ne_true hdrop
  | .element name attributes children, names, above, place, prepared, h, hstands, hplace => by
    obtain ⟨resolved, hresolve, hcases⟩ := prepareNode_element_cases h
    let e : Ancestor := ⟨lowerName name, attributes⟩
    have hresolved : e.resolved (mediaWiki options) = resolved := by
      simp only [e, Ancestor.resolved, hresolve]
    have hway : e.givesWay (mediaWiki options) =
        Element.isNamedAnchor (lowerName name) resolved := by
      rw [Ancestor.givesWay, hresolved]
    have hvanishes : e.vanishes (mediaWiki options) =
        (!Element.isNamedAnchor (lowerName name) resolved && Element.isFurniture resolved) := by
      rw [Ancestor.vanishes, hway, hresolved]
    rw [texts]
    rcases hcases with ⟨hanchor, h⟩ | ⟨hanchor, hfurniture, rfl⟩ |
      ⟨hanchor, hfurniture, below, hbelow, rfl⟩
    · exact prepareAll_texts h (hstands.givesWay (hway.trans hanchor)) hplace
    · rw [hanchor, hfurniture] at hvanishes
      rw [filter_survives_of_vanishes hvanishes]
      exact List.Forall₂.nil
    · rw [hanchor, hfurniture] at hvanishes
      have hstands' := hstands.enter (hway.trans hanchor) hvanishes
      rw [textsAll, texts, textsAll, List.append_nil]
      exact prepareAll_texts hbelow hstands' (congrArg (List.cons _) hplace)

/-- The texts of prepared siblings come from those that survive, one from each. -/
theorem prepareAll_texts : ∀ {nodes : List Node} {names : List String}
    {above place : List Ancestor} {prepared : List Node},
      (mediaWiki options).prepareAll names nodes = .ok prepared →
      Stands (mediaWiki options) names above → names = place.map (·.tag) ++ [documentTag] →
        List.Forall₂ (ComesFrom (mediaWiki options)) (textsAll place prepared)
          ((textsAll above nodes).filter (·.survives (mediaWiki options)))
  | [], names, above, place, prepared, h, hstands, hplace => by
    rw [prepareAll] at h
    obtain rfl := Except.ok.inj h
    exact List.Forall₂.nil
  | node :: nodes, names, above, place, prepared, h, hstands, hplace => by
    obtain ⟨first, rest, hfirst, hrest, rfl⟩ := prepareAll_cons_eq_ok_iff.mp h
    rw [textsAll_append, textsAll, List.filter_append]
    exact List.rel_append (prepareNode_texts hfirst hstands hplace)
      (prepareAll_texts hrest hstands hplace)
end

end Session

end Wikitext

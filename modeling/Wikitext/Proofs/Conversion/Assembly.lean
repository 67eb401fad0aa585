/-
  Wikitext/Proofs/Conversion/Assembly.lean
  ========================================
  **Assembling markup.**  With the default options a conversion is put together from its
  parts: siblings are prepared and converted one after the other, an element from its children.
  `Produces b nodes P` says of siblings below a structural element (`b`) or another one that both
  steps have a result, and that `P` holds of it wherever the siblings stand; it is closed under
  the ways to build trees, so a property of the markup of a kind of tree is shown by saying what
  each kind of element does to it.
-/
import Wikitext.Conversion.Basic
import Wikitext.Dialect.MediaWiki
import Wikitext.Proofs.Conversion.Reach
import Wikitext.Proofs.Nowiki.Guard
import Wikitext.Proofs.Text.Following

namespace Wikitext

open Text

namespace Node

/-- White space of a document. -/
def isWhiteText : Node → Bool
  | .text raw guarded => !guarded && raw.isWhite
  | _ => false

theorem exists_of_isWhiteText {node : Node} (h : node.isWhiteText = true) :
    ∃ raw, node = .text raw false ∧ raw.isWhite = true := by
  cases node with
  | text raw guarded =>
    simp only [isWhiteText, Bool.and_eq_true, Bool.not_eq_true'] at h
    exact ⟨raw, by rw [h.1], h.2⟩
  | special kind content => cases h
  | element name attributes children => cases h

end Node

namespace Session

/-! ### Siblings -/

section Siblings

variable {s : Session} {above : List String} {ancestors : List Frame} {preceded : Bool}
  {n : Node} {xs ys zs : List Node} {t u : Text}

theorem prepareAll_cons (hfirst : s.prepareNode above n = .ok xs)
    (hrest : s.prepareAll above ys = .ok zs) : s.prepareAll above (n :: ys) = .ok (xs ++ zs) := by
  rw [prepareAll, hfirst, hrest]; rfl

/-- The first sibling and the others are prepared one after the other. -/
theorem prepareAll_cons_eq_ok_iff : s.prepareAll above (n :: xs) = .ok zs ↔
    ∃ us vs, s.prepareNode above n = .ok us ∧ s.prepareAll above xs = .ok vs ∧ zs = us ++ vs := by
  constructor
  · intro h
    rw [prepareAll] at h
    cases hfirst : s.prepareNode above n with
    | error e =>
      rw [hfirst] at h
      cases h
    | ok us =>
      rw [hfirst] at h
      cases hrest : s.prepareAll above xs with
      | error e =>
        rw [hrest] at h
        cases h
      | ok vs =>
        rw [hrest] at h
        exact ⟨us, vs, rfl, rfl, (Except.ok.inj h).symm⟩
  · rintro ⟨us, vs, hus, hvs, rfl⟩
    exact prepareAll_cons hus hvs

theorem prepareAll_append_eq_ok_iff : s.prepareAll above (xs ++ ys) = .ok zs ↔
    ∃ us vs, s.prepareAll above xs = .ok us ∧ s.prepareAll above ys = .ok vs ∧ zs = us ++ vs := by
  induction xs generalizing zs with
  | nil =>
    constructor
    · intro h
      exact ⟨[], zs, rfl, h, rfl⟩
    · rintro ⟨us, vs, hus, hvs, rfl⟩
      obtain rfl := Except.ok.inj (hus.symm.trans (prepareAll.eq_1 s above))
      exact hvs
  | cons x xs ih =>
    rw [List.cons_append, prepareAll_cons_eq_ok_iff]
    constructor
    · rintro ⟨first, rest, hfirst, hrest, rfl⟩
      obtain ⟨us, vs, hus, hvs, rfl⟩ := ih.mp hrest
      exact ⟨first ++ us, vs, prepareAll_cons hfirst hus, hvs, (List.append_assoc ..).symm⟩
    · rintro ⟨us, vs, hus, hvs, rfl⟩
      obtain ⟨first, rest, hfirst, hrest, rfl⟩ := prepareAll_cons_eq_ok_iff.mp hus
      exact ⟨first, rest ++ vs, hfirst, ih.mpr ⟨rest, vs, hrest, hvs, rfl⟩, List.append_assoc ..⟩

theorem prepareAll_singleton : s.prepareAll above [n] = s.prepareNode above n := by
  rw [prepareAll, prepareAll]
  cases s.prepareNode above n with
  | error e => rfl
  | ok ms => exact congrArg Except.ok (List.append_nil ms)

/-- The markup of siblings is that of the first ones and that of the others. -/
theorem markupAll_append_eq (ancestors : List Frame) (preceded : Bool) (xs ys : List Node) :
    s.markupAll ancestors preceded (xs ++ ys) = do
      let first ← s.markupAll ancestors preceded xs
      let rest ← s.markupAll ancestors (preceded || xs.any Node.carriesContent) ys
      return first ++ rest := by
  induction xs generalizing preceded with
  | nil =>
    rw [List.nil_append, List.any_nil, Bool.or_false, markupAll]
    cases s.markupAll ancestors preceded ys with
    | mk outcome warnings => cases outcome <;> simp [Report.andThen, Report.ok]
  | cons x xs ih =>
    rw [List.cons_append, markupAll, markupAll, ih, List.any_cons, ← Bool.or_assoc]
    cases s.markup ⟨preceded, ancestors⟩ x with
    | mk outcome warnings =>
      cases outcome with
      | error e => rfl
      | ok first =>
        cases s.markupAll ancestors (preceded || x.carriesContent) xs with
        | mk outcome' warnings' =>
          cases outcome' with
          | error e => rfl
          | ok mid =>
            cases s.markupAll ancestors ((preceded || x.carriesContent) ||
                xs.any Node.carriesContent) ys with
            | mk outcome'' warnings'' =>
              cases outcome'' <;> simp [Report.andThen, Report.ok]

theorem markupAll_append (ht : s.markupAll ancestors preceded xs = Report.ok t)
    (hu : s.markupAll ancestors (preceded || xs.any Node.carriesContent) ys = Report.ok u) :
    s.markupAll ancestors preceded (xs ++ ys) = Report.ok (t ++ u) := by
  rw [markupAll_append_eq, ht, hu]
  simp

theorem markupAll_singleton :
    s.markupAll ancestors preceded [n] = s.markup ⟨preceded, ancestors⟩ n := by
  rw [markupAll, markupAll]
  cases s.markup ⟨preceded, ancestors⟩ n with
  | mk outcome warnings => cases outcome <;> simp [Report.andThen, Report.ok]

/-- The markup of an element whose rule wraps its content. -/
theorem elementMarkup_wrap {e : PlacedElement} {rule : Rule} {opening closing : Text}
    (htag : transparentTags.contains e.tag = false) (hrule : s.table.find? e.tag = some rule)
    (hkind : rule.kind = .wrap) (hopening : s.expand e (Report.ok t) rule.opening = Report.ok opening)
    (hclosing : s.expand e (Report.ok t) rule.closing = Report.ok closing) :
    s.elementMarkup e (Report.ok t) = Report.ok (rule.layout opening t closing) := by
  rw [elementMarkup, htag, hrule]
  simp [applyRule, hkind, hopening, hclosing]

end Siblings

/-! ### Elements -/

/-- An element gives way to its children, vanishes, or stays with its proper name and its
children prepared. -/
theorem prepareNode_element {options : Options} {above : List String} {name : String}
    {attributes resolved : Attributes} (children : List Node)
    (hresolve : (mediaWiki options).resolveUrl (lowerName name) attributes = .ok resolved) :
    (mediaWiki options).prepareNode above (.element name attributes children) =
      if Element.isNamedAnchor (lowerName name) resolved then
        (mediaWiki options).prepareAll above children
      else if Element.isFurniture resolved then .ok []
      else ((mediaWiki options).prepareAll (lowerName (properName above name) :: above)
        children).map fun nodes => [.element (properName above name) resolved nodes] := by
  have hanchor : Element.isNamedAnchor (lowerName (properName above name)) resolved =
      Element.isNamedAnchor (lowerName name) resolved := by
    rcases lowerName_properName above name with h | ⟨h, h'⟩
    · rw [h]
    · simp [Element.isNamedAnchor, h, h']
  have hnoise : (mediaWiki options).dialect.removesNoise = true := rfl
  rw [prepareNode, hresolve]
  simp only [bind, Except.bind, hnoise, Bool.true_and, hanchor]
  split
  · rfl
  · split
    · rfl
    · cases (mediaWiki options).prepareAll (lowerName (properName above name) :: above) children <;>
        rfl

/-- What has become of an element, after its URL was resolved. -/
theorem prepareNode_element_cases {options : Options} {above : List String} {name : String}
    {attributes : Attributes} {children prepared : List Node}
    (h : (mediaWiki options).prepareNode above (.element name attributes children) = .ok prepared) :
    ∃ resolved, (mediaWiki options).resolveUrl (lowerName name) attributes = .ok resolved ∧
      (Element.isNamedAnchor (lowerName name) resolved = true ∧
          (mediaWiki options).prepareAll above children = .ok prepared ∨
        Element.isNamedAnchor (lowerName name) resolved = false ∧
          Element.isFurniture resolved = true ∧ prepared = [] ∨
        Element.isNamedAnchor (lowerName name) resolved = false ∧
          Element.isFurniture resolved = false ∧ ∃ below,
            (mediaWiki options).prepareAll (lowerName (properName above name) :: above) children =
              .ok below ∧ prepared = [.element (properName above name) resolved below]) := by
  cases hresolve : (mediaWiki options).resolveUrl (lowerName name) attributes with
  | error e =>
    rw [prepareNode, hresolve] at h
    cases h
  | ok resolved =>
    refine ⟨resolved, rfl, ?_⟩
    rw [prepareNode_element children hresolve] at h
    by_cases hanchor : Element.isNamedAnchor (lowerName name) resolved = true
    · rw [if_pos hanchor] at h
      exact Or.inl ⟨hanchor, h⟩
    · rw [if_neg hanchor] at h
      have hanchor' := eq_false_of_ne_true hanchor
      right
      by_cases hfurniture : Element.isFurniture resolved = true
      · rw [if_pos hfurniture] at h
        exact Or.inl ⟨hanchor', hfurniture, (Except.ok.inj h).symm⟩
      · rw [if_neg hfurniture] at h
        cases hbelow : (mediaWiki options).prepareAll
            (lowerName (properName above name) :: above) children with
        | error e =>
          rw [hbelow] at h
          cases h
        | ok below =>
          rw [hbelow] at h
          exact Or.inr ⟨hanchor', eq_false_of_ne_true hfurniture, below, rfl,
            (Except.ok.inj h).symm⟩

/-! ### Texts -/

theorem plain_guardText (raw : Text) : Plain ((mediaWiki {}).guardText false raw) :=
  Nowiki.plain_guard (plain_escape (plain_collapseFrom false raw)) raw

theorem isWhite_normalizeText (s : Session) (preformatted : Bool) (raw : Text) :
    (s.normalizeText preformatted raw).isWhite = raw.isWhite := by
  have hcollapsed : (if preformatted then raw else raw.collapse).isWhite = raw.isWhite := by
    split
    · rfl
    · exact isWhite_collapseFrom false raw
  rw [normalizeText]
  split
  · rw [isWhite_escape, hcollapsed]
  · exact hcollapsed

theorem isWhite_guardText (raw : Text) :
    ((mediaWiki {}).guardText false raw).isWhite = raw.isWhite :=
  Nowiki.isWhite_guard (isWhite_normalizeText _ false raw)

/-- A guarded text has a placeholder only if the text has it. -/
theorem infix_of_infix_guardText {options : Options} {preformatted : Bool} {raw : Text}
    (h : MediaWiki.placeholder <:+: (mediaWiki options).guardText preformatted raw) :
    MediaWiki.placeholder <:+: raw := by
  have hcons : MediaWiki.placeholder = '[' :: MediaWiki.placeholder.tail := rfl
  rw [hcons] at h
  have hguard := Nowiki.infix_of_infix_guard (by decide) (by decide) h
  have hcollapsed : '[' :: MediaWiki.placeholder.tail <:+:
      if preformatted then raw else raw.collapse := by
    rw [normalizeText] at hguard
    split at hguard
    · exact infix_of_infix_escape (by decide) hguard
    · exact hguard
  split at hcollapsed
  · exact hcollapsed
  · exact infix_of_infix_collapse (by decide) (not_isSpace_of_all (by decide)) false hcollapsed

/-! ### What siblings produce -/

/-- The names above some siblings: no preformatted text, and a structural element or
another one next. -/
structure Above (structural : Bool) (above : List String) : Prop where
  notMem_pre : "pre" ∉ above
  head : (above.head?.any fun parent => structuralTags.contains parent) = structural

theorem Above.enter {structural : Bool} {above : List String} (h : Above structural above)
    {tag : String} (htag : tag ≠ "pre") : Above (structuralTags.contains tag) (tag :: above) := by
  constructor
  · rw [List.mem_cons, not_or]
    exact ⟨Ne.symm htag, h.notMem_pre⟩
  · rfl

/-- Siblings are prepared and converted, and `P` holds of the prepared siblings and their markup
wherever they stand. -/
def Produces (structural : Bool) (nodes : List Node)
    (P : List Frame → Bool → List Node → Text → Prop) : Prop :=
  ∀ above, Above structural above → ∃ prepared,
    (mediaWiki {}).prepareAll above nodes = .ok prepared ∧
      ∀ ancestors preceded, ∃ t,
        (mediaWiki {}).markupAll ancestors preceded prepared = Report.ok t ∧
          P ancestors preceded prepared t

variable {structural : Bool} {n : Node} {nodes : List Node}
  {P Q R : List Frame → Bool → List Node → Text → Prop}

theorem Produces.mono (h : Produces structural nodes P)
    (hPQ : ∀ ancestors preceded prepared t, P ancestors preceded prepared t →
      Q ancestors preceded prepared t) : Produces structural nodes Q := by
  intro above habove
  obtain ⟨prepared, hprepared, hmarkup⟩ := h above habove
  refine ⟨prepared, hprepared, fun ancestors preceded => ?_⟩
  obtain ⟨t, ht, hP⟩ := hmarkup ancestors preceded
  exact ⟨t, ht, hPQ _ _ _ _ hP⟩

theorem produces_nil (h : ∀ ancestors preceded, R ancestors preceded [] []) :
    Produces structural [] R := fun _ _ =>
  ⟨[], rfl, fun ancestors preceded => ⟨[], rfl, h ancestors preceded⟩⟩

/-- The first sibling and the others. -/
theorem Produces.cons (hfirst : Produces structural [n] P) (hrest : Produces structural nodes Q)
    (h : ∀ ancestors preceded xs ys t u, P ancestors preceded xs t →
      Q ancestors (preceded || xs.any Node.carriesContent) ys u →
        R ancestors preceded (xs ++ ys) (t ++ u)) : Produces structural (n :: nodes) R := by
  intro above habove
  obtain ⟨xs, hxs, hmarkup⟩ := hfirst above habove
  obtain ⟨ys, hys, hmarkup'⟩ := hrest above habove
  rw [prepareAll_singleton] at hxs
  refine ⟨xs ++ ys, prepareAll_cons hxs hys, fun ancestors preceded => ?_⟩
  obtain ⟨t, ht, hP⟩ := hmarkup ancestors preceded
  obtain ⟨u, hu, hQ⟩ := hmarkup' ancestors (preceded || xs.any Node.carriesContent)
  exact ⟨t ++ u, markupAll_append ht hu, h _ _ _ _ _ _ hP hQ⟩

/-- What is dropped leaves nothing. -/
theorem produces_dropped (h : ∀ above, (mediaWiki {}).prepareNode above n = .ok [])
    (hR : ∀ ancestors preceded, R ancestors preceded [] []) : Produces structural [n] R := by
  intro above _
  refine ⟨[], ?_, fun ancestors preceded => ⟨[], rfl, hR ancestors preceded⟩⟩
  rw [prepareAll_singleton, h]

/-- A text is guarded, unless it is white space between structural elements. -/
theorem produces_text {raw : Text} (h : ∀ ancestors preceded, if structural && raw.isWhite then
      R ancestors preceded [] []
    else R ancestors preceded [.text ((mediaWiki {}).guardText false raw) true]
      ((mediaWiki {}).guardText false raw)) : Produces structural [.text raw false] R := by
  intro above habove
  have hpre : above.contains "pre" = false := by simpa using habove.notMem_pre
  have hdrop : dropsText above raw = (structural && raw.isWhite) := by
    rw [dropsText, habove.head, Bool.and_comm]
  rw [prepareAll_singleton, prepareNode, hdrop, hpre]
  by_cases hstructural : (structural && raw.isWhite) = true
  · refine ⟨[], by rw [if_pos hstructural], fun ancestors preceded => ⟨[], rfl, ?_⟩⟩
    simpa [hstructural] using h ancestors preceded
  · refine ⟨_, by rw [if_neg hstructural], fun ancestors preceded =>
      ⟨(mediaWiki {}).guardText false raw, ?_, ?_⟩⟩
    · rw [markupAll_singleton, markup]; rfl
    · simpa [hstructural] using h ancestors preceded

/-- White space joins to what follows it, dropped or not. -/
theorem produces_white (h : n.isWhiteText = true) :
    Produces structural [n] fun _ _ _ t => Joins t [] := by
  obtain ⟨raw, rfl, hraw⟩ := Node.exists_of_isWhiteText h
  refine produces_text fun _ _ => ?_
  split
  · exact joins_nil
  · exact joins_white (plain_guardText raw) (by rw [isWhite_guardText, hraw])

/-- An element that is no noise, from its children. -/
theorem produces_element {name : String} {attributes : Attributes}
    (htag : lowerName name ∉ ["a", "caption", "pre"])
    (hfurniture : Element.isFurniture attributes = false)
    (hchildren : Produces (structuralTags.contains (lowerName name)) nodes P)
    (h : ∀ ancestors preceded prepared t, P (⟨lowerName name, preceded⟩ :: ancestors) false prepared t →
      ∃ u, (mediaWiki {}).elementMarkup ⟨⟨preceded, ancestors⟩, name, attributes, prepared⟩
          (Report.ok t) = Report.ok u ∧
        R ancestors preceded [.element name attributes prepared] u) :
    Produces structural [.element name attributes nodes] R := by
  simp only [List.mem_cons, List.not_mem_nil, or_false, not_or] at htag
  obtain ⟨hanchor, hcaption, hpre⟩ := htag
  intro above habove
  obtain ⟨prepared, hprepared, hmarkup⟩ := hchildren _ (habove.enter hpre)
  have hname : properName above name = name := if_neg fun hc => hcaption hc.1
  refine ⟨[.element name attributes prepared], ?_, fun ancestors preceded => ?_⟩
  · have hresolve : (mediaWiki {}).resolveUrl (lowerName name) attributes = .ok attributes := rfl
    have hnamed : Element.isNamedAnchor (lowerName name) attributes = false := by
      simp [Element.isNamedAnchor, hanchor]
    rw [prepareAll_singleton, prepareNode, hresolve]
    simp only [bind, Except.bind, hname, hnamed, hfurniture, hprepared, Bool.and_false,
      Bool.false_eq_true, if_false]
    rfl
  · obtain ⟨t, ht, hP⟩ := hmarkup (⟨lowerName name, preceded⟩ :: ancestors) false
    obtain ⟨u, hu, hR⟩ := h ancestors preceded prepared t hP
    refine ⟨u, ?_, hR⟩
    rw [markupAll_singleton, markup, Surroundings.enter, ht]
    exact hu

/-- The elements with the name `tag` are no noise and no scaffolding, and their rule wraps their
content. -/
structure Wraps (tag : String) (rule : Rule) (opening closing : PlacedElement → Text) : Prop where
  notMem : tag ∉ ["a", "caption", "pre"]
  solid : transparentTags.contains tag = false
  find : (mediaWiki {}).table.find? tag = some rule
  kind : rule.kind = .wrap
  opens : ∀ e t, (mediaWiki {}).expand e (Report.ok t) rule.opening = Report.ok (opening e)
  closes : ∀ e t, (mediaWiki {}).expand e (Report.ok t) rule.closing = Report.ok (closing e)

/-- The markup of an element that is no furniture is its content, laid out by its rule. -/
theorem Wraps.produces {tag name : String} {rule : Rule} {opening closing : PlacedElement → Text}
    {attributes : Attributes} (h : Wraps tag rule opening closing) (hname : lowerName name = tag)
    (hfurniture : Element.isFurniture attributes = false)
    (hchildren : Produces (structuralTags.contains tag) nodes P) :
    Produces structural [.element name attributes nodes] fun ancestors preceded _ u =>
      ∃ prepared t, P (⟨tag, preceded⟩ :: ancestors) false prepared t ∧
        u = rule.layout (opening ⟨⟨preceded, ancestors⟩, name, attributes, prepared⟩) t
          (closing ⟨⟨preceded, ancestors⟩, name, attributes, prepared⟩) := by
  subst hname
  refine produces_element h.notMem hfurniture hchildren fun ancestors preceded prepared t ht => ?_
  exact ⟨_, elementMarkup_wrap h.solid h.find h.kind (h.opens _ t) (h.closes _ t),
    prepared, t, ht, rfl⟩

/-- What the siblings of a document produce is its markup, before it is completed. -/
theorem Produces.convert (h : Produces false nodes P) :
    ∃ prepared t, (mediaWiki {}).convert nodes = Report.ok ((mediaWiki {}).complete t) ∧
      P Surroundings.document false prepared t := by
  have habove : Above false [documentTag] := ⟨by decide, by decide⟩
  obtain ⟨prepared, hprepared, hmarkup⟩ := h _ habove
  obtain ⟨t, ht, hP⟩ := hmarkup Surroundings.document false
  refine ⟨prepared, t, ?_, hP⟩
  rw [Session.convert, prepare, hprepared]
  simp [Report.ofExcept, Report.andThen, ht, Report.ok]

end Session

end Wikitext

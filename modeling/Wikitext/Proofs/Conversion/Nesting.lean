/-
  Wikitext/Proofs/Conversion/Nesting.lean
  =======================================
  **Tags stay nested.**  Elements that are preserved leave a start tag and an end tag around their
  content, void ones a single tag, and guarded texts a pair around each span that is guarded
  (`Session.keptTags`).  The finished markup has these tags and no others, in this order
  (`convert_tags`), and so they are nested as the elements are: no text and no value of an
  attribute opens, closes or breaks a tag.

  This is shown for modest documents: names are words, texts are not guarded yet, and there are no
  links and images, whose addresses are not escaped.  Such documents are always converted.
-/
import Wikitext.Proofs.Conversion.Refusal
import Wikitext.Proofs.Element.Written
import Wikitext.Proofs.Text.Lowercase

namespace Wikitext

open Text

/-! ### Nested tags -/

/-- Each start tag has its end tag, and what is between them is nested. -/
inductive Nested : List Tag → Prop where
  | nil : Nested []
  | void {name : Text} {ts : List Tag} : Nested ts → Nested (⟨.void, name⟩ :: ts)
  | pair {name : Text} {inner ts : List Tag} :
      Nested inner → Nested ts → Nested (⟨.start, name⟩ :: (inner ++ ⟨.stop, name⟩ :: ts))

variable {ts us inner : List Tag}

theorem Nested.append (ht : Nested ts) (hu : Nested us) : Nested (ts ++ us) := by
  induction ht with
  | nil => exact hu
  | void _ ih => exact .void ih
  | pair hinner _ _ ih =>
    rw [List.cons_append, List.append_assoc, List.cons_append]
    exact .pair hinner ih

theorem Nowiki.nested_pairs (t : Text) : Nested (pairs t) := by
  induction t with
  | nil => exact .nil
  | cons c t ih =>
    rw [pairs]
    split
    · exact .pair .nil ih
    · exact ih

/-- The tags of an element that is treated in some way, when `inner` are those of its content. -/
def Treatment.tags (name : Text) (inner : List Tag) : Treatment → List Tag
  | .dropped => []
  | .unwrapped => inner
  | .replaced _ => []
  | .void _ => [⟨.void, name⟩]
  | .tagged _ => ⟨.start, name⟩ :: (inner ++ [⟨.stop, name⟩])
  | .wrapped _ => inner

namespace Session

mutual
/-- The tags that the nodes of a prepared tree leave, in document order. -/
def keptTags (s : Session) : Node → List Tag
  | .text content _ => Nowiki.pairs content
  | .special _ _ => []
  | .element name _ children =>
    (s.treatment (lowerName name)).tags name.toList (keptTagsAll s children)

def keptTagsAll (s : Session) : List Node → List Tag
  | [] => []
  | node :: nodes => keptTags s node ++ keptTagsAll s nodes
end

theorem nested_treatment (h : Nested inner) (name : Text) (treatment : Treatment) :
    Nested (treatment.tags name inner) := by
  cases treatment with
  | dropped => exact .nil
  | unwrapped => exact h
  | replaced _ => exact .nil
  | void _ => exact .void .nil
  | tagged _ => exact .pair h .nil
  | wrapped _ => exact h

mutual
theorem nested_keptTags (s : Session) : ∀ node : Node, Nested (s.keptTags node)
  | .text content _ => Nowiki.nested_pairs content
  | .special _ _ => .nil
  | .element _ _ children => nested_treatment (nested_keptTagsAll s children) _ _

theorem nested_keptTagsAll (s : Session) : ∀ nodes : List Node, Nested (s.keptTagsAll nodes)
  | [] => .nil
  | node :: nodes => (nested_keptTags s node).append (nested_keptTagsAll s nodes)
end

end Session

/-! ### Modest documents -/

namespace Node

mutual
/-- Elements whose names are words, no links and no images, and texts that are not guarded. -/
def isModest : Node → Bool
  | .text _ guarded => !guarded
  | .special _ _ => true
  | .element name _ children =>
    name.toList.all Char.isAlphanum && decide (lowerName name ∉ ["a", "img"])
      && isModestAll children

def isModestAll : List Node → Bool
  | [] => true
  | node :: nodes => isModest node && isModestAll nodes
end

mutual
/-- What becomes of modest documents when they are prepared. -/
def Tame : Node → Prop
  | .text content _ => ∃ t raw, content = Nowiki.guard t raw ∧ Unangled t
  | .special _ _ => False
  | .element name _ children =>
    Tag.IsWord name.toList ∧ lowerName name ∉ ["a", "img"] ∧ TameAll children

def TameAll : List Node → Prop
  | [] => True
  | node :: nodes => Tame node ∧ TameAll nodes
end

theorem tameAll_append {xs ys : List Node} (hx : TameAll xs) (hy : TameAll ys) :
    TameAll (xs ++ ys) := by
  induction xs with
  | nil => exact hy
  | cons x xs ih => exact ⟨hx.1, ih hx.2⟩

theorem exists_of_isModest_element {name : String} {attributes : Attributes}
    {children : List Node} (h : (Node.element name attributes children).isModest = true) :
    Tag.IsWord name.toList ∧ lowerName name ∉ ["a", "img"] ∧ isModestAll children = true := by
  rw [isModest, Bool.and_eq_true, Bool.and_eq_true, decide_eq_true_eq] at h
  exact ⟨Tag.isWord_of_all h.1.1, h.1.2, h.2⟩

theorem exists_of_isModestAll_cons {node : Node} {nodes : List Node}
    (h : isModestAll (node :: nodes) = true) :
    node.isModest = true ∧ isModestAll nodes = true := by
  rwa [isModestAll, Bool.and_eq_true] at h

mutual
theorem references_of_isModest : ∀ {node : Node}, node.isModest = true → node.references = []
  | .text _ _, _ => rfl
  | .special _ _, _ => rfl
  | .element name attributes children, h => by
    obtain ⟨-, htag, hchildren⟩ := exists_of_isModest_element h
    have hurl : Session.urlAttribute? (lowerName name) = none := by
      rw [List.mem_cons, List.mem_singleton, not_or] at htag
      rw [Session.urlAttribute?, if_neg htag.1, if_neg htag.2]
    rw [references, Attributes.reference?, hurl, referencesAll_of_isModestAll hchildren]
    rfl

theorem referencesAll_of_isModestAll : ∀ {nodes : List Node},
    isModestAll nodes = true → referencesAll nodes = []
  | [], _ => rfl
  | node :: nodes, h => by
    obtain ⟨hnode, hnodes⟩ := exists_of_isModestAll_cons h
    rw [referencesAll, references_of_isModest hnode, referencesAll_of_isModestAll hnodes]
    rfl
end

end Node

namespace Session

open Node

variable {options : Options} {above : List String} {prepared : List Node}

theorem isWord_properName {name : String} (h : Tag.IsWord name.toList) (above : List String) :
    Tag.IsWord (properName above name).toList := by
  rw [properName]
  split
  · exact Tag.isWord_of_all (by decide)
  · exact h

theorem notMem_properName {name : String} (h : lowerName name ∉ ["a", "img"])
    (above : List String) : lowerName (properName above name) ∉ ["a", "img"] := by
  rcases lowerName_properName above name with heq | ⟨-, heq⟩
  · rwa [heq]
  · rw [heq]
    decide

mutual
theorem prepareNode_tame (hescape : options.escapeEntities = true)
    (hstrip : options.stripComments = true) : ∀ (node : Node) (above : List String)
    (prepared : List Node), node.isModest = true →
      (mediaWiki options).prepareNode above node = .ok prepared → TameAll prepared
  | .text raw guarded, above, prepared, hmodest, h => by
    rw [isModest, Bool.not_eq_true'] at hmodest
    rw [hmodest, prepareNode] at h
    obtain rfl := Except.ok.inj h
    split
    · trivial
    · refine ⟨⟨(mediaWiki options).normalizeText (above.contains "pre") raw, raw, rfl, ?_⟩, trivial⟩
      have hsession : (mediaWiki options).options.escapeEntities = true := hescape
      rw [normalizeText, if_pos hsession]
      exact unangled_escape _
  | .special kind content, above, prepared, _, h => by
    have hsession : (mediaWiki options).options.stripComments = true := hstrip
    rw [prepareNode, hsession] at h
    obtain rfl := Except.ok.inj h
    simp [TameAll]
  | .element name attributes children, above, prepared, hmodest, h => by
    obtain ⟨hname, htag, hchildren⟩ := exists_of_isModest_element hmodest
    obtain ⟨resolved, -, hcases⟩ := prepareNode_element_cases h
    rcases hcases with ⟨-, h⟩ | ⟨-, -, rfl⟩ | ⟨-, -, below, hbelow, rfl⟩
    · exact prepareAll_tame hescape hstrip children above prepared hchildren h
    · trivial
    · refine ⟨⟨isWord_properName hname above, notMem_properName htag above, ?_⟩, trivial⟩
      exact prepareAll_tame hescape hstrip children _ below hchildren hbelow

theorem prepareAll_tame (hescape : options.escapeEntities = true)
    (hstrip : options.stripComments = true) : ∀ (nodes : List Node) (above : List String)
    (prepared : List Node), isModestAll nodes = true →
      (mediaWiki options).prepareAll above nodes = .ok prepared → TameAll prepared
  | [], _, prepared, _, h => by
    obtain rfl := Except.ok.inj h
    trivial
  | node :: nodes, above, prepared, hmodest, h => by
    obtain ⟨hnode, hnodes⟩ := exists_of_isModestAll_cons hmodest
    obtain ⟨us, vs, hus, hvs, rfl⟩ := prepareAll_cons_eq_ok_iff.mp h
    exact tameAll_append (prepareNode_tame hescape hstrip node above us hnode hus)
      (prepareAll_tame hescape hstrip nodes above vs hnodes hvs)
end

theorem exists_prepare_of_isModestAll {document : List Node}
    (h : isModestAll document = true) :
    ∃ prepared, (mediaWiki options).prepare document = .ok prepared := by
  cases hprepare : (mediaWiki options).prepare document with
  | ok prepared => exact ⟨prepared, rfl⟩
  | error error =>
    obtain ⟨_, -, reference, hreference, -⟩ := refuses_of_prepareAll_eq_error document _ hprepare
    rw [referencesAll_of_isModestAll h] at hreference
    cases hreference

/-! ### What becomes of elements -/

end Session

/-- Whether a piece of markup is there without the content, and has no angles of its own. -/
def Fragment.isUnangled : Fragment → Bool
  | .literal t => !t.contains '<' && !t.contains '>'
  | f => f.isSettled

/-- Only links and images are replaced by markup that may have angles, and preserved elements
keep attributes whose names are words. -/
def Treatment.Modest (tag : String) : Treatment → Prop
  | .replaced f => f.isUnangled = true ∨ tag = "img" ∨ tag = "a"
  | .wrapped rule => rule.opening.isUnangled = true ∧ rule.closing.isUnangled = true
  | .tagged rule | .void rule => Element.worded rule.attributes = true
  | _ => True

instance (tag : String) : (t : Treatment) → Decidable (t.Modest tag)
  | .replaced _ => inferInstanceAs (Decidable (_ ∨ _))
  | .wrapped _ => inferInstanceAs (Decidable (_ ∧ _))
  | .dropped => inferInstanceAs (Decidable True)
  | .unwrapped => inferInstanceAs (Decidable True)
  | .tagged _ => inferInstanceAs (Decidable (_ = true))
  | .void _ => inferInstanceAs (Decidable (_ = true))

namespace Session

open Node
open Tag (Step scans_of_unangled)

variable {s : Session} {options : Options} {e : PlacedElement} {f : Fragment} {rule : Rule}
  {treatment : Treatment} {content : Report UrlError Text}

theorem modest_treatment (options : Options) (tag : String) :
    ((mediaWiki options).treatment tag).Modest (lowerName tag) := by
  apply treatment_induction (P := fun tag t => t.Modest tag)
  · decide +kernel
  · intro tag
    trivial
  · intro tag
    trivial
  · intro tag
    rfl

theorem exists_expand_of_isUnangled (h : f.isUnangled = true) :
    ∃ t, (∀ content, s.expand e content f = Report.ok t) ∧ Unangled t := by
  cases f with
  | literal t =>
    refine ⟨t, fun _ => rfl, ?_⟩
    rw [Fragment.isUnangled, Bool.and_eq_true] at h
    constructor
    · simpa using h.1
    · simpa using h.2
  | feature f =>
    cases f with
    | image => cases h
    | link => cases h
    | tableStart => exact ⟨_, fun _ => rfl, Element.unangled_tableStart _⟩
    | rowStart => exact ⟨_, fun _ => rfl, Element.unangled_rowStart _ _⟩
    | cellStart => exact ⟨_, fun _ => rfl, Element.unangled_cellStart _ _ _⟩
    | captionStart => exact ⟨_, fun _ => rfl, Element.unangled_captionStart _⟩
    | itemStart => exact ⟨_, fun _ => rfl, Element.unangled_itemStart _ _⟩

/-- A report that has a text with these tags. -/
def Carries (r : Report UrlError Text) (tags : List Tag) : Prop :=
  ∃ t, r.outcome = .ok t ∧ ∀ ts, Scans Step (none, tags ++ ts) t (none, ts)

theorem carries_ok {t : Text} {tags : List Tag}
    (h : ∀ ts, Scans Step (none, tags ++ ts) t (none, ts)) : Carries (Report.ok t) tags :=
  ⟨t, rfl, h⟩

theorem scans_layout_tags {opening body closing : Text} {a b : List Tag}
    (hmark : rule.linePrefix = [] ∨ rule.linePrefix = MediaWiki.placeholder)
    (hopening : ∀ ts, Scans Step (none, a ++ ts) opening (none, ts))
    (hbody : ∀ ts, Scans Step (none, inner ++ ts) body (none, ts))
    (hclosing : ∀ ts, Scans Step (none, b ++ ts) closing (none, ts)) (ts : List Tag) :
    Scans Step (none, a ++ inner ++ b ++ ts) (rule.layout opening body closing) (none, ts) := by
  rw [List.append_assoc, List.append_assoc]
  apply (hopening _).layout Tag.compact_of_step (hbody _) (hclosing ts)
  intro hne m
  rw [hmark.resolve_left hne]
  exact scans_of_unangled (by decide) m

theorem carries_treat (hname : Tag.IsWord e.name.toList)
    (hmodest : treatment.Modest (lowerName e.tag))
    (htag : e.tag ∉ ["a", "img"])
    (hmark : ∀ rule ∈ treatment.rule?,
      rule.linePrefix = [] ∨ rule.linePrefix = MediaWiki.placeholder)
    (hcontent : Carries content inner) :
    Carries (s.treat e content treatment) (treatment.tags e.name.toList inner) := by
  obtain ⟨body, hbody, hscans⟩ := hcontent
  have hnothing : ∀ {t : Text}, Unangled t → ∀ ts, Scans Step (none, [] ++ ts) t (none, ts) :=
    fun ht ts => scans_of_unangled ht _
  cases treatment with
  | dropped => exact carries_ok fun ts => .done
  | unwrapped => exact ⟨body, hbody, hscans⟩
  | replaced f =>
    rcases hmodest with hf | himg | ha
    · obtain ⟨t, ht, hangles⟩ := exists_expand_of_isUnangled (s := s) (e := e) hf
      rw [treat, ht]
      exact carries_ok (hnothing hangles)
    · -- rules are found under the lower case of names that are in lower case already
      rw [PlacedElement.tag, lowerName_eq_of_lowerName (by decide) himg] at htag
      exact absurd (by decide) htag
    · rw [PlacedElement.tag, lowerName_eq_of_lowerName (by decide) ha] at htag
      exact absurd (by decide) htag
  | void rule =>
    have hstart := fun ts => Element.scans_startTag hname hmodest e.attributes true ts
    refine carries_ok fun ts => ?_
    have h := scans_layout_tags (hmark rule rfl) (a := [⟨.void, e.name.toList⟩]) hstart
      (hnothing unangled_nil) (hnothing unangled_nil) ts
    exact h
  | tagged rule =>
    have hstart := fun ts => Element.scans_startTag hname hmodest e.attributes false ts
    refine ⟨_, Report.andThen_outcome_ok_iff.mpr ⟨body, hbody, rfl⟩, fun ts => ?_⟩
    have h := scans_layout_tags (hmark rule rfl) (a := [⟨.start, e.name.toList⟩]) hstart hscans
      (b := [⟨.stop, e.name.toList⟩]) (Element.scans_endTag hname) ts
    exact h
  | wrapped rule =>
    obtain ⟨opening, hopening, hopening'⟩ :=
      exists_expand_of_isUnangled (s := s) (e := e) hmodest.1
    obtain ⟨closing, hclosing, hclosing'⟩ :=
      exists_expand_of_isUnangled (s := s) (e := e) hmodest.2
    refine ⟨rule.layout opening body closing, ?_, fun ts => ?_⟩
    · rw [treat, Report.andThen_outcome_ok_iff]
      refine ⟨body, hbody, ?_⟩
      rw [hopening, hclosing]
      rfl
    · have h := scans_layout_tags (hmark rule rfl) (hnothing hopening') hscans
        (hnothing hclosing') ts
      rwa [List.nil_append, List.append_nil] at h

mutual
theorem carries_markup : ∀ (node : Node) (around : Surroundings), node.Tame →
    Carries ((mediaWiki options).markup around node) ((mediaWiki options).keptTags node)
  | .text content _, _, htame => by
    obtain ⟨t, raw, rfl, ht⟩ := htame
    exact carries_ok (Nowiki.scans_guard ht raw)
  | .special _ _, _, htame => htame.elim
  | .element name attributes children, around, htame => by
    obtain ⟨hname, htag, hchildren⟩ := htame
    rw [markup, elementMarkup_eq, keptTags]
    exact carries_treat hname (modest_treatment options (lowerName name)) htag
      (linePrefix_of_treatment options (lowerName name))
      (carries_markupAll children (around.enter (lowerName name)) false hchildren)

theorem carries_markupAll : ∀ (nodes : List Node) (ancestors : List Frame) (preceded : Bool),
    TameAll nodes → Carries ((mediaWiki options).markupAll ancestors preceded nodes)
      ((mediaWiki options).keptTagsAll nodes)
  | [], _, _, _ => carries_ok fun _ => .done
  | node :: nodes, ancestors, preceded, htame => by
    obtain ⟨first, hfirst, hscans⟩ := carries_markup node ⟨preceded, ancestors⟩ htame.1
    obtain ⟨rest, hrest, hscans'⟩ := carries_markupAll nodes ancestors
      (preceded || node.carriesContent) htame.2
    refine ⟨first ++ rest, ?_, fun ts => ?_⟩
    · rw [markupAll]
      simp only [Report.bind_eq, Report.pure_eq, Report.andThen_outcome_ok_iff]
      exact ⟨first, hfirst, rest, hrest, rfl⟩
    · rw [keptTagsAll, List.append_assoc]
      exact (hscans _).append (hscans' ts)
end

/-- A modest document is converted, and the tags in its markup are those of its preserved elements
and of its guarded texts, in document order and nested. -/
theorem convert_tags (options : Options) {document : List Node}
    (hescape : options.escapeEntities = true) (hstrip : options.stripComments = true)
    (hmodest : isModestAll document = true) :
    ∃ prepared t, (mediaWiki options).prepare document = .ok prepared ∧
      ((mediaWiki options).convert document).outcome = .ok t ∧
      t.tags = (mediaWiki options).keptTagsAll prepared ∧ Nested t.tags := by
  have hprepare : ∃ prepared, (mediaWiki options).prepare document = .ok prepared :=
    exists_prepare_of_isModestAll hmodest
  obtain ⟨prepared, hprepared⟩ := hprepare
  have htame := prepareAll_tame hescape hstrip document _ prepared hmodest hprepared
  have hmarkup : Carries ((mediaWiki options).markupAll Surroundings.document false prepared)
      ((mediaWiki options).keptTagsAll prepared) := carries_markupAll prepared _ _ htame
  obtain ⟨u, hu, hscans⟩ := hmarkup
  have hfinished : Scans Step (none, (mediaWiki options).keptTagsAll prepared)
      ((mediaWiki options).complete u) (none, []) := by
    have h := hscans []
    rw [List.append_nil] at h
    exact Tag.scans_finish (h.tidy Tag.compact_of_step)
  have htags := Tag.tags_of_scans hfinished
  refine ⟨prepared, (mediaWiki options).complete u, hprepared, ?_, htags, ?_⟩
  · exact convert_outcome_ok_iff.mpr ⟨prepared, u, hprepared, hu, rfl⟩
  · rw [htags]
    exact nested_keptTagsAll _ prepared

/-- A division whose id is anything but an id, around texts to be guarded, a break and an element
without a rule. -/
def thicket : List Node :=
  [.element "div" [⟨"id", .single "a\n\n /> \"<i>".toList⟩] [
    .text "1 <2> [http://h x] y".toList false, .element "br" [] [],
    .element "x1" [] [.element "p" [] [.text "* z".toList false]]]]

theorem convert_thicket : ∃ t,
    ((mediaWiki { unknownTags := .preserve }).convert thicket).outcome = .ok t ∧
      t.tags = [⟨.start, "div".toList⟩, Nowiki.openingTag, Nowiki.closingTag, ⟨.void, "br".toList⟩,
        ⟨.start, "x1".toList⟩, Nowiki.openingTag, Nowiki.closingTag, ⟨.stop, "x1".toList⟩,
        ⟨.stop, "div".toList⟩] ∧
      Nested t.tags := by
  have hmodest : isModestAll thicket = true := by decide +kernel
  obtain ⟨prepared, t, hprepared, ht, htags, hnested⟩ :=
    convert_tags { unknownTags := .preserve } rfl rfl hmodest
  have hkept : ((mediaWiki { unknownTags := .preserve }).prepare thicket).map
      (mediaWiki { unknownTags := .preserve }).keptTagsAll =
        .ok [⟨.start, "div".toList⟩, Nowiki.openingTag, Nowiki.closingTag, ⟨.void, "br".toList⟩,
          ⟨.start, "x1".toList⟩, Nowiki.openingTag, Nowiki.closingTag, ⟨.stop, "x1".toList⟩,
          ⟨.stop, "div".toList⟩] := by
    decide +kernel
  rw [hprepared] at hkept
  exact ⟨t, ht, htags.trans (Except.ok.inj hkept), hnested⟩

end Session

end Wikitext

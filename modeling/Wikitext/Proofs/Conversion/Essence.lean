/-
  Wikitext/Proofs/Conversion/Essence.lean
  =======================================
  **Dropped input leaves no trace.**  The essence of a document is what is left of it without the
  content of special strings, without the children of elements that are deleted or removed as
  furniture, and without the attributes that neither the removal of noise nor a rule reads.
  Documents with the same essence are converted to the same markup, with the same warnings
  (`convert_eq_of_essenceAll_eq`).

  The two documents are never compared with each other: each is converted as its essence is
  (`convert_essenceAll`).  The prepared documents still differ, in attributes and below deleted
  elements; what the induction carries is that no place can tell them apart (`Interchangeable`).
-/
import Wikitext.Proofs.Conversion.Assembly
import Wikitext.Proofs.Element.Reading
import Wikitext.Proofs.Rule.Table

namespace Wikitext

open Attributes

/-! ### The essence of a document -/

namespace Session

variable (s : Session)

/-- The attributes of an element that are read: for the removal of noise, for a URL, and by its
rule. -/
def readNames (tag : String) : List String :=
  ["id", "class"] ++ (urlAttribute? tag).toList ++
    match s.table.find? tag with
    | some rule => rule.readNames
    | none => []

/-- Whether the rule of an element deletes it. -/
def deletes (tag : String) : Bool :=
  (s.table.find? tag).any (·.kind = .delete)

/-- Whether the children of an element are dropped: it is deleted by its rule, or it is furniture,
and it is no anchor that gives way to its content. -/
def dropsChildren (tag : String) (attributes : Attributes) : Bool :=
  !Element.isNamedAnchor tag attributes &&
    (Element.isFurniture attributes || s.deletes tag)

mutual
/-- The part of a node that matters. -/
def essence : Node → Node
  | .text content guarded => .text content guarded
  | .special _ _ => .special .comment []
  | .element name attributes children =>
    .element name (attributes.restrict (s.readNames (lowerName name)))
      (if s.dropsChildren (lowerName name) attributes then [] else essenceAll children)

def essenceAll : List Node → List Node
  | [] => []
  | node :: nodes => essence node :: essenceAll nodes
end

end Session

namespace Session

variable {s : Session} {xs ys xs' ys' : List Node} {options : Options} {tag name : String}
  {a b : Attributes} {document document' : List Node}

/-! ### Siblings that cannot be told apart -/

/-- Siblings that have the same markup in every place, and that nothing around them can tell
apart. -/
structure Interchangeable (s : Session) (xs ys : List Node) : Prop where
  markup : ∀ ancestors preceded,
    s.markupAll ancestors preceded xs = s.markupAll ancestors preceded ys
  content : xs.any Node.carriesContent = ys.any Node.carriesContent
  phrasal : xs.all Element.isPhrasal = ys.all Element.isPhrasal

theorem Interchangeable.refl (xs : List Node) : Interchangeable s xs xs :=
  ⟨fun _ _ => rfl, rfl, rfl⟩

theorem Interchangeable.append (h : Interchangeable s xs ys) (h' : Interchangeable s xs' ys') :
    Interchangeable s (xs ++ xs') (ys ++ ys') := by
  constructor
  · intro ancestors preceded
    rw [markupAll_append_eq, markupAll_append_eq, h.markup, h.content, h'.markup]
  · rw [List.any_append, List.any_append, h.content, h'.content]
  · rw [List.all_append, List.all_append, h.phrasal, h'.phrasal]

/-- Elements with one name, from what their markup is. -/
theorem interchangeable_element (h : ∀ ancestors preceded,
      s.markup ⟨preceded, ancestors⟩ (.element name a xs) =
        s.markup ⟨preceded, ancestors⟩ (.element name b ys)) :
    Interchangeable s [.element name a xs] [.element name b ys] := by
  constructor
  · intro ancestors preceded
    rw [markupAll_singleton, markupAll_singleton, h]
  · rfl
  · rfl

/-! ### Rules of the dialect -/

theorem lowerName_of_mem_attributes {rule : Rule} (h : (mediaWiki options).table.find? tag = some rule) :
    ∀ n ∈ rule.attributes, lowerName n = n :=
  MediaWiki.rule_of_find? (P := fun _ rule => ∀ n ∈ rule.attributes, lowerName n = n)
    (by decide +kernel) h

/-- What is read of an element under its name is enough under its proper name: a paragraph reads
no attribute that a caption does not. -/
theorem readNames_properName (above : List String) (name : String) :
    (mediaWiki options).readNames (lowerName (properName above name)) ⊆
      (mediaWiki options).readNames (lowerName name) := by
  have hall : ∀ italic bold : Bool,
      (mediaWiki { preserveItalic := italic, preserveBold := bold }).readNames "p" ⊆
        (mediaWiki { preserveItalic := italic, preserveBold := bold }).readNames "caption" := by
    decide +kernel
  rcases lowerName_properName above name with h | ⟨h, h'⟩
  · rw [h]
    exact List.Subset.refl _
  · rw [h, h']
    exact hall options.preserveItalic options.preserveBold

theorem deletes_properName (above : List String) (name : String) :
    (mediaWiki options).deletes (lowerName (properName above name)) =
      (mediaWiki options).deletes (lowerName name) := by
  have hall : ∀ italic bold : Bool,
      (mediaWiki { preserveItalic := italic, preserveBold := bold }).deletes "p" =
        (mediaWiki { preserveItalic := italic, preserveBold := bold }).deletes "caption" := by
    decide +kernel
  rcases lowerName_properName above name with h | ⟨h, h'⟩
  · rw [h]
  · rw [h, h']
    exact hall options.preserveItalic options.preserveBold

/-! ### Conversion by the essence -/

/-- The markup of an element is that of one with the attributes that are read, and with
interchangeable children. -/
theorem markup_congr (hnames : Agree ((mediaWiki options).readNames (lowerName name)) a b)
    (h : Interchangeable (mediaWiki options) xs ys) (around : Surroundings) :
    (mediaWiki options).markup around (.element name a xs) =
      (mediaWiki options).markup around (.element name b ys) := by
  rw [markup, markup, h.markup]
  refine elementMarkup_congr (fun rule hrule => ?_) h.phrasal
  refine ⟨lowerName_of_mem_attributes hrule, hnames.mono fun n hn => ?_⟩
  rw [readNames, hrule]
  exact List.mem_append_right _ hn

/-- A deleted element has no markup, whatever is in it. -/
theorem markup_of_deleted (h : (mediaWiki options).deletes (lowerName name) = true) (around : Surroundings) (a : Attributes) (xs : List Node) :
    (mediaWiki options).markup around (.element name a xs) = Report.ok [] := by
  obtain ⟨rule, hrule, hkind⟩ := (Option.any_eq_true _ _).mp h
  have htransparent : transparentTags.contains (lowerName name) = false := by
    by_contra hin
    rw [Bool.not_eq_false, List.contains_iff_mem] at hin
    have hnone : (mediaWiki options).table.find? (lowerName name) = none :=
      MediaWiki.find?_of_mem_transparentTags hin
    rw [hnone] at hrule
    cases hrule
  have hkind' : rule.kind = .delete := by simpa using hkind
  rw [markup, elementMarkup]
  simp only [PlacedElement.tag, htransparent, Option.mem_def.mp hrule]
  rw [applyRule, hkind']
  rfl

mutual
/-- A node and its essence are prepared to siblings that cannot be told apart. -/
theorem prepareNode_essence (hbase : options.baseUri = none)
    (hstrip : options.stripComments = true) : ∀ (node : Node) (above : List String), ∃ xs ys,
      (mediaWiki options).prepareNode above node = .ok xs ∧
        (mediaWiki options).prepareNode above ((mediaWiki options).essence node) = .ok ys ∧
          Interchangeable (mediaWiki options) xs ys
  | .text content guarded, above => by
    cases guarded <;> exact ⟨_, _, rfl, rfl, Interchangeable.refl _⟩
  | .special kind content, above => by
    have hkept : ∀ kind content,
        (mediaWiki options).prepareNode above (.special kind content) = .ok [] := by
      intro kind content
      have hno : ¬ (kind = .comment ∧ (mediaWiki options).options.stripComments = false) := by
        rintro ⟨-, h⟩
        rw [show (mediaWiki options).options.stripComments = true from hstrip] at h
        cases h
      rw [prepareNode, if_neg hno]
    refine ⟨[], [], hkept _ _, ?_, Interchangeable.refl _⟩
    rw [essence]
    exact hkept _ _
  | .element name attributes children, above => by
    have hnone : (mediaWiki options).options.baseUri = none := hbase
    have hagree : Agree ((mediaWiki options).readNames (lowerName name)) attributes
        (attributes.restrict ((mediaWiki options).readNames (lowerName name))) :=
      agree_restrict _ _
    have hanchor : Element.isNamedAnchor (lowerName name) attributes =
        Element.isNamedAnchor (lowerName name)
          (attributes.restrict ((mediaWiki options).readNames (lowerName name))) := by
      refine Element.isNamedAnchor_congr fun ha => hagree "href" ?_
      simp [readNames, urlAttribute?, ha]
    have hfurniture := Element.isFurniture_congr (hagree.mono (by simp [readNames]))
    -- both elements run through the same tests
    rw [essence, prepareNode_element children (resolveUrl_of_baseUri_eq_none hnone _ _),
      prepareNode_element _ (resolveUrl_of_baseUri_eq_none hnone _ _), ← hanchor, ← hfurniture,
      dropsChildren]
    by_cases hnamed : Element.isNamedAnchor (lowerName name) attributes = true
    · rw [if_pos hnamed, if_pos hnamed, if_neg (by simp [hnamed])]
      exact prepareAll_essence hbase hstrip children above
    · rw [if_neg hnamed, if_neg hnamed]
      by_cases hremoved : Element.isFurniture attributes = true
      · rw [if_pos hremoved, if_pos hremoved]
        exact ⟨[], [], rfl, rfl, Interchangeable.refl _⟩
      · rw [if_neg hremoved, if_neg hremoved]
        obtain ⟨xs, ys, hxs, hys, h⟩ :=
          prepareAll_essence hbase hstrip children (lowerName (properName above name) :: above)
        by_cases hdeleted : (mediaWiki options).deletes (lowerName name) = true
        · rw [hxs, if_pos (by simp [hnamed, hdeleted])]
          refine ⟨_, _, rfl, rfl, interchangeable_element fun ancestors preceded => ?_⟩
          have hproper := (deletes_properName above name).trans hdeleted
          rw [markup_of_deleted hproper, markup_of_deleted hproper]
        · rw [hxs, if_neg (by simp [hremoved, hdeleted]), hys]
          refine ⟨_, _, rfl, rfl, interchangeable_element fun ancestors preceded => ?_⟩
          exact markup_congr (hagree.mono (readNames_properName above name)) h _

theorem prepareAll_essence (hbase : options.baseUri = none)
    (hstrip : options.stripComments = true) : ∀ (nodes : List Node) (above : List String),
      ∃ xs ys, (mediaWiki options).prepareAll above nodes = .ok xs ∧
        (mediaWiki options).prepareAll above ((mediaWiki options).essenceAll nodes) = .ok ys ∧
          Interchangeable (mediaWiki options) xs ys
  | [], _ => ⟨[], [], rfl, rfl, Interchangeable.refl _⟩
  | node :: nodes, above => by
    obtain ⟨xs, ys, hxs, hys, h⟩ := prepareNode_essence hbase hstrip node above
    obtain ⟨xs', ys', hxs', hys', h'⟩ := prepareAll_essence hbase hstrip nodes above
    rw [essenceAll]
    exact ⟨xs ++ xs', ys ++ ys', prepareAll_cons hxs hxs', prepareAll_cons hys hys', h.append h'⟩
end

/-- A document is converted as its essence. -/
theorem convert_essenceAll (hbase : options.baseUri = none) (hstrip : options.stripComments = true)
    (document : List Node) : (mediaWiki options).convert document =
      (mediaWiki options).convert ((mediaWiki options).essenceAll document) := by
  obtain ⟨xs, ys, hxs, hys, h⟩ := prepareAll_essence hbase hstrip document [documentTag]
  rw [convert, convert, prepare, prepare, hxs, hys]
  change (Report.ok xs).andThen _ = (Report.ok ys).andThen _
  rw [Report.ok_andThen, Report.ok_andThen, h.markup]

/-- Documents that differ only in what is dropped have the same markup and the same warnings. -/
theorem convert_eq_of_essenceAll_eq (hbase : options.baseUri = none)
    (hstrip : options.stripComments = true)
    (h : (mediaWiki options).essenceAll document = (mediaWiki options).essenceAll document') :
    (mediaWiki options).convert document = (mediaWiki options).convert document' := by
  rw [convert_essenceAll hbase hstrip, h, ← convert_essenceAll hbase hstrip]

/-- A page with a script, a special string, furniture and a handler of events. -/
def busyPage : List Node :=
  [.special .doctype "html".toList,
    .element "div" [⟨"onclick", .single "go()".toList⟩, ⟨"id", .single "top".toList⟩]
      [.element "script" [] [.text "go()".toList false, .element "img" [] []],
        .text "words".toList false],
    .element "div" [⟨"class", .list ["printfooter".toList]⟩] [.text "printed".toList false]]

/-- The same page with other noise. -/
def quietPage : List Node :=
  [.special .comment [],
    .element "div" [⟨"id", .single "top".toList⟩]
      [.element "script" [⟨"src", .single "x.js".toList⟩] [], .text "words".toList false],
    .element "div" [⟨"class", .list ["printfooter".toList]⟩] [.element "table" [] []]]

theorem essenceAll_busyPage :
    (mediaWiki {}).essenceAll busyPage = (mediaWiki {}).essenceAll quietPage := by
  let handler : Attributes := [⟨"onclick", .single "go()".toList⟩, ⟨"id", .single "top".toList⟩]
  let top : Attributes := [⟨"id", .single "top".toList⟩]
  let source : Attributes := [⟨"src", .single "x.js".toList⟩]
  let footer : Attributes := [⟨"class", .list ["printfooter".toList]⟩]
  have hread : handler.restrict ((mediaWiki {}).readNames (lowerName "div")) =
        top.restrict ((mediaWiki {}).readNames (lowerName "div")) ∧
      source.restrict ((mediaWiki {}).readNames (lowerName "script")) =
        Attributes.restrict ((mediaWiki {}).readNames (lowerName "script")) [] ∧
      (mediaWiki {}).dropsChildren (lowerName "div") handler = false ∧
      (mediaWiki {}).dropsChildren (lowerName "div") top = false ∧
      (mediaWiki {}).dropsChildren (lowerName "div") footer = true ∧
      (mediaWiki {}).dropsChildren (lowerName "script") source = true ∧
      (mediaWiki {}).dropsChildren (lowerName "script") [] = true := by
    decide +kernel
  obtain ⟨hhandler, hsource, hdiv, hdiv', hfooter, hscript, hscript'⟩ := hread
  simp only [busyPage, quietPage, essenceAll, essence]
  rw [hhandler, hsource, hdiv, hdiv', hfooter, hscript, hscript']
  rfl

theorem convert_busyPage :
    (mediaWiki {}).essenceAll busyPage = (mediaWiki {}).essenceAll quietPage ∧
      (mediaWiki {}).convert busyPage = (mediaWiki {}).convert quietPage :=
  ⟨essenceAll_busyPage, convert_eq_of_essenceAll_eq rfl rfl essenceAll_busyPage⟩

end Session

end Wikitext

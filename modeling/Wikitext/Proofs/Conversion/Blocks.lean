/-
  Wikitext/Proofs/Conversion/Blocks.lean
  ======================================
  **Blocks set documents apart.**  A paragraph, a heading, preformatted text, a table or a list
  becomes markup between empty lines.  Where a document has such a block, what stands before and
  after can be converted for itself, and the results are put together with an empty line between
  them (`convert_append_outcome`).

  Three things can go wrong at the seam: a row in the second part may look for what stands before
  it, white space at the seam may survive one of the trimmings and not the other, and the
  placeholder of preformatted text may be spelled across the seam.  The first two are excluded by
  orderly documents, the last by the empty line.
-/
import Wikitext.Proofs.Conversion.Orderly
import Wikitext.Proofs.Text.Apart

namespace Wikitext

open Text

/-- What comes out of two steps comes out of both. -/
theorem Report.andThen_outcome_ok_iff {ε α β : Type} {r : Report ε α} {f : α → Report ε β} {b : β} :
    (r.andThen f).outcome = .ok b ↔ ∃ a, r.outcome = .ok a ∧ (f a).outcome = .ok b := by
  cases hr : r.outcome with
  | error e => simp [Report.andThen, hr]
  | ok a => simp [Report.andThen, hr]

namespace Node

/-- The elements that become blocks. -/
def blockTags : List String :=
  ["p", "h1", "h2", "h3", "h4", "h5", "h6", "pre", "table", "ul", "ol", "dl"]

/-- Whether a node becomes a block, between empty lines. -/
def isSeparator : Node → Bool
  | .element name attributes _ =>
    blockTags.contains (lowerName name) && !Element.isFurniture attributes
  | _ => false

theorem exists_of_isSeparator {node : Node} (h : node.isSeparator = true) :
    ∃ name attributes children, node = .element name attributes children ∧
      lowerName name ∈ blockTags ∧ Element.isFurniture attributes = false := by
  cases node with
  | text content guarded => cases h
  | special kind content => cases h
  | element name attributes children =>
    rw [isSeparator, Bool.and_eq_true, List.contains_iff_mem, Bool.not_eq_true'] at h
    exact ⟨name, attributes, children, rfl, h.1, h.2⟩

end Node

open Node

namespace Session

variable {options : Options} {s : Session} {above : List String} {name : String}
  {attributes : Attributes} {around : Surroundings} {ancestors : List Frame} {preceded : Bool}
  {xs ys zs nodes prepared children A B : List Node} {t u v : Text} {node : Node}

/-! ### Both parts of a document -/

theorem markupAll_append_outcome_ok_iff :
    (s.markupAll ancestors preceded (xs ++ ys)).outcome = .ok t ↔
      ∃ u v, (s.markupAll ancestors preceded xs).outcome = .ok u ∧
        (s.markupAll ancestors (preceded || xs.any carriesContent) ys).outcome = .ok v ∧
          t = u ++ v := by
  rw [markupAll_append_eq]
  simp only [Report.bind_eq, Report.pure_eq, Report.andThen_outcome_ok_iff]
  constructor
  · rintro ⟨u, hu, v, hv, h⟩
    exact ⟨u, v, hu, hv, (Except.ok.inj h).symm⟩
  · rintro ⟨u, v, hu, hv, rfl⟩
    exact ⟨u, hu, v, hv, rfl⟩

theorem convert_outcome_ok_iff : (s.convert nodes).outcome = .ok t ↔
    ∃ prepared u, s.prepare nodes = .ok prepared ∧
      (s.markupAll Surroundings.document false prepared).outcome = .ok u ∧ t = s.complete u := by
  rw [convert]
  simp only [Report.bind_eq, Report.pure_eq, Report.andThen_outcome_ok_iff]
  constructor
  · rintro ⟨prepared, hprepared, u, hu, h⟩
    exact ⟨prepared, u, hprepared, hu, (Except.ok.inj h).symm⟩
  · rintro ⟨prepared, u, hprepared, hu, rfl⟩
    exact ⟨prepared, hprepared, u, hu, rfl⟩

/-! ### Blocks -/

theorem rule_of_mem_blockTags (options : Options) {tag : String} (h : tag ∈ blockTags) :
    ∃ rule, (mediaWiki options).table.find? tag = some rule ∧ rule.kind = .wrap ∧
      rule.block = true := by
  have hall : ∀ italic bold : Bool, ∀ tag ∈ blockTags,
      ((MediaWiki.tableOf italic bold).find? tag).any
        (fun rule => rule.kind = .wrap && rule.block) = true := by
    decide +kernel
  have hany := hall options.preserveItalic options.preserveBold tag h
  rw [← MediaWiki.table_eq] at hany
  have htable : (mediaWiki options).table = MediaWiki.table options := rfl
  rw [htable]
  cases hrule : (MediaWiki.table options).find? tag with
  | none =>
    rw [hrule] at hany
    cases hany
  | some rule =>
    rw [hrule, Option.any_some, Bool.and_eq_true, decide_eq_true_eq] at hany
    exact ⟨rule, rfl, hany.1, hany.2⟩

/-- A block stays what it is when it is prepared, with its content prepared. -/
theorem prepareNode_of_mem_blockTags (htag : lowerName name ∈ blockTags)
    (hfurniture : Element.isFurniture attributes = false)
    (hprepared : (mediaWiki options).prepareNode above (.element name attributes children) =
      .ok prepared) :
    ∃ below, (mediaWiki options).prepareAll (lowerName name :: above) children = .ok below ∧
      prepared = [.element name attributes below] := by
  have hnames : ∀ tag ∈ blockTags, urlAttribute? tag = none ∧ tag ≠ "a" ∧ tag ≠ "caption" := by
    decide
  obtain ⟨hurl, ha, hcaption⟩ := hnames _ htag
  have hresolve : (mediaWiki options).resolveUrl (lowerName name) attributes = .ok attributes :=
    resolveUrl_of_urlAttribute?_eq_none hurl attributes
  have hanchor : Element.isNamedAnchor (lowerName name) attributes = false := by
    simp [Element.isNamedAnchor, ha]
  have hname : properName above name = name := if_neg fun hc => hcaption hc.1
  obtain ⟨resolved, hresolved, hcases⟩ := prepareNode_element_cases hprepared
  obtain rfl := Except.ok.inj (hresolve.symm.trans hresolved)
  rcases hcases with ⟨hnamed, -⟩ | ⟨-, hremoved, -⟩ | ⟨-, -, below, hbelow, rfl⟩
  · rw [hanchor] at hnamed
    cases hnamed
  · rw [hfurniture] at hremoved
    cases hremoved
  · rw [hname] at hbelow ⊢
    exact ⟨below, hbelow, rfl⟩

theorem prepareNode_of_isSeparator (h : node.isSeparator = true)
    (hprepared : (mediaWiki options).prepareNode above node = .ok prepared) :
    ∃ name attributes children, prepared = [.element name attributes children] ∧
      lowerName name ∈ blockTags := by
  obtain ⟨name, attributes, children, rfl, htag, hfurniture⟩ := exists_of_isSeparator h
  obtain ⟨below, -, rfl⟩ := prepareNode_of_mem_blockTags htag hfurniture hprepared
  exact ⟨name, attributes, below, rfl, htag⟩

/-- The markup of an element whose rule wraps its content, where there is any. -/
theorem exists_layout_of_markup {rule : Rule}
    (hsolid : transparentTags.contains (lowerName name) = false)
    (hrule : s.table.find? (lowerName name) = some rule) (hkind : rule.kind = .wrap)
    (h : (s.markup around (.element name attributes children)).outcome = .ok t) :
    ∃ inner opening closing,
      (s.markupAll (around.enter (lowerName name)) false children).outcome = .ok inner ∧
      (s.expand ⟨around, name, attributes, children⟩
        (s.markupAll (around.enter (lowerName name)) false children) rule.opening).outcome =
          .ok opening ∧
      (s.expand ⟨around, name, attributes, children⟩
        (s.markupAll (around.enter (lowerName name)) false children) rule.closing).outcome =
          .ok closing ∧
      t = rule.layout opening inner closing := by
  rw [markup, elementMarkup] at h
  simp only [PlacedElement.tag, hsolid, hrule, applyRule, hkind, Report.bind_eq, Report.pure_eq,
    Bool.false_eq_true, if_false, Report.andThen_outcome_ok_iff] at h
  obtain ⟨inner, hinner, opening, hopening, closing, hclosing, h⟩ := h
  exact ⟨inner, opening, closing, hinner, hopening, hclosing, (Except.ok.inj h).symm⟩

theorem not_transparent_of_mem_blockTags {tag : String} (h : tag ∈ blockTags) :
    transparentTags.contains tag = false := by
  have hall : ∀ tag ∈ blockTags, transparentTags.contains tag = false := by decide
  exact hall tag h

/-- The markup of a block stands between empty lines. -/
theorem markup_of_mem_blockTags (htag : lowerName name ∈ blockTags)
    (h : ((mediaWiki options).markup around (.element name attributes children)).outcome = .ok t) :
    ∃ body, t = '\n' :: '\n' :: (body ++ ['\n', '\n']) := by
  obtain ⟨rule, hrule, hkind, hblock⟩ := rule_of_mem_blockTags options htag
  obtain ⟨inner, opening, closing, -, -, -, rfl⟩ :=
    exists_layout_of_markup (not_transparent_of_mem_blockTags htag) hrule hkind h
  unfold Rule.layout
  simp only [hblock, if_true]
  exact ⟨_, rfl⟩

/-- A block at the end of some siblings leaves an empty line there. -/
theorem markupAll_ends (h : ∃ node ∈ xs.getLast?, node.isSeparator = true)
    (hprepared : (mediaWiki options).prepareAll above xs = .ok prepared)
    (ht : ((mediaWiki options).markupAll ancestors preceded prepared).outcome = .ok t) :
    ∃ body, t = body ++ ['\n', '\n'] := by
  obtain ⟨node, hlast, hnode⟩ := h
  obtain ⟨front, rfl⟩ := List.getLast?_eq_some_iff.mp hlast
  obtain ⟨us, vs, -, hvs, rfl⟩ := prepareAll_append_eq_ok_iff.mp hprepared
  rw [prepareAll_singleton] at hvs
  obtain ⟨name, attributes, children, rfl, htag⟩ := prepareNode_of_isSeparator hnode hvs
  obtain ⟨u, v, -, hv, rfl⟩ := markupAll_append_outcome_ok_iff.mp ht
  rw [markupAll_singleton] at hv
  obtain ⟨body, rfl⟩ := markup_of_mem_blockTags htag hv
  exact ⟨u ++ '\n' :: '\n' :: body, by simp⟩

/-- A block at the start of some siblings leaves an empty line there. -/
theorem markupAll_starts (h : ∃ node ∈ xs.head?, node.isSeparator = true)
    (hprepared : (mediaWiki options).prepareAll above xs = .ok prepared)
    (ht : ((mediaWiki options).markupAll ancestors preceded prepared).outcome = .ok t) :
    ∃ body, t = '\n' :: '\n' :: body := by
  obtain ⟨node, hhead, hnode⟩ := h
  obtain ⟨rest, rfl⟩ := List.head?_eq_some_iff.mp hhead
  rw [← List.singleton_append] at hprepared
  obtain ⟨us, vs, hus, -, rfl⟩ := prepareAll_append_eq_ok_iff.mp hprepared
  rw [prepareAll_singleton] at hus
  obtain ⟨name, attributes, children, rfl, htag⟩ := prepareNode_of_isSeparator hnode hus
  obtain ⟨u, v, hu, -, rfl⟩ := markupAll_append_outcome_ok_iff.mp ht
  rw [markupAll_singleton] at hu
  obtain ⟨body, rfl⟩ := markup_of_mem_blockTags htag hu
  exact ⟨body ++ '\n' :: '\n' :: v, by simp⟩

/-! ### The seam -/

/-- Markup with an empty line at the seam is completed in parts. -/
theorem complete_append (ht : Edged t) (hu : Edged u)
    (hseam : (∃ body, t = body ++ ['\n', '\n']) ∨ ∃ body, u = '\n' :: '\n' :: body) :
    (mediaWiki options).complete (t ++ u) = apart ['\n', '\n'] ((mediaWiki options).complete t)
      ((mediaWiki options).complete u) := by
  have htidy : (t ++ u).tidy = apart ['\n', '\n'] t.tidy u.tidy := by
    rcases hseam with ⟨body, rfl⟩ | ⟨body, rfl⟩
    · have hbody : Edged body := ht.of_append_gaps rfl
      rw [List.append_assoc, tidy_append_newlines hbody]
      exact tidy_append hbody hu
    · have hbody : Edged body := Edged.of_gaps_append (t := ['\n', '\n']) hu rfl
      rw [tidy_newlines_append hbody]
      exact tidy_append ht hbody
  rw [complete, complete, complete, htidy]
  exact replace_apart (by decide) (by decide) (by decide) _ _

/-- Documents with a block at the seam are converted each for itself, and put together with an
empty line between them, if both leave something. -/
theorem convert_append_outcome
    (hblock : (∃ node ∈ A.getLast?, node.isSeparator = true) ∨
      ∃ node ∈ B.head?, node.isSeparator = true)
    (hA : isOrderlyAll false A = true) (hB : isOrderlyAll false B = true) (t : Text) :
    ((mediaWiki options).convert (A ++ B)).outcome = .ok t ↔
      ∃ a b, ((mediaWiki options).convert A).outcome = .ok a ∧
        ((mediaWiki options).convert B).outcome = .ok b ∧ t = apart ['\n', '\n'] a b := by
  -- what is common to both directions: the two parts, and the seam between them
  have hparts : ∀ {us vs u v}, (mediaWiki options).prepare A = .ok us →
      (mediaWiki options).prepare B = .ok vs →
      ((mediaWiki options).markupAll Surroundings.document false us).outcome = .ok u →
      ((mediaWiki options).markupAll Surroundings.document false vs).outcome = .ok v →
      (mediaWiki options).complete (u ++ v) = apart ['\n', '\n'] ((mediaWiki options).complete u)
        ((mediaWiki options).complete v) := by
    intro us vs u v hus hvs hu hv
    have hu' : Edged u := edged_markupAll us _ _ (prepareAll_orderly hus hA) u hu
    have hv' : Edged v := edged_markupAll vs _ _ (prepareAll_orderly hvs hB) v hv
    refine complete_append hu' hv' ?_
    exact hblock.imp (fun h => markupAll_ends h hus hu) fun h => markupAll_starts h hvs hv
  have hbefore : ∀ {vs} (preceded : Bool), (mediaWiki options).prepare B = .ok vs →
      (mediaWiki options).markupAll Surroundings.document preceded vs =
        (mediaWiki options).markupAll Surroundings.document false vs := by
    intro vs preceded hvs
    exact markupAll_preceded (prepareAll_orderly hvs hB) _ preceded
  simp only [convert_outcome_ok_iff]
  constructor
  · rintro ⟨prepared, w, hprepared, hw, rfl⟩
    obtain ⟨us, vs, hus, hvs, rfl⟩ := prepareAll_append_eq_ok_iff.mp hprepared
    obtain ⟨u, v, hu, hv, rfl⟩ := markupAll_append_outcome_ok_iff.mp hw
    rw [hbefore _ hvs] at hv
    exact ⟨_, _, ⟨us, u, hus, hu, rfl⟩, ⟨vs, v, hvs, hv, rfl⟩, hparts hus hvs hu hv⟩
  · rintro ⟨a, b, ⟨us, u, hus, hu, rfl⟩, ⟨vs, v, hvs, hv, rfl⟩, rfl⟩
    refine ⟨us ++ vs, u ++ v, prepareAll_append_eq_ok_iff.mpr ⟨us, vs, hus, hvs, rfl⟩, ?_,
      (hparts hus hvs hu hv).symm⟩
    refine markupAll_append_outcome_ok_iff.mpr ⟨u, v, hu, ?_, rfl⟩
    rw [hbefore _ hvs]
    exact hv

/-- Words and a listing, and more words before a row of a table. -/
def listing : List Node :=
  [.text "see:".toList false, .element "pre" [] [.text " a\n\n  b\n".toList false]]

def listed : List Node :=
  [.text " so\n".toList false,
    .element "table" [] [.element "tr" [] [.element "td" [] [.text "x".toList false]]]]

theorem convert_listing_listed :
    (∃ node ∈ listing.getLast?, node.isSeparator = true) ∧
      isOrderlyAll false listing = true ∧ isOrderlyAll false listed = true ∧
      ((mediaWiki {}).convert (listing ++ listed)).outcome =
        .ok ("see:\n\n" ++ "  a\n \n   b\n\n" ++ "so\n\n" ++ "\x7b|\n| x\n|\x7d").toList := by
  have hblock : ∃ node ∈ listing.getLast?, node.isSeparator = true :=
    ⟨_, rfl, by decide +kernel⟩
  have hlisting : isOrderlyAll false listing = true := by decide +kernel
  have hlisted : isOrderlyAll false listed = true := by decide +kernel
  refine ⟨hblock, hlisting, hlisted, ?_⟩
  refine (convert_append_outcome (Or.inl hblock) hlisting hlisted _).mpr ?_
  refine ⟨"see:\n\n  a\n \n   b".toList, "so\n\n\x7b|\n| x\n|\x7d".toList, ?_, ?_, ?_⟩
  · decide +kernel
  · decide +kernel
  · decide +kernel

end Session

end Wikitext

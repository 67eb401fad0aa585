/-
  Wikitext/Proofs/Conversion/Headings.lean
  ========================================
  **Headings are one line.**  A heading can hold anything: lists, tables, preformatted text, line
  breaks.  Its rule trims what these have become and puts it on one line, so that its markup is a
  line between equals signs (`exists_headingLine_of_markup`).  That line starts and ends with what
  is no white space, and empty lines set it off; so the last pass leaves it alone, whatever stands
  before and after it (`heading_on_one_line`).
-/
import Wikitext.Proofs.Conversion.Blocks
import Wikitext.Proofs.Text.Tight

namespace Wikitext

open Text

variable {level : Nat} {c l t : Text}

namespace MediaWiki

/-- The line of a heading: as many equals signs as its level on both sides of the content. -/
def headingLine (level : Nat) (content : Text) : Text :=
  List.replicate level '=' ++ ' ' :: (content ++ ' ' :: List.replicate level '=')

theorem layout_headingRule (level : Nat) (content : Text) :
    (headingRule level).layout (List.replicate level '=' ++ [' ']) content
        (' ' :: List.replicate level '=') =
      ['\n', '\n'] ++ headingLine level (LineFormat.single.apply (trim isSpace content)) ++
        ['\n', '\n'] := by
  simp [Rule.layout, headingRule, headingLine, Rule.wrap, Rule.bare, TrimPolicy.apply]

theorem tight_headingLine (hlevel : 0 < level) (hc : '\n' ∉ c) : Tight (headingLine level c) := by
  obtain ⟨n, rfl⟩ := Nat.exists_eq_add_one_of_ne_zero hlevel.ne'
  have hlast : headingLine (n + 1) c =
      List.replicate (n + 1) '=' ++ ' ' :: (c ++ ' ' :: List.replicate n '=') ++ ['='] := by
    simp [headingLine, List.replicate_succ']
  refine ⟨?_, ?_, ?_⟩
  · simp [headingLine, hc]
  · simp [headingLine, List.replicate_succ, isSpace]
  · rw [hlast, List.getLast?_concat]
    simp [isSpace]

/-- The placeholders in a heading are in its content. -/
theorem finish_headingLine (level : Nat) (c : Text) :
    finish (headingLine level c) = headingLine level (finish c) := by
  have hmarks : finish (List.replicate level '=') = List.replicate level '=' := by
    refine replace_eq_self (Bool.eq_false_iff.mpr fun h => ?_) [' ']
    have hin : '[' ∈ List.replicate level '=' := (occurs_iff.mp h).subset (by decide)
    exact absurd (List.eq_of_mem_replicate hin) (by decide)
  have hspace : ∀ t u : Text, finish (t ++ ' ' :: u) = finish t ++ ' ' :: finish u :=
    replace_append_cons (by decide) (by decide)
  rw [headingLine, hspace, hspace, hmarks]
  rfl

end MediaWiki

open MediaWiki Node

namespace Session

variable {options : Options} {around : Surroundings} {name : String} {attributes : Attributes}
  {nodes prepared before children after : List Node} {out : Text}

theorem mem_headingLevels (hlevel : 1 ≤ level ∧ level ≤ 6) : level ∈ [1, 2, 3, 4, 5, 6] := by
  simp only [List.mem_cons, List.not_mem_nil, or_false]
  omega

theorem mem_blockTags_of_heading (hlevel : 1 ≤ level ∧ level ≤ 6) :
    "h" ++ toString level ∈ blockTags := by
  have hall : ∀ n ∈ [1, 2, 3, 4, 5, 6], "h" ++ toString n ∈ blockTags := by decide +kernel
  exact hall level (mem_headingLevels hlevel)

theorem find?_heading (options : Options) (hlevel : 1 ≤ level ∧ level ≤ 6) :
    (mediaWiki options).table.find? ("h" ++ toString level) = some (headingRule level) := by
  have hall : ∀ italic bold : Bool, ∀ n ∈ [1, 2, 3, 4, 5, 6],
      (tableOf italic bold).find? ("h" ++ toString n) = some (headingRule n) := by
    decide +kernel
  exact hall options.preserveItalic options.preserveBold level (mem_headingLevels hlevel)

/-- The markup of a heading is one line, whatever is in it. -/
theorem exists_headingLine_of_markup (hlevel : 1 ≤ level ∧ level ≤ 6)
    (hname : lowerName name = "h" ++ toString level)
    (h : ((mediaWiki options).markup around (.element name attributes children)).outcome = .ok t) :
    ∃ c, Tight c ∧ t = ['\n', '\n'] ++ headingLine level c ++ ['\n', '\n'] := by
  have hsolid : transparentTags.contains (lowerName name) = false :=
    not_transparent_of_mem_blockTags (hname ▸ mem_blockTags_of_heading hlevel)
  have hrule : (mediaWiki options).table.find? (lowerName name) = some (headingRule level) :=
    hname ▸ find?_heading options hlevel
  obtain ⟨inner, opening, closing, -, hopening, hclosing, rfl⟩ :=
    exists_layout_of_markup hsolid hrule rfl h
  obtain rfl := Except.ok.inj hopening
  obtain rfl := Except.ok.inj hclosing
  exact ⟨_, tight_single inner, layout_headingRule level inner⟩

/-- A tight line of the markup is a line of the completed markup. -/
theorem finish_mem_lines_complete (hl : Tight l) (hne : l ≠ []) (hmem : l ∈ t.lines) :
    finish l ∈ ((mediaWiki options).complete t).lines := by
  have hlines : ((mediaWiki options).complete t).lines = t.tidy.lines.map finish :=
    lines_replace (by decide) (by decide) (by decide) t.tidy
  rw [hlines]
  exact List.mem_map_of_mem (hl.mem_lines_tidy hne hmem)

/-- A heading among the siblings of a document is a line of the result. -/
theorem headingLine_mem_lines_convert (hlevel : 1 ≤ level ∧ level ≤ 6)
    (hname : lowerName name = "h" ++ toString level)
    (hprepared : (mediaWiki options).prepare nodes =
      .ok (before ++ .element name attributes children :: after))
    (hout : ((mediaWiki options).convert nodes).outcome = .ok out) :
    ∃ c, Tight c ∧
      ((mediaWiki options).markup ⟨before.any carriesContent, Surroundings.document⟩
          (.element name attributes children)).outcome =
        .ok (['\n', '\n'] ++ headingLine level c ++ ['\n', '\n']) ∧
      headingLine level (finish c) ∈ out.lines := by
  obtain ⟨prepared, t, hprepared', ht, rfl⟩ := convert_outcome_ok_iff.mp hout
  obtain rfl := Except.ok.inj (hprepared.symm.trans hprepared')
  obtain ⟨front, t', -, ht', rfl⟩ := markupAll_append_outcome_ok_iff.mp ht
  rw [← List.singleton_append] at ht'
  obtain ⟨heading, back, hheading, -, rfl⟩ := markupAll_append_outcome_ok_iff.mp ht'
  rw [markupAll_singleton, Bool.false_or] at hheading
  obtain ⟨c, hc, rfl⟩ := exists_headingLine_of_markup hlevel hname hheading
  refine ⟨c, hc, hheading, ?_⟩
  have htight : Tight (headingLine level c) := tight_headingLine hlevel.1 hc.notMem_newline
  -- line feeds on both sides keep the heading apart from what surrounds it
  have hsides : front ++ (['\n', '\n'] ++ headingLine level c ++ ['\n', '\n'] ++ back) =
      (front ++ ['\n']) ++ '\n' :: (headingLine level c ++ '\n' :: '\n' :: back) := by
    simp
  have hmem : headingLine level c ∈
      (front ++ (['\n', '\n'] ++ headingLine level c ++ ['\n', '\n'] ++ back)).lines := by
    rw [hsides, lines_append_newline, lines_append_newline (headingLine level c),
      lines_of_notMem htight.notMem_newline]
    simp
  rw [← finish_headingLine]
  exact finish_mem_lines_complete htight (by simp [headingLine]) hmem

/-- A heading that is no furniture is there after preparation. -/
theorem exists_heading_of_prepare (hlevel : 1 ≤ level ∧ level ≤ 6)
    (hname : lowerName name = "h" ++ toString level)
    (hfurniture : Element.isFurniture attributes = false)
    (hmem : .element name attributes children ∈ nodes)
    (hprepared : (mediaWiki options).prepare nodes = .ok prepared) :
    ∃ below, (mediaWiki options).prepareAll [lowerName name, documentTag] children = .ok below ∧
      .element name attributes below ∈ prepared := by
  obtain ⟨before, after, rfl⟩ := List.append_of_mem hmem
  obtain ⟨us, rest, -, hrest, rfl⟩ := prepareAll_append_eq_ok_iff.mp hprepared
  obtain ⟨heading, vs, hheading, -, rfl⟩ := prepareAll_cons_eq_ok_iff.mp hrest
  have htag : lowerName name ∈ blockTags := hname ▸ mem_blockTags_of_heading hlevel
  obtain ⟨below, hbelow, rfl⟩ := prepareNode_of_mem_blockTags htag hfurniture hheading
  exact ⟨below, hbelow, by simp⟩

/-- A heading becomes one line between empty lines, whatever is in it.  Where it stands among the
siblings of a prepared document, its line comes through the last pass as it is, but for the
placeholders in it; and it stands there if it stood there before and is no furniture. -/
theorem heading_on_one_line (options : Options) (attributes : Attributes)
    (hlevel : 1 ≤ level ∧ level ≤ 6) (hname : lowerName name = "h" ++ toString level) :
    (∀ around children t,
      ((mediaWiki options).markup around (.element name attributes children)).outcome = .ok t →
      ∃ c, Tight c ∧ t = ['\n', '\n'] ++ headingLine level c ++ ['\n', '\n']) ∧
    (∀ nodes before children after out,
      (mediaWiki options).prepare nodes =
        .ok (before ++ .element name attributes children :: after) →
      ((mediaWiki options).convert nodes).outcome = .ok out →
      ∃ c, Tight c ∧
        ((mediaWiki options).markup ⟨before.any carriesContent, Surroundings.document⟩
            (.element name attributes children)).outcome =
          .ok (['\n', '\n'] ++ headingLine level c ++ ['\n', '\n']) ∧
        headingLine level (finish c) ∈ out.lines) ∧
    ∀ nodes prepared children, Element.isFurniture attributes = false →
      .element name attributes children ∈ nodes →
      (mediaWiki options).prepare nodes = .ok prepared →
      ∃ below, (mediaWiki options).prepareAll [lowerName name, documentTag] children = .ok below ∧
        .element name attributes below ∈ prepared := by
  refine ⟨?_, ?_, ?_⟩
  · intro around children t ht
    exact exists_headingLine_of_markup hlevel hname ht
  · intro nodes before children after out hprepared hout
    exact headingLine_mem_lines_convert hlevel hname hprepared hout
  · intro nodes prepared children hfurniture hmem hprepared
    exact exists_heading_of_prepare hlevel hname hfurniture hmem hprepared

/-- A heading with a list, a line break and preformatted text in it, between a text and a
table. -/
def crowdedPage : List Node :=
  [.text "so".toList false,
    .element "H2" [] [.text " \n".toList false,
      .element "ul" [] [.element "li" [] [.text "one\n".toList false],
        .element "li" [] [.text "two".toList false]],
      .element "br" [] [], .text "\r\n \n rest".toList false,
      .element "pre" [] [.text " x\n\n y\r".toList false], .text "\x0c ".toList false],
    .element "table" [] [.element "tr" [] [.element "td" [] [.text "z".toList false]]]]

/-- What is prepared of the heading. -/
def crowdedContent : List Node :=
  [.text [' '] true,
    .element "ul" [] [.element "li" [] [.text "one ".toList true],
      .element "li" [] [.text "two".toList true]],
    .element "br" [] [], .text " rest".toList true,
    .element "pre" [] [.text " x\n\n y\r".toList true], .text [' '] true]

def crowdedPrepared : List Node :=
  [.text "so".toList true] ++ .element "H2" [] crowdedContent ::
    [.element "table" [] [.element "tr" [] [.element "td" [] [.text "z".toList true]]]]

def crowdedMarkup : Text :=
  "so\n\n== * one * two <br /> rest   x     y ==\n\n\x7b|\n| z\n|\x7d".toList

theorem heading_on_one_line_crowded :
    (1 ≤ 2 ∧ 2 ≤ 6) ∧ lowerName "H2" = "h" ++ toString 2 ∧
      (mediaWiki {}).prepare crowdedPage = .ok crowdedPrepared ∧
      ((mediaWiki {}).convert crowdedPage).outcome = .ok crowdedMarkup ∧
      ∃ c, Tight c ∧
        ((mediaWiki {}).markup ⟨true, Surroundings.document⟩
            (.element "H2" [] crowdedContent)).outcome =
          .ok (['\n', '\n'] ++ headingLine 2 c ++ ['\n', '\n']) ∧
        headingLine 2 (finish c) ∈ crowdedMarkup.lines := by
  have hlevel : 1 ≤ 2 ∧ 2 ≤ 6 := by decide
  have hname : lowerName "H2" = "h" ++ toString 2 := by decide +kernel
  have hprepared : (mediaWiki {}).prepare crowdedPage = .ok crowdedPrepared := rfl
  have hout : ((mediaWiki {}).convert crowdedPage).outcome = .ok crowdedMarkup := by
    decide +kernel
  have hpreceded : [Node.text "so".toList true].any carriesContent = true := by decide +kernel
  obtain ⟨-, hlines, -⟩ := heading_on_one_line {} [] hlevel hname
  have hline := hlines crowdedPage _ crowdedContent _ _ hprepared hout
  rw [hpreceded] at hline
  exact ⟨hlevel, hname, hprepared, hout, hline⟩

end Session

end Wikitext

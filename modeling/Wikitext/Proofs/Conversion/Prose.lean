/-
  Wikitext/Proofs/Conversion/Prose.lean
  =====================================
  **Prose in paragraphs.**  In a document of paragraphs all markup comes from texts.  The texts
  that no paragraph starts or ends between make a *run* (`Node.runs`); comments between them are
  dropped, so a run becomes one line of the markup.

  The guard looks at one text at a time.  Guarded texts have no collision outside of their tags,
  but two of them can make one where they meet, as two single apostrophes do
  (`not_forall_collides_eq_false`).  This is the only way in which prose becomes markup: what a
  wiki reads as markup in the whole stands in a run of two texts or more (`convert_prose`).

  The markup of prose is compared with a draft of it, in which the texts stand as they are
  guarded, and every paragraph is between two line feeds; the layout moves only white space, so
  both read the same (`produces_proseAll`).
-/
import Wikitext.Proofs.Conversion.Assembly
import Wikitext.Proofs.Nowiki.Hollow
import Wikitext.Proofs.Text.Tidy

namespace Wikitext

open Text Nowiki

namespace Node

mutual
/-- Paragraphs, texts that are not guarded, and strings that are no content. -/
def isProse : Node → Bool
  | .text _ guarded => !guarded
  | .special _ _ => true
  | .element name _ children => lowerName name == "p" && isProseAll children

def isProseAll : List Node → Bool
  | [] => true
  | node :: nodes => isProse node && isProseAll nodes
end

mutual
/-- The texts that come out of a node, with a break for each start and each end of a paragraph. -/
def pieces : Node → List (Option Text)
  | .text raw _ => [some raw]
  | .special _ _ => []
  | .element _ attributes children =>
    if Element.isFurniture attributes then [] else none :: (piecesAll children ++ [none])

def piecesAll : List Node → List (Option Text)
  | [] => []
  | node :: nodes => pieces node ++ piecesAll nodes
end

/-- The texts between breaks. -/
def stretches : List (Option Text) → List (List Text)
  | [] => [[]]
  | none :: ps => [] :: stretches ps
  | some raw :: ps => (stretches ps).modifyHead (raw :: ·)

/-- The texts of a document that no paragraph starts or ends between. -/
def runs (document : List Node) : List (List Text) :=
  stretches (piecesAll document)

end Node

open Node

namespace Session

variable {document nodes : List Node} {node : Node} {name : String} {attributes : Attributes}
  {ps : List (Option Text)} {run : List Text} {raw t : Text} {ls : List Text}

/-! ### Runs -/

/-- The texts of a run, each guarded for itself. -/
def guardAll (run : List Text) : Text :=
  run.flatMap ((mediaWiki {}).guardText false)

/-- The markup of a run. -/
def runMarkup (run : List Text) : Text :=
  (mediaWiki {}).complete (guardAll run)

theorem plain_guardAll (run : List Text) : Plain (guardAll run) := by
  intro c hc hspace
  obtain ⟨raw, -, hc⟩ := List.mem_flatMap.mp hc
  exact plain_guardText raw c hc hspace

theorem sealed_guardText (raw : Text) : Sealed ((mediaWiki {}).guardText false raw) :=
  sealed_guard (notMem_escape _) raw

theorem sealed_guardAll (run : List Text) : Sealed (guardAll run) := by
  induction run with
  | nil => exact Sealed.nil
  | cons raw run ih => exact (sealed_guardText raw).append ih

theorem sealed_finish (h : Sealed t) : Sealed (MediaWiki.finish t) := by
  have hcons : MediaWiki.placeholder = '[' :: MediaWiki.placeholder.tail := rfl
  unfold MediaWiki.finish
  rw [hcons]
  exact h.replace (by decide) (by decide) (by decide) (by decide)

/-- A single line is completed by trimming it. -/
theorem runMarkup_eq (run : List Text) :
    runMarkup run = MediaWiki.finish (trim isSpace (guardAll run)) := by
  have htidy := tidy_of_notMem (plain_guardAll run).notMem_newline
  unfold runMarkup complete
  rw [htidy]
  rfl

/-- A single text has no collision outside of its tags. -/
theorem collides_hollow_guardText (hfree : occurs MediaWiki.placeholder raw = false) :
    (hollow (MediaWiki.finish (trim isSpace ((mediaWiki {}).guardText false raw)))).collides =
      false := by
  have hnot : occurs MediaWiki.placeholder (trim isSpace ((mediaWiki {}).guardText false raw)) =
      false := by
    rw [Bool.eq_false_iff] at hfree ⊢
    intro h
    have hguard := (occurs_iff.mp h).trans (trim_infix_self isSpace _)
    exact hfree (occurs_iff.mpr (infix_of_infix_guardText hguard))
  unfold MediaWiki.finish
  rw [replace_eq_self hnot]
  exact collides_hollow_guard (plain_escape (plain_collapseFrom false raw)) (notMem_escape _) raw

/-- It takes two texts to make a collision outside of the tags. -/
theorem two_le_of_collides (hfree : ∀ raw ∈ run, occurs MediaWiki.placeholder raw = false)
    (h : (hollow (runMarkup run)).collides = true) : 2 ≤ run.countP fun raw => !raw.isWhite := by
  rw [runMarkup_eq] at h
  -- the first text that is not white is guarded for itself, and nothing may follow it
  induction run with
  | nil => cases h
  | cons raw run ih =>
    have hcons : guardAll (raw :: run) = (mediaWiki {}).guardText false raw ++ guardAll run :=
      List.flatMap_cons
    have hwhites : ∀ {rest : List Text}, (∀ raw ∈ rest, raw.isWhite = true) →
        ∀ c ∈ guardAll rest, isSpace c = true := by
      intro rest hrest c hc
      obtain ⟨raw, hraw, hc⟩ := List.mem_flatMap.mp hc
      have hwhite := hrest raw hraw
      rw [← isWhite_guardText] at hwhite
      exact isWhite_iff.mp hwhite c hc
    rw [hcons] at h
    by_cases hraw : raw.isWhite = true
    · -- white space at the start is trimmed off
      rw [← isWhite_guardText] at hraw
      rw [trim_append_of_all_left (isWhite_iff.mp hraw)] at h
      rw [isWhite_guardText] at hraw
      rw [List.countP_cons_of_neg (by simp [hraw])]
      exact ih (fun raw hin => hfree raw (List.mem_cons_of_mem _ hin)) h
    · rw [List.countP_cons_of_pos (by simpa using hraw)]
      by_contra hcount
      have hzero : run.countP (fun raw => !raw.isWhite) = 0 := by omega
      have hrest : ∀ raw ∈ run, raw.isWhite = true := by
        intro raw hin
        simpa using List.countP_eq_zero.mp hzero raw hin
      rw [trim_append_of_all_right (hwhites hrest),
        collides_hollow_guardText (hfree raw (List.mem_cons_self ..))] at h
      cases h

/-! ### The draft -/

/-- The guarded texts, and a line feed for every break. -/
def draft (ps : List (Option Text)) : Text :=
  ps.flatMap fun
    | none => ['\n']
    | some raw => (mediaWiki {}).guardText false raw

theorem draft_append (ps qs : List (Option Text)) : draft (ps ++ qs) = draft ps ++ draft qs :=
  List.flatMap_append

theorem lines_draft (ps : List (Option Text)) :
    (draft ps).lines = (stretches ps).map guardAll := by
  induction ps with
  | nil => rfl
  | cons p ps ih =>
    cases p with
    | none =>
      have hcons : draft (none :: ps) = '\n' :: draft ps := rfl
      rw [hcons, lines_newline_cons, ih]
      rfl
    | some raw =>
      have hcons : draft (some raw :: ps) = (mediaWiki {}).guardText false raw ++ draft ps := rfl
      have hline : lines ((mediaWiki {}).guardText false raw) =
          [] ++ [(mediaWiki {}).guardText false raw] :=
        lines_of_notMem (plain_guardText raw).notMem_newline
      cases hs : stretches ps with
      | nil =>
        rw [hs] at ih
        exact absurd ih (lines_ne_nil _)
      | cons first rest =>
        rw [hs, List.map_cons] at ih
        rw [hcons, lines_append hline ih, stretches, hs]
        rfl

theorem reads_draft (ps : List (Option Text)) :
    Reads (draft ps) (inked ((stretches ps).map guardAll)) := by
  constructor
  · rw [lines_draft]
  · intro l hl
    rw [lines_draft] at hl
    obtain ⟨run, -, rfl⟩ := List.mem_map.mp hl
    exact (plain_guardAll run).neat

/-! ### Trees -/

/-- The rule of a paragraph. -/
def paragraphRule : Rule :=
  { Rule.bare .wrap with block := true, trim := .both, lineFormat := .multi }

theorem find?_p : (mediaWiki {}).table.find? "p" = some paragraphRule := by
  decide +kernel

theorem produces_paragraph (hname : lowerName name = "p")
    (hfurniture : Element.isFurniture attributes = false)
    (h : Produces false nodes fun _ _ _ t => ReadsAs t (draft ps)) :
    Produces false [.element name attributes nodes] fun _ _ _ t =>
      ReadsAs t (draft (none :: (ps ++ [none]))) := by
  have hother : lowerName name ∉ ["a", "caption", "pre"] := by
    rw [hname]
    decide
  have hstructural : structuralTags.contains (lowerName name) = false := by
    rw [hname]
    decide
  have htransparent : transparentTags.contains (lowerName name) = false := by
    rw [hname]
    decide
  refine produces_element hother hfurniture (by rw [hstructural]; exact h)
    fun ancestors preceded prepared t ht => ?_
  have hrule : (mediaWiki {}).table.find? (lowerName name) = some paragraphRule := by
    rw [hname]
    exact find?_p
  refine ⟨_, elementMarkup_wrap htransparent hrule rfl rfl rfl, ?_⟩
  have hlayout : paragraphRule.layout [] t [] =
      ['\n', '\n'] ++ LineFormat.multi.apply (trim isSpace t) ++ ['\n', '\n'] := by
    simp [Rule.layout, paragraphRule, Rule.bare, TrimPolicy.apply]
  have hdraft : draft (none :: (ps ++ [none])) = '\n' :: (draft ps ++ ['\n']) := by
    simp [draft]
  rw [hlayout, hdraft]
  exact ht.block

theorem prepareNode_furniture {above : List String} (hname : lowerName name ≠ "a")
    (hfurniture : Element.isFurniture attributes = true) :
    (mediaWiki {}).prepareNode above (.element name attributes nodes) = .ok [] := by
  have hresolve : (mediaWiki {}).resolveUrl (lowerName name) attributes = .ok attributes := rfl
  have hanchor : Element.isNamedAnchor (lowerName name) attributes = false := by
    simp [Element.isNamedAnchor, hname]
  rw [prepareNode_element nodes hresolve, hanchor, if_neg (by simp), if_pos hfurniture]

mutual
theorem produces_prose : ∀ node : Node, node.isProse = true →
    Produces false [node] fun _ _ _ t => ReadsAs t (draft node.pieces)
  | .text raw guarded, h => by
    obtain rfl : guarded = false := by simpa [isProse] using h
    refine produces_text fun _ _ => ?_
    have hdraft : draft (pieces (.text raw false)) = (mediaWiki {}).guardText false raw :=
      List.flatMap_singleton ..
    rw [hdraft]
    exact ReadsAs.refl _
  | .special kind content, _ => by
    -- by default comments are dropped, as other strings always are
    refine produces_dropped (fun above => ?_) fun _ _ => ReadsAs.refl []
    rw [prepareNode, if_neg]
    simp [mediaWiki]
  | .element name attributes children, h => by
    rw [isProse, Bool.and_eq_true, beq_iff_eq] at h
    obtain ⟨hname, hchildren⟩ := h
    rw [pieces]
    by_cases hfurniture : Element.isFurniture attributes = true
    · rw [if_pos hfurniture]
      have hname' : lowerName name ≠ "a" := by
        rw [hname]
        decide
      exact produces_dropped (fun above => prepareNode_furniture hname' hfurniture)
        fun _ _ => ReadsAs.refl []
    · rw [if_neg hfurniture]
      exact produces_paragraph hname (by simpa using hfurniture)
        (produces_proseAll children hchildren)

/-- The markup of prose reads as its draft. -/
theorem produces_proseAll : ∀ nodes : List Node, isProseAll nodes = true →
    Produces false nodes fun _ _ _ t => ReadsAs t (draft (piecesAll nodes))
  | [], _ => produces_nil fun _ _ => ReadsAs.refl []
  | node :: nodes, h => by
    rw [isProseAll, Bool.and_eq_true] at h
    refine (produces_prose node h.1).cons (produces_proseAll nodes h.2) ?_
    intro _ _ _ _ t u ht hu
    rw [piecesAll, draft_append]
    exact ht.append hu
end

/-! ### The whole document -/

/-- A completed text has a collision outside of its tags if a line that is read has one. -/
theorem collides_hollow_complete (h : Reads t ls) (hsealed : ∀ l ∈ ls, Sealed l) :
    (hollow ((mediaWiki {}).complete t)).collides = true ↔
      ∃ l ∈ ls, (hollow (MediaWiki.finish l)).collides = true := by
  have hlines : ((mediaWiki {}).complete t).lines = t.tidy.lines.map MediaWiki.finish :=
    lines_replace (by decide) (by decide) (by decide) t.tidy
  have hmem : ∀ l, l ∈ ls ↔ l ∈ t.tidy.lines ∧ l ≠ [] := by
    intro l
    rw [← h.filter_lines_tidy, List.mem_filter, decide_eq_true_eq]
  have hall : ∀ l ∈ t.tidy.lines, Sealed l := by
    intro l hl
    by_cases hnil : l = []
    · rw [hnil]
      exact Sealed.nil
    · exact hsealed l ((hmem l).mpr ⟨hl, hnil⟩)
  rw [collides_hollow_iff]
  · rw [hlines]
    constructor
    · rintro ⟨m, hm, hcollides⟩
      obtain ⟨l, hl, rfl⟩ := List.mem_map.mp hm
      refine ⟨l, (hmem l).mpr ⟨hl, ?_⟩, hcollides⟩
      rintro rfl
      cases hcollides
    · rintro ⟨l, hl, hcollides⟩
      exact ⟨_, List.mem_map_of_mem ((hmem l).mp hl).1, hcollides⟩
  · intro m hm
    rw [hlines] at hm
    obtain ⟨l, hl, rfl⟩ := List.mem_map.mp hm
    exact sealed_finish (hall l hl)

/-- Prose is converted, and what a wiki reads as markup in it stands in a run of two texts or
more. -/
theorem convert_prose (hprose : isProseAll document = true)
    (hfree : ∀ run ∈ runs document, ∀ raw ∈ run, occurs MediaWiki.placeholder raw = false) :
    ∃ t, (mediaWiki {}).convert document = Report.ok t ∧
      ((hollow t).collides = true ↔ ∃ run ∈ runs document,
        2 ≤ run.countP (fun raw => !raw.isWhite) ∧ (hollow (runMarkup run)).collides = true) := by
  obtain ⟨prepared, t, hconvert, hreads⟩ := (produces_proseAll document hprose).convert
  refine ⟨_, hconvert, ?_⟩
  have hlines := hreads.reads (reads_draft (piecesAll document))
  have hmem : ∀ l, l ∈ inked ((runs document).map guardAll) ↔
      ∃ run ∈ runs document, trim isSpace (guardAll run) = l ∧ l ≠ [] := by
    intro l
    constructor
    · intro hl
      obtain ⟨hin, hne⟩ := List.mem_filter.mp hl
      obtain ⟨m, hm, rfl⟩ := List.mem_map.mp hin
      obtain ⟨run, hrun, rfl⟩ := List.mem_map.mp hm
      exact ⟨run, hrun, rfl, by simpa using hne⟩
    · rintro ⟨run, hrun, rfl, hne⟩
      refine List.mem_filter.mpr ⟨List.mem_map_of_mem (List.mem_map_of_mem hrun), ?_⟩
      simpa using hne
  -- the lines that are read are the runs without the white space at their ends
  rw [collides_hollow_complete hlines]
  · constructor
    · rintro ⟨l, hl, hcollides⟩
      obtain ⟨run, hrun, rfl, -⟩ := (hmem l).mp hl
      rw [← runMarkup_eq] at hcollides
      exact ⟨run, hrun, two_le_of_collides (hfree run hrun) hcollides, hcollides⟩
    · rintro ⟨run, hrun, -, hcollides⟩
      rw [runMarkup_eq] at hcollides
      refine ⟨_, (hmem _).mpr ⟨run, hrun, rfl, ?_⟩, hcollides⟩
      intro hnil
      rw [hnil] at hcollides
      cases hcollides
  · intro l hl
    obtain ⟨run, -, rfl, -⟩ := (hmem l).mp hl
    exact (sealed_guardAll run).trim

/-- Paragraphs with texts that a wiki would read as markup, and comments between them. -/
def dialogue : List Node :=
  [.element "p" [] [.text "== It's ==".toList false, .special .comment [], .text "\n".toList false],
    .text "* aside".toList false,
    .element "p" [] [.text "'".toList false, .element "P" [] [.text "'".toList false],
      .text "a ".toList false, .special .comment "b".toList, .text "[[c".toList false]]

theorem convert_dialogue : isProseAll dialogue = true ∧
    (∀ run ∈ runs dialogue, ∀ raw ∈ run, occurs MediaWiki.placeholder raw = false) ∧
      ∃ t, (mediaWiki {}).convert dialogue = Report.ok t ∧ (hollow t).collides = false := by
  have hprose : isProseAll dialogue = true := by decide +kernel
  have hfree : ∀ run ∈ runs dialogue, ∀ raw ∈ run,
      occurs MediaWiki.placeholder raw = false := by
    decide +kernel
  have hnone : ∀ run ∈ runs dialogue, (hollow (runMarkup run)).collides = false := by
    decide +kernel
  refine ⟨hprose, hfree, ?_⟩
  obtain ⟨t, ht, hiff⟩ := convert_prose hprose hfree
  refine ⟨t, ht, ?_⟩
  rw [Bool.eq_false_iff, ne_eq, hiff]
  rintro ⟨run, hrun, -, hcollides⟩
  rw [hnone run hrun] at hcollides
  cases hcollides

/-- Two apostrophes with a comment between them. -/
def apostrophes : List Node :=
  [.element "p" [] [.text ['\''] false, .special .comment ['x'], .text ['\''] false]]

/-- Not all prose stays text: apostrophes may come together. -/
theorem not_forall_collides_eq_false : ¬ ∀ document, isProseAll document = true →
    (∀ run ∈ runs document, ∀ raw ∈ run, occurs MediaWiki.placeholder raw = false) →
      ∀ t, ((mediaWiki {}).convert document).outcome = .ok t →
        (hollow t).collides = false := by
  intro h
  have hprose : isProseAll apostrophes = true := by decide +kernel
  have hfree : ∀ run ∈ runs apostrophes, ∀ raw ∈ run,
      occurs MediaWiki.placeholder raw = false := by
    decide +kernel
  have hout : ((mediaWiki {}).convert apostrophes).outcome = .ok ['\'', '\''] := by
    decide +kernel
  have hinert := h apostrophes hprose hfree _ hout
  exact absurd hinert (by decide)

end Session

end Wikitext

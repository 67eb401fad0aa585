/-
  Wikitext/Proofs/Conversion/TableBalance.lean
  ============================================
  **The marks of tables in documents.**  A table is delimited by two marks, and each counts only at
  the start of a line.  Tables may stand anywhere, and not everywhere does a line start with them:
  an item of a list trims the line feeds off a table that is its first content, a header cell puts
  everything on one line, and text at the end of a table stands before the mark that closes it.
  So the numbers of both marks may differ (`not_forall_convert_balanced`).

  In a plain document nothing else is taken for a mark, and which tables begin and end at the start
  of a line is known from the tree: the lines of the markup that open and close tables are those
  that the walk over the prepared tree comes to.  Where all tables stand free, they are as many
  (`convert_delimiters`).
-/
import Wikitext.Proofs.Conversion.FreeTables
import Wikitext.Proofs.Conversion.TableLines

namespace Wikitext

open Text

/-! ### Braces -/

namespace Text

variable {t raw : Text}

theorem visible_eq_nil_iff : visible t = [] ↔ t.isWhite = true := by
  rw [visible, List.filter_eq_nil_iff, isWhite_iff]
  simp

theorem visible_collapseFrom (after : Bool) (t : Text) :
    visible (collapseFrom after t) = visible t := by
  induction t generalizing after with
  | nil => rfl
  | cons c t ih =>
    rw [collapseFrom]
    split
    · next hc =>
      rw [visible_cons_of_pos hc]
      split
      · exact ih true
      · rw [visible_cons_of_pos rfl]
        exact ih true
    · next hc =>
      rw [visible_cons_of_neg (by simpa using hc), visible_cons_of_neg (by simpa using hc), ih]

/-- What copies a text but for some visible characters does not make a brace. -/
theorem visible_eq_of_copies {f : Text → Text} (hnil : f [] = [])
    (hcons : ∀ c t, f (c :: t) = c :: f t ∨
      ∃ d u, f (c :: t) = d :: u ∧ isSpace d = false ∧ d ≠ '\x7b')
    (hwhite : ∀ t, (f t).isWhite = t.isWhite) (h : visible (f t) = ['\x7b']) :
    visible t = ['\x7b'] := by
  induction t with
  | nil =>
    rw [hnil] at h
    cases h
  | cons c t ih =>
    rcases hcons c t with heq | ⟨d, u, heq, hspace, hd⟩
    · rw [heq] at h
      cases hspace : isSpace c with
      | true =>
        rw [visible_cons_of_pos hspace] at h ⊢
        exact ih h
      | false =>
        rw [visible_cons_of_neg hspace] at h ⊢
        obtain ⟨rfl, hrest⟩ := List.cons.inj h
        rw [visible_eq_nil_iff, hwhite, ← visible_eq_nil_iff] at hrest
        rw [hrest]
    · rw [heq, visible_cons_of_neg hspace] at h
      exact absurd (List.cons.inj h).1 hd

end Text

namespace Session

variable {raw : Text}

/-- A text is guarded into a brace only if it is a brace. -/
theorem visible_eq_of_guardText
    (h : visible ((mediaWiki {}).guardText false raw) = ['\x7b']) : visible raw = ['\x7b'] := by
  have hguard : (mediaWiki {}).guardText false raw = Nowiki.guard raw.collapse.escape raw := rfl
  rw [hguard] at h
  have hescaped : visible raw.collapse.escape = ['\x7b'] := by
    rcases Nowiki.guard_cases raw.collapse.escape raw with ⟨heq, -⟩ | ⟨heq, -⟩
    · -- a wrapped text starts with a tag
      rw [heq] at h
      exact absurd (List.cons.inj h).1 (by decide)
    · rw [heq] at h
      refine visible_eq_of_copies rfl (fun c t => ?_) Nowiki.isWhite_wrapLinks h
      refine (Nowiki.wrapLinks_cons c t).imp_right ?_
      rintro ⟨-, u, hu⟩
      exact ⟨'<', u, hu, rfl, by decide⟩
  have hcollapsed : visible raw.collapse = ['\x7b'] := by
    refine visible_eq_of_copies rfl (fun c t => ?_) isWhite_escape hescaped
    rw [escape_cons]
    rcases escapeChar_eq c with hc | ⟨name, hname, -⟩
    · rw [hc]
      exact Or.inl rfl
    · rw [hname]
      exact Or.inr ⟨'&', _, rfl, rfl, by decide⟩
  rwa [collapse, visible_collapseFrom] at hcollapsed

/-- A text that is no brace alone imitates no mark. -/
theorem quiet_guardText (h : visible raw ≠ ['\x7b']) :
    Quiet ((mediaWiki {}).guardText false raw) := by
  have hplain := plain_guardText raw
  have hstart := Nowiki.guard_start (plain_escape (plain_collapseFrom false raw)) raw
  refine quiet_of_plain hplain (hstart _ (by decide)) (hstart _ (by decide)) fun hbrace => ?_
  refine h (visible_eq_of_guardText ?_)
  have hvisible := (thins_trimStart (p := isSpace) (fun _ h => h)
    ((mediaWiki {}).guardText false raw)).visible
  rw [hbrace] at hvisible
  exact hvisible.symm

end Session

namespace Node

/-! ### Plain documents -/

mutual
/-- Names and values of attributes have no white space but blanks, no text is guarded or has a
carriage return or a form feed, and none is a brace alone. -/
def isPlain : Node → Bool
  | .text raw guarded =>
    !guarded && raw.all (fun c => !isFeed c) && decide (visible raw ≠ ['\x7b'])
  | .special _ _ => true
  | .element name attributes children =>
    name.toList.all (fun c => !isSpace c) && attributes.isPlain && isPlainAll children

def isPlainAll : List Node → Bool
  | [] => true
  | node :: nodes => isPlain node && isPlainAll nodes
end

end Node

namespace Session

open Node

variable {options : Options}

mutual
theorem prepareNode_steady (hdefault : options = {}) : ∀ {node : Node} {above : List String}
    {prepared : List Node}, node.isPlain = true →
      (mediaWiki options).prepareNode above node = .ok prepared →
        SteadyAll (above.contains "pre") prepared
  | .special kind content, above, prepared, hplain, h => by
    have hstrip : (mediaWiki options).options.stripComments = true := by rw [hdefault]; rfl
    rw [prepareNode, hstrip] at h
    obtain rfl := Except.ok.inj h
    simp [SteadyAll]
  | .text raw guarded, above, prepared, hplain, h => by
    simp only [isPlain, Bool.and_eq_true, Bool.not_eq_true', decide_eq_true_eq] at hplain
    obtain ⟨⟨rfl, hfeed⟩, hbrace⟩ := hplain
    have hsmooth : Smooth raw := fun c hc => by simpa using List.all_eq_true.mp hfeed c hc
    rw [prepareNode] at h
    obtain rfl := Except.ok.inj h
    split
    · trivial
    · refine ⟨⟨not_isFeed_guardText options _ hsmooth, fun hpre => ?_⟩, trivial⟩
      rw [hpre, hdefault]
      exact quiet_guardText hbrace
  | .element name attributes children, above, prepared, hplain, h => by
    simp only [isPlain, Bool.and_eq_true] at hplain
    obtain ⟨⟨hname, hattributes⟩, hchildren⟩ := hplain
    obtain ⟨resolved, hresolved, hcases⟩ := prepareNode_element_cases h
    have hbase : (mediaWiki options).options.baseUri = none := by rw [hdefault]; rfl
    rw [resolveUrl_of_baseUri_eq_none hbase] at hresolved
    obtain rfl := Except.ok.inj hresolved
    rcases hcases with ⟨-, h⟩ | ⟨-, -, rfl⟩ | ⟨-, -, below, hbelow, rfl⟩
    · exact prepareAll_steady hdefault hchildren h
    · trivial
    · have hbelow' := prepareAll_steady hdefault hchildren hbelow
      refine ⟨⟨?_, hattributes, ?_⟩, trivial⟩
      · rw [properName]
        split
        · decide
        · intro c hc hspace
          rw [not_isSpace_of_all hname c hc] at hspace
          cases hspace
      · rw [List.contains_cons, Bool.or_comm] at hbelow'
        rwa [Bool.beq_comm] at hbelow'

theorem prepareAll_steady (hdefault : options = {}) : ∀ {nodes : List Node} {above : List String}
    {prepared : List Node}, isPlainAll nodes = true →
      (mediaWiki options).prepareAll above nodes = .ok prepared →
        SteadyAll (above.contains "pre") prepared
  | [], above, prepared, hplain, h => by
    obtain rfl := Except.ok.inj h
    trivial
  | node :: nodes, above, prepared, hplain, h => by
    rw [isPlainAll, Bool.and_eq_true] at hplain
    obtain ⟨first, rest, hfirst, hrest, rfl⟩ := prepareAll_cons_eq_ok_iff.mp h
    exact steadyAll_append (prepareNode_steady hdefault hplain.1 hfirst)
      (prepareAll_steady hdefault hplain.2 hrest)
end

/-! ### Delimiters -/

/-- The marks of tables that the walk over a prepared document comes to at the start of a line. -/
def tableMarks (s : Session) (document : List Node) : List TableMark :=
  match s.prepare document with
  | .ok prepared => (s.walkAll Surroundings.document false prepared false ⟨.start, []⟩).marks
  | .error _ => []

/-- Whether the tables of a document, once it is prepared, stand free. -/
def hasFreeTables (s : Session) (document : List Node) : Bool :=
  match s.prepare document with
  | .ok prepared => isFreeAll prepared
  | .error _ => false

/-- The lines of the markup of a plain document that open or close a table are as many as the
tables that begin or end at the start of a line.  If tables stand free, both numbers are equal. -/
theorem convert_delimiters {document : List Node} {out : Text}
    (hplain : isPlainAll document = true)
    (hout : ((mediaWiki {}).convert document).outcome = .ok out) :
    TableMark.opening.count out.lines = ((mediaWiki {}).tableMarks document).count .opening ∧
      TableMark.closing.count out.lines = ((mediaWiki {}).tableMarks document).count .closing ∧
      ((mediaWiki {}).hasFreeTables document = true →
        TableMark.opening.count out.lines = TableMark.closing.count out.lines) := by
  obtain ⟨prepared, t, hprepared, ht, rfl⟩ := convert_outcome_ok_iff.mp hout
  have hsteady : SteadyAll false prepared := prepareAll_steady rfl hplain hprepared
  obtain ⟨hsmooth, htraces⟩ := traces_markupAll prepared Surroundings.document false hsteady ht
  have hlines : ∀ l ∈ t.lines, Plain l := fun l hl =>
    plain_of_smooth (fun c hc => hsmooth c (mem_of_mem_lines hl hc))
      (notMem_newline_of_mem_lines hl)
  have hreads : Reads t (inked t.lines) := ⟨rfl, fun l hl => (hlines l hl).neat⟩
  have hread := TableMark.read_lines hlines []
  rw [unlines_lines, (htraces rfl false ⟨.start, []⟩ rfl).1, List.nil_append] at hread
  have hcount : ∀ mark, mark = TableMark.opening ∨ mark = TableMark.closing →
      mark.count ((mediaWiki {}).complete t).lines =
        ((mediaWiki {}).tableMarks document).count mark := by
    intro mark hmark
    simp only [count_lines_complete mark hreads, tableMarks, hprepared, hread,
      TableMark.count_delimiters hmark]
  refine ⟨hcount _ (Or.inl rfl), hcount _ (Or.inr rfl), fun hfree => ?_⟩
  rw [hasFreeTables, hprepared] at hfree
  rw [hcount _ (Or.inl rfl), hcount _ (Or.inr rfl), tableMarks, hprepared]
  exact count_walkAll_of_isFreeAll hfree

/-- Tables in a link, in a cell, in a header cell, in preformatted text and with text at the end. -/
def assortedTables : List Node :=
  [.element "div" [⟨"title", .single "\x7b| a".toList⟩] [
      .text "| b".toList false,
      .element "a" [⟨"href", .single "http://h".toList⟩] [
        .element "TABLE" [⟨"class", .list ["x".toList, "y".toList]⟩] [
          .element "caption" [] [.text "\x7b| c".toList false],
          .element "tr" [] [.element "td" [] [.element "table" [] []]]]]],
    .element "table" [] [
      .element "tr" [] [.element "th" [] [.element "table" [] [.element "tr" [] []]]]],
    .element "pre" [] [.text "\x7b|\n|\x7d".toList false, .element "table" [] []],
    .element "ol" [] [.element "li" [] [
      .text " ".toList false,
      .element "table" [] [.element "tr" [] [.element "td" [] [.text "|\x7d".toList false]]],
      .element "table" [] [.text "d".toList false]]],
    .element "dd" [] [.special .comment "\x7b|".toList, .element "table" [] []]]

/-- Tables in a heading, behind the text of a list item and in a cell that has attributes. -/
def freeTables : List Node :=
  [.element "h2" [] [.text "a".toList false, .element "table" [] []],
    .element "ul" [] [.element "li" [] [
      .text "b".toList false,
      .element "table" [] [
        .text "\n".toList false,
        .element "thead" [] [.element "tr" [] [.element "th" [] [.text "c".toList false]]],
        .element "tr" [] [.element "td" [⟨"align", .single "left".toList⟩] [
          .element "em" [] [.text "d".toList false],
          .element "table" [] [.element "p" [] [.text "e".toList false]]]]]]]]

theorem convert_assortedTables :
    (isPlainAll assortedTables = true ∧
      ∃ out, ((mediaWiki {}).convert assortedTables).outcome = .ok out ∧
        TableMark.opening.count out.lines = 6 ∧ TableMark.closing.count out.lines = 5) ∧
    isPlainAll freeTables = true ∧ (mediaWiki {}).hasFreeTables freeTables = true ∧
      ∃ out, ((mediaWiki {}).convert freeTables).outcome = .ok out ∧
        TableMark.opening.count out.lines = 2 ∧ TableMark.closing.count out.lines = 2 := by
  have hconverts : ∀ document, ((mediaWiki {}).convert document).outcome.isOk = true →
      ∃ out, ((mediaWiki {}).convert document).outcome = .ok out := by
    intro document h
    cases hout : ((mediaWiki {}).convert document).outcome with
    | error e =>
      rw [hout] at h
      cases h
    | ok out => exact ⟨out, rfl⟩
  constructor
  · have hplain : isPlainAll assortedTables = true := by decide +kernel
    have hmarks : ((mediaWiki {}).tableMarks assortedTables).count .opening = 6 ∧
        ((mediaWiki {}).tableMarks assortedTables).count .closing = 5 := by decide +kernel
    obtain ⟨out, hout⟩ := hconverts assortedTables (by decide +kernel)
    have hcount := convert_delimiters hplain hout
    exact ⟨hplain, out, hout, hcount.1.trans hmarks.1, hcount.2.1.trans hmarks.2⟩
  · have hplain : isPlainAll freeTables = true := by decide +kernel
    have hfree : (mediaWiki {}).hasFreeTables freeTables = true := by decide +kernel
    have hmarks : ((mediaWiki {}).tableMarks freeTables).count .opening = 2 := by decide +kernel
    obtain ⟨out, hout⟩ := hconverts freeTables (by decide +kernel)
    have hcount := convert_delimiters hplain hout
    have hopening := hcount.1.trans hmarks
    exact ⟨hplain, hfree, out, hout, hopening, (hcount.2.2 hfree).symm.trans hopening⟩

/-- A table that is the content of a list item. -/
def listedTable : Node :=
  .element "ul" [] [.element "li" [] [
    .element "table" [] [.element "tr" [] [.element "td" [] [.text ['a'] false]]]]]

/-- The mark of an item takes the place of the line feeds before a table, and the table ends on a
line that has not begun. -/
theorem not_forall_convert_balanced : ¬ ∀ (document : List Node) (out : Text),
    ((mediaWiki {}).convert document).outcome = .ok out →
      TableMark.opening.count out.lines = TableMark.closing.count out.lines := by
  intro h
  have hrun : ((mediaWiki {}).convert [listedTable]).outcome =
      .ok "* \x7b|\n| a\n|\x7d".toList := by decide +kernel
  have hcount : TableMark.opening.count (lines "* \x7b|\n| a\n|\x7d".toList) = 0 ∧
      TableMark.closing.count (lines "* \x7b|\n| a\n|\x7d".toList) = 1 := by decide +kernel
  have hbalanced := h _ _ hrun
  rw [hcount.1, hcount.2] at hbalanced
  cases hbalanced

end Session

end Wikitext

/-
  Wikitext/Proofs/Conversion/TableLines.lean
  ==========================================
  **The lines of tables.**  However tables are nested and whatever their texts say, the markup of
  a table has one line that opens and one that closes each table, one for each cell, and one
  between any two rows that follow each other (`convert_table`): no text imitates a mark, no
  mark is swallowed by the line before it, and the mark of the first row of a table is left out
  whether or not rows are grouped.

  The marks are counted from the inside out, on the inked lines of each piece of markup
  (`Text.Reads`).  Cells and rows end every line that they begin (`Text.Ended`); what a cell holds
  need not, but a nested table sets itself off from the text before it (`Text.Follows`).
-/
import Wikitext.Proofs.Conversion.TableMarks
import Wikitext.Proofs.Text.Tidy

namespace Wikitext

open Text

namespace Session

open Element (cellMark isSpace_cellMark)

variable {t : Text} {ls : List Text}

/-! ### Rules -/

def tableRule : Rule :=
  { Rule.wrap (.feature .tableStart) (.literal ['|', '\x7d']) with
    block := true, lineFormat := .blocks }

def rowRule : Rule := Rule.wrap (.feature .rowStart) (.literal [])

/-- The rule of a cell, with its format. -/
def cellRule (format : LineFormat) : Rule :=
  { Rule.wrap (.feature .cellStart) (.literal ['\n']) with trim := .both, lineFormat := format }

theorem find?_table : (mediaWiki {}).table.find? "table" = some tableRule ∧
    (mediaWiki {}).table.find? "tr" = some rowRule ∧
      (mediaWiki {}).table.find? "th" = some (cellRule .single) ∧
        (mediaWiki {}).table.find? "td" = some (cellRule .blocks) := by
  decide +kernel

/-! ### Cells -/

variable {structural : Bool} {n : Node} {nodes : List Node} {name : String}
  {attributes : Attributes}

/-- Texts and tables in a cell. -/
def LaysContent (nodes : List Node) : Prop :=
  Produces false nodes fun _ _ prepared t =>
    prepared.all Element.isPhrasal = nodes.all Node.isText ∧
      (nodes.all Node.isText = true → Plain t) ∧
        ∃ ls, Reads t ls ∧ ((nodes.head?.any Node.isText) = false → Follows t ls) ∧
          ∀ mark : TableMark, mark.count ls = Node.marksAll mark nodes

/-- Cells of a row. -/
def LaysCells (nodes : List Node) : Prop :=
  Produces true nodes fun _ _ _ t => ∃ ls, Reads t ls ∧ Ended t ∧
    ∀ mark : TableMark, mark.count ls = Node.marksAll mark nodes

/-- A table that sets itself off. -/
def LaysTable (structural : Bool) (n : Node) : Prop :=
  Produces structural [n] fun _ _ prepared t => prepared.all Element.isPhrasal = false ∧
    ∃ body ls, t = ['\n', '\n'] ++ body ++ ['\n', '\n'] ∧ Reads body ls ∧
      ∀ mark : TableMark, mark.count ls = n.marks mark

theorem laysContent_nil : LaysContent [] :=
  produces_nil fun _ _ => ⟨rfl, fun _ => plain_nil, [], reads_nil, fun _ => follows_nil, fun _ => rfl⟩

theorem laysContent_text {raw : Text} (hrest : LaysContent nodes)
    (hapart : nodes.head?.any Node.isText = false) :
    LaysContent (.text raw false :: nodes) := by
  let guarded := (mediaWiki {}).guardText false raw
  have hfirst : Produces false [.text raw false] fun _ _ prepared t =>
      prepared = [.text guarded true] ∧ t = guarded :=
    produces_text fun _ _ => ⟨rfl, rfl⟩
  refine hfirst.cons hrest ?_
  rintro _ _ xs ys t u ⟨rfl, rfl⟩ ⟨hphrasal, hplain, ls, -, hfollows, hcount⟩
  refine ⟨?_, fun hall => ?_, inked [guarded] ++ ls, ?_, ?_, fun mark => ?_⟩
  · simpa [Element.isPhrasal, Node.isText] using hphrasal
  · rw [List.all_cons, Bool.and_eq_true] at hall
    exact (plain_guardText raw).append (hplain hall.2)
  · exact hfollows hapart guarded (plain_guardText raw)
  · intro htext
    cases htext
  · rw [TableMark.count_append, TableMark.count_guardText, hcount, Node.marksAll, Node.marks_text]

theorem laysContent_table (hfirst : LaysTable false n) (hrest : LaysContent nodes)
    (htext : n.isText = false) : LaysContent (n :: nodes) := by
  refine Produces.cons hfirst hrest ?_
  rintro _ _ xs ys t u ⟨hphrasal, body, ls, rfl, hreads, hcount⟩
    ⟨-, -, ms, hreads', -, hcount'⟩
  have hfollows := follows_block hreads hreads'
  refine ⟨?_, fun hall => ?_, ls ++ ms, hfollows.reads, fun _ => hfollows, fun mark => ?_⟩
  · rw [List.all_append, hphrasal, List.all_cons, htext, Bool.false_and, Bool.false_and]
  · rw [List.all_cons, htext, Bool.false_and] at hall
    cases hall
  · rw [TableMark.count_append, hcount, hcount', Node.marksAll]

/-- The one line of a cell, and the lines of its content, if that does not follow the mark. -/
theorem laysCells_cell {format : LineFormat}
    (htag : lowerName name = "th" ∧ format = .single ∨ lowerName name = "td" ∧ format = .blocks)
    (hfurniture : Element.isFurniture attributes = false)
    (hline : Element.onOneLine Element.cellNames attributes = true)
    (hformat : nodes.all Node.isText = false → format = .blocks)
    (hcontent : LaysContent nodes) : LaysCells [.element name attributes nodes] := by
  obtain ⟨hother, hnot, htransparent⟩ : lowerName name ∉ ["a", "caption", "pre"] ∧
      structuralTags.contains (lowerName name) = false ∧
        transparentTags.contains (lowerName name) = false := by
    rcases htag with ⟨h, -⟩ | ⟨h, -⟩ <;> rw [h] <;> decide
  have hrule : (mediaWiki {}).table.find? (lowerName name) = some (cellRule format) := by
    rcases htag with ⟨h, rfl⟩ | ⟨h, rfl⟩ <;> rw [h]
    · exact find?_table.2.2.1
    · exact find?_table.2.2.2
  -- the first line is the only one with a mark of the cell itself
  have hown : ∀ (mark : TableMark) {l : Text},
      (l = [cellMark (lowerName name)] ∨ ∃ rest, l = cellMark (lowerName name) :: ' ' :: rest) →
        mark.count [l] = Node.ownMarks mark (lowerName name) nodes := by
    intro mark l hl
    rw [TableMark.count_singleton, starts_cellMark mark hl]
    rcases htag with ⟨h, -⟩ | ⟨h, -⟩ <;> rw [h] <;> cases mark <;> rfl
  refine produces_element hother hfurniture (by rw [hnot]; exact hcontent)
    fun ancestors preceded prepared t ht => ?_
  obtain ⟨hphrasal, hplain, ls, hreads, -, hcount⟩ := ht
  refine ⟨_, elementMarkup_wrap htransparent hrule rfl rfl rfl, ?_⟩
  obtain ⟨l, hstart, hopens⟩ := Element.opens_cellStart hline (lowerName name) prepared
  have hlayout : (cellRule format).layout
      (Element.cellStart (lowerName name) attributes prepared) t ['\n'] =
        Element.cellStart (lowerName name) attributes prepared ++
          format.apply (trim isSpace t) ++ ['\n'] := by
    simp [Rule.layout, cellRule, Rule.wrap, Rule.bare, TrimPolicy.apply]
  rw [PlacedElement.tag, hlayout, hstart, hphrasal]
  by_cases hall : nodes.all Node.isText = true
  · -- the content follows the mark
    have hv : Plain (trim isSpace t) := fun c hc => hplain hall c (mem_of_mem_trim hc)
    obtain ⟨y, hy, hstarts⟩ := reads_cellLine hopens hv
    rw [if_pos hall, apply_of_notMem format hv.notMem_newline]
    refine ⟨[y], ?_, ended_concat _, fun mark => ?_⟩
    · simpa using hy
    · simp only [hown mark hstarts, Node.marksAll, Node.marks,
        Node.marksAll_of_all_isText mark hall, Nat.add_zero]
  · have hblocks := hformat (by simpa using hall)
    subst hblocks
    rw [if_neg hall]
    refine ⟨[l] ++ ls, ?_, ended_concat _, fun mark => ?_⟩
    · exact ((reads_opens hopens (isSpace_cellMark _)).append_of_ended (ended_concat _)
        hreads.trimmed.blocks).concat_newline
    · simp only [TableMark.count_append, hown mark hopens.starts, hcount, Node.marksAll,
        Node.marks, Nat.add_zero]

theorem laysCells_nil : LaysCells [] :=
  produces_nil fun _ _ => ⟨[], reads_nil, ended_nil, fun _ => rfl⟩

theorem LaysCells.cons (hfirst : LaysCells [n]) (hrest : LaysCells nodes) :
    LaysCells (n :: nodes) := by
  refine Produces.cons hfirst hrest ?_
  rintro _ _ xs ys t u ⟨ls, hreads, hended, hcount⟩ ⟨ms, hreads', hended', hcount'⟩
  refine ⟨ls ++ ms, hreads.append_of_ended hended hreads', hended.append hended', fun mark => ?_⟩
  rw [TableMark.count_append, hcount, hcount']
  simp only [Node.marksAll, Nat.add_zero]

theorem laysCells_white (h : n.isWhiteText = true) : LaysCells [n] := by
  obtain ⟨raw, rfl, hraw⟩ := Node.exists_of_isWhiteText h
  refine produces_text fun _ _ => ?_
  rw [hraw, Bool.and_self, if_pos rfl]
  exact ⟨[], reads_nil, ended_nil, fun _ => rfl⟩

/-! ### Rows -/

/-- The marks of `count` rows that follow each other; `preceded` says whether rows stand before
the first. -/
def rowMarks (mark : TableMark) (preceded : Bool) (count : Nat) : Nat :=
  if mark = .row then if preceded then count else count - 1 else 0

theorem rowMarks_add (mark : TableMark) (preceded : Bool) (m n : Nat) :
    rowMarks mark preceded m + rowMarks mark (preceded || decide (0 < m)) n =
      rowMarks mark preceded (m + n) := by
  by_cases hmark : mark = .row
  · rw [rowMarks, rowMarks, rowMarks, if_pos hmark, if_pos hmark, if_pos hmark]
    cases preceded with
    | true => rfl
    | false =>
      by_cases hm : 0 < m
      · simp only [hm, decide_true, Bool.or_true, if_true, Bool.false_eq_true, if_false]
        omega
      · simp only [hm, decide_false, Bool.or_false, Bool.false_eq_true, if_false]
        omega
  · rw [rowMarks, rowMarks, rowMarks, if_neg hmark, if_neg hmark, if_neg hmark]

/-- Rows, and groups of rows where their parent is no group. -/
def LaysRows (groups : Bool) (nodes : List Node) : Prop :=
  Produces true nodes fun ancestors preceded prepared t =>
    prepared.any Node.carriesContent = decide (0 < Node.rowsAmong nodes) ∧
      ((groups = true → (ancestors.head?.any fun f => Element.sectionTags.contains f.tag) = false) →
        ∃ ls, Reads t ls ∧ Ended t ∧ ∀ mark : TableMark, mark.count ls =
          Node.marksAll mark nodes +
            rowMarks mark (Element.followsContent ⟨preceded, ancestors⟩) (Node.rowsAmong nodes))

variable {groups : Bool}

theorem laysRows_nil : LaysRows groups [] :=
  produces_nil fun ancestors preceded => ⟨rfl, fun _ => ⟨[], reads_nil, ended_nil, fun mark => by
    rw [TableMark.count_nil, Node.marksAll, Node.rowsAmong, rowMarks]
    split_ifs <;> rfl⟩⟩

theorem laysRows_white (h : n.isWhiteText = true) : LaysRows groups [n] := by
  obtain ⟨raw, rfl, hraw⟩ := Node.exists_of_isWhiteText h
  refine produces_text fun _ _ => ?_
  rw [hraw, Bool.and_self, if_pos rfl]
  refine ⟨rfl, fun _ => ⟨[], reads_nil, ended_nil, fun mark => ?_⟩⟩
  simp only [TableMark.count_nil, Node.marksAll, Node.marks_text, Node.rowsAmong, Node.rowCount,
    rowMarks]
  split_ifs <;> rfl

theorem followsContent_or (preceded more : Bool) (ancestors : List Frame) :
    Element.followsContent ⟨preceded || more, ancestors⟩ =
      (Element.followsContent ⟨preceded, ancestors⟩ || more) := by
  rw [Element.followsContent, Element.followsContent]
  cases preceded <;> cases more <;> simp

theorem LaysRows.cons (hfirst : LaysRows groups [n]) (hrest : LaysRows groups nodes) :
    LaysRows groups (n :: nodes) := by
  refine Produces.cons hfirst hrest ?_
  rintro ancestors preceded xs ys t u ⟨hcarries, hlays⟩ ⟨hcarries', hlays'⟩
  have hsingle : Node.rowsAmong [n] = n.rowCount := by simp [Node.rowsAmong]
  have hall : Node.rowsAmong (n :: nodes) = n.rowCount + Node.rowsAmong nodes := by
    rw [Node.rowsAmong]
  rw [hsingle] at hcarries hlays
  rw [hcarries] at hlays'
  rw [hall]
  constructor
  · rw [List.any_append, hcarries, hcarries', Bool.eq_iff_iff]
    simp only [Bool.or_eq_true, decide_eq_true_eq]
    omega
  · intro hgroups
    obtain ⟨ls, hreads, hended, hcount⟩ := hlays hgroups
    obtain ⟨ms, hreads', hended', hcount'⟩ := hlays' hgroups
    refine ⟨ls ++ ms, hreads.append_of_ended hended hreads', hended.append hended', fun mark => ?_⟩
    rw [TableMark.count_append, hcount, hcount', followsContent_or, ← rowMarks_add]
    simp only [Node.marksAll, Nat.add_zero]
    omega

/-- A row is its cells, after its mark if rows stand before it. -/
theorem laysRows_row (htag : lowerName name = "tr")
    (hfurniture : Element.isFurniture attributes = false)
    (hrow : Element.allowedPairs Element.rowNames attributes = [])
    (hcells : LaysCells nodes) : LaysRows groups [.element name attributes nodes] := by
  have hstructural : structuralTags.contains (lowerName name) = true := by rw [htag]; decide
  refine produces_element (by rw [htag]; decide) hfurniture (by rw [hstructural]; exact hcells)
    fun ancestors preceded prepared t ht => ?_
  obtain ⟨ls, hreads, hended, hcount⟩ := ht
  have hrule : (mediaWiki {}).table.find? (lowerName name) = some rowRule := by
    rw [htag]
    exact find?_table.2.1
  refine ⟨_, elementMarkup_wrap (by rw [PlacedElement.tag, htag]; decide) hrule rfl rfl rfl, ?_⟩
  have hrows : Node.rowsAmong [.element name attributes nodes] = 1 := by
    simp [Node.rowsAmong, Node.rowCount, htag]
  rw [hrows]
  refine ⟨rfl, fun _ => ?_⟩
  have hlayout : ∀ opening, rowRule.layout opening t [] = opening ++ t := fun opening => by
    simp [Rule.layout, rowRule, Rule.wrap, Rule.bare, TrimPolicy.apply, LineFormat.apply]
  have hmarks : ∀ mark, Node.marksAll mark [.element name attributes nodes] =
      Node.marksAll mark nodes := fun mark => by
    simp only [Node.marksAll, Node.marks, htag, Nat.add_zero]
    cases mark <;> exact Nat.zero_add _
  rw [hlayout, Element.rowStart_eq hrow]
  cases hfollows : Element.followsContent ⟨preceded, ancestors⟩ with
  | true =>
    have hmark : Reads ['|', '-', '\n'] [['|', '-']] :=
      (reads_line (l := ['|', '-']) (by decide) rfl).concat_newline
    refine ⟨[['|', '-']] ++ ls, ?_, ?_, fun mark => ?_⟩
    · exact hmark.append_of_ended (ended_concat ['|', '-']) hreads
    · exact (ended_concat ['|', '-']).append hended
    · rw [TableMark.count_append, hcount, hmarks, Nat.add_comm]
      cases mark <;> rfl
  | false =>
    refine ⟨ls, hreads, hended, fun mark => ?_⟩
    rw [hcount, hmarks]
    cases mark <;> rfl

/-- A group of rows is its rows. -/
theorem laysRows_group (htag : lowerName name ∈ Element.sectionTags)
    (hfurniture : Element.isFurniture attributes = false) (hrows : 0 < Node.rowsAmong nodes)
    (hnodes : LaysRows false nodes) : LaysRows true [.element name attributes nodes] := by
  have hall : ∀ tag ∈ Element.sectionTags, tag ∉ ["a", "caption", "pre", "tr", "table", "th", "td"] ∧
      structuralTags.contains tag = true ∧ transparentTags.contains tag = true := by decide
  obtain ⟨hother, hstructural, htransparent⟩ := hall _ htag
  simp only [List.mem_cons, List.not_mem_nil, or_false, not_or] at hother
  obtain ⟨ha, hcaption, hpre, htr, htable, hth, htd⟩ := hother
  refine produces_element (by simp [ha, hcaption, hpre]) hfurniture
    (by rw [hstructural]; exact hnodes) fun ancestors preceded prepared t ht => ?_
  refine ⟨t, by rw [elementMarkup, PlacedElement.tag, if_pos htransparent], ?_⟩
  obtain ⟨-, hlays⟩ := ht
  have hsame : Node.rowsAmong [.element name attributes nodes] = Node.rowsAmong nodes := by
    simp only [Node.rowsAmong, Node.rowCount, if_neg htr, if_pos (List.contains_iff_mem.mpr htag),
      Nat.add_zero]
  rw [hsame]
  refine ⟨(decide_eq_true hrows).symm, fun hgroups => ?_⟩
  obtain ⟨ls, hreads, hended, hcount⟩ := hlays fun h => by cases h
  refine ⟨ls, hreads, hended, fun mark => ?_⟩
  have hinner : Element.followsContent ⟨false, ⟨lowerName name, preceded⟩ :: ancestors⟩ = preceded := by
    simp only [Element.followsContent, List.contains_iff_mem.mpr htag, Bool.true_and,
      Bool.false_or]
  have houter : Element.followsContent ⟨preceded, ancestors⟩ = preceded := by
    cases ancestors with
    | nil => simp [Element.followsContent]
    | cons parent rest =>
      have hparent : Element.sectionTags.contains parent.tag = false := by simpa using hgroups rfl
      simp only [Element.followsContent, hparent, Bool.false_and, Bool.or_false]
  have hown : Node.ownMarks mark (lowerName name) nodes = 0 := by
    cases mark
    · exact if_neg htable
    · exact if_neg htable
    · exact if_neg htable
    · exact if_neg hth
    · exact if_neg htd
  rw [hcount, hinner, houter]
  simp only [Node.marksAll, Node.marks, hown, Nat.zero_add, Nat.add_zero]

/-! ### Tables -/

theorem laysTable (htag : lowerName name = "table")
    (hfurniture : Element.isFurniture attributes = false)
    (hline : Element.onOneLine Element.tableNames attributes = true)
    (hnodes : LaysRows true nodes) : LaysTable structural (.element name attributes nodes) := by
  have hstructural : structuralTags.contains (lowerName name) = true := by rw [htag]; decide
  refine produces_element (by rw [htag]; decide) hfurniture (by rw [hstructural]; exact hnodes)
    fun ancestors preceded prepared t ht => ?_
  have hrule : (mediaWiki {}).table.find? (lowerName name) = some tableRule := by
    rw [htag]
    exact find?_table.1
  refine ⟨_, elementMarkup_wrap (by rw [PlacedElement.tag, htag]; decide) hrule rfl rfl rfl, ?_⟩
  have hphrasal : Element.isPhrasal (.element name attributes prepared) = false := by
    rw [Element.isPhrasal, Node.tag, htag]; rfl
  refine ⟨by rw [List.all_cons, hphrasal, Bool.false_and], ?_⟩
  obtain ⟨-, hlays⟩ := ht
  have hparent : Element.sectionTags.contains (lowerName name) = false := by rw [htag]; decide
  obtain ⟨ls, hreads, hended, hcount⟩ := hlays fun _ => hparent
  obtain ⟨l, hstart, hopens⟩ := Element.opens_tableStart hline
  have hclosing : Reads ['|', '\x7d'] [['|', '\x7d']] := reads_line (by decide) rfl
  refine ⟨l ++ ['\n'] ++ LineFormat.blocks.apply t ++ ['|', '\x7d'], [l] ++ ls ++ [['|', '\x7d']],
    ?_, ?_, fun mark => ?_⟩
  · simp [Rule.layout, tableRule, Rule.wrap, Rule.bare, TrimPolicy.apply, hstart]
  · have hopening := reads_opens hopens (by decide)
    have hbody := hopening.append_of_ended (ended_concat l) hreads.blocks
    exact hbody.append_of_ended ((ended_concat l).append hended.blocks) hclosing
  · have hfollows : Element.followsContent ⟨false, ⟨lowerName name, preceded⟩ :: ancestors⟩ =
        false := by
      simp only [Element.followsContent, hparent, Bool.false_and, Bool.or_self]
    have hfirst : mark.starts l = decide (mark = .opening) := by
      rcases hopens.starts with rfl | ⟨rest, rfl⟩
      · exact TableMark.starts_opening mark []
      · exact TableMark.starts_opening mark _
    rw [TableMark.count_append, TableMark.count_append, TableMark.count_singleton,
      TableMark.count_singleton, hfirst, hcount, hfollows, Node.marks]
    cases mark <;>
      simp [Node.ownMarks, htag, rowMarks, TableMark.starts, List.isPrefixOf] <;> omega

mutual
theorem laysTable_of_isTable : ∀ (n : Node) (structural : Bool), n.isTable = true →
    LaysTable structural n
  | .text _ _, _, h => by cases h
  | .special _ _, _, h => by cases h
  | .element name attributes children, structural, h => by
    simp only [Node.isTable, Bool.and_eq_true, beq_iff_eq, Bool.not_eq_true'] at h
    obtain ⟨⟨⟨⟨htag, hfurniture⟩, hline⟩, hgroups⟩, -⟩ := h
    exact laysTable htag hfurniture hline (laysRows_of_holdsGroups children hgroups)

theorem laysRows_of_holdsGroups : ∀ nodes : List Node, Node.holdsGroups nodes = true →
    LaysRows true nodes
  | [], _ => laysRows_nil
  | n :: nodes, h => by
    simp only [Node.holdsGroups, Bool.and_eq_true, Bool.or_eq_true] at h
    obtain ⟨hfirst, hrest⟩ := h
    refine LaysRows.cons ?_ (laysRows_of_holdsGroups nodes hrest)
    rcases hfirst with (hwhite | hrow) | hgroup
    · exact laysRows_white hwhite
    · exact laysRows_of_isRow n true hrow
    · exact laysRows_of_isGroup n hgroup

theorem laysRows_of_isGroup : ∀ n : Node, n.isGroup = true → LaysRows true [n]
  | .text _ _, h => by cases h
  | .special _ _, h => by cases h
  | .element name attributes children, h => by
    simp only [Node.isGroup, Bool.and_eq_true, Bool.not_eq_true', List.contains_iff_mem,
      decide_eq_true_eq] at h
    obtain ⟨⟨⟨htag, hfurniture⟩, hrows⟩, hcount⟩ := h
    exact laysRows_group htag hfurniture hcount (laysRows_of_holdsRows children hrows)

theorem laysRows_of_holdsRows : ∀ nodes : List Node, Node.holdsRows nodes = true →
    LaysRows false nodes
  | [], _ => laysRows_nil
  | n :: nodes, h => by
    simp only [Node.holdsRows, Bool.and_eq_true, Bool.or_eq_true] at h
    obtain ⟨hfirst, hrest⟩ := h
    refine LaysRows.cons ?_ (laysRows_of_holdsRows nodes hrest)
    rcases hfirst with hwhite | hrow
    · exact laysRows_white hwhite
    · exact laysRows_of_isRow n false hrow

theorem laysRows_of_isRow : ∀ (n : Node) (groups : Bool), n.isRow = true → LaysRows groups [n]
  | .text _ _, _, h => by cases h
  | .special _ _, _, h => by cases h
  | .element name attributes children, groups, h => by
    simp only [Node.isRow, Bool.and_eq_true, beq_iff_eq, Bool.not_eq_true',
      List.isEmpty_iff] at h
    obtain ⟨⟨⟨htag, hfurniture⟩, hrow⟩, hcells⟩ := h
    exact laysRows_row htag hfurniture hrow (laysCells_of_holdsCells children hcells)

theorem laysCells_of_holdsCells : ∀ nodes : List Node, Node.holdsCells nodes = true →
    LaysCells nodes
  | [], _ => laysCells_nil
  | n :: nodes, h => by
    simp only [Node.holdsCells, Bool.and_eq_true, Bool.or_eq_true] at h
    obtain ⟨hfirst, hrest⟩ := h
    refine LaysCells.cons ?_ (laysCells_of_holdsCells nodes hrest)
    rcases hfirst with (hwhite | hheader) | hcell
    · exact laysCells_white hwhite
    · exact laysCells_of_isHeader n hheader
    · exact laysCells_of_isCell n hcell

theorem laysCells_of_isHeader : ∀ n : Node, n.isHeader = true → LaysCells [n]
  | .text _ _, h => by cases h
  | .special _ _, h => by cases h
  | .element name attributes children, h => by
    simp only [Node.isHeader, Bool.and_eq_true, beq_iff_eq, Bool.not_eq_true'] at h
    obtain ⟨⟨⟨⟨htag, hfurniture⟩, hline⟩, hfresh⟩, hone⟩ := h
    obtain ⟨n, rfl⟩ := List.length_eq_one_iff.mp hone
    cases n with
    | text raw guarded =>
      obtain rfl : guarded = false := by simpa [Node.isFreshText] using hfresh
      exact laysCells_cell (Or.inl ⟨htag, rfl⟩) hfurniture hline (fun h => by cases h)
        (laysContent_text laysContent_nil rfl)
    | special kind content => cases hfresh
    | element name attributes children => cases hfresh

theorem laysCells_of_isCell : ∀ n : Node, n.isCell = true → LaysCells [n]
  | .text _ _, h => by cases h
  | .special _ _, h => by cases h
  | .element name attributes children, h => by
    simp only [Node.isCell, Bool.and_eq_true, beq_iff_eq, Bool.not_eq_true'] at h
    obtain ⟨⟨⟨htag, hfurniture⟩, hline⟩, hcontent⟩ := h
    exact laysCells_cell (Or.inr ⟨htag, rfl⟩) hfurniture hline (fun _ => rfl)
      (laysContent_of_holdsContent children hcontent)

theorem laysContent_of_holdsContent : ∀ nodes : List Node, Node.holdsContent nodes = true →
    LaysContent nodes
  | [], _ => laysContent_nil
  | n :: nodes, h => by
    simp only [Node.holdsContent, Bool.and_eq_true, Bool.or_eq_true, Bool.not_eq_true'] at h
    obtain ⟨hfirst, hrest⟩ := h
    have hcontent := laysContent_of_holdsContent nodes hrest
    cases n with
    | text raw guarded =>
      obtain ⟨hfresh, hapart⟩ := hfirst.resolve_right (by simp [Node.isTable])
      obtain rfl : guarded = false := by simpa [Node.isFreshText] using hfresh
      exact laysContent_text hcontent hapart
    | special kind content => simp [Node.isFreshText, Node.isTable] at hfirst
    | element name attributes children =>
      have htable := hfirst.resolve_left (by simp [Node.isFreshText])
      exact laysContent_table (laysTable_of_isTable (.element name attributes children) false htable)
        hcontent rfl
end

/-! ### Documents -/

/-- A placeholder is copied, or a space stands in its place. -/
theorem finish_cons (c : Char) (t : Text) :
    MediaWiki.finish (c :: t) = c :: MediaWiki.finish t ∨
      c = '[' ∧ ∃ u, MediaWiki.finish (c :: t) = ' ' :: u := by
  rw [MediaWiki.finish, replace, substitute, substituteFrom_zero]
  by_cases hfound : MediaWiki.placeholder.isPrefixOf (c :: t) = true
  · rw [if_pos hfound]
    have hc : c = '[' :=
      (List.cons_prefix_cons.mp (List.isPrefixOf_iff_prefix.mp hfound)).1.symm
    exact Or.inr ⟨hc, _, rfl⟩
  · rw [if_neg hfound]
    exact Or.inl rfl

/-- The last pass changes no mark. -/
theorem starts_finish (mark : TableMark) (l : Text) :
    mark.starts (MediaWiki.finish l) = mark.starts l := by
  cases l with
  | nil => rfl
  | cons c t =>
    rcases finish_cons c t with h | ⟨rfl, u, h⟩
    · rw [h]
      cases t with
      | nil => rfl
      | cons d t =>
        rcases finish_cons d t with h' | ⟨rfl, u, h'⟩ <;> rw [h'] <;> cases mark <;>
          simp [TableMark.starts, List.isPrefixOf]
    · rw [h]
      cases mark <;> rfl

theorem count_lines_complete (mark : TableMark) (h : Reads t ls) :
    mark.count ((mediaWiki {}).complete t).lines = mark.count ls := by
  have hlines : ((mediaWiki {}).complete t).lines = t.tidy.lines.map MediaWiki.finish :=
    lines_replace (by decide) (by decide) (by decide) t.tidy
  have hfinish : mark.starts ∘ MediaWiki.finish = mark.starts := funext (starts_finish mark)
  have hempty : (t.tidy.lines.filter (· ≠ [])).countP mark.starts =
      t.tidy.lines.countP mark.starts := by
    rw [List.countP_filter]
    refine List.countP_congr fun l _ => ?_
    by_cases hl : l = []
    · simp [hl]
    · simp [hl]
  rw [TableMark.count, hlines, List.countP_map, hfinish, ← hempty, h.filter_lines_tidy]
  rfl

theorem produces_whites (h : nodes.all Node.isWhiteText = true) :
    Produces structural nodes fun _ _ _ t => Joins t [] := by
  induction nodes with
  | nil => exact produces_nil fun _ _ => joins_nil
  | cons n nodes ih =>
    rw [List.all_cons, Bool.and_eq_true] at h
    exact (produces_white h.1).cons (ih h.2) fun _ _ _ _ _ _ ht hu => ht.append hu

theorem produces_among_whites {before after : List Node}
    (hbefore : before.all Node.isWhiteText = true) (hafter : after.all Node.isWhiteText = true)
    (h : Produces structural [n] fun _ _ _ t => ∃ ls, Joins t ls ∧ ∀ mark : TableMark,
      mark.count ls = n.marks mark) :
    Produces structural (before ++ n :: after) fun _ _ _ t => ∃ ls, Joins t ls ∧
      ∀ mark : TableMark, mark.count ls = n.marks mark := by
  induction before with
  | nil =>
    refine h.cons (produces_whites hafter) ?_
    rintro _ _ _ _ _ _ ⟨ls, hjoins, hcount⟩ hwhite
    exact ⟨ls, by simpa using hjoins.append hwhite, hcount⟩
  | cons m before ih =>
    rw [List.all_cons, Bool.and_eq_true] at hbefore
    refine (produces_white hbefore.1).cons (ih hbefore.2) ?_
    rintro _ _ _ _ _ _ hwhite ⟨ls, hjoins, hcount⟩
    exact ⟨ls, by simpa using hwhite.append hjoins, hcount⟩

/-- A document of one table has a line for each mark of its tables, and no other line that starts
with a mark. -/
theorem convert_table {table : Node} {before after : List Node}
    (hbefore : before.all Node.isWhiteText = true) (htable : table.isTable = true)
    (hafter : after.all Node.isWhiteText = true) :
    ∃ out, (mediaWiki {}).convert (before ++ table :: after) = Report.ok out ∧
      ∀ mark : TableMark, mark.count out.lines = table.marks mark := by
  have hlays := (laysTable_of_isTable table false htable).mono
    (Q := fun _ _ _ t => ∃ ls, Joins t ls ∧ ∀ mark : TableMark, mark.count ls = table.marks mark)
    fun _ _ _ t ht => by
      obtain ⟨-, body, ls, rfl, hreads, hcount⟩ := ht
      exact ⟨ls, joins_block hreads, hcount⟩
  obtain ⟨_, t, hconvert, ls, hjoins, hcount⟩ :=
    (produces_among_whites hbefore hafter hlays).convert
  refine ⟨_, hconvert, fun mark => ?_⟩
  rw [count_lines_complete mark hjoins.follows.reads, hcount]

/-- A table in a cell of a table, with groups, attributes, and texts that read as marks. -/
def nestedTables : Node :=
  .element "table" [⟨"class", .list ["plain".toList, "wide".toList]⟩] [
    .text "\n".toList false,
    .element "thead" [] [
      .element "tr" [⟨"onclick", .single "go".toList⟩] [
        .element "th" [⟨"colspan", .single "2".toList⟩] [.text "| head".toList false],
        .text " ".toList false]],
    .element "TBODY" [] [
      .text "\n".toList false,
      .element "tr" [] [
        .element "td" [] [.text "|-".toList false],
        .element "td" [] [
          .text "before".toList false,
          .element "table" [] [
            .element "tr" [] [.element "td" [] [], .element "th" [] [.text " ".toList false]],
            .element "tr" [] [.element "td" [⟨"title", .single "\t|-".toList⟩] []]],
          .text "\n\x7b| after".toList false]]],
    .element "tr" [] []]

theorem convert_nestedTables :
    [Node.text " ".toList false].all Node.isWhiteText = true ∧ nestedTables.isTable = true ∧
      ∃ out, (mediaWiki {}).convert [.text " ".toList false, nestedTables] = Report.ok out ∧
        TableMark.opening.count out.lines = 2 ∧ TableMark.closing.count out.lines = 2 ∧
          TableMark.row.count out.lines = 3 ∧ TableMark.header.count out.lines = 2 ∧
            TableMark.cell.count out.lines = 4 := by
  have hwhite : [Node.text " ".toList false].all Node.isWhiteText = true := by decide
  have htable : nestedTables.isTable = true := by decide +kernel
  have hnone : ([] : List Node).all Node.isWhiteText = true := rfl
  obtain ⟨out, hconvert, hcount⟩ := convert_table hwhite htable hnone
  refine ⟨hwhite, htable, out, hconvert, ?_⟩
  simp only [hcount]
  decide +kernel

end Session

end Wikitext

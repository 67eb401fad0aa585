/-
  Wikitext/Proofs/Conversion/OneCell.lean
  =======================================
  **A table of one cell.**  The markup of a table with one row and one cell around one text has
  the line that opens the table, the line of the row, if it has attributes, the line of the cell
  and the line that closes the table (`convert_oneCell`).  The guard protects a text where it
  could be taken for the start of a line; a bar in the middle of it stays as it is.  So the line
  of the cell is read as one cell with its attributes and its text just if the open marks of the
  text neither start another cell nor end attributes that are not there.

  Attributes are written with their line feeds and bars, and nothing is said here of values that
  hold some.
-/
import Mathlib.Tactic.MkIffOfInductiveProp
import Wikitext.Proofs.Conversion.Fidelity
import Wikitext.Proofs.Conversion.TableLines
import Wikitext.Proofs.Element.CellLine
import Wikitext.Proofs.Element.Written

namespace Wikitext

open Text Nowiki

namespace Text

variable {t l : Text}

/-- No line feed but one at the end. -/
def IsOneLine (t : Text) : Prop := '\n' ∉ t.dropLast

instance (t : Text) : Decidable (IsOneLine t) := inferInstanceAs (Decidable (¬ _))

theorem isOneLine_of_notMem (h : '\n' ∉ t) : IsOneLine t :=
  fun hin => h (List.mem_of_mem_dropLast hin)

theorem isOneLine_concat (h : '\n' ∉ l) (d : Char) : IsOneLine (l ++ [d]) := by
  rwa [IsOneLine, List.dropLast_concat]

end Text

/-! ### The table -/

/-- A table with one row and one cell around one text. -/
structure OneCell where
  tableName : String
  tableAttributes : Attributes
  rowName : String
  rowAttributes : Attributes
  cellName : String
  cellAttributes : Attributes
  raw : Text

namespace OneCell

open Element Session

variable {c : OneCell}

def node (c : OneCell) : Node :=
  .element c.tableName c.tableAttributes
    [.element c.rowName c.rowAttributes [.element c.cellName c.cellAttributes [.text c.raw false]]]

def tag (c : OneCell) : String := lowerName c.cellName

/-- The attributes of the cell as they are written. -/
def written (c : OneCell) : Text := writtenAttributes cellNames c.cellAttributes

/-- The line of the cell before white space is trimmed off. -/
def openLine (c : OneCell) : Text :=
  cellMark c.tag :: (cellHead c.written ++ ' ' :: sayingLine c.raw)

def line (c : OneCell) : Text := cellLine c.tag c.written (sayingLine c.raw)

/-- The line of a row with attributes. -/
def rowLines (attributes : Attributes) : List Text :=
  match spacedAttributes rowNames attributes with
  | [] => []
  | w => [['|', '-'] ++ w]

/-- The lines before that of the cell. -/
def headLines (c : OneCell) : List Text :=
  (['\x7b', '|'] ++ spacedAttributes tableNames c.tableAttributes) :: rowLines c.rowAttributes

/-- The elements are a table, a row and a cell, and no placeholder stands on the line of the
cell. -/
@[mk_iff]
structure IsTable (c : OneCell) : Prop where
  table : lowerName c.tableName = "table"
  row : lowerName c.rowName = "tr"
  cell : c.tag = "td" ∨ c.tag = "th"
  freeAttributes : occurs MediaWiki.placeholder c.written = false
  freeText : occurs MediaWiki.placeholder c.raw.collapse = false

/-- The elements are shown, their written attributes have no line feeds, and those of the cell no
marks of cells. -/
@[mk_iff]
structure IsPlain (c : OneCell) : Prop extends c.IsTable where
  shown : ∀ attributes ∈ [c.tableAttributes, c.rowAttributes, c.cellAttributes],
    isFurniture attributes = false
  tableLine : '\n' ∉ writtenAttributes tableNames c.tableAttributes
  rowLine : '\n' ∉ writtenAttributes rowNames c.rowAttributes
  cellLine : '\n' ∉ c.written
  noBar : '|' ∉ c.written
  noMarks : c.tag = "th" → ¬ ['!', '!'] <:+: c.written

instance (c : OneCell) : Decidable c.IsTable :=
  decidable_of_iff _ (isTable_iff c).symm

instance (c : OneCell) : Decidable c.IsPlain :=
  decidable_of_iff _ (isPlain_iff c).symm

theorem rowStart_eq_flatMap {around : Surroundings} (h : followsContent around = false)
    (attributes : Attributes) :
    rowStart around attributes = (rowLines attributes).flatMap (· ++ ['\n']) := by
  rw [rowStart, rowLines]
  cases spacedAttributes rowNames attributes with
  | nil => rw [h]; rfl
  | cons d w => simp

theorem tableStart_append_rowStart (c : OneCell) :
    tableStart c.tableAttributes ++ rowStart ⟨false, []⟩ c.rowAttributes =
      c.headLines.flatMap (· ++ ['\n']) := by
  rw [rowStart_eq_flatMap rfl, headLines, List.flatMap_cons, tableStart]

/-! ### Its markup -/

theorem wraps_cell {tag : String} (h : tag = "td" ∨ tag = "th") : ∃ format,
    Wraps tag (cellRule format) (fun e => cellStart e.tag e.attributes e.children)
      fun _ => ['\n'] := by
  rcases h with rfl | rfl
  · exact ⟨.blocks, by decide, by decide, find?_table.2.2.2, rfl, fun _ _ => rfl, fun _ _ => rfl⟩
  · exact ⟨.single, by decide, by decide, find?_table.2.2.1, rfl, fun _ _ => rfl, fun _ _ => rfl⟩

theorem wraps_row : Wraps "tr" rowRule (fun e => rowStart e.around e.attributes) fun _ => [] :=
  ⟨by decide, by decide, find?_table.2.1, rfl, fun _ _ => rfl, fun _ _ => rfl⟩

theorem wraps_table :
    Wraps "table" tableRule (fun e => tableStart e.attributes) fun _ => ['|', '\x7d'] :=
  ⟨by decide, by decide, find?_table.1, rfl, fun _ _ => rfl, fun _ _ => rfl⟩

theorem produces_cell (h : c.IsPlain) :
    Produces true [.element c.cellName c.cellAttributes [.text c.raw false]] fun _ _ _ t =>
      t = c.openLine ++ ['\n'] := by
  obtain ⟨format, hwraps⟩ := wraps_cell h.cell
  have hstructural : structuralTags.contains c.tag = false := by
    rcases h.cell with htag | htag <;> rw [htag] <;> decide
  have htext : Produces (structuralTags.contains c.tag) [.text c.raw false] fun _ _ prepared t =>
      prepared.all isPhrasal = true ∧ t = (mediaWiki {}).guardText false c.raw := by
    rw [hstructural]
    exact produces_text fun _ _ => ⟨rfl, rfl⟩
  refine (hwraps.produces rfl (h.shown _ (by simp)) htext).mono ?_
  rintro _ _ _ _ ⟨prepared, _, ⟨hphrasal, rfl⟩, rfl⟩
  have hstart : cellStart (lowerName c.cellName) c.cellAttributes prepared =
      cellMark c.tag :: (cellHead c.written ++ [' ']) := by
    rw [cellStart_eq, hphrasal, if_pos rfl]
    rfl
  have hlayout : ∀ opening t : Text, (cellRule format).layout opening t ['\n'] =
      opening ++ format.apply (trim isSpace t) ++ ['\n'] := fun opening t => by
    simp [Rule.layout, cellRule, Rule.wrap, Rule.bare, TrimPolicy.apply]
  rw [hlayout, PlacedElement.tag, hstart, ← sayingLine,
    apply_of_notMem format (notMem_newline_sayingLine c.raw), openLine]
  simp

theorem produces_row (h : c.IsPlain) :
    Produces true [.element c.rowName c.rowAttributes
        [.element c.cellName c.cellAttributes [.text c.raw false]]]
      fun ancestors preceded _ t =>
        t = rowStart ⟨preceded, ancestors⟩ c.rowAttributes ++ (c.openLine ++ ['\n']) := by
  refine (wraps_row.produces h.row (h.shown _ (by simp)) (produces_cell h)).mono ?_
  rintro ancestors preceded _ _ ⟨prepared, _, rfl, rfl⟩
  simp [Rule.layout, rowRule, Rule.wrap, Rule.bare, TrimPolicy.apply, LineFormat.apply]

theorem opens_of_mem_headLines (h : c.IsPlain) {l : Text} (hl : l ∈ c.headLines) :
    ∃ d rest, isSpace d = false ∧ Opens (d :: rest) l := by
  rcases List.mem_cons.mp hl with rfl | hl
  · exact ⟨'\x7b', ['|'], by decide,
      opens_spacedAttributes _ (by simp [isSpace]) (by decide) h.tableLine⟩
  · have hopens := opens_spacedAttributes ['|', '-'] (by simp [isSpace]) (by decide)
      h.rowLine
    rw [rowLines] at hl
    split at hl
    · cases hl
    · rw [List.mem_singleton.mp hl]
      exact ⟨'|', ['-'], by decide, hopens⟩

/-- A line that opens something is trimmed already. -/
theorem trim_of_opens {d : Char} {rest l : Text} (h : Opens (d :: rest) l)
    (hd : isSpace d = false) : trim isSpace l = l ∧ Neat l ∧ l ≠ [] := by
  have hhead := opens_head h hd
  have htrim : trim isSpace l = l := trim_eq_self hhead h.last
  have hneat : Neat l := by
    have happend := neat_append hhead h.last plain_nil
    rwa [List.append_nil] at happend
  refine ⟨htrim, hneat, ?_⟩
  rcases h.starts with rfl | ⟨w, rfl⟩ <;> simp

/-- The lines of the table before white space is trimmed off. -/
def openLines (c : OneCell) : List Text :=
  c.headLines ++ [c.openLine, ['|', '\x7d']]

theorem openLine_eq (c : OneCell) :
    c.openLine = (cellMark c.tag :: cellHead c.written) ++ ' ' :: sayingLine c.raw :=
  (List.cons_append ..).symm

theorem plain_sayingLine (s : Text) : Plain (sayingLine s) := fun d hd =>
  plain_guardText s d (mem_of_mem_trim hd)

theorem line_openLine (h : c.IsPlain) :
    '\n' ∉ c.openLine ∧ Neat c.openLine ∧ trim isSpace c.openLine ≠ [] := by
  have hopens := opens_cellHead c.tag h.cellLine
  refine ⟨?_, ?_, ?_⟩
  · rw [openLine_eq, List.mem_append, not_or]
    exact ⟨hopens.notMem_newline,
      List.not_mem_cons_of_ne_of_not_mem (by decide) (notMem_newline_sayingLine c.raw)⟩
  · rw [openLine_eq]
    exact neat_cellLine hopens (plain_sayingLine c.raw)
  · rw [openLine, trim_cons_of_neg (isSpace_cellMark c.tag)]
    exact List.cons_ne_nil _ _

theorem line_of_mem_openLines (h : c.IsPlain) {l : Text} (hl : l ∈ c.openLines) :
    '\n' ∉ l ∧ Neat l ∧ trim isSpace l ≠ [] := by
  rcases List.mem_append.mp hl with hl | hl
  · obtain ⟨d, rest, hd, hopens⟩ := opens_of_mem_headLines h hl
    obtain ⟨htrim, hneat, hne⟩ := trim_of_opens hopens hd
    exact ⟨hopens.notMem_newline, hneat, by rwa [htrim]⟩
  · rcases List.mem_cons.mp hl with hl | hl
    · rw [hl]
      exact line_openLine h
    · rw [List.mem_singleton.mp hl]
      exact ⟨by decide, rfl, by decide⟩

theorem map_trim_openLines (h : c.IsPlain) :
    c.openLines.map (trim isSpace) = c.headLines ++ [c.line, ['|', '\x7d']] := by
  rw [openLines, List.map_append]
  congr 1
  refine (List.map_congr_left fun l hl => ?_).trans (List.map_id _)
  obtain ⟨d, rest, hd, hopens⟩ := opens_of_mem_headLines h hl
  exact (trim_of_opens hopens hd).1

/-- The markup of the table are its lines, between empty lines. -/
theorem produces_table (h : c.IsPlain) : Produces false [c.node] fun _ _ _ t =>
    t = ['\n', '\n'] ++ unlines c.openLines ++ ['\n', '\n'] := by
  refine (wraps_table.produces h.table (h.shown _ (by simp)) (produces_row h)).mono ?_
  rintro ancestors preceded _ _ ⟨prepared, _, rfl, rfl⟩
  have hfirst : followsContent ⟨false, ⟨"table", preceded⟩ :: ancestors⟩ = false := rfl
  have hbody : rowStart ⟨false, ⟨"table", preceded⟩ :: ancestors⟩ c.rowAttributes ++
      (c.openLine ++ ['\n']) =
        (rowLines c.rowAttributes ++ [c.openLine]).flatMap (· ++ ['\n']) := by
    rw [rowStart_eq_flatMap hfirst, List.flatMap_append]
    simp
  have hsolid : ∀ l ∈ rowLines c.rowAttributes ++ [c.openLine], '\n' ∉ l ∧ l.isWhite = false := by
    intro l hl
    have hmem : l ∈ c.openLines := by
      rcases List.mem_append.mp hl with hl | hl
      · exact List.mem_append_left _ (List.mem_cons_of_mem _ hl)
      · exact List.mem_append_right _ (by simpa using Or.inl hl)
    obtain ⟨hline, -, hne⟩ := line_of_mem_openLines h hmem
    refine ⟨hline, Bool.eq_false_iff.mpr fun hwhite => hne ?_⟩
    exact trim_eq_nil_of_isWhite hwhite
  have hlayout : ∀ opening t : Text, tableRule.layout opening t ['|', '\x7d'] =
      ['\n', '\n'] ++ (opening ++ LineFormat.blocks.apply t ++ ['|', '\x7d']) ++ ['\n', '\n'] :=
    fun opening t => by
      simp [Rule.layout, tableRule, Rule.wrap, Rule.bare, TrimPolicy.apply]
  have hlines : tableStart c.tableAttributes ++
      (rowLines c.rowAttributes ++ [c.openLine]).flatMap (· ++ ['\n']) ++ ['|', '\x7d'] =
        unlines c.openLines := by
    have hsplit : c.openLines = (c.headLines ++ [c.openLine]) ++ [['|', '\x7d']] := by
      simp [openLines]
    rw [hsplit, unlines_append_ended (by simp), headLines, List.cons_append, List.flatMap_cons]
    rfl
  rw [hlayout, hbody, apply_blocks hsolid, hlines]

/-! ### The finished markup -/

theorem finish_cellLine (h : c.IsPlain) : MediaWiki.finish c.line = c.line := by
  have hsaying : trim isSpace (sayingLine c.raw) = sayingLine c.raw := trim_trim (fun _ h => h) _
  have hattributes : MediaWiki.finish c.written = c.written := replace_eq_self h.freeAttributes _
  have htext : MediaWiki.finish (sayingLine c.raw) = sayingLine c.raw :=
    replace_eq_self (occurs_sayingLine h.freeText) _
  have hcons : ∀ {d : Char}, d ∉ MediaWiki.placeholder → ∀ t,
      MediaWiki.finish (d :: t) = d :: MediaWiki.finish t :=
    fun hd t => finish_append_cons hd [] t
  have hmark : cellMark c.tag ∉ MediaWiki.placeholder := by
    rw [cellMark]
    split <;> decide
  have htail : MediaWiki.finish (cellTail (sayingLine c.raw)) = cellTail (sayingLine c.raw) := by
    rw [cellTail]
    split
    · rfl
    · rw [hcons (by decide), htext]
  have hhead : ∀ t, MediaWiki.finish (cellHead c.written ++ t) =
      cellHead c.written ++ MediaWiki.finish t := by
    intro t
    rw [cellHead]
    split
    · rfl
    · rw [List.cons_append, List.append_assoc, List.cons_append, List.cons_append, List.nil_append,
        hcons (by decide), finish_append_cons (by decide), hcons (by decide), hattributes]
      simp
  rw [line, cellLine_eq c.tag c.written hsaying, hcons hmark, hhead, htail]

theorem finish_flatMap_append (ls : List Text) (t : Text) :
    MediaWiki.finish (ls.flatMap (· ++ ['\n']) ++ t) =
      MediaWiki.finish (ls.flatMap (· ++ ['\n'])) ++ MediaWiki.finish t := by
  induction ls with
  | nil => rfl
  | cons l ls ih =>
    rw [List.flatMap_cons, List.append_assoc, List.append_assoc, List.append_assoc,
      List.singleton_append, List.singleton_append, finish_append_cons (by decide),
      finish_append_cons (by decide), ih, List.append_assoc, List.cons_append]

theorem convert_node (h : c.IsPlain) : (mediaWiki {}).convert [c.node] = Report.ok
    (MediaWiki.finish (tableStart c.tableAttributes ++ rowStart ⟨false, []⟩ c.rowAttributes) ++
      (c.line ++ '\n' :: ['|', '\x7d'])) := by
  obtain ⟨prepared, _, hconvert, rfl⟩ := (produces_table h).convert
  have hne : c.openLines ≠ [] := by simp [openLines]
  have htidy := tidy_block hne fun l => line_of_mem_openLines h
  have hclosing : unlines [c.line, ['|', '\x7d']] = c.line ++ '\n' :: ['|', '\x7d'] :=
    unlines_cons c.line (by simp)
  have hcomplete : ∀ t : Text, (mediaWiki {}).complete t = MediaWiki.finish t.tidy := fun _ => rfl
  rw [hconvert, hcomplete, htidy, map_trim_openLines h, unlines_append_ended (by simp),
    finish_flatMap_append, hclosing, finish_append_cons (by decide), finish_cellLine h,
    tableStart_append_rowStart]
  rfl

/-- Written attributes start with a letter and end with a quote. -/
theorem trim_written (c : OneCell) : trim isSpace c.written = c.written := by
  refine trim_eq_self (fun d hd => ?_) fun d hd => ?_
  · have halnum := head_writtenAttributes worded_cellNames c.cellAttributes d hd
    have hne : ∀ e : Char, e.isAlphanum = false → (d == e) = false := fun e he => by
      rw [beq_eq_false_iff_ne]
      exact Tag.not_of_isAlphanum halnum e he
    simp [isSpace, hne ' ' (by decide), hne '\t' (by decide), hne '\n' (by decide),
      hne '\r' (by decide), hne '\x0c' (by decide)]
  · have hspaced := spacedAttributes_eq_nil_or cellNames c.cellAttributes
    rw [spacedAttributes, ← written] at hspaced
    split at hspaced
    · next hnil =>
      rw [hnil] at hd
      cases hd
    · obtain ⟨w, hw⟩ := hspaced.resolve_left (List.cons_ne_nil _ _)
      rw [(List.cons.inj hw).2, List.getLast?_concat] at hd
      rw [← Option.mem_some.mp hd]
      decide

theorem isOneLine_rowStart {attributes : Attributes}
    (h : '\n' ∉ writtenAttributes rowNames attributes) (around : Surroundings) :
    IsOneLine (rowStart around attributes) := by
  have hopens := opens_spacedAttributes ['|', '-'] (by simp [isSpace]) (by decide) h
  rw [rowStart]
  split
  · split
    · exact isOneLine_concat (by decide : '\n' ∉ ['|', '-']) _
    · exact isOneLine_of_notMem List.not_mem_nil
  · exact isOneLine_concat hopens.notMem_newline _

theorem isOneLine_captionStart {attributes : Attributes}
    (h : '\n' ∉ writtenAttributes captionNames attributes) :
    IsOneLine (captionStart attributes) := by
  refine isOneLine_of_notMem ?_
  rw [captionStart]
  split
  · decide
  · simpa using h

/-- The line of the cell is read as one cell with its attributes and its text just if the open
marks of the text neither start another cell nor end attributes that are not there; and what
opens a table, a row or a caption is one line. -/
theorem convert_oneCell (h : c.IsPlain) :
    (mediaWiki {}).convert [c.node] = Report.ok
      (MediaWiki.finish (tableStart c.tableAttributes ++ rowStart ⟨false, []⟩ c.rowAttributes) ++
        (c.line ++ '\n' :: ['|', '\x7d'])) ∧
    '\n' ∉ c.line ∧
    (readLine? c.line = some [⟨c.written, sayingLine c.raw⟩] ↔
      IsOneCell (c.tag == "th") (signs (sayingLine c.raw)) ∧
        (c.written = [] → ∀ sign ∈ signs (sayingLine c.raw), isMark '|' sign = false)) ∧
    trim isSpace (unescape (erase (sayingLine c.raw))) = trim isSpace c.raw.collapse ∧
    ∀ attributes,
      ('\n' ∉ writtenAttributes tableNames attributes → IsOneLine (tableStart attributes)) ∧
      ('\n' ∉ writtenAttributes rowNames attributes →
        ∀ around, IsOneLine (rowStart around attributes)) ∧
      ('\n' ∉ writtenAttributes captionNames attributes → IsOneLine (captionStart attributes)) := by
  have hsaying : trim isSpace (sayingLine c.raw) = sayingLine c.raw := trim_trim (fun _ h => h) _
  have hangle : '<' ∉ c.written :=
    (unangled_writtenAttributes (unangled_of_worded worded_cellNames) c.cellAttributes).1
  have hline : '\n' ∉ c.line := fun hin =>
    (line_openLine h).1 (mem_of_mem_trim hin)
  refine ⟨convert_node h, hline,
    readLine?_cellLine c.trim_written hangle h.noBar h.noMarks hsaying,
    unescape_erase_sayingLine c.raw, fun attributes => ⟨fun h => ?_, isOneLine_rowStart,
      isOneLine_captionStart⟩⟩
  have hopens := opens_spacedAttributes ['\x7b', '|'] (by simp [isSpace]) (by decide) h
  exact isOneLine_concat hopens.notMem_newline _

/-- A cell with attributes, a link and a bar on its own. -/
def notes : OneCell where
  tableName := "table"
  tableAttributes := [⟨"class", .list ["wikitable".toList, "sortable".toList]⟩]
  rowName := "TR"
  rowAttributes := [⟨"title", .single "a > b".toList⟩]
  cellName := "td"
  cellAttributes := [⟨"onclick", .single "|".toList⟩, ⟨"colspan", .single "2".toList⟩]
  raw := " see [http://x.org c||d] |\n \"e\" ".toList

theorem convert_notes : notes.IsPlain ∧
    ((mediaWiki {}).convert [notes.node]).outcome =
      .ok ("\x7b| class=\"wikitable sortable\"\n|- title=\"a &gt; b\"\n".toList ++ notes.line ++
        "\n|\x7d".toList) ∧
    readLine? notes.line = some [⟨"colspan=\"2\"".toList,
      "see <nowiki>[http://x.org c||d]</nowiki> | \"e\"".toList⟩] := by
  have hplain : notes.IsPlain := by decide +kernel
  have hcell : IsOneCell (notes.tag == "th") (signs (sayingLine notes.raw)) := by decide +kernel
  have hattributes : notes.written ≠ [] := by decide +kernel
  obtain ⟨hconvert, -, hread, -⟩ := convert_oneCell hplain
  refine ⟨hplain, ?_, (hread.mpr ⟨hcell, fun h => absurd h hattributes⟩).trans ?_⟩
  · rw [hconvert]
    decide +kernel
  · decide +kernel

/-! ### Cells that are not read back -/

/-- The cells on the line before that which closes the table. -/
def cells? (c : OneCell) : Option (List Cell) :=
  match ((mediaWiki {}).convert [c.node]).outcome with
  | .ok t => t.lines.dropLast.getLast?.bind readLine?
  | .error _ => none

/-- The cell is read with its attributes and its text. -/
def ReadsBack (c : OneCell) : Prop :=
  ∃ content, c.cells? = some [⟨c.written, content⟩] ∧
    trim isSpace (unescape (erase content)) = trim isSpace c.raw.collapse

theorem not_readsBack (h : c.cells?.map (·.map Cell.attributes) ≠ some [c.written]) :
    ¬ c.ReadsBack := by
  rintro ⟨content, hcells, -⟩
  exact h (by rw [hcells]; rfl)

/-- A cell in a table without attributes. -/
def bare (name : String) (attributes : Attributes) (raw : String) : OneCell :=
  ⟨"table", [], "tr", [], name, attributes, raw.toList⟩

/-- A text with a bar, values with marks of cells and with a line feed, and a cell that is not
shown. -/
def awkward : List OneCell :=
  [bare "td" [] "a|b",
    bare "td" [⟨"title", .single "a|b".toList⟩] "c",
    bare "th" [⟨"title", .single "a!!b".toList⟩] "c",
    bare "td" [⟨"title", .single "a\nb".toList⟩] "c",
    bare "td" [⟨"class", .single "printfooter".toList⟩] "c"]

theorem not_readsBack_awkward : (∀ c ∈ awkward, c.IsTable ∧ ¬ c.ReadsBack) ∧
    ∀ start ∈ [tableStart, rowStart ⟨false, []⟩, captionStart],
      ¬ IsOneLine (start [⟨"title", .single "a\nb".toList⟩]) := by
  have htables : ∀ c ∈ awkward, c.IsTable := by decide +kernel
  have hcells : ∀ c ∈ awkward, c.cells?.map (·.map Cell.attributes) ≠ some [c.written] := by
    decide +kernel
  exact ⟨fun c hc => ⟨htables c hc, not_readsBack (hcells c hc)⟩, by decide +kernel⟩

end OneCell

end Wikitext

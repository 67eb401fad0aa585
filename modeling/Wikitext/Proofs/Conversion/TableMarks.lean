/-
  Wikitext/Proofs/Conversion/TableMarks.lean
  ==========================================
  **The marks of tables.**  The markup of tables is a format of lines, and what a line is depends
  on how it starts (`TableMark.starts`).  This module says which documents are tables, however
  they are nested, how many marks of each kind they should have (`Node.marks`), and which marks
  the lines of their parts have: the line of a text has none (`TableMark.count_guardText`), the
  first line of a cell has the mark of that cell and no other (`starts_cellMark`), whether or not
  the content of the cell follows on it (`reads_cellLine`).
-/
import Wikitext.Proofs.Conversion.Assembly
import Wikitext.Proofs.Element.Opening

namespace Wikitext

open Text

/-! ### Marks -/

/-- What a line of a table is. -/
inductive TableMark where
  | opening
  | closing
  | row
  | header
  | cell
deriving DecidableEq, Repr

namespace TableMark

/-- Whether a line starts with the mark.  A bar alone is the mark of a cell. -/
def starts : TableMark → Text → Bool
  | opening, l => List.isPrefixOf ['\x7b', '|'] l
  | closing, l => List.isPrefixOf ['|', '\x7d'] l
  | row, l => List.isPrefixOf ['|', '-'] l
  | header, l => List.isPrefixOf ['!'] l
  | cell, l => List.isPrefixOf ['|'] l && !List.isPrefixOf ['|', '-'] l &&
      !List.isPrefixOf ['|', '\x7d'] l && !List.isPrefixOf ['|', '+'] l

/-- The number of lines that start with the mark. -/
def count (mark : TableMark) (ls : List Text) : Nat := ls.countP mark.starts

@[simp] theorem count_nil (mark : TableMark) : mark.count [] = 0 := rfl

@[simp] theorem count_append (mark : TableMark) (ls ms : List Text) :
    mark.count (ls ++ ms) = mark.count ls + mark.count ms :=
  List.countP_append

theorem count_singleton (mark : TableMark) (l : Text) :
    mark.count [l] = if mark.starts l then 1 else 0 := by
  simp [count, List.countP_cons]

end TableMark

namespace Node

/-! ### Tables as documents -/

/-- A text of a document. -/
def isFreshText : Node → Bool
  | .text _ guarded => !guarded
  | _ => false

mutual
/-- The number of rows that a child of a table is or groups. -/
def rowCount : Node → Nat
  | .element name _ children =>
    if lowerName name = "tr" then 1
    else if Element.sectionTags.contains (lowerName name) then rowsAmong children
    else 0
  | _ => 0

def rowsAmong : List Node → Nat
  | [] => 0
  | node :: nodes => rowCount node + rowsAmong nodes
end

mutual
/-- A table: rows, and groups of rows, at least one row in all, and white space. -/
def isTable : Node → Bool
  | .element name attributes children =>
    lowerName name == "table" && !Element.isFurniture attributes &&
      Element.onOneLine Element.tableNames attributes && holdsGroups children &&
      decide (0 < rowsAmong children)
  | _ => false

def holdsGroups : List Node → Bool
  | [] => true
  | node :: nodes => (isWhiteText node || isRow node || isGroup node) && holdsGroups nodes

/-- A group of rows: at least one row, and white space. -/
def isGroup : Node → Bool
  | .element name attributes children =>
    Element.sectionTags.contains (lowerName name) && !Element.isFurniture attributes &&
      holdsRows children && decide (0 < rowsAmong children)
  | _ => false

def holdsRows : List Node → Bool
  | [] => true
  | node :: nodes => (isWhiteText node || isRow node) && holdsRows nodes

/-- A row of cells and white space, without attributes that are written. -/
def isRow : Node → Bool
  | .element name attributes children =>
    lowerName name == "tr" && !Element.isFurniture attributes &&
      (Element.allowedPairs Element.rowNames attributes).isEmpty && holdsCells children
  | _ => false

def holdsCells : List Node → Bool
  | [] => true
  | node :: nodes => (isWhiteText node || isHeader node || isCell node) && holdsCells nodes

/-- A header cell: one text. -/
def isHeader : Node → Bool
  | .element name attributes children =>
    lowerName name == "th" && !Element.isFurniture attributes &&
      Element.onOneLine Element.cellNames attributes && children.all isFreshText &&
      children.length == 1
  | _ => false

/-- A cell: texts and further tables. -/
def isCell : Node → Bool
  | .element name attributes children =>
    lowerName name == "td" && !Element.isFurniture attributes &&
      Element.onOneLine Element.cellNames attributes && holdsContent children
  | _ => false

/-- Texts and tables, no two texts next to each other. -/
def holdsContent : List Node → Bool
  | [] => true
  | node :: nodes =>
    (isFreshText node && !nodes.head?.any isText || isTable node) && holdsContent nodes
end

/-! ### The marks of a tree -/

/-- The marks that an element itself brings.  The first row of a table brings none. -/
def ownMarks (mark : TableMark) (tag : String) (children : List Node) : Nat :=
  match mark with
  | .opening => if tag = "table" then 1 else 0
  | .closing => if tag = "table" then 1 else 0
  | .row => if tag = "table" then rowsAmong children - 1 else 0
  | .header => if tag = "th" then 1 else 0
  | .cell => if tag = "td" then 1 else 0

mutual
/-- The number of marks of a tree. -/
def marks (mark : TableMark) : Node → Nat
  | .element name _ children => ownMarks mark (lowerName name) children + marksAll mark children
  | _ => 0

def marksAll (mark : TableMark) : List Node → Nat
  | [] => 0
  | node :: nodes => marks mark node + marksAll mark nodes
end

end Node

@[simp] theorem Node.marks_text (mark : TableMark) (raw : Text) (guarded : Bool) :
    (Node.text raw guarded).marks mark = 0 := rfl

theorem Node.marksAll_of_all_isText (mark : TableMark) {nodes : List Node}
    (h : nodes.all Node.isText = true) : Node.marksAll mark nodes = 0 := by
  induction nodes with
  | nil => rfl
  | cons n nodes ih =>
    rw [List.all_cons, Bool.and_eq_true] at h
    rw [Node.marksAll, ih h.2]
    cases n with
    | text raw guarded => rfl
    | special kind content => cases h.1
    | element name attributes children => cases h.1

namespace TableMark

/-! ### Lines and their marks -/

variable {mark : TableMark} {l : Text}

/-- Every mark starts with markup of the start of a line. -/
theorem exists_of_starts (h : mark.starts l = true) :
    ∃ p ∈ Collision.lineStarts, p <+: l := by
  cases mark with
  | opening => exact ⟨_, by decide, List.isPrefixOf_iff_prefix.mp h⟩
  | closing =>
    have hbar : ['|'] <+: ['|', '\x7d'] := by decide
    exact ⟨_, by decide, hbar.trans (List.isPrefixOf_iff_prefix.mp h)⟩
  | row =>
    have hbar : ['|'] <+: ['|', '-'] := by decide
    exact ⟨_, by decide, hbar.trans (List.isPrefixOf_iff_prefix.mp h)⟩
  | header => exact ⟨_, by decide, List.isPrefixOf_iff_prefix.mp h⟩
  | cell =>
    simp only [starts, Bool.and_eq_true] at h
    exact ⟨_, by decide, List.isPrefixOf_iff_prefix.mp h.1.1.1⟩

@[simp] theorem starts_nil (mark : TableMark) : mark.starts [] = false := by
  cases mark <;> rfl

theorem starts_opening (mark : TableMark) (rest : Text) :
    mark.starts ('\x7b' :: '|' :: rest) = decide (mark = .opening) := by
  cases mark <;> rfl

theorem starts_header (mark : TableMark) (rest : Text) :
    mark.starts ('!' :: rest) = decide (mark = .header) := by
  cases mark <;> rfl

theorem starts_cell (mark : TableMark) (rest : Text) :
    mark.starts ('|' :: ' ' :: rest) = decide (mark = .cell) := by
  cases mark <;> rfl

/-- The line of a text in a cell has no mark. -/
theorem count_guardText (mark : TableMark) (raw : Text) :
    mark.count (inked [(Session.mediaWiki {}).guardText false raw]) = 0 := by
  by_cases hnil : trim isSpace ((Session.mediaWiki {}).guardText false raw) = []
  · rw [inked_of_trim_eq_nil hnil, count_nil]
  · rw [inked_of_trim_ne_nil hnil, count_singleton, if_neg]
    intro hstarts
    obtain ⟨p, hp, hbegin⟩ := exists_of_starts hstarts
    have hguard := Nowiki.guard_start (plain_escape (plain_collapseFrom false raw)) raw p hp
    exact hguard (hbegin.trans (trim_prefix_trimStart _ _))

end TableMark

namespace Session

open Element (Opens cellMark isSpace_cellMark)

variable {mark : TableMark} {tag : String} {l t v : Text} {ls ms : List Text}

/-! ### Lines of cells -/

/-- The marks of a line that starts with the mark of a cell, and goes on with a space or not at
all. -/
theorem starts_cellMark (mark : TableMark) (h : l = [cellMark tag] ∨ ∃ rest, l = cellMark tag :: ' ' :: rest) :
    mark.starts l = decide (mark = if tag = "th" then .header else .cell) := by
  rw [cellMark] at h
  by_cases htag : tag = "th"
  · rw [if_pos htag] at h
    rw [if_pos htag]
    rcases h with rfl | ⟨rest, rfl⟩ <;> exact TableMark.starts_header _ _
  · rw [if_neg htag] at h
    rw [if_neg htag]
    rcases h with rfl | ⟨rest, rfl⟩
    · cases mark <;> rfl
    · exact TableMark.starts_cell _ _

theorem opens_head {c : Char} {rest : Text} (h : Opens (c :: rest) l) (hc : isSpace c = false) :
    ∀ d ∈ l.head?, isSpace d = false := by
  intro d hd
  rcases h.starts with rfl | ⟨rest, rfl⟩ <;>
  · obtain rfl : c = d := by simpa using hd
    exact hc

theorem neat_cellLine (h : Opens [cellMark tag] l) (hv : Plain v) : Neat (l ++ ' ' :: v) := by
  refine neat_append (opens_head h (isSpace_cellMark tag)) h.last fun c hc hspace => ?_
  rcases List.mem_cons.mp hc with rfl | hc
  · rfl
  · exact hv c hc hspace

/-- The line of a cell whose content follows its mark. -/
theorem reads_cellLine (h : Opens [cellMark tag] l) (hv : Plain v) :
    ∃ y, Reads (l ++ ' ' :: v ++ ['\n']) [y] ∧
      (y = [cellMark tag] ∨ ∃ rest, y = cellMark tag :: ' ' :: rest) := by
  have hneat := neat_cellLine h hv
  have hline : '\n' ∉ l ++ ' ' :: v := fun hin =>
    (List.mem_append.mp hin).elim h.notMem_newline fun hin =>
      hv.notMem_newline ((List.mem_cons.mp hin).resolve_left (by decide))
  obtain ⟨w, hw⟩ : ∃ w, l ++ ' ' :: v = cellMark tag :: ' ' :: w := by
    rcases h.starts with rfl | ⟨rest, rfl⟩
    · exact ⟨v, rfl⟩
    · exact ⟨rest ++ ' ' :: v, rfl⟩
  have htrim : trim isSpace (l ++ ' ' :: v) = cellMark tag :: trimEnd isSpace (' ' :: w) := by
    rw [hw, trim_cons_of_neg (isSpace_cellMark tag)]
  refine ⟨trim isSpace (l ++ ' ' :: v), ?_, ?_⟩
  · have hreads := (reads_line hline hneat).concat_newline
    rwa [inked_of_trim_ne_nil (by rw [htrim]; simp)] at hreads
  · rw [htrim]
    by_cases hnil : trimEnd isSpace w = []
    · left
      have hall : ∀ c ∈ ' ' :: w, isSpace c = true := fun c hc => by
        rcases List.mem_cons.mp hc with rfl | hc
        · rfl
        · exact trimEnd_eq_nil.mp hnil c hc
      rw [trimEnd_eq_nil.mpr hall]
    · right
      have hend : trimEnd isSpace (' ' :: w) = ' ' :: trimEnd isSpace w :=
        trimEnd_append hnil [' ']
      rw [hend]
      exact ⟨_, rfl⟩

/-- A line that opens something. -/
theorem reads_opens {c : Char} {rest : Text} (h : Opens (c :: rest) l) (hc : isSpace c = false) :
    Reads (l ++ ['\n']) [l] := by
  have hhead := opens_head h hc
  have hneat : Neat l := by
    have happend := neat_append hhead h.last plain_nil
    rwa [List.append_nil] at happend
  have htrim : trim isSpace l = l := trim_eq_self hhead h.last
  have hne : l ≠ [] := by
    rcases h.starts with rfl | ⟨rest, rfl⟩ <;> simp
  have hreads := (reads_line h.notMem_newline hneat).concat_newline
  rwa [inked_of_trim_ne_nil (by rw [htrim]; exact hne), htrim] at hreads

end Session

end Wikitext

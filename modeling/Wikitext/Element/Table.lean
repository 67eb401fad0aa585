/-
  Wikitext/Element/Table.lean
  ===========================
  **Tables as markup** — the format is one of lines: a table opens with a brace and a bar,
  a caption with `|+`, a row with `|-`, a cell with `|` and a header cell with `!`.  The
  functions here write what stands before the content of each, from the allowed
  attributes of the element and, for cells, from the shape of their content.
-/
import Wikitext.Document.Surroundings
import Wikitext.Element.Allowed

namespace Wikitext.Element

/-- The parts of a table that group its rows. -/
def sectionTags : List String := ["thead", "tbody", "tfoot"]

/-- The elements that may share a line with the mark of a cell. -/
def phrasalTags : List String :=
  ["i", "em", "b", "strong", "u", "tt", "code", "span", "font", "sup", "sub", "br", "hr", "s",
    "strike", "del", "ins"]

/-- Whether a node may share a line with the mark of a cell. -/
def isPhrasal (node : Node) : Bool :=
  node.isText || phrasalTags.contains node.tag

/-- A space and the written attributes, if there are any. -/
def spacedAttributes (allowed : List String) (attributes : Attributes) : Text :=
  match writtenAttributes allowed attributes with
  | [] => []
  | w => ' ' :: w

/-- What opens a table. -/
def tableStart (attributes : Attributes) : Text :=
  ['\x7b', '|'] ++ spacedAttributes tableNames attributes ++ ['\n']

/-- Whether content of the table stands before a row: before it in its parent, or before
the section that it is the first row of. -/
def followsContent (around : Surroundings) : Bool :=
  around.preceded || match around.ancestors with
    | parent :: _ => sectionTags.contains parent.tag && parent.preceded
    | [] => false

/-- What opens a row.  The first row of a table needs no mark, unless it has
attributes. -/
def rowStart (around : Surroundings) (attributes : Attributes) : Text :=
  match spacedAttributes rowNames attributes with
  | [] => if followsContent around then ['|', '-', '\n'] else []
  | w => ['|', '-'] ++ w ++ ['\n']

/-- What opens a cell.  Phrasal content follows on the same line, other content starts a
line of its own. -/
def cellStart (tag : String) (attributes : Attributes) (children : List Node) : Text :=
  let mark := if tag = "th" then '!' else '|'
  let attributes := match spacedAttributes cellNames attributes with
    | [] => []
    | w => w ++ [' ', '|']
  mark :: attributes ++ [if children.all isPhrasal then ' ' else '\n']

def captionStart (attributes : Attributes) : Text :=
  ['|', '+', ' '] ++ match writtenAttributes captionNames attributes with
    | [] => []
    | w => w ++ [' ', '|']

end Wikitext.Element

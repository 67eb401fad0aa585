/-
  Wikitext/Element/Allowed.lean
  =============================
  **Allowed attributes** — the part of an element's attributes that goes into the markup.
  Each kind of markup has a list of allowed names; the attributes with these names are
  written in the order of the list, as `name="value"` with a space between.
-/
import Wikitext.Document.Node
import Wikitext.Text.Entity

namespace Wikitext.Element

/-! ### The lists -/

/-- Allowed on every element. -/
def commonNames : List String := ["id", "class", "lang", "dir", "title", "style"]

/-- Alignment in a table. -/
def alignmentNames : List String := ["align", "char", "charoff", "valign"]

def blockNames : List String := commonNames ++ ["align"]

def tableNames : List String :=
  commonNames ++ ["summary", "width", "border", "frame", "rules", "cellspacing", "cellpadding",
    "align", "bgcolor"]

def rowNames : List String := commonNames ++ ["bgcolor"] ++ alignmentNames

def cellNames : List String :=
  commonNames ++ ["abbr", "axis", "headers", "scope", "rowspan", "colspan", "nowrap", "width",
    "height", "bgcolor"] ++ alignmentNames

def captionNames : List String := blockNames

def breakNames : List String := ["id", "class", "title", "style", "clear"]

def quotationNames : List String := commonNames ++ ["cite"]

/-- Allowed on an insertion or a deletion. -/
def editNames : List String := commonNames ++ ["cite", "datetime"]

/-- Allowed on a change of font. -/
def fontNames : List String := commonNames ++ ["size", "color", "face"]

/-! ### Writing -/

/-- The distinct members of a list, each at its first place. -/
def distinct : List String → List String
  | [] => []
  | x :: xs => x :: (distinct xs).filter (· != x)

def writtenPair (name : String) (value : Text) : Text :=
  name.toList ++ ['=', '"'] ++ value.escapeAttribute ++ ['"']

/-- The attributes with one of the allowed names, in lower case. -/
def allowedPairs (allowed : List String) (attributes : Attributes) : List (String × Text) :=
  (distinct (allowed.map lowerName)).filterMap fun name =>
    (attributes.text? name).map fun value => (name, value)

/-- The allowed attributes, written. -/
def writtenAttributes (allowed : List String) (attributes : Attributes) : Text :=
  Text.join [' '] ((allowedPairs allowed attributes).map fun (name, value) => writtenPair name value)

end Wikitext.Element

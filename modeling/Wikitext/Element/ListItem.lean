/-
  Wikitext/Element/ListItem.lean
  ==============================
  **List items as markup** — an item is a line that starts with one mark for each list
  around it, from the outermost inwards.
-/
import Wikitext.Document.Surroundings

namespace Wikitext.Element

def listTags : List String := ["ul", "ol", "dl"]

/-- The mark of a list for an item: a definition list marks its terms and its
definitions differently. -/
def listMark (itemTag listTag : String) : Text :=
  if listTag = "ul" then ['*']
  else if listTag = "ol" then ['#']
  else if itemTag = "dt" then [';']
  else [':']

/-- The marks of the lists around an item, outermost first. -/
def listMarks (itemTag : String) (around : Surroundings) : Text :=
  (around.ancestorsAmong listTags).flatMap fun list => listMark itemTag list.tag

/-- What opens an item. -/
def itemStart (itemTag : String) (around : Surroundings) : Text :=
  '\n' :: listMarks itemTag around ++ [' ']

end Wikitext.Element

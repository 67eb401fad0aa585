/-
  Wikitext/Element/Noise.lean
  ===========================
  **Noise** — elements of a page that have no place in its markup: anchors that are only
  targets of links, which give way to their content, and the furniture that a wiki puts
  around the body of a page (category boxes, print footers, section edit links), which is
  dropped.
-/
import Wikitext.Document.Node

namespace Wikitext.Element

/-- An anchor that leads nowhere. -/
def isNamedAnchor (tag : String) (attributes : Attributes) : Bool :=
  tag == "a" && !attributes.has "href"

/-- The texts that give furniture away, by the attribute that they occur in. -/
def furnitureMarks : List (String × List Text) :=
  [("id", ["catlinks".toList]),
    ("class", ["urlexpansion".toList, "printfooter".toList, "editsection".toList])]

/-- Whether the attributes are those of furniture. -/
def isFurniture (attributes : Attributes) : Bool :=
  furnitureMarks.any fun (name, marks) =>
    match attributes.text? name with
    | some value => marks.any fun mark => Text.occurs mark value
    | none => false

end Wikitext.Element

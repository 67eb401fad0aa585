/-
  Wikitext/Conversion/Basic.lean
  ==============================
  **Conversion** — from a document to its markup: the document is prepared, its elements
  are converted, the result is tidied, and the dialect finishes it.
-/
import Wikitext.Conversion.Markup

namespace Wikitext.Session

/-- Tidies assembled markup and finishes it. -/
def complete (s : Session) (t : Text) : Text :=
  s.dialect.finish t.tidy

/-- Converts a document. -/
def convert (s : Session) (document : List Node) : Report UrlError Text := do
  let prepared ← Report.ofExcept (s.prepare document)
  let markup ← s.markupAll Surroundings.document false prepared
  return s.complete markup

/-- Converts an element where it stands.  The elements above it count as its
surroundings; the element itself is taken as it is, and only what is below it is
prepared. -/
def convertElement (s : Session) (around : Surroundings) (name : String) (attributes : Attributes)
    (children : List Node) : Report UrlError Text := do
  let above := lowerName name :: around.ancestors.map (·.tag)
  let prepared ← Report.ofExcept (s.prepareAll above children)
  let markup ← s.markup around (.element name attributes prepared)
  return s.complete markup

end Wikitext.Session

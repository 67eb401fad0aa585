/-
  Wikitext/Conversion/Prepared.lean
  =================================
  **Prepared documents** — a document is cleaned up before its elements are converted.
  Special strings are dropped, noise is removed, links and images get full URLs, and every
  text becomes markup: collapsed, escaped, protected, and flagged so that it is left alone
  from then on.

  Preparation is one recursion from the top down.  It carries the names of the elements
  above, innermost first; an anchor that gives way to its content is none of them.
-/
import Wikitext.Dialect.Basic
import Wikitext.Document.Surroundings
import Wikitext.Element.Noise
import Wikitext.Text.Entity
import Wikitext.Url.Resolve

namespace Wikitext

/-! ### Text -/

/-- The elements in which white space between the children is no content. -/
def structuralTags : List String :=
  ["html", "head", "table", "thead", "tbody", "tfoot", "tr", "ul", "ol", "dl"]

namespace Session

/-- Collapses a text, unless it is preformatted, and escapes it. -/
def normalizeText (s : Session) (preformatted : Bool) (raw : Text) : Text :=
  let t := if preformatted then raw else raw.collapse
  if s.options.escapeEntities then t.escape else t

/-- Whether a text with the given elements above is dropped. -/
def dropsText (above : List String) (raw : Text) : Bool :=
  raw.isWhite && above.head?.any fun parent => structuralTags.contains parent

/-- Makes markup of a text. -/
def guardText (s : Session) (preformatted : Bool) (raw : Text) : Text :=
  s.dialect.guard (s.normalizeText preformatted raw) raw

/-! ### Attributes -/

/-- The attribute of an element that holds a URL. -/
def urlAttribute? (tag : String) : Option String :=
  if tag = "a" then some "href" else if tag = "img" then some "src" else none

/-- What a reference names in a document with the base `base`. -/
def resolveAgainst (base : Base) (reference : Text) : Except UrlError Text :=
  match base with
  | .address t => Url.resolve t reference
  | .unusable => .error .unusableBase

/-- Resolves the URL in the attributes of an element against the base, if both are
there and not empty. -/
def resolveUrl (s : Session) (tag : String) (attributes : Attributes) :
    Except UrlError Attributes :=
  match s.options.baseUri, urlAttribute? tag with
  | none, _ => .ok attributes
  | some (.address []), _ => .ok attributes
  | some _, none => .ok attributes
  | some base, some name =>
    match attributes.find? name with
    | some value =>
      if value.isEmpty then .ok attributes
      else (resolveAgainst base value.shown).map fun url => attributes.set name (.single url)
    | none => .ok attributes

/-- The name of an element: a caption that is in no table is a paragraph. -/
def properName (above : List String) (name : String) : String :=
  if lowerName name = "caption" ∧ "table" ∉ above then "p" else name

/-! ### Trees -/

mutual
/-- The nodes that a node becomes. -/
def prepareNode (s : Session) (above : List String) : Node → Except UrlError (List Node)
  | .special kind content =>
    .ok (if kind = .comment ∧ s.options.stripComments = false then [.special kind content] else [])
  | .text content true => .ok [.text content true]
  | .text raw false =>
    .ok (if dropsText above raw then []
      else [.text (s.guardText (above.contains "pre") raw) true])
  | .element name attributes children => do
    let attributes ← s.resolveUrl (lowerName name) attributes
    let name := properName above name
    let tag := lowerName name
    if s.dialect.removesNoise && Element.isNamedAnchor tag attributes then
      prepareAll s above children
    else if s.dialect.removesNoise && Element.isFurniture attributes then
      return []
    else
      let children ← prepareAll s (tag :: above) children
      return [.element name attributes children]

def prepareAll (s : Session) (above : List String) : List Node → Except UrlError (List Node)
  | [] => .ok []
  | node :: nodes => do
    let first ← prepareNode s above node
    let rest ← prepareAll s above nodes
    return first ++ rest
end

def prepare (s : Session) (document : List Node) : Except UrlError (List Node) :=
  s.prepareAll [documentTag] document

end Session

end Wikitext

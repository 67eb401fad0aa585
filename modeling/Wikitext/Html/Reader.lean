/-
  Wikitext/Html/Reader.lean
  =========================
  **Reading HTML** — from its tokens to a document.  Text between two tags is one node.
  Where it is nothing but white space, outside preformatted text, only one character of it
  is kept: a line feed if there was one, and a space otherwise.  Special strings are kept
  by the same rule, and an empty one becomes a space.
-/
import Wikitext.Html.Tokens

namespace Wikitext.Html

/-- An element that has been opened and not been closed, with its children so far, last
first. -/
structure OpenElement where
  name : String
  attributes : Attributes
  children : List Node

/-- A document that is being read: the open elements, innermost first, the top-level
nodes so far, last first, the pieces of the text since the last tag, last first, and the
names of the empty elements whose closing tags may still come. -/
structure Reading where
  opened : List OpenElement
  nodes : List Node
  pending : List Text
  empties : List String

namespace Reading

/-- A document of which nothing has been read. -/
def start : Reading := ⟨[], [], [], []⟩

/-- The elements in which white space is kept as it stands. -/
def preformattedTags : List String := ["pre", "textarea"]

/-- The elements that are empty, and need no closing tag. -/
def emptyTags : List String := [
  "area", "base", "basefont", "bgsound", "br", "col", "command", "embed", "frame", "hr",
  "image", "img", "input", "isindex", "keygen", "link", "menuitem", "meta", "nextid", "param",
  "source", "spacer", "track", "wbr"
]

/-- Adds a node to the innermost open element. -/
def add (p : Reading) (node : Node) : Reading :=
  match p.opened with
  | [] => { p with nodes := node :: p.nodes }
  | e :: rest => { p with opened := { e with children := node :: e.children } :: rest }

/-- Whether white space is kept as it stands. -/
def isPreformatted (p : Reading) : Bool :=
  p.opened.any fun e => preformattedTags.contains e.name

/-- What is kept of a text or special string. -/
def keptText (p : Reading) (t : Text) : Text :=
  if !p.isPreformatted && t.isWhite then (if '\n' ∈ t then ['\n'] else [' ']) else t

/-- Turns the pending text into a node. -/
def flush (p : Reading) : Reading :=
  match p.pending.reverse.flatten with
  | [] => { p with pending := [] }
  | c :: cs => { p.add (.text (p.keptText (c :: cs)) false) with pending := [] }

/-- Closes the innermost open element. -/
def close (p : Reading) : Reading :=
  match p.opened with
  | [] => p
  | e :: rest => { p with opened := rest }.add (.element e.name e.attributes e.children.reverse)

/-- Closes so many open elements. -/
def closeMany : Nat → Reading → Reading
  | 0, p => p
  | n + 1, p => closeMany n p.close

/-- Closes the innermost open element of a name, and all in it.  If there is none, nothing
is closed. -/
def closeNamed (p : Reading) (name : String) : Reading :=
  let p := p.flush
  match p.opened.findIdx? (·.name == name) with
  | some depth => closeMany (depth + 1) p
  | none => p

/-- Reads a closing tag.  That of an empty element which is closed already is passed
over. -/
def readClosing (p : Reading) (name : String) : Reading :=
  if p.empties.contains name then { p with empties := p.empties.erase name }
  else p.closeNamed name

/-- Reads a token.  A tag that closes itself, `<br/>`, closes its own element whatever
empty elements stand before it, so that no text after it falls into it. -/
def read (p : Reading) : Token → Reading
  | .text content => { p with pending := content :: p.pending }
  | .special kind content => p.flush.add (.special kind (p.keptText content))
  | .closing name => p.readClosing name
  | .opening name attributes closed =>
    let p := p.flush
    let p := { p with opened := ⟨name, attributes, []⟩ :: p.opened }
    if closed then p.close
    else if emptyTags.contains name then { p.close with empties := p.empties ++ [name] }
    else p

/-- The document, with every element closed. -/
def finish (p : Reading) : List Node :=
  (closeMany p.opened.length p.flush).nodes.reverse

end Reading

def read (t : Text) : List Node :=
  ((tokens t).foldl Reading.read Reading.start).finish

end Wikitext.Html

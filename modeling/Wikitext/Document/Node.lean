/-
  Wikitext/Document/Node.lean
  ===========================
  **Document trees** — the input of a conversion.  A document is the list of its
  top-level nodes.  Text carries a flag, `guarded`, that says that it is markup already:
  it has been collapsed, escaped and protected, and is not to be touched again.

  Names keep their spelling, and are compared in lower case (`Node.tag`).
-/
import Wikitext.Document.Attribute
import Wikitext.Text.Blank
import Wikitext.Text.Lowercase

namespace Wikitext

/-- The kinds of strings that are no content. -/
inductive SpecialKind where
  | comment
  | cdata
  | doctype
  | instruction
  | declaration
deriving DecidableEq, Repr

/-- A node of a document. -/
inductive Node where
  /-- Character data. -/
  | text (content : Text) (guarded : Bool)
  /-- A comment or another string that is no content. -/
  | special (kind : SpecialKind) (content : Text)
  | element (name : String) (attributes : Attributes) (children : List Node)
deriving Inhabited

/-- The name that a document has as the outermost ancestor of its nodes. -/
def documentTag : String := "[document]"

namespace Node

/-- The name of a node in lower case; text and comments have names that no element
can have. -/
def tag : Node → String
  | text _ _ => "~text"
  | special .comment _ => "~comment"
  | special _ _ => ""
  | element name _ _ => lowerName name

/-- Whether a node is character data. -/
def isText : Node → Bool
  | text _ _ => true
  | _ => false

def isComment : Node → Bool
  | special .comment _ => true
  | _ => false

/-- Whether a node is text that is markup already. -/
def isGuarded : Node → Bool
  | text _ guarded => guarded
  | _ => false

/-- Whether a node separates what follows it from the start of its parent: all nodes
but comments and white space do. -/
def carriesContent : Node → Bool
  | text content _ => !content.isVoid
  | special .comment _ => false
  | _ => true

def attributes : Node → Attributes
  | element _ attributes _ => attributes
  | _ => []

def children : Node → List Node
  | element _ _ children => children
  | _ => []

end Node

end Wikitext

/-
  Wikitext/Options/Basic.lean
  ===========================
  **Options** — the settings of a conversion.  `CommonOptions` are those of every dialect:
  how a document is read, what is dropped before the rules run, and what becomes of
  elements without a rule.  `Options` adds those of the MediaWiki dialect.
-/
import Wikitext.Link.Recognizer

namespace Wikitext

/-- The ways to read HTML. -/
inductive HtmlReader where
  | plain
  | lxml
  | html5lib
deriving DecidableEq, Repr

namespace HtmlReader

def name : HtmlReader → String
  | plain => "html.parser"
  | lxml => "lxml"
  | html5lib => "html5lib"

def all : List HtmlReader := [plain, lxml, html5lib]

def ofName? (s : String) : Option HtmlReader :=
  all.find? (·.name == s)

end HtmlReader

/-- What becomes of an element without a rule. -/
inductive UnknownTags where
  /-- Its content stays, its tag is dropped. -/
  | passthrough
  /-- It is dropped with its content. -/
  | strip
  /-- Its bare tag stays around its content. -/
  | preserve
deriving DecidableEq, Repr

namespace UnknownTags

def name : UnknownTags → String
  | passthrough => "passthrough"
  | strip => "strip"
  | preserve => "preserve"

def all : List UnknownTags := [passthrough, strip, preserve]

def ofName? (s : String) : Option UnknownTags :=
  all.find? (·.name == s)

end UnknownTags

/-- What links and images are resolved against. -/
inductive Base where
  /-- A URL; the empty one resolves nothing. -/
  | address (t : Text)
  /-- A value that is no text; no reference can be resolved against it. -/
  | unusable
deriving DecidableEq, Repr

/-- The settings of every dialect. -/
structure CommonOptions where
  reader : HtmlReader := .plain
  stripComments : Bool := true
  /-- Whether `&`, `<` and `>` in text become entities. -/
  escapeEntities : Bool := true
  unknownTags : UnknownTags := .passthrough
  baseUri : Option Base := none
deriving DecidableEq, Repr

/-- The settings of a conversion to MediaWiki markup. -/
structure Options extends CommonOptions where
  /-- Whether `b` elements stay HTML. -/
  preserveBold : Bool := false
  /-- Whether `i` elements stay HTML. -/
  preserveItalic : Bool := false
  /-- What recognizes the URLs of pages. -/
  recognizers : List Recognizer := []
  /-- The namespace of image links. -/
  imageNamespace : Text := ['I', 'm', 'a', 'g', 'e']

end Wikitext

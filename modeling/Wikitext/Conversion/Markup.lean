/-
  Wikitext/Conversion/Markup.lean
  ===============================
  **Markup of a prepared document** — each element is converted by its rule, in the light
  of its surroundings; what an element without a rule becomes is an option.  Text is
  markup already, and some elements are only scaffolding around their content.
-/
import Wikitext.Conversion.Prepared
import Wikitext.Element.ListItem
import Wikitext.Element.Table
import Wikitext.Link.Markup
import Wikitext.Report

namespace Wikitext

/-- Scaffolding: elements that are always converted to their content. -/
def transparentTags : List String := [documentTag, "html", "body", "thead", "tbody", "tfoot"]

/-- An element with its place. -/
structure PlacedElement where
  around : Surroundings
  name : String
  attributes : Attributes
  children : List Node

namespace PlacedElement

def tag (e : PlacedElement) : String := lowerName e.name

end PlacedElement

def commentMarkup (content : Text) : Text :=
  ['<', '!', '-', '-'] ++ content ++ ['-', '-', '>']

/-- The tag that closes a preserved element. -/
def endTag (name : String) : Text :=
  ['<', '/'] ++ name.toList ++ ['>']

/-- The tag that opens a preserved element, or is all of it. -/
def startTag (name : String) (allowed : List String) (attributes : Attributes) (void : Bool) :
    Text :=
  '<' :: name.toList ++ Element.spacedAttributes allowed attributes
    ++ (if void then [' ', '/', '>'] else ['>'])

namespace Session

/-! ### Links and images -/

/-- The markup of a link with the given content. -/
def linkMarkup (s : Session) (attributes : Attributes) (content : Report UrlError Text) :
    Report UrlError Text := do
  let url := (attributes.text? "href").getD []
  if url.isEmpty then Report.warn .linkWithoutTarget ()
  let label ← content
  return Link.markup url (Recognizer.resolve s.options.recognizers url) label

/-- The markup of an image: the last segment of its URL in the namespace of images.  An
image without a file name is dropped. -/
def imageMarkup (s : Session) (attributes : Attributes) : Report UrlError Text :=
  match attributes.text? "src" with
  | some (c :: cs) => do
    let url ← Report.ofExcept (Url.read [] (c :: cs))
    match Url.fileName url.path with
    | [] => Report.warn (.imageWithoutFileName (c :: cs)) []
    | name => return ['[', '['] ++ s.options.imageNamespace ++ ':' :: name ++ [']', ']']
  | _ => Report.warn .imageWithoutSource []

/-! ### Rules -/

/-- A piece of markup for an element with the given content. -/
def expand (s : Session) (e : PlacedElement) (content : Report UrlError Text) :
    Fragment → Report UrlError Text
  | .literal t => return t
  | .feature .tableStart => return Element.tableStart e.attributes
  | .feature .rowStart => return Element.rowStart e.around e.attributes
  | .feature .cellStart => return Element.cellStart e.tag e.attributes e.children
  | .feature .captionStart => return Element.captionStart e.attributes
  | .feature .itemStart => return Element.itemStart e.tag e.around
  | .feature .image => s.imageMarkup e.attributes
  | .feature .link => s.linkMarkup e.attributes content

/-- The markup of an element by a rule, from the markup of its children. -/
def applyRule (s : Session) (rule : Rule) (e : PlacedElement) (content : Report UrlError Text) :
    Report UrlError Text :=
  match rule.kind with
  | .delete => return []
  | .replace => s.expand e content rule.substitute
  | .preserve =>
    if rule.void then
      return rule.layout (startTag e.name rule.attributes e.attributes true) [] []
    else do
      let inner ← content
      return rule.layout (startTag e.name rule.attributes e.attributes false) inner (endTag e.name)
  | .wrap | .synonym => do
    let inner ← content
    let opening ← s.expand e content rule.opening
    let closing ← s.expand e content rule.closing
    return rule.layout opening inner closing

/-- The markup of an element without a rule. -/
def unknownMarkup (s : Session) (name : String) (content : Report UrlError Text) :
    Report UrlError Text :=
  match s.options.unknownTags with
  | .strip => return []
  | .passthrough => content
  | .preserve => do
    let inner ← content
    return '<' :: name.toList ++ '>' :: inner ++ endTag name

def elementMarkup (s : Session) (e : PlacedElement) (content : Report UrlError Text) :
    Report UrlError Text :=
  if transparentTags.contains e.tag then content
  else match s.table.find? e.tag with
    | some rule => s.applyRule rule e content
    | none => s.unknownMarkup e.name content

/-! ### Trees -/

mutual
/-- The markup of a node at a place. -/
def markup (s : Session) (around : Surroundings) : Node → Report UrlError Text
  | .text content _ => return content
  | .special .comment content => return commentMarkup content
  | .special _ _ => return []
  | .element name attributes children =>
    s.elementMarkup ⟨around, name, attributes, children⟩
      (markupAll s (around.enter (lowerName name)) false children)

/-- The markup of siblings; `preceded` says whether content stands before the first. -/
def markupAll (s : Session) (ancestors : List Frame) (preceded : Bool) :
    List Node → Report UrlError Text
  | [] => return []
  | node :: nodes => do
    let first ← markup s ⟨preceded, ancestors⟩ node
    let rest ← markupAll s ancestors (preceded || node.carriesContent) nodes
    return first ++ rest
end

end Session

end Wikitext

/-
  Wikitext/Store/Edit.lean
  ========================
  **Editing a store** — taking nodes out, destroying them, and putting others in their
  place.  An edit changes the children of a parent and the parents of those children
  together.
-/
import Wikitext.Element.Noise
import Wikitext.Store.Basic

namespace Wikitext

/-- Why a store cannot be edited. -/
inductive EditError where
  /-- A node without a parent cannot give way to its children. -/
  | unwrapsRoot
  /-- A node without a parent cannot give way to another. -/
  | replacesRoot
  /-- A text, a special string or what is left of a destroyed element holds no attributes;
  it is given by the name of its kind. -/
  | holdsNoAttributes (kindName : String)
deriving DecidableEq, Repr

def EditError.message : EditError → Text
  | unwrapsRoot =>
    "Cannot replace an element with its contents when that element is not part of a tree.".toList
  | replacesRoot =>
    ("Cannot replace one element with another when the element to be replaced is not part of a " ++
      "tree.").toList
  | holdsNoAttributes kindName =>
    '\'' :: kindName.toList ++ "' object does not support item assignment".toList

def SpecialKind.kindName : SpecialKind → String
  | comment => "Comment"
  | cdata => "CData"
  | doctype => "Doctype"
  | instruction => "ProcessingInstruction"
  | declaration => "Declaration"

namespace Store

def modifyChildren (s : Store) (n : NodeId) (f : List NodeId → List NodeId) : Store :=
  s.modify n fun r => { r with children := f r.children }

def setParent (s : Store) (n : NodeId) (parent : Option NodeId) : Store :=
  s.modify n fun r => { r with parent }

def setPayload (s : Store) (n : NodeId) (payload : Payload) : Store :=
  s.modify n fun r => { r with payload }

/-- Puts nodes in the place of a child. -/
def spliceChild (n : NodeId) (new : List NodeId) (children : List NodeId) : List NodeId :=
  children.flatMap fun c => if c = n then new else [c]

/-- Takes a node out of its parent, with all that is below it. -/
def detach (s : Store) (n : NodeId) : Store :=
  match s.parent n with
  | some p => (s.modifyChildren p (·.erase n)).setParent n none
  | none => s

/-- What is left of a node when it is destroyed: the text of one that is a text. -/
def remains : Payload → Payload
  | .document _ => .lostDocument
  | .element _ _ => .lostElement
  | .text content _ => .text content false
  | p => p

/-- The record of a destroyed node. -/
def ruin (r : Record) : Record := ⟨remains r.payload, none, [], true⟩

/-- Takes an element out and destroys it and all that is below it.  Text and special
strings are only taken out. -/
def delete (s : Store) (n : NodeId) : Store :=
  let below := s.descendants n
  let s' := s.detach n
  if (s.payload n).isElement then (n :: below).foldl (fun s m => s.modify m ruin) s' else s'

/-- Puts the children of a node in its place. -/
def unwrap (s : Store) (n : NodeId) : Except EditError Store :=
  match s.parent n with
  | none => .error .unwrapsRoot
  | some p =>
    let moved := s.children n
    let s := (s.modifyChildren p (spliceChild n moved)).modify n fun r =>
      { r with parent := none, children := [] }
    .ok (moved.foldl (fun s c => s.setParent c (some p)) s)

/-- Puts a new text in the place of a node, and gives its identity. -/
def replaceByText (s : Store) (n : NodeId) (content : Text) (guarded : Bool) :
    Except EditError (Store × NodeId) :=
  match s.parent n with
  | none => .error .replacesRoot
  | some p =>
    let new := s.size
    let s := s.push ⟨.text content guarded, some p, [], false⟩
    .ok ((s.modifyChildren p (spliceChild n [new])).setParent n none, new)

/-- Flags a text as markup. -/
def markGuarded (s : Store) (n : NodeId) : Store :=
  match s.payload n with
  | .text content _ => s.setPayload n (.text content true)
  | _ => s

/-- Gives a text node a content that is markup.  A node that has that content already
keeps its identity. -/
def replaceText (s : Store) (n : NodeId) (content : Text) : Except EditError (Store × NodeId) :=
  match s.payload n with
  | .text old _ =>
    if old = content then .ok (s.markGuarded n, n) else s.replaceByText n content true
  | .special _ old => if old = content then .ok (s, n) else s.replaceByText n content true
  | _ => s.replaceByText n content true

/-- Stores an attribute of an element, the document included. -/
def setAttribute (s : Store) (n : NodeId) (name : String) (value : AttributeValue) :
    Except EditError Store :=
  match s.payload n with
  | .document attributes => .ok (s.setPayload n (.document (attributes.set name value)))
  | .element tag attributes => .ok (s.setPayload n (.element tag (attributes.set name value)))
  | .text _ _ => .error (.holdsNoAttributes "NavigableString")
  | .special kind _ => .error (.holdsNoAttributes kind.kindName)
  | .lostElement => .error (.holdsNoAttributes "NoneType")
  | .lostDocument => .error (.holdsNoAttributes "NoneType")

/-- Adds a tree as the last child of a node. -/
def append (s : Store) (n : NodeId) (node : Node) : Store :=
  let (s, new) := s.insert (some n) node
  s.modifyChildren n (· ++ [new])

/-- Lets a named anchor give way to its content; the result says whether the node was
one. -/
def stripNamedAnchor (s : Store) (n : NodeId) : Except EditError (Store × Bool) :=
  if Element.isNamedAnchor (s.tag n) (s.payload n).attributes then
    (s.unwrap n).map fun s => (s, true)
  else .ok (s, false)

def isFurniture (s : Store) (n : NodeId) : Bool :=
  Element.isFurniture (s.payload n).attributes

/-- Destroys furniture; the result says whether the node was such. -/
def stripFurniture (s : Store) (n : NodeId) : Store × Bool :=
  if s.isFurniture n then (s.delete n, true) else (s, false)

end Store

end Wikitext

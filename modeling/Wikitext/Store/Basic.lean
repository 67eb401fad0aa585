/-
  Wikitext/Store/Basic.lean
  =========================
  **Stores** — a document whose nodes have an identity, so that a node can be taken out,
  replaced or destroyed while others are still referred to.  Every node has a record: what
  it is, its parent and its children.

  Walks along parents are bounded and stop at a node they have passed, so they end even if
  the parents of a damaged store go round in a circle.
-/
import Wikitext.Document.Surroundings

namespace Wikitext

/-- The identity of a node. -/
abbrev NodeId := Nat

/-- What a node is. -/
inductive Payload where
  | document (attributes : Attributes)
  | element (name : String) (attributes : Attributes)
  | text (content : Text) (guarded : Bool)
  | special (kind : SpecialKind) (content : Text)
  /-- An element that was destroyed: its name is empty and its attributes are gone. -/
  | lostElement
  /-- A document that was destroyed: its name is empty and its attributes are gone, and it
  still shows as its children only. -/
  | lostDocument
deriving DecidableEq, Repr

namespace Payload

/-- The name as it is spelled; texts and special strings have none. -/
def name? : Payload → Option String
  | document _ => some documentTag
  | element name _ => some name
  | lostElement => some ""
  | lostDocument => some ""
  | text _ _ => none
  | special _ _ => none

/-- The name in lower case. -/
def tag : Payload → String
  | document _ => documentTag
  | element name _ => lowerName name
  | text _ _ => "~text"
  | special .comment _ => "~comment"
  | special _ _ => ""
  | lostElement => ""
  | lostDocument => ""

/-- Whether a node separates what follows it from the start of its parent. -/
def carriesContent : Payload → Bool
  | text content _ => !content.isVoid
  | special .comment _ => false
  | _ => true

/-- Whether it is an element, the document included. -/
def isElement : Payload → Bool
  | text _ _ => false
  | special _ _ => false
  | _ => true

/-- The attributes of an element, the document included; other nodes have none. -/
def attributes : Payload → Attributes
  | document attributes => attributes
  | element _ attributes => attributes
  | _ => []

end Payload

/-- What a store knows of a node. -/
structure Record where
  payload : Payload
  parent : Option NodeId
  children : List NodeId
  destroyed : Bool
deriving DecidableEq, Repr

/-- The record of a node that the store does not have. -/
def Record.absent : Record := ⟨.lostElement, none, [], true⟩

/-- Nodes with an identity. -/
structure Store where
  records : Array Record

namespace Store

/-! ### Records -/

def record (s : Store) (n : NodeId) : Record :=
  s.records.getD n .absent

/-- What a node is. -/
def payload (s : Store) (n : NodeId) : Payload := (s.record n).payload

def parent (s : Store) (n : NodeId) : Option NodeId := (s.record n).parent

def children (s : Store) (n : NodeId) : List NodeId := (s.record n).children

def isDestroyed (s : Store) (n : NodeId) : Bool := (s.record n).destroyed

/-- The name of a node in lower case. -/
def tag (s : Store) (n : NodeId) : String := (s.payload n).tag

/-- The number of nodes that a store has or has had. -/
def size (s : Store) : Nat := s.records.size

def modify (s : Store) (n : NodeId) (f : Record → Record) : Store :=
  ⟨s.records.modify n f⟩

/-- Adds a record; the node has the next free identity. -/
def push (s : Store) (r : Record) : Store :=
  ⟨s.records.push r⟩

/-! ### Trees in a store -/

mutual
/-- Adds a tree below a parent, and gives the identity of its root. -/
def insert (s : Store) (parent : Option NodeId) : Node → Store × NodeId
  | .text content guarded => (s.push ⟨.text content guarded, parent, [], false⟩, s.size)
  | .special kind content => (s.push ⟨.special kind content, parent, [], false⟩, s.size)
  | .element name attributes children =>
    let (t, ids) := (s.push ⟨.element name attributes, parent, [], false⟩).insertAll s.size children
    (t.modify s.size fun r => { r with children := ids }, s.size)

/-- Adds trees below a parent, and gives the identities of their roots. -/
def insertAll (s : Store) (parent : NodeId) : List Node → Store × List NodeId
  | [] => (s, [])
  | node :: nodes =>
    let (s, n) := s.insert (some parent) node
    let (s, ns) := s.insertAll parent nodes
    (s, n :: ns)
end

/-- The identity of the document. -/
def root : NodeId := 0

def ofDocument (nodes : List Node) : Store :=
  let (s, ids) := Store.insertAll ⟨#[⟨.document [], none, [], false⟩]⟩ root nodes
  s.modify root fun r => { r with children := ids }

/-- The tree below a node; `fuel` bounds its height. -/
def treeTo (s : Store) : (fuel : Nat) → NodeId → Node
  | 0, _ => .element "" [] []
  | fuel + 1, n =>
    match s.payload n with
    | .text content guarded => .text content guarded
    | .special kind content => .special kind content
    | .element name attributes =>
      .element name attributes ((s.children n).map (s.treeTo fuel))
    | .document attributes =>
      .element documentTag attributes ((s.children n).map (s.treeTo fuel))
    | .lostElement => .element "" [] ((s.children n).map (s.treeTo fuel))
    | .lostDocument => .element documentTag [] ((s.children n).map (s.treeTo fuel))

/-- The tree below a node. -/
def tree (s : Store) (n : NodeId) : Node :=
  s.treeTo (s.size + 1) n

/-- The top-level nodes of the document. -/
def document (s : Store) : List Node :=
  (s.children root).map s.tree

/-- The node itself and the nodes below it, in document order; `fuel` bounds the
height. -/
def preorderTo (s : Store) : (fuel : Nat) → NodeId → List NodeId
  | 0, _ => []
  | fuel + 1, n => n :: (s.children n).flatMap (s.preorderTo fuel)

/-- The nodes below a node, in document order. -/
def descendants (s : Store) (n : NodeId) : List NodeId :=
  (s.preorderTo (s.size + 1) n).tail

/-- The node at a path of child numbers. -/
def at? (s : Store) (n : NodeId) : List Nat → Option NodeId
  | [] => some n
  | i :: path => match (s.children n)[i]? with
    | some c => s.at? c path
    | none => none

/-! ### Ancestors -/

/-- How many parents a walk looks at. -/
def maxHeight : Nat := 10000

/-- The nodes on the way up from `n`, which is looked at itself.  The walk ends at a node
in `seen`. -/
def climb (s : Store) : (fuel : Nat) → (seen : List NodeId) → Option NodeId → List NodeId
  | 0, _, _ => []
  | _ + 1, _, none => []
  | fuel + 1, seen, some n =>
    if n ∈ seen then [] else n :: s.climb fuel (n :: seen) (s.parent n)

/-- The ancestors of a node, innermost first. -/
def ancestors (s : Store) (n : NodeId) : List NodeId :=
  s.climb maxHeight [] (s.parent n)

/-- The ancestors with one of the names, outermost first. -/
def ancestorsAmong (s : Store) (n : NodeId) (tags : List String) : List NodeId :=
  ((s.ancestors n).filter fun a => tags.contains (s.tag a)).reverse

/-- Whether the way up from a node passes `top`. -/
def reaches (s : Store) (top : NodeId) : (fuel : Nat) → Option NodeId → Bool
  | 0, _ => false
  | _ + 1, none => false
  | fuel + 1, some n => n == top || s.reaches top fuel (s.parent n)

/-- Whether a node is part of the tree below `top`. -/
def isAttached (s : Store) (top n : NodeId) : Bool :=
  !s.isDestroyed n && s.reaches top (maxHeight + 1) (some n)

/-- The siblings before a node, nearest first. -/
def siblingsBefore (s : Store) (n : NodeId) : List NodeId :=
  match s.parent n with
  | some p => ((s.children p).takeWhile (· != n)).reverse
  | none => []

/-- The nearest sibling before a node that carries content. -/
def precedingContent? (s : Store) (n : NodeId) : Option NodeId :=
  (s.siblingsBefore n).find? fun c => (s.payload c).carriesContent

def surroundings (s : Store) (n : NodeId) : Surroundings where
  preceded := (s.precedingContent? n).isSome
  ancestors := (s.ancestors n).map fun a => ⟨s.tag a, (s.precedingContent? a).isSome⟩

/-- A store of elements with given parents and nothing else. -/
def ofParents (nodes : List (String × Option NodeId)) : Store :=
  ⟨(nodes.map fun (name, parent) => ⟨.element name [], parent, [], false⟩).toArray⟩

end Store

end Wikitext

/-
  Wikitext/Document/Surroundings.lean
  ===================================
  **Surroundings** — what a conversion knows of the tree above a node.  A node is
  converted in the light of its ancestors (the lists it is nested in, a table or
  preformatted text around it) and of whether content stands before it.  Both are handed
  down from the root, so a subtree is converted without a link to its parent.
-/
import Wikitext.Document.Node

namespace Wikitext

/-- An ancestor of a node: its name in lower case, and whether content stands before
it in its own parent. -/
structure Frame where
  tag : String
  preceded : Bool
deriving DecidableEq, Repr

/-- The place of a node: its ancestors, innermost first, and whether a sibling that
carries content stands before it. -/
structure Surroundings where
  preceded : Bool
  ancestors : List Frame
deriving DecidableEq, Repr

namespace Surroundings

/-- The place of a tree's root. -/
def root : Surroundings := ⟨false, []⟩

/-- The frames above the children of a document. -/
def document : List Frame := [⟨documentTag, false⟩]

/-- The frames above the children of an element at this place. -/
def enter (around : Surroundings) (tag : String) : List Frame :=
  ⟨tag, around.preceded⟩ :: around.ancestors

/-- Whether some ancestor has the name. -/
def within (around : Surroundings) (tag : String) : Bool :=
  around.ancestors.any (·.tag == tag)

/-- The ancestors whose names are among `tags`, outermost first. -/
def ancestorsAmong (around : Surroundings) (tags : List String) : List Frame :=
  (around.ancestors.filter fun f => tags.contains f.tag).reverse

end Surroundings

namespace Node

/-- Walks down a path of child numbers from a list of siblings, and gives the node there
with its place. -/
def focusFrom? (ancestors : List Frame) (siblings : List Node) :
    List Nat → Option (Surroundings × Node)
  | [] => none
  | i :: path =>
    match siblings[i]? with
    | none => none
    | some node =>
      let around : Surroundings := ⟨(siblings.take i).any carriesContent, ancestors⟩
      if path = [] then some (around, node)
      else focusFrom? (around.enter node.tag) node.children path

/-- The node of a document at a path of child numbers, with its place. -/
def focus? (document : List Node) (path : List Nat) : Option (Surroundings × Node) :=
  focusFrom? Surroundings.document document path

end Node

end Wikitext

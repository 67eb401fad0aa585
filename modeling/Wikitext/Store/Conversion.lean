/-
  Wikitext/Store/Conversion.lean
  ==============================
  **Conversion in place** — preparing the part of a store below a node, and converting
  it.  The nodes below the root are listed once, in document order, and visited one after
  the other; a node that an earlier visit has taken out of the tree is passed over.

  This is the same preparation as `Session.prepareAll`, as a sequence of edits: it works on
  any part of a store, looks above that part for preformatted text and tables, and leaves
  nodes that are referred to in place where their content does not change.
-/
import Wikitext.Conversion.Exchange

namespace Wikitext.Session

def visitText (s : Session) (store : Store) (n : NodeId) (raw : Text) : Except EditError Store :=
  let above := (store.ancestors n).map store.tag
  if dropsText above raw then .ok (store.detach n)
  else do
    let normal := s.normalizeText (above.contains "pre") raw
    let (store, n) ←
      if normal = raw then Except.ok (store, n) else store.replaceByText n normal false
    let (store, _) ← store.replaceText n (s.dialect.guard normal raw)
    return store

/-- Prepares an element: its URL, its name, and whether it is noise. -/
def visitElement (s : Session) (store : Store) (n : NodeId) (name : String)
    (attributes : Attributes) : Except UrlError (Except EditError Store) := do
  let above := (store.ancestors n).map store.tag
  let attributes ← s.resolveUrl (lowerName name) attributes
  let store := store.setPayload n (.element (properName above name) attributes)
  if s.dialect.removesNoise then
    return (store.stripNamedAnchor n).map fun (store, stripped) =>
      if stripped then store else (store.stripFurniture n).1
  else return .ok store

/-- Visits a node below `top`.  An edit that cannot be done leaves the store as it is. -/
def visit (s : Session) (top : NodeId) (store : Store) (n : NodeId) : Except UrlError Store :=
  let edited (x : Except EditError Store) : Store := match x with
    | .ok store => store
    | .error _ => store
  if !store.isAttached top n then .ok store
  else match store.payload n with
    | .special kind _ =>
      .ok (if kind = .comment ∧ s.options.stripComments = false then store else store.detach n)
    | .text raw guarded =>
      .ok (if guarded then store else edited (s.visitText store n raw))
    | .element name attributes => (s.visitElement store n name attributes).map edited
    | _ => .ok store

/-- Visits nodes in turn.  An error ends the walk; what was done before it stays done. -/
def visitAll (s : Session) (top : NodeId) : Store → List NodeId → Store × Option UrlError
  | store, [] => (store, none)
  | store, n :: ns =>
    match s.visit top store n with
    | .ok store => s.visitAll top store ns
    | .error e => (store, some e)

/-- Prepares all that is below a node. -/
def prepareBelow (s : Session) (store : Store) (top : NodeId) : Store × Option UrlError :=
  s.visitAll top store (store.descendants top)

/-- The markup of a node where it stands. -/
def markupAt (s : Session) (store : Store) (n : NodeId) : Report UrlError Text :=
  s.markup (store.surroundings n) (store.tree n)

/-- Converts a node where it stands, which prepares all that is below it.  A text or
special string is a document in HTML of its own. -/
def convertAt (s : Session) (store : Store) (n : NodeId) : Store × Report Failure Text :=
  match store.payload n with
  | .text content _ => (store, s.convertSource (.html content))
  | .special _ content => (store, s.convertSource (.html content))
  | _ =>
    match s.prepareBelow store n with
    | (store, some e) => (store, Report.fail (.url e))
    | (store, none) =>
      (store, ((s.markupAt store n).andThen fun t => Report.ok (s.complete t)).mapError .url)

end Wikitext.Session

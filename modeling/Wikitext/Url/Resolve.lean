/-
  Wikitext/Url/Resolve.lean
  =========================
  **Resolving references** — the URL that a reference names in a document with a known
  base.  Only references of hierarchical schemes are resolved; a reference with another
  scheme than the base's names itself.
-/
import Wikitext.Url.Basic

namespace Wikitext.Url

/-- Walks segments of a path: `..` takes back the segment before it, if there is one,
and `.` is passed over.  `done` holds the segments so far, last first. -/
def normalizeFrom (done : List Text) : List Text → List Text
  | [] => done.reverse
  | s :: rest =>
    if s = ['.', '.'] then normalizeFrom done.tail rest
    else if s = ['.'] then normalizeFrom done rest
    else normalizeFrom (s :: done) rest

def isDirectory (segment : Text) : Bool :=
  segment == ['.'] || segment == ['.', '.']

/-- The segments of a path without the dots; after a directory the path ends in a
slash. -/
def normalize (segments : List Text) : List Text :=
  normalizeFrom [] segments ++ (if segments.getLast?.any isDirectory then [[]] else [])

/-- Drops the empty segments between the first and the last. -/
def dropInnerEmpty : List Text → List Text
  | [] => []
  | s :: rest => s :: (rest.dropLast.filter (· ≠ []) ++ rest.getLast?.toList)

/-- The segments that a relative path is added to: those of the base, less the last one
when it names a file. -/
def directorySegments (path : Text) : List Text :=
  let segments := path.splitOn '/'
  if segments.getLast? = some [] then segments else segments.dropLast

/-- The path that `path` names in a directory of `base`. -/
def resolvePath (base path : Text) : Text :=
  let segments :=
    if path.head? = some '/' then path.splitOn '/'
    else dropInnerEmpty (directorySegments base ++ path.splitOn '/')
  let resolved := Text.join ['/'] (normalize segments)
  if resolved = [] then ['/'] else resolved

/-- The parts that a reference without a host has in a document with the base `b`. -/
def relativeTo (b r : Url) : Url :=
  if r.path = [] ∧ r.parameters = [] then
    { r with
      host := b.host
      path := b.path
      parameters := b.parameters
      query := if r.query = [] then b.query else r.query }
  else { r with host := b.host, path := resolvePath b.path r.path }

/-- What `reference`, with the parts `r`, names in a document with the base `b`. -/
def combine (b : Url) (reference : Text) (r : Url) : Text :=
  if r.scheme ≠ b.scheme ∨ !relativeSchemes.contains r.scheme then reference
  else if r.host ≠ [] then r.write
  else (relativeTo b r).write

/-- Resolves a reference against a base.  An empty base resolves nothing, and an empty
reference names the base. -/
def resolve (base reference : Text) : Except UrlError Text :=
  if base = [] then .ok reference
  else if reference = [] then .ok base
  else do
    let b ← read [] base
    let r ← read b.scheme reference
    return combine b reference r

end Wikitext.Url

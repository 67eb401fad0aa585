/-
  Wikitext/Exchange/Path.lean
  ===========================
  **Paths** — texts that lead from one folder to the next.  A path has segments between
  slashes; empty ones and dots lead nowhere.  A place is what a path leads to: the
  segments that name it, the last one first.  It ends in an empty segment if it is named
  from the root, and in pairs of dots if it lies above the starting point.
-/
import Wikitext.Text.Basic

namespace Wikitext

/-- What a path leads to: the segments that name it, last first. -/
abbrev Place := List Text

namespace Place

/-- The segment that leads to the folder above. -/
def upward : Text := ['.', '.']

/-- Goes one segment on. -/
def enter (here : Place) (segment : Text) : Place :=
  if segment = upward then
    match here with
    | [] => [upward]
    | top :: rest =>
      if top = [] then here else if top = upward then upward :: here else rest
  else segment :: here

/-- Whether a place is where paths start from, or above it. -/
def isStart (p : Place) : Bool :=
  p.all fun s => s == [] || s == upward

/-- The folders that a place is in, innermost first. -/
def above : Place → List Place
  | [] => []
  | _ :: rest => rest :: above rest

def path (p : Place) : Text :=
  if p = [] then ['.']
  else if p = [[]] then ['/']
  else Text.join ['/'] p.reverse

end Place

namespace Path

/-- The segments that lead somewhere. -/
def segments (path : Text) : List Text :=
  (path.splitOn '/').filter fun s => s ≠ [] ∧ s ≠ ['.']

/-- The slashes at the start: two of them have a meaning of their own, and more than two
are as good as one. -/
def slashes (path : Text) : Text :=
  match path.takeWhile (· == '/') with
  | [] => []
  | ['/', '/'] => ['/', '/']
  | _ => ['/']

def start (path : Text) : Place :=
  if path.head? = some '/' then [[]] else []

/-- A path without the segments that lead nowhere. -/
def plain (path : Text) : Text :=
  let t := slashes path ++ Text.join ['/'] (segments path)
  if t = [] then ['.'] else t

/-- Whether a text can be no path at all: a path ends where the null character stands. -/
def hasNull (path : Text) : Bool :=
  path.contains '\x00'

/-- How many bytes a segment may have. -/
def segmentLimit : Nat := 255

/-- How many bytes a path may have. -/
def limit : Nat := 4095

/-- What a path leads to if all folders on the way exist. -/
def place (path : Text) : Place :=
  (segments path).foldl Place.enter (start path)

end Path

end Wikitext

/-
  Wikitext/Text/Lines.lean
  ========================
  **A text as its lines** — the pieces between line feeds.  Wiki markup is a
  format of lines, so the passes that lay it out are functions on lists of lines,
  and `unlines_lines` carries a law about lines back to the text.
-/
import Wikitext.Text.Basic

namespace Wikitext.Text

/-- The lines of a text.  A final line feed opens an empty last line. -/
def lines (t : Text) : List Text :=
  splitOn '\n' t

/-- Joins lines with line feeds. -/
def unlines (ls : List Text) : Text :=
  join ['\n'] ls

theorem unlines_lines (t : Text) : unlines (lines t) = t :=
  join_splitOn '\n' t

/-- Applies `f` to every line that a line feed ends, that is, to all but the
last. -/
def mapEnded (f : Text → Text) : List Text → List Text
  | [] => []
  | [l] => [l]
  | l :: ls => f l :: mapEnded f ls

/-- Drops the empty lines, except the last line. -/
def dropEmpty : List Text → List Text
  | [] => []
  | [l] => [l]
  | l :: ls => if l = [] then dropEmpty ls else l :: dropEmpty ls

/-- Leaves one of several consecutive empty lines; the last line is no member of
such a run. -/
def squeezeEmpty : List Text → List Text
  | [] => []
  | [l] => [l]
  | l :: m :: ls =>
    if l = [] ∧ m = [] ∧ ls ≠ [] then squeezeEmpty (m :: ls)
    else l :: squeezeEmpty (m :: ls)

/-- At most one line feed in a row: no empty line but the first and the last. -/
def withoutEmptyLines : List Text → List Text
  | [] => []
  | l :: ls => l :: dropEmpty ls

/-- At most two line feeds in a row: runs of empty lines become one empty line. -/
def withSingleEmptyLines : List Text → List Text
  | [] => []
  | l :: ls => l :: squeezeEmpty ls

/-- All on one line: the lines without their blanks at the joints, with one space at
each joint; empty lines between leave no trace. -/
def joinWithSpaces : List Text → Text
  | [] => []
  | [l] => l
  | l :: ls => trimEnd isBlank l ++ rest ls
where
  /-- The lines after the first. -/
  rest : List Text → Text
    | [] => []
    | [l] => ' ' :: trimStart isBlank l
    | l :: ls => if l = [] then rest ls else ' ' :: (trim isBlank l ++ rest ls)

end Wikitext.Text

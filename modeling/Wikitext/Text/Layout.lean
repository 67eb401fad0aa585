/-
  Wikitext/Text/Layout.lean
  =========================
  **The layout passes** — what happens to the white space of converted content.
  A rule trims its content (`TrimPolicy`), brings its line feeds into shape
  (`LineFormat`) and may mark every line (`markLines`); the whole document goes
  through `tidy` at the end.

  No pass drops a character other than white space, and each is a function on
  the lines of the text (`Wikitext.Text.Lines`).
-/
import Wikitext.Text.Lines

namespace Wikitext

/-! ### Trimming -/

/-- Which ends of a content lose their HTML white space. -/
inductive TrimPolicy where
  | keep
  | leading
  | trailing
  | both
deriving DecidableEq, Repr

namespace TrimPolicy

def name : TrimPolicy → String
  | keep => "none"
  | leading => "leading"
  | trailing => "trailing"
  | both => "both"

def all : List TrimPolicy := [keep, leading, trailing, both]

def ofName? (s : String) : Option TrimPolicy :=
  all.find? (·.name == s)

def apply : TrimPolicy → Text → Text
  | keep, t => t
  | leading, t => t.trimStart Text.isSpace
  | trailing, t => t.trimEnd Text.isSpace
  | both, t => t.trim Text.isSpace

end TrimPolicy

/-! ### Line formats -/

/-- How many line feeds in a row a content may have. -/
inductive LineFormat where
  /-- Any number. -/
  | keep
  /-- None: everything on one line. -/
  | single
  /-- One: no empty lines. -/
  | multi
  /-- Two: at most one empty line between blocks. -/
  | blocks
deriving DecidableEq, Repr

namespace LineFormat

def name : LineFormat → String
  | keep => "none"
  | single => "single"
  | multi => "multi"
  | blocks => "blocks"

def all : List LineFormat := [keep, single, multi, blocks]

def ofName? (s : String) : Option LineFormat :=
  all.find? (·.name == s)

/-- A line of nothing but space, tab, carriage return and form feed counts as
empty. -/
def clearWhiteLine (l : Text) : Text :=
  if l.isWhite then [] else l

/-- The lines of a content; those that are ended by a line feed and hold only white
space are empty. -/
def clearedLines (t : Text) : List Text :=
  Text.mapEnded clearWhiteLine t.lines

/-- Brings the line feeds of a content into the format. -/
def apply : LineFormat → Text → Text
  | keep, t => t
  | single, t => Text.joinWithSpaces (clearedLines t)
  | multi, t => Text.unlines (Text.withoutEmptyLines (clearedLines t))
  | blocks, t => Text.unlines (Text.withSingleEmptyLines (clearedLines t))

end LineFormat

namespace Text

/-! ### Marked lines -/

/-- Puts `mark` in front of every line.  A final line feed opens no line, so an empty
last line gets none. -/
def markEach (mark : Text) : List Text → List Text
  | [] => []
  | [l] => [if l = [] then [] else mark ++ l]
  | l :: ls => (mark ++ l) :: markEach mark ls

/-- Puts `mark` at the start of every line of a text. -/
def markLines (mark : Text) (t : Text) : Text :=
  unlines (markEach mark t.lines)

/-! ### The whole document -/

/-- Tidies an assembled document: no line starts or ends with a blank, runs of empty
lines become one, and both ends are free of white space. -/
def tidy (t : Text) : Text :=
  (unlines (withSingleEmptyLines (t.lines.map (trim isBlank)))).trim isSpace

end Text

end Wikitext

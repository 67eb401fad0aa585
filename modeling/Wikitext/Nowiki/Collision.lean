/-
  Wikitext/Nowiki/Collision.lean
  ==============================
  **Collisions** — the ways in which plain text reads as wiki markup.  Two apostrophes,
  two opening square brackets and two opening braces are markup wherever they stand; list
  and table marks, rules and table starts are markup at the start of a line, and blanks
  may stand before them because the last layout pass removes those.
-/
import Wikitext.Text.Lines

namespace Wikitext

/-- A way in which text reads as wiki markup. -/
inductive Collision where
  /-- `''` opens bold or italics. -/
  | emphasis
  /-- A line that starts with a mark of a list, an indentation, a heading or a cell. -/
  | lineMark
  /-- A line that starts with four hyphens. -/
  | rule
  /-- A line that starts a table. -/
  | table
  /-- Two opening square brackets. -/
  | link
  /-- Two opening braces. -/
  | template
deriving DecidableEq, Repr

namespace Collision

/-- All collisions, in the order in which they are looked for. -/
def all : List Collision := [emphasis, lineMark, rule, table, link, template]

/-- The characters that are markup at the start of a line. -/
def lineMarks : List Char := ['*', '#', ';', ':', '=', '!', '|']

/-- Whether some line starts, after blanks, with a text that satisfies `p`. -/
def atLineStart (p : Text → Bool) (t : Text) : Bool :=
  t.lines.any fun l => p (l.trimStart Text.isBlank)

def occursIn : Collision → Text → Bool
  | emphasis, t => Text.occurs ['\'', '\''] t
  | lineMark, t => atLineStart (fun l => l.head?.any (· ∈ lineMarks)) t
  | rule, t => atLineStart (List.isPrefixOf ['-', '-', '-', '-']) t
  | table, t => atLineStart (List.isPrefixOf ['\x7b', '|']) t
  | link, t => Text.occurs ['[', '['] t
  | template, t => Text.occurs ['\x7b', '\x7b'] t

def find? (t : Text) : Option Collision :=
  all.find? (·.occursIn t)

end Collision

namespace Text

/-- Whether a text reads as wiki markup in any way. -/
def collides (t : Text) : Bool :=
  Collision.all.any (·.occursIn t)

/-- A collision is found in exactly the texts that collide. -/
theorem isSome_find? (t : Text) : (Collision.find? t).isSome = t.collides := by
  rw [Bool.eq_iff_iff]
  simp [Collision.find?, collides]

end Text

end Wikitext

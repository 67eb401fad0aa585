/-
  Wikitext/Text/Blank.lean
  ========================
  **White space of Unicode** — a wider class than the white space of HTML.  It decides
  whether a text between two elements carries content, and where a list of class
  names is split.
-/
import Wikitext.Text.Basic

namespace Wikitext.Text

/-- The ranges of Unicode white space and of the four information separators. -/
def wideSpaceRanges : List (Nat × Nat) := [
  (0x09, 0x0d), (0x1c, 0x20), (0x85, 0x85), (0xa0, 0xa0), (0x1680, 0x1680), (0x2000, 0x200a),
  (0x2028, 0x2029), (0x202f, 0x202f), (0x205f, 0x205f), (0x3000, 0x3000)
]

/-- White space of any script. -/
def isWideSpace (c : Char) : Bool :=
  wideSpaceRanges.any fun (lo, hi) => lo ≤ c.toNat && c.toNat ≤ hi

/-- HTML white space is white space. -/
theorem isWideSpace_of_isSpace {c : Char} (h : isSpace c = true) : isWideSpace c = true := by
  simp only [isSpace, Bool.or_eq_true, beq_iff_eq] at h
  rcases h with (((rfl | rfl) | rfl) | rfl) | rfl <;> decide

/-- No character but white space of any script. -/
def isVoid (t : Text) : Bool :=
  t.all isWideSpace

/-- The maximal pieces without white space of any script; `pending` is the piece that
is being read, in reverse. -/
def wordsFrom (pending : Text) : Text → List Text
  | [] => if pending = [] then [] else [pending.reverse]
  | c :: cs =>
    if isWideSpace c then
      if pending = [] then wordsFrom [] cs else pending.reverse :: wordsFrom [] cs
    else wordsFrom (c :: pending) cs

def words (t : Text) : List Text :=
  wordsFrom [] t

end Wikitext.Text

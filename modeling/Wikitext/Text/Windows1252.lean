/-
  Wikitext/Text/Windows1252.lean
  ==============================
  **The Western encoding of Windows** — one byte a character.  It is Latin 1, except that
  the bytes from 0x80 to 0x9f are punctuation and letters where Latin 1 has control
  characters; five of them are no character at all.
-/
import Wikitext.Text.Basic

namespace Wikitext.Windows1252

/-- The characters of the bytes from 0x80 to 0x9f, in order. -/
def punctuation : List (Option Char) := [
  some '\u20ac', none, some '\u201a', some '\u0192', some '\u201e', some '\u2026', some '\u2020',
  some '\u2021', some '\u02c6', some '\u2030', some '\u0160', some '\u2039', some '\u0152', none,
  some '\u017d', none, none, some '\u2018', some '\u2019', some '\u201c', some '\u201d',
  some '\u2022', some '\u2013', some '\u2014', some '\u02dc', some '\u2122', some '\u0161',
  some '\u203a', some '\u0153', none, some '\u017e', some '\u0178'
]

def char? (b : Nat) : Option Char :=
  if 0x80 ≤ b ∧ b < 0xa0 then punctuation.getD (b - 0x80) none else some (Char.ofNat b)

/-- Reads bytes as text, if every byte is a character. -/
def decode? (bs : List UInt8) : Option Text :=
  bs.mapM fun b => char? b.toNat

end Wikitext.Windows1252

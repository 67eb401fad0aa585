/-
  Wikitext/Nowiki.lean
  ====================
  **Text that stays text** — plain text is put between `<nowiki>` and `</nowiki>` where a
  wiki would read it as markup.  A text that collides is wrapped as a whole; otherwise
  only the bracketed links in it are.
-/
import Wikitext.Nowiki.Collision
import Wikitext.Nowiki.BracketedLink

namespace Wikitext.Nowiki

/-- Opens text that is not read as markup. -/
def opening : Text := ['<', 'n', 'o', 'w', 'i', 'k', 'i', '>']

/-- Closes text that is not read as markup. -/
def closing : Text := ['<', '/', 'n', 'o', 'w', 'i', 'k', 'i', '>']

/-- Wraps a text in one pair of tags. -/
def wrap (t : Text) : Text :=
  opening ++ t ++ closing

/-- The bracketed link at the start of a text, and its wrapped form. -/
def wrappedLink? (t : Text) : Option (Nat × Text) :=
  (BracketedLink.length? t).map fun n => (n, wrap (t.take n))

/-- Wraps each bracketed link of a text. -/
def wrapLinks (t : Text) : Text :=
  t.substitute wrappedLink?

/-- Protects a text from being read as markup. -/
def protect (t : Text) : Text :=
  if t.collides then wrap t else wrapLinks t

/-- Protects a text that has been collapsed and escaped; `raw` is the text as it stood
in the document.  Collapsing joins the lines of `raw`, whose marks at line starts are
looked for all the same. -/
def guard (t raw : Text) : Text :=
  if raw.collides then wrap t else protect t

end Wikitext.Nowiki

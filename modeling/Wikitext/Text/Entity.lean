/-
  Wikitext/Text/Entity.lean
  =========================
  **Character entities** — text that is put into markup must not open a tag or an
  entity, and an attribute value must not end its quotes.  `escape` and
  `escapeAttribute` write the characters at stake as entities; `decodeEntities`
  reads the four entities back in one pass.
-/
import Wikitext.Text.Basic

namespace Wikitext.Text

/-- The entity of `&`, `<` or `>`, and any other character as it stands. -/
def escapeChar : Char → Text
  | '&' => ['&', 'a', 'm', 'p', ';']
  | '<' => ['&', 'l', 't', ';']
  | '>' => ['&', 'g', 't', ';']
  | c => [c]

def escape (t : Text) : Text :=
  t.flatMap escapeChar

/-- The entity of a character in a value between double quotes. -/
def escapeAttributeChar : Char → Text
  | '"' => ['&', 'q', 'u', 'o', 't', ';']
  | c => escapeChar c

def escapeAttribute (t : Text) : Text :=
  t.flatMap escapeAttributeChar

/-- The entity at the start of a text: its length and what it stands for. -/
def entityAt? : Text → Option (Nat × Text)
  | '&' :: 'a' :: 'm' :: 'p' :: ';' :: _ => some (5, ['&'])
  | '&' :: 'l' :: 't' :: ';' :: _ => some (4, ['<'])
  | '&' :: 'g' :: 't' :: ';' :: _ => some (4, ['>'])
  | '&' :: 'q' :: 'u' :: 'o' :: 't' :: ';' :: _ => some (6, ['"'])
  | _ => none

/-- Replaces the entities of `&`, `<`, `>` and `"` by their characters, in one pass; any
other `&` stands for itself. -/
def decodeEntities (t : Text) : Text :=
  substitute entityAt? t

end Wikitext.Text

/-
  Wikitext/Link/Markup.lean
  =========================
  **Links as markup** — a link to a page of the wiki is `[[Title]]`, or `[[Title|label]]`
  where the label is another text; any other link is its bare URL, or `[url label]`.  A
  wiki capitalizes the first letter of a title by itself, so a label that differs from
  the title in the case of its first letter needs no second part.
-/
import Wikitext.Text.Basic

namespace Wikitext.Link

/-- A title as it is displayed: underscores stand for spaces. -/
def displayTitle (title : Text) : Text :=
  title.map fun c => if c = '_' then ' ' else c

/-- A text with its first character, if that is a letter of ASCII, in lower case. -/
def lowerFirst : Text → Text
  | [] => []
  | c :: cs => (if c.toNat < 0x80 then c.toLower else c) :: cs

/-- The markup of a link to a page with a title that is not empty. -/
def page (title label : Text) : Text :=
  let title := displayTitle title
  if label = title then ['[', '['] ++ title ++ [']', ']']
  else if label = lowerFirst title then ['[', '['] ++ label ++ [']', ']']
  else ['[', '['] ++ title ++ '|' :: label ++ [']', ']']

/-- The markup of a link to any other place. -/
def external (url label : Text) : Text :=
  if url = label then url else '[' :: url ++ ' ' :: label ++ [']']

/-- The markup of a link to `url`, which names a page if there is a title. -/
def markup (url : Text) (title : Option Text) (label : Text) : Text :=
  match title with
  | some (c :: cs) => page (c :: cs) label
  | _ => external url label

end Wikitext.Link

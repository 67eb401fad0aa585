/-
  Wikitext/Html/Tokens.lean
  =========================
  **A text as its tokens.**  Text runs up to the next `<` or `&`.  What is not finished at
  the end of the text is doubtful, and from the first doubt on it is decided that no more
  text will come: markup that is not finished is a text up to the next `>`, and a
  reference that is not finished makes a text of all that is left.
-/
import Wikitext.Html.Token

namespace Wikitext.Html

/-- The elements whose content is a text, with no markup but their closing tag. -/
def rawTextTags : List String := ["script", "style"]

/-- The text after the closing tag of an element, if one starts here. -/
def afterClosing? (name : Text) : Text → Option Text
  | '<' :: '/' :: t =>
    let u := t.dropWhile Text.isWideSpace
    if Text.lower (u.take name.length) = name then
      match (u.drop name.length).dropWhile Text.isWideSpace with
      | '>' :: rest => some rest
      | _ => none
    else none
  | _ => none

/-- Reads text up to the closing tag of an element. -/
def readRaw (name : Text) : Text → Option (Text × Text)
  | [] => none
  | c :: cs =>
    match afterClosing? name (c :: cs) with
    | some rest => some ([], rest)
    | none => (readRaw name cs).map fun (content, rest) => (c :: content, rest)

/-- The part of a text, after its `<`, that is a text because its markup is not finished:
up to the next `>`, or else up to the next `<`, or else nothing. -/
def unfinished (t : Text) : Text × Text :=
  match t.cut '>' with
  | (content, some rest) => (content ++ ['>'], rest)
  | (_, none) =>
    if t.contains '<' then (t.takeWhile (· != '<'), t.dropWhile (· != '<')) else ([], t)

/-- What is left after a reference that is not finished.  An `&` before a single letter is
lost. -/
def leftOver : Text → Text
  | ['&', c] => if c.isAlpha then [c] else ['&', c]
  | t => t

/-- Reads tokens; `doubted` says that there has been a doubt.  Each step but the first
doubt takes a character at least, so `fuel` stays above the length of the text. -/
def tokensFrom : (fuel : Nat) → (doubted : Bool) → Text → List Token
  | 0, _, _ => []
  | _ + 1, _, [] => []
  | fuel + 1, doubted, '<' :: rest =>
    match readMarkup fuel rest with
    | some ([.opening name attributes false], rest) =>
      .opening name attributes false ::
        if rawTextTags.contains name then
          match readRaw name.toList rest with
          | some (content, rest) => .text content :: .closing name :: tokensFrom fuel doubted rest
          | none => []
        else tokensFrom fuel doubted rest
    | some (found, rest) => found ++ tokensFrom fuel doubted rest
    | none =>
      if doubted then
        .text ('<' :: (unfinished rest).1) :: tokensFrom fuel true (unfinished rest).2
      else tokensFrom fuel true ('<' :: rest)
  | fuel + 1, doubted, '&' :: rest =>
    match readAmpersand rest with
    | .read content rest => .text content :: tokensFrom fuel doubted rest
    | .uncertain content rest =>
      .text content :: if doubted then [.text (leftOver rest)] else tokensFrom fuel true rest
  | fuel + 1, doubted, t =>
    let inText (c : Char) := !(c == '<' || c == '&')
    .text (t.takeWhile inText) :: tokensFrom fuel doubted (t.dropWhile inText)

def tokens (t : Text) : List Token :=
  tokensFrom (t.length + 2) false t

end Wikitext.Html

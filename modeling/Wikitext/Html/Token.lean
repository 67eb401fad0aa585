/-
  Wikitext/Html/Token.lean
  ========================
  **Tokens of HTML** — texts, special strings, opening and closing tags.  The readers of
  this module take what follows a `<`.  They answer with nothing when the markup is not
  finished before the end of the text; whether it is then a text is for
  `Wikitext.Html.Tokens` to say.
-/
import Wikitext.Document.Node
import Wikitext.Html.Reference

namespace Wikitext.Html

/-- A piece of HTML. -/
inductive Token where
  | text (content : Text)
  | special (kind : SpecialKind) (content : Text)
  /-- An opening tag; `closed` says that it closes its element as well. -/
  | opening (name : String) (attributes : Attributes) (closed : Bool)
  | closing (name : String)
deriving DecidableEq, Repr

/-- What has been read: tokens, and the text after them. -/
abbrev Found := Option (List Token × Text)

/-- Reads up to the first `>` and makes a token of what is before it. -/
def upToEnd (token : Text → Token) (t : Text) : Found :=
  match t.cut '>' with
  | (content, some rest) => some ([token content], rest)
  | (_, none) => none

/-! ### Attributes -/

def isQuote (c : Char) : Bool :=
  c == '"' || c == '\''

/-- Drops white space and slashes, but not the slash of `/>`. -/
def dropGap : Text → Text
  | [] => []
  | '/' :: '>' :: rest => '/' :: '>' :: rest
  | c :: cs => if Text.isWideSpace c || c == '/' then dropGap cs else c :: cs

/-- Whether a text starts with something that `dropGap` drops. -/
def startsGap : Text → Bool
  | '/' :: '>' :: _ => false
  | c :: _ => Text.isWideSpace c || c == '/'
  | [] => false

/-- A character after the first in the name of an attribute. -/
def isAttributeChar (c : Char) : Bool :=
  !(Text.isWideSpace c || c == '/' || c == '=' || c == '>')

/-- A value without quotes, with the text after it. -/
def bareValue (t : Text) : Text × Text :=
  let inValue (c : Char) := !(Text.isWideSpace c || c == '>')
  (t.takeWhile inValue, t.dropWhile inValue)

/-- The value of an attribute as it is written.  `quoted` says that another attribute may
follow without white space. -/
structure Written where
  value : Text
  quoted : Bool
  rest : Text

/-- Reads the equals signs after the name of an attribute and the value after them; white
space may stand around the signs.  A quote that is not closed starts no value: the value
is then empty, if white space stands before the quote, and starts at the last of several
equals signs otherwise. -/
def readValue (t : Text) : Option Written :=
  let signs := t.dropWhile Text.isWideSpace
  let after := signs.dropWhile (· == '=')
  let start := after.dropWhile Text.isWideSpace
  let bare (t : Text) : Written := ⟨(bareValue t).1, false, (bareValue t).2⟩
  if signs.head? ≠ some '=' then none
  else match start with
    | [] => some ⟨[], false, []⟩
    | q :: rest =>
      if isQuote q then
        match Text.cut q rest with
        | (value, some rest) => some ⟨value, true, rest⟩
        | (_, none) =>
          if after.head?.any Text.isWideSpace then some ⟨[], true, start⟩
          else if (signs.drop 1).head? = some '=' then some (bare ('=' :: start))
          else none
      else some (bare start)

/-- The attributes that hold lists of words, by the names of their elements. -/
def listAttributes : List (String × List String) := [
  ("a", ["rel", "rev"]), ("link", ["rel", "rev"]), ("area", ["rel"]), ("td", ["headers"]),
  ("th", ["headers"]), ("form", ["accept-charset"]), ("object", ["archive"]),
  ("icon", ["sizes"]), ("iframe", ["sandbox"]), ("output", ["for"])
]

/-- Whether an attribute of an element holds a list of words. -/
def holdsList (tag name : String) : Bool :=
  ["class", "accesskey", "dropzone"].contains name
    || listAttributes.any fun (t, names) => t == tag && names.contains name

/-- The value of an attribute. -/
def attributeValue (tag name : String) (value : Text) : AttributeValue :=
  if holdsList tag name then .list value.words else .single value

/-- Reads attributes; `free` says that the character before the text lets an attribute
start.  Every attribute has a name, so a `fuel` above the length of the text is enough. -/
def readAttributes (tag : String) :
    (fuel : Nat) → (free : Bool) → Attributes → Text → Attributes × Text
  | 0, _, found, t => (found, t)
  | fuel + 1, free, found, t =>
    let u := dropGap t
    match u with
    | [] => (found, [])
    | c :: cs =>
      if (free || startsGap t) && c != '>' && c != '/' then
        let written := c :: cs.takeWhile isAttributeChar
        let rest := cs.dropWhile isAttributeChar
        let name := String.ofList (Text.lower written)
        match readValue rest with
        | some w =>
          let found := found.set name (attributeValue tag name (decodeValue w.value))
          readAttributes tag fuel w.quoted found w.rest
        | none =>
          let found := found.set name (attributeValue tag name [])
          readAttributes tag fuel ((written.getLast?).any isQuote) found rest
      else (found, u)

/-! ### Tags -/

/-- A character after the first in the name of an element. -/
def isTagChar (c : Char) : Bool :=
  !(c == '\t' || c == '\n' || c == '\r' || c == '\x0c' || c == ' ' || c == '/' || c == '>'
    || c == '\x00')

/-- Reads an opening tag; `fuel` is above the length of the text.  What breaks off inside
is a text. -/
def readOpening (fuel : Nat) (t : Text) : Found :=
  let written := t.takeWhile isTagChar
  let name := String.ofList (Text.lower written)
  let free := written.getLast?.any fun c => isQuote c || Text.isWideSpace c
  match readAttributes name fuel free [] (t.dropWhile isTagChar) with
  | (attributes, '>' :: rest) => some ([.opening name attributes false], rest)
  | (attributes, '/' :: '>' :: rest) => some ([.opening name attributes true], rest)
  | (_, []) => none
  | (_, '=' :: _) => none
  | (_, rest) => some ([.text ('<' :: t.take (t.length - rest.length))], rest)

/-- Reads what follows `</`: a closing tag, with anything between its name and its `>`, or
else something that counts as a comment. -/
def readClosing (t : Text) : Found :=
  let named (t : Text) (isNameChar : Char → Bool) : Text :=
    if t.head?.any Char.isAlpha then t.takeWhile isNameChar else []
  let closing (name : Text) : Found := upToEnd (fun _ => .closing (String.ofList name.lower)) t
  let isSimpleChar (c : Char) := c.isAlphanum || c == '-' || c == '.' || c == ':' || c == '_'
  let u := t.dropWhile Text.isWideSpace
  let simple := named u isSimpleChar
  if simple ≠ [] ∧ ((u.drop simple.length).dropWhile Text.isWideSpace).head? = some '>' then
    closing simple
  else if named t isTagChar ≠ [] then closing (named t isTagChar)
  else match t with
    | '>' :: rest => some ([], rest)
    | t => upToEnd (.special .comment) t

/-! ### Special strings -/

/-- The text after the end of a comment, if one starts here; white space may stand in
it. -/
def afterComment? : Text → Option Text
  | '-' :: '-' :: t =>
    match t.dropWhile Text.isWideSpace with
    | '>' :: rest => some rest
    | _ => none
  | _ => none

def readComment : Text → Option (Text × Text)
  | [] => none
  | c :: cs =>
    match afterComment? (c :: cs) with
    | some rest => some ([], rest)
    | none => (readComment cs).map fun (content, rest) => (c :: content, rest)

/-- Reads a section after its `<![` up to brackets, so many, and a `>`; white space may
stand before all but the first. -/
def readSection (brackets : Nat) : Text → Option (Text × Text)
  | [] => none
  | c :: cs =>
    match endOf brackets (c :: cs) with
    | some rest => some ([], rest)
    | none => (readSection brackets cs).map fun (content, rest) => (c :: content, rest)
where
  /-- The text after the end of a section. -/
  endOf : Nat → Text → Option Text
    | 0, '>' :: rest => some rest
    | n + 1, ']' :: rest => endOf n (rest.dropWhile Text.isWideSpace)
    | _, _ => none

/-- The words that begin a section which ends with one bracket, or with two. -/
def sectionWords : List (Text × Nat) :=
  [("cdata", 2), ("temp", 2), ("ignore", 2), ("include", 2), ("rcdata", 2), ("if", 1), ("else", 1),
    ("endif", 1)].map fun (word, n) => (word.toList, n)

/-- Reads a marked section after its `<![`. -/
def readMarked (t : Text) : Found :=
  let isWordChar (c : Char) := c.isAlphanum || c == '-' || c == '_' || c == '.'
  let word := t.takeWhile isWordChar
  if (t.drop word.length).dropWhile Text.isWideSpace = [] then none
  else match sectionWords.lookup (Text.lower word) with
    | none => none
    | some brackets =>
      (readSection brackets t).map fun (content, rest) =>
        if Text.lower (content.take 6) = "cdata[".toList then
          ([.special .cdata (content.drop 6)], rest)
        else ([.special .declaration content], rest)

def readDeclaration : Text → Found
  | '-' :: '-' :: rest =>
    (readComment rest).map fun (content, rest) => ([.special .comment content], rest)
  | '[' :: rest => readMarked rest
  | t =>
    if Text.lower (t.take 7) = "doctype".toList then
      upToEnd (fun content => .special .doctype (content.drop 1)) (t.drop 7)
    else upToEnd (.special .comment) t

/-- Reads what follows a `<`; `fuel` is above the length of the text.  Where that can be no
markup, the `<` is a text. -/
def readMarkup (fuel : Nat) : Text → Found
  | '/' :: rest => readClosing rest
  | '!' :: rest => readDeclaration rest
  | '?' :: rest => upToEnd (.special .instruction) rest
  | t => if t.head?.any Char.isAlpha then readOpening fuel t else some ([.text ['<']], t)

end Wikitext.Html

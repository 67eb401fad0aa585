/-
  Wikitext/Html/Reference.lean
  ============================
  **Character references** — `&` with the name or the number of a character.  A number
  that is no character stands for U+FFFD; the numbers from 0x80 to 0x9f are read as bytes
  of the Western encoding of Windows.

  A reference in a text ends at the first character that cannot be part of it, and the
  semicolon after it is part of it.  In the value of an attribute a name without a
  semicolon has to be one of the old names, and the longest one counts.
-/
import Wikitext.Html.CharacterName
import Wikitext.Text.Windows1252

namespace Wikitext.Html

/-! ### Numbers -/

def numberedCharacter (n : Nat) : Char :=
  if n = 0 ∨ 0xd800 ≤ n ∧ n < 0xe000 ∨ 0x10ffff < n then '\ufffd'
  else if 0x80 ≤ n ∧ n < 0xa0 then (Windows1252.char? n).getD (Char.ofNat n)
  else Char.ofNat n

/-- Reads a number after `&#`: decimal, or hexadecimal after an `x`. -/
def readNumber : Text → Option (Nat × Text)
  | [] => none
  | c :: cs =>
    let hexadecimal := c == 'x' || c == 'X'
    let t := if hexadecimal then cs else c :: cs
    let isDigit := if hexadecimal then Percent.isHexDigit else Char.isDigit
    match t.takeWhile isDigit with
    | [] => none
    | digits =>
      let base := if hexadecimal then 16 else 10
      some (digits.foldl (fun n d => base * n + (Percent.hexValue? d).getD 0) 0,
        t.dropWhile isDigit)

def dropSemicolon : Text → Text
  | ';' :: rest => rest
  | t => t

/-! ### In a text -/

/-- What an `&` in a text begins. -/
inductive Ampersand where
  /-- A reference, or nothing but the `&` itself. -/
  | read (content rest : Text)
  /-- Something that looks like a reference and may go on after the end of the text; what
  is certain of it is `content`. -/
  | uncertain (content rest : Text)

/-- A character of a name, as far as it can be told before the name is looked up. -/
def isReferenceChar (c : Char) : Bool :=
  c.isAlphanum || c == '-' || c == '.'

/-- The name after an `&`, with the text after it.  At the end of a text a name is certain
only as far as a hyphen or full stop. -/
def readName (t : Text) : Option (Text × Text) :=
  let name := t.takeWhile isReferenceChar
  match t.dropWhile isReferenceChar with
  | [] =>
    let certain := ((name.reverse.dropWhile Char.isAlphanum).drop 1).reverse
    if certain = [] then none else some (certain, t.drop certain.length)
  | rest => some (name, dropSemicolon rest)

/-- Reads what follows an `&` in a text.  A name that nobody knows is left as it is, but
for its semicolon. -/
def readAmpersand : Text → Ampersand
  | '#' :: rest =>
    let unread : Ampersand :=
      if rest.contains ';' then .uncertain ['&', '#'] rest else .uncertain [] ('&' :: '#' :: rest)
    match readNumber rest with
    | some (n, c :: cs) =>
      if Percent.isHexDigit c then unread else .read [numberedCharacter n] (dropSemicolon (c :: cs))
    | _ => unread
  | c :: cs =>
    if c.isAlpha then
      match readName (c :: cs) with
      | some (name, rest) => .read ((namedCharacters? name).getD ('&' :: name)) rest
      | none => .uncertain [] ('&' :: c :: cs)
    else .read ['&'] (c :: cs)
  | [] => .read ['&'] []

/-! ### In the value of an attribute -/

/-- Whether a number is a control character or a character that stands for nothing; such a
reference is dropped from a value. -/
def isVoidNumber (n : Nat) : Bool :=
  (1 ≤ n && n ≤ 0x1f && n != 9 && n != 10 && n != 12 && n != 13) || n == 0x7f
    || (0xfdd0 ≤ n && n ≤ 0xfdef) || (n ≤ 0x10ffff && n % 0x10000 ≥ 0xfffe)

/-- How many characters of a name in a value are looked at. -/
def maxNameLength : Nat := 32

/-- The longest of the old names at the start of a word, with its length. -/
def openNameIn? (word : Text) : (length : Nat) → Option (Nat × Text)
  | 0 => none
  | length + 1 =>
    let name := word.take (length + 1)
    match if openNames.contains name then namedCharacters? name else none with
    | some characters => some (length + 1, characters)
    | none => openNameIn? word length

/-- The name at the start of a text: its length and what it stands for. -/
def nameInValue? (t : Text) : Option (Nat × Text) :=
  let ends (c : Char) :=
    c == '\t' || c == '\n' || c == '\x0c' || c == ' ' || c == '<' || c == '&' || c == '#' || c == ';'
  let word := (t.takeWhile fun c => !ends c).take maxNameLength
  match (t.drop word.length).head?, namedCharacters? word with
  | some ';', some characters => some (word.length + 1, characters)
  | _, _ => openNameIn? word word.length

/-- The reference at the start of a text: its length and what it stands for. -/
def referenceInValue? : Text → Option (Nat × Text)
  | '&' :: '#' :: rest =>
    (readNumber rest).map fun (n, after) =>
      (rest.length + 2 - (dropSemicolon after).length,
        if isVoidNumber n then [] else [numberedCharacter n])
  | '&' :: rest => (nameInValue? rest).map fun (n, characters) => (n + 1, characters)
  | _ => none

/-- Replaces the references in the value of an attribute. -/
def decodeValue (t : Text) : Text :=
  Text.substitute referenceInValue? t

end Wikitext.Html

/-
  Wikitext/Html/Encoding.lean
  ===========================
  **Encodings of HTML** — reading bytes as text when nobody says how they are encoded.  A
  byte order mark settles that they are UTF-8, and is no part of the text.  Otherwise the
  document may name its encoding itself, near its start; if the bytes do not fit what it
  names, they are UTF-8, and if they are not, they are in the Western encoding of Windows.
-/
import Wikitext.Text.Lowercase
import Wikitext.Text.Utf8
import Wikitext.Text.Windows1252

namespace Wikitext.Html

inductive Encoding where
  | utf8
  | latin1
  | windows1252
deriving DecidableEq, Repr

namespace Encoding

/-- Reads bytes as text, if they are text in the encoding. -/
def decode? (bs : List UInt8) : Encoding → Option Text
  | utf8 => if Utf8.encode (Utf8.decode bs) = bs then some (Utf8.decode bs) else none
  | latin1 => some (bs.map fun b => Char.ofNat b.toNat)
  | windows1252 => Windows1252.decode? bs

/-! ### Names -/

/-- The names of encodings other than UTF-8, in plain form. -/
def names : List (Text × Encoding) :=
  [("latin_1", latin1), ("latin1", latin1), ("latin", latin1), ("l1", latin1), ("8859", latin1),
    ("iso8859", latin1), ("iso8859_1", latin1), ("iso_8859_1", latin1),
    ("iso_8859_1_1987", latin1), ("iso_ir_100", latin1), ("csisolatin1", latin1),
    ("cp819", latin1), ("ibm819", latin1), ("1252", windows1252), ("cp1252", windows1252),
    ("windows_1252", windows1252)].map fun (name, e) => (name.toList, e)

/-- A name in plain form: in small letters, with one low line for whatever separates its
parts. -/
def plainName (name : Text) : Text :=
  let spaced := (Text.lower name).map fun c => if c.isAlphanum || c == '.' then c else ' '
  Text.join ['_'] ((Text.splitOn ' ' spaced).filter (· ≠ []))

/-- The encoding of a name; hyphens may be left out. -/
def ofName? (name : Text) : Option Encoding :=
  match names.lookup (plainName name) with
  | some e => some e
  | none => names.lookup (plainName (name.filter (· != '-')))

/-! ### Declarations -/

/-- White space among ASCII characters. -/
def isPlainSpace (c : Char) : Bool :=
  c == ' ' || ('\t' ≤ c && c ≤ '\r')

/-- Whether a text starts with a word, in letters of either case. -/
def startsWith (word : String) (t : Text) : Bool :=
  Text.lower (t.take word.length) == word.toList

/-- The value after the word `charset`. -/
def charsetValue? (t : Text) : Option Text :=
  match t.dropWhile isPlainSpace with
  | '=' :: rest =>
    let ends (c : Char) := c == ' ' || c == '/' || c == ';' || c == '\'' || c == '"' || c == '>'
    let rest := rest.dropWhile isPlainSpace
    let rest := match rest with
      | c :: cs => if c == '"' || c == '\'' then cs else c :: cs
      | [] => []
    if rest.any ends then some (rest.takeWhile fun c => !ends c) else none
  | _ => none

/-- The last value of `charset` in a tag. -/
def charsetInTag? : Text → Option Text
  | [] => none
  | '>' :: _ => none
  | c :: cs =>
    match charsetInTag? cs with
    | some value => some value
    | none => if startsWith "charset" (c :: cs) then charsetValue? ((c :: cs).drop 7) else none

/-- The name of the encoding that the first fitting `meta` tag gives. -/
def declaredName? : Text → Option Text
  | [] => none
  | c :: cs =>
    let tag := cs.dropWhile isPlainSpace
    let value :=
      if c == '<' && startsWith "meta" tag && (tag.drop 4).head? != some '>' then
        charsetInTag? (tag.drop 5)
      else none
    match value with
    | some value => some value
    | none => declaredName? cs

/-- The value of a quoted `encoding`, if an instruction ends after it. -/
def encodingValue? : Text → Option Text
  | q :: rest =>
    let isQuote (c : Char) := c == '"' || c == '\''
    let value := rest.takeWhile fun c => !isQuote c
    if isQuote q && Text.occurs ['?', '>'] ((rest.drop value.length).drop 1) then some value
    else none
  | [] => none

/-- The last value of `encoding` in a line. -/
def encodingInLine? : Text → Option Text
  | [] => none
  | c :: cs =>
    match encodingInLine? cs with
    | some value => some value
    | none =>
      if startsWith "encoding=" (c :: cs) then encodingValue? ((c :: cs).drop 9) else none

/-- The name of the encoding that an instruction at the start gives. -/
def instructedName? (t : Text) : Option Text :=
  match t.dropWhile isPlainSpace with
  | '<' :: '?' :: rest => encodingInLine? (rest.takeWhile (· != '\n'))
  | _ => none

/-- How many bytes can hold an instruction. -/
def instructionSize : Nat := 1024

/-- How many of so many bytes can hold a `meta` tag with the encoding. -/
def declarationSize (n : Nat) : Nat := max 2048 (n / 20)

/-- The encoding that a document declares: in an instruction, or else in a tag. -/
def declared? (bs : List UInt8) : Option Encoding :=
  let start (n : Nat) : Text := (bs.take n).map fun b => Char.ofNat b.toNat
  ((instructedName? (start instructionSize)).or
    (declaredName? (start (declarationSize bs.length)))).bind ofName?

end Encoding

/-- The bytes that say that UTF-8 follows. -/
def byteOrderMark : List UInt8 := [0xef, 0xbb, 0xbf]

/-- Reads bytes as text. -/
def decode (bs : List UInt8) : Text :=
  let mark := byteOrderMark.isPrefixOf bs
  let bs := if mark then bs.drop 3 else bs
  let declared := if mark then [] else (Encoding.declared? bs).toList
  ((declared ++ [Encoding.utf8, Encoding.windows1252]).findSome? (Encoding.decode? bs)).getD
    (Utf8.decode bs)

end Wikitext.Html

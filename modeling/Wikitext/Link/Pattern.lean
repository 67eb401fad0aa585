/-
  Wikitext/Link/Pattern.lean
  ==========================
  **URL patterns** — regular expressions that find a page title in a URL.  A pattern is
  built from classes of characters, repetition of a class, optional parts, alternatives,
  numbered groups and the two ends of the text.

  `ends` lists every way in which a pattern matches at the front of a text, the preferred
  one first: longer repetitions before shorter ones, the first alternative before the second,
  and an optional part taken before left out.  A search takes the first way at the first place
  that has one.

  `read?` reads what is written in this syntax and refuses everything else: lazy and counted
  repetition, repeated groups, named groups, references, assertions, flags, and a backslash
  before a letter or a digit, which stands for a class or a place.
-/
import Wikitext.Text.Basic

namespace Wikitext

/-- A class of characters: those in some range, or, if `negated`, those in none. -/
structure CharClass where
  negated : Bool
  ranges : List (Char × Char)
deriving DecidableEq, Repr

def CharClass.has (k : CharClass) (c : Char) : Bool :=
  (k.ranges.any fun (lo, hi) => lo ≤ c && c ≤ hi) != k.negated

def CharClass.only (c : Char) : CharClass := ⟨false, [(c, c)]⟩

/-- All characters but the line feed. -/
def CharClass.inLine : CharClass := ⟨true, [('\n', '\n')]⟩

/-- A regular expression. -/
inductive Pattern where
  | empty
  /-- One character of a class. -/
  | one (k : CharClass)
  /-- One or more characters of a class. -/
  | many (k : CharClass)
  /-- A part whose text is kept under a number. -/
  | group (number : Nat) (p : Pattern)
  | optional (p : Pattern)
  | seq (p q : Pattern)
  | either (p q : Pattern)
  /-- The start of the text. -/
  | atStart
  /-- The end of the text, or the line feed that ends it. -/
  | atEnd
deriving DecidableEq, Repr

namespace Pattern

/-- A way to match at the front of a text: what is left, and the texts of the groups that took
part. -/
structure End where
  rest : Text
  groups : List (Nat × Text)
deriving DecidableEq, Repr

/-- The part of `t` before its tail `rest`. -/
def before (t rest : Text) : Text :=
  t.take (t.length - rest.length)

/-- All ways in which a pattern matches at the front of a tail of the text `whole`, preferred
first. -/
def ends (whole : Text) : Pattern → Text → List End
  | empty, t => [⟨t, []⟩]
  | one k, t =>
    match t with
    | [] => []
    | c :: cs => if k.has c then [⟨cs, []⟩] else []
  | many k, t =>
    let n := (t.takeWhile k.has).length
    (List.range n).map fun i => ⟨t.drop (n - i), []⟩
  | group number p, t =>
    (p.ends whole t).map fun e => ⟨e.rest, (number, before t e.rest) :: e.groups⟩
  | optional p, t => p.ends whole t ++ [⟨t, []⟩]
  | seq p q, t =>
    (p.ends whole t).flatMap fun e =>
      (q.ends whole e.rest).map fun e' => ⟨e'.rest, e.groups ++ e'.groups⟩
  | either p q, t => p.ends whole t ++ q.ends whole t
  | atStart, t => if t.length = whole.length then [⟨t, []⟩] else []
  | atEnd, t => if t = [] ∨ t = ['\n'] then [⟨t, []⟩] else []

def hasGroups : Pattern → Bool
  | group _ _ => true
  | optional p => p.hasGroups
  | seq p q => p.hasGroups || q.hasGroups
  | either p q => p.hasGroups || q.hasGroups
  | _ => false

/-- What a pattern finds at the front of a text: its first group, which is missing if that group
took no part, or the whole match of a pattern without groups. -/
def found (p : Pattern) (t : Text) (e : End) : Option Text :=
  if p.hasGroups then e.groups.lookup 1 else some (before t e.rest)

/-- Searches a tail of a text from left to right. -/
def searchFrom (p : Pattern) (whole : Text) : Text → Option Text
  | [] => (p.ends whole []).head?.bind (p.found [])
  | c :: cs =>
    match (p.ends whole (c :: cs)).head? with
    | some e => p.found (c :: cs) e
    | none => p.searchFrom whole cs

def search (p : Pattern) (t : Text) : Option Text :=
  p.searchFrom t t

/-! ### Written patterns -/

/-- The characters that stand for something else unless a backslash is before them. -/
def signs : List Char := ['\\', '.', '^', '$', '*', '+', '?', '\x7b', '[', '(', ')', '|']

/-- Reads a character of a class. -/
def readMember : Text → Option (Char × Text)
  | '\\' :: c :: rest => if c.isAlphanum then none else some (c, rest)
  | '\\' :: [] => none
  | c :: rest => some (c, rest)
  | [] => none

/-- Reads the ranges of a class up to its closing bracket.  Each takes a character at least, so
the length of the text bounds their number. -/
def readRanges : (fuel : Nat) → Text → Option (List (Char × Char) × Text)
  | 0, _ => none
  | _ + 1, ']' :: rest => some ([], rest)
  | fuel + 1, t => do
    let (lo, rest) ← readMember t
    let (hi, rest) ← match rest with
      | '-' :: ']' :: _ => some (lo, rest)
      | '-' :: rest => readMember rest
      | _ => some (lo, rest)
    let (ranges, rest) ← readRanges fuel rest
    if lo ≤ hi then some ((lo, hi) :: ranges, rest) else none

/-- Reads a class after its opening bracket.  A class that starts with a closing bracket is
refused. -/
def readClass (t : Text) : Option (CharClass × Text) :=
  let (negated, t) := match t with
    | '^' :: rest => (true, rest)
    | t => (false, t)
  if t.head? = some ']' then none
  else (readRanges (t.length + 1) t).map fun (ranges, rest) => (⟨negated, ranges⟩, rest)

/-- Reads what stands for one character. -/
def readOne : Text → Option (CharClass × Text)
  | '.' :: rest => some (.inLine, rest)
  | '[' :: rest => readClass rest
  | '\\' :: c :: rest => if c.isAlphanum then none else some (.only c, rest)
  | c :: rest => if signs.contains c then none else some (.only c, rest)
  | [] => none

/-- What has been read of a written pattern: the number of the next group, and what is left. -/
structure Reading where
  pattern : Pattern
  next : Nat
  rest : Text

/-- Closes a group, which may be left out if a question mark follows. -/
def Reading.close (keep : Pattern → Pattern) (r : Reading) : Option (Pattern × Nat × Text) :=
  match r.rest with
  | ')' :: '?' :: rest => some (optional (keep r.pattern), r.next, rest)
  | ')' :: rest => some (keep r.pattern, r.next, rest)
  | _ => none

mutual
/-- Reads alternatives up to the end or a closing parenthesis.  The length of the text bounds
their number and their nesting. -/
def readEither : (fuel : Nat) → (next : Nat) → Text → Option Reading
  | 0, _, _ => none
  | fuel + 1, next, t => do
    let r ← readSeq fuel next t
    match r.rest with
    | '|' :: rest =>
      let r' ← readEither fuel r.next rest
      return { r' with pattern := either r.pattern r'.pattern }
    | _ => return r

/-- Reads a sequence of parts. -/
def readSeq : (fuel : Nat) → (next : Nat) → Text → Option Reading
  | 0, _, _ => none
  | fuel + 1, next, t => do
    let (part, next, rest) ← match t with
      | [] => return ⟨empty, next, t⟩
      | '|' :: _ => return ⟨empty, next, t⟩
      | ')' :: _ => return ⟨empty, next, t⟩
      | '^' :: rest => some (atStart, next, rest)
      | '$' :: rest => some (atEnd, next, rest)
      | '(' :: '?' :: ':' :: rest => (readEither fuel next rest).bind (·.close id)
      | '(' :: '?' :: _ => none
      | '(' :: rest => (readEither fuel (next + 1) rest).bind (·.close (group next))
      | t => (readOne t).map fun (k, rest) => match rest with
        | '+' :: rest => (many k, next, rest)
        | '*' :: rest => (optional (many k), next, rest)
        | '?' :: rest => (optional (one k), next, rest)
        | rest => (one k, next, rest)
    let r ← readSeq fuel next rest
    return { r with pattern := seq part r.pattern }
end

def read? (t : Text) : Option Pattern := do
  let r ← readEither (2 * t.length + 2) 1 t
  if r.rest = [] then some r.pattern else none

end Pattern

end Wikitext

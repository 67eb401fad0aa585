/-
  Wikitext/Text/Basic.lean
  ========================
  **Text as a list of characters** — the content of a document, an attribute
  value or a piece of markup, together with the few operations on it that every
  other module needs: white space, trimming, search, and substitution from left
  to right.

  All passes over text are structural recursions on the list, so that a law about
  one is an induction.  `substitute` is the one search-and-replace of the library:
  it replaces the leftmost spans that do not overlap, and copies all else.
-/

namespace Wikitext

/-- A piece of text. -/
abbrev Text := List Char

namespace Text

/-! ### White space -/

/-- White space of HTML: space, tab, line feed, carriage return, form feed.  A
no-break space is content. -/
def isSpace (c : Char) : Bool :=
  c == ' ' || c == '\t' || c == '\n' || c == '\r' || c == '\x0c'

/-- Horizontal white space: space and tab. -/
def isBlank (c : Char) : Bool :=
  c == ' ' || c == '\t'

/-- Drops the leading characters that satisfy `p`. -/
def trimStart (p : Char → Bool) (t : Text) : Text :=
  t.dropWhile p

/-- Drops the trailing characters that satisfy `p`. -/
def trimEnd (p : Char → Bool) (t : Text) : Text :=
  (t.reverse.dropWhile p).reverse

/-- Drops the characters that satisfy `p` at both ends. -/
def trim (p : Char → Bool) (t : Text) : Text :=
  trimEnd p (trimStart p t)

/-- No character but HTML white space. -/
def isWhite (t : Text) : Bool :=
  t.all isSpace

/-- Collapses the runs of white space; `after` says that the character before was
white space, whose run has its space already. -/
def collapseFrom (after : Bool) : Text → Text
  | [] => []
  | c :: cs =>
    if isSpace c then
      if after then collapseFrom true cs else ' ' :: collapseFrom true cs
    else c :: collapseFrom false cs

/-- Turns every run of HTML white space into one space. -/
def collapse (t : Text) : Text :=
  collapseFrom false t

/-! ### Search -/

def occurs (p : Text) : Text → Bool
  | [] => p.isEmpty
  | c :: cs => p.isPrefixOf (c :: cs) || occurs p cs

/-- The part before the first `c` and, if there is one, the part after it. -/
def cut (c : Char) : Text → Text × Option Text
  | [] => ([], none)
  | d :: ds => if d = c then ([], some ds) else ((d :: (cut c ds).1), (cut c ds).2)

/-- The pieces between the occurrences of `c`: one more than there are
occurrences. -/
def splitOn (c : Char) : Text → List Text
  | [] => [[]]
  | d :: ds =>
    if d = c then [] :: splitOn c ds
    else match splitOn c ds with
      | [] => [[d]]
      | p :: ps => (d :: p) :: ps

/-- Joins pieces with `sep` between neighbours. -/
def join (sep : Text) : List Text → Text
  | [] => []
  | [t] => t
  | t :: ts => t ++ sep ++ join sep ts

theorem splitOn_ne_nil (c : Char) (t : Text) : splitOn c t ≠ [] := by
  cases t with
  | nil => simp [splitOn]
  | cons d ds =>
    simp only [splitOn]
    split
    · simp
    · split <;> simp

/-- Splitting and joining with the same character gives the text back. -/
theorem join_splitOn (c : Char) (t : Text) : join [c] (splitOn c t) = t := by
  induction t with
  | nil => rfl
  | cons d ds ih =>
    simp only [splitOn]
    cases h : splitOn c ds with
    | nil => exact absurd h (splitOn_ne_nil c ds)
    | cons p ps =>
      rw [h] at ih
      by_cases hd : d = c
      · simp [hd, join, ih]
      · cases ps with
        | nil => simp [hd, join] at ih ⊢; exact ih
        | cons q qs => simp [hd, join] at ih ⊢; exact ih

/-! ### Substitution -/

/-- Replaces spans from left to right.  At each place `find` may name the length
of a span that starts there and what replaces it; `skip` characters of the last
span found are still to be passed over. -/
def substituteFrom (find : Text → Option (Nat × Text)) : Nat → Text → Text
  | _, [] => []
  | skip + 1, _ :: cs => substituteFrom find skip cs
  | 0, c :: cs =>
    match find (c :: cs) with
    | some (n + 1, new) => new ++ substituteFrom find n cs
    | _ => c :: substituteFrom find 0 cs

/-- Replaces the leftmost spans that `find` recognises and that do not overlap.  A
span of length zero is none. -/
def substitute (find : Text → Option (Nat × Text)) (t : Text) : Text :=
  substituteFrom find 0 t

def replace (old new t : Text) : Text :=
  substitute (fun rest => if old.isPrefixOf rest then some (old.length, new) else none) t

end Text

end Wikitext

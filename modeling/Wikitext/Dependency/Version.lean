/-
  Wikitext/Dependency/Version.lean
  ================================
  **Versions** — the versions of packages, and the specifiers that they have to satisfy.
  A release is a list of numbers; two are compared as if the shorter one went on with
  zeros.  A version is a release that may be a preview of it or a revision of it, and may
  have a label of its own.  A specifier is a list of comparisons with releases, all of
  which have to hold; a preview satisfies none.
-/
import Wikitext.Text.Blank
import Wikitext.Text.Quoted

namespace Wikitext

/-- A release number, such as 4.12.0. -/
abbrev Release := List Nat

namespace Release

/-- Compares releases; missing numbers are zeros. -/
def compare : Release → Release → Ordering
  | [], [] => .eq
  | [], n :: ns => (Ord.compare 0 n).then (compare [] ns)
  | m :: ms, [] => (Ord.compare m 0).then (compare ms [])
  | m :: ms, n :: ns => (Ord.compare m n).then (compare ms ns)

def number (digits : Text) : Nat :=
  digits.foldl (fun n c => 10 * n + (c.toNat - 0x30)) 0

def readNumber? (t : Text) : Option Nat :=
  if t ≠ [] ∧ t.all Char.isDigit then some (number t) else none

/-- Reads a release: numbers with dots between them. -/
def read? (t : Text) : Option Release :=
  (t.splitOn '.').mapM readNumber?

end Release

/-- The version of an installed package. -/
structure Version where
  /-- A higher epoch is above all releases of a lower one. -/
  epoch : Nat
  release : Release
  /-- Whether it comes before its release. -/
  preview : Bool
  /-- Whether it comes after its release. -/
  revised : Bool
deriving DecidableEq, Repr

namespace Version

/-- Takes digits off the front. -/
def takeDigits (t : Text) : Text × Text :=
  (t.takeWhile Char.isDigit, t.dropWhile Char.isDigit)

/-- Takes further numbers of a release off the front, each after a dot; `fuel` bounds
how many. -/
def takeNumbers : (fuel : Nat) → Text → Release × Text
  | 0, t => ([], t)
  | fuel + 1, t =>
    match t with
    | '.' :: rest =>
      match takeDigits rest with
      | ([], _) => ([], t)
      | (digits, rest) =>
        let (numbers, rest) := takeNumbers fuel rest
        (Release.number digits :: numbers, rest)
    | _ => ([], t)

/-- Drops one mark that may stand between the parts of a version. -/
def dropMark : Text → Text
  | [] => []
  | c :: rest => if c == '-' || c == '_' || c == '.' then rest else c :: rest

/-- Takes a word and its number off the front, if one of the words is there; marks may
stand before both. -/
def takeWord (words : List Text) (t : Text) : Bool × Text :=
  match words.find? fun word => word.isPrefixOf (dropMark t) with
  | some word => (true, (takeDigits (dropMark ((dropMark t).drop word.length))).2)
  | none => (false, t)

/-- The words of a version before its release. -/
def earlyWords : List Text :=
  ["alpha", "a", "beta", "b", "preview", "pre", "c", "rc"].map String.toList

/-- The words of a version after its release. -/
def lateWords : List Text :=
  ["post", "rev", "r"].map String.toList

/-- Takes a revision off the front: a number after a hyphen, or a word. -/
def takeRevision (t : Text) : Bool × Text :=
  match t with
  | '-' :: c :: rest =>
    if c.isDigit then (true, (takeDigits (c :: rest)).2) else takeWord lateWords t
  | _ => takeWord lateWords t

/-- Whether a text is a label: letters and digits, with single marks between them. -/
def isLabel (t : Text) : Bool :=
  let parts := (t.map fun c => if c == '-' || c == '_' then '.' else c).splitOn '.'
  parts.all fun part => part != [] && part.all fun c => c.isDigit || c.isLower

/-- Takes an epoch off the front; without one it is zero. -/
def takeEpoch (t : Text) : Nat × Text :=
  match takeDigits t with
  | (c :: cs, '!' :: rest) => (Release.number (c :: cs), rest)
  | _ => (0, t)

/-- Reads a version in small letters. -/
def readLower? (t : Text) : Option Version :=
  let (epoch, t) := takeEpoch (match t with
    | 'v' :: rest => rest
    | _ => t)
  match takeDigits t with
  | ([], _) => none
  | (digits, t) =>
    let (numbers, t) := takeNumbers t.length t
    let (early, t) := takeWord earlyWords t
    let (revised, t) := takeRevision t
    let (unfinished, t) := takeWord ["dev".toList] t
    let ended := match t with
      | [] => true
      | '+' :: label => isLabel label
      | _ => false
    if ended then
      some ⟨epoch, Release.number digits :: numbers, early || unfinished, revised⟩
    else none

/-- Reads a version; white space may stand around it. -/
def read? (t : Text) : Option Version :=
  readLower? ((t.trim Text.isWideSpace).map Char.toLower)

def compare (v : Version) (bound : Release) : Ordering :=
  (Ord.compare v.epoch 0).then (v.release.compare bound)

end Version

/-- A way to compare a release with another. -/
inductive Comparison where
  | atLeast
  | atMost
  | above
  | below
  | same
  | other
deriving DecidableEq, Repr

namespace Comparison

/-- The written form of a comparison. -/
def symbol : Comparison → Text
  | atLeast => ['>', '=']
  | atMost => ['<', '=']
  | above => ['>']
  | below => ['<']
  | same => ['=', '=']
  | other => ['!', '=']

/-- All comparisons; a symbol that another one starts with comes later than that
one. -/
def all : List Comparison := [atLeast, atMost, same, other, above, below]

/-- Whether a comparison admits an order of the two releases. -/
def admits : Comparison → Ordering → Bool
  | atLeast, o => o != .lt
  | atMost, o => o != .gt
  | above, o => o == .gt
  | below, o => o == .lt
  | same, o => o == .eq
  | other, o => o != .eq

end Comparison

/-- Comparisons that all have to hold. -/
abbrev Specifier := List (Comparison × Release)

namespace Specifier

/-- Reads one comparison; white space may stand around its parts. -/
def readOne? (t : Text) : Option (Comparison × Release) := do
  let c ← Comparison.all.find? fun c => c.symbol.isPrefixOf t
  let r ← Release.read? (Text.trimStart Text.isWideSpace (t.drop c.symbol.length))
  return (c, r)

/-- Reads a specifier: comparisons with commas between them.  Nothing between two commas
counts as nothing. -/
def read? (t : Text) : Option Specifier :=
  (((t.splitOn ',').map (Text.trim Text.isWideSpace)).filter (· ≠ [])).mapM readOne?

/-- Whether a version satisfies a specifier.  A revision is above its release, but not so
far that `>` counts it. -/
def accepts (s : Specifier) (v : Version) : Bool :=
  !v.preview && s.all fun (c, bound) =>
    let order := v.compare bound
    c.admits (if order == .eq && v.revised && c != .above then .gt else order)

end Specifier

end Wikitext

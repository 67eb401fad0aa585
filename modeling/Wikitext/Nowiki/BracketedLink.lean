/-
  Wikitext/Nowiki/BracketedLink.lean
  ==================================
  **Bracketed links** — a literal `[scheme:address label]` in plain text.  Such a span
  starts at a bracket that a known scheme, a colon and one character of an address
  follow, and ends at the first closing bracket, if no control character comes before
  it.
-/
import Wikitext.Text.Basic

namespace Wikitext.BracketedLink

/-- The schemes of addresses that wiki markup recognises. -/
def schemes : List Text :=
  ["http", "https", "ftp", "irc", "gopher", "news", "mailto"].map String.toList

def isControl (c : Char) : Bool :=
  c.toNat < 0x20 || c.toNat == 0x7f

def isAddressChar (c : Char) : Bool :=
  !(isControl c || c == ' ' || c == ']' || c == '<' || c == '>' || c == '"')

/-- The number of characters up to and with the first closing bracket, if no control
character comes before it. -/
def closing? : Text → Option Nat
  | [] => none
  | c :: cs =>
    if c = ']' then some 1
    else if isControl c then none
    else (closing? cs).map (· + 1)

/-- The length of what follows the colon of a scheme. -/
def body? : Text → Option Nat
  | [] => none
  | c :: cs => if isAddressChar c then (closing? cs).map (· + 1) else none

/-- The length of the bracketed link at the start of a text. -/
def length? : Text → Option Nat
  | '[' :: rest =>
    schemes.findSome? fun s =>
      if (s ++ [':']).isPrefixOf rest then
        (body? (rest.drop (s.length + 1))).map (· + (s.length + 2))
      else none
  | _ => none

end Wikitext.BracketedLink

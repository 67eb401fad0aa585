/-
  Wikitext/Text/Percent.lean
  ==========================
  **Percent encoding** — page titles in URLs.  `decode` reads `%` and two hexadecimal
  digits as a byte; the bytes of each longest run of ASCII characters are read together
  as UTF-8, so a character beyond ASCII that stands unencoded ends what is before it.
  `encode` writes every byte except those of unreserved characters.
-/
import Wikitext.Text.Utf8

namespace Wikitext.Percent

/-- The value of a hexadecimal digit of either case. -/
def hexValue? (c : Char) : Option Nat :=
  if '0' ≤ c ∧ c ≤ '9' then some (c.toNat - 0x30)
  else if 'a' ≤ c ∧ c ≤ 'f' then some (c.toNat - 0x57)
  else if 'A' ≤ c ∧ c ≤ 'F' then some (c.toNat - 0x37)
  else none

/-- A hexadecimal digit of either case. -/
def isHexDigit (c : Char) : Bool :=
  (hexValue? c).isSome

/-- The bytes of a run of ASCII characters.  A `%` without two digits is itself. -/
def bytes : Text → List UInt8
  | [] => []
  | [c] => [UInt8.ofNat c.toNat]
  | [c, d] => [UInt8.ofNat c.toNat, UInt8.ofNat d.toNat]
  | c :: d :: e :: rest =>
    match c == '%', hexValue? d, hexValue? e with
    | true, some x, some y => UInt8.ofNat (16 * x + y) :: bytes rest
    | _, _, _ => UInt8.ofNat c.toNat :: bytes (d :: e :: rest)

/-- Decodes a text; `run` is the run of ASCII characters before it, in reverse. -/
def decodeFrom (run : Text) : Text → Text
  | [] => Utf8.decode (bytes run.reverse)
  | c :: cs =>
    if c.toNat < 0x80 then decodeFrom (c :: run) cs
    else Utf8.decode (bytes run.reverse) ++ c :: decodeFrom [] cs

/-- Decodes the percent escapes of a text. -/
def decode (t : Text) : Text :=
  decodeFrom [] t

/-- The characters that are never encoded: letters and digits of ASCII, and
`. _ ~ -`. -/
def isUnreserved (n : Nat) : Bool :=
  (0x30 ≤ n && n ≤ 0x39) || (0x41 ≤ n && n ≤ 0x5a) || (0x61 ≤ n && n ≤ 0x7a)
    || n == 0x2e || n == 0x5f || n == 0x7e || n == 0x2d

/-- The capital hexadecimal digit of a number below sixteen. -/
def capitalDigit (n : Nat) : Char :=
  if n < 10 then Char.ofNat (0x30 + n) else Char.ofNat (0x37 + n)

/-- A byte, encoded where it has to be. -/
def encodeByte (b : UInt8) : Text :=
  if isUnreserved b.toNat then [Char.ofNat b.toNat]
  else ['%', capitalDigit (b.toNat / 16), capitalDigit (b.toNat % 16)]

/-- Encodes the UTF-8 bytes of a text. -/
def encode (t : Text) : Text :=
  (Utf8.encode t).flatMap encodeByte

end Wikitext.Percent

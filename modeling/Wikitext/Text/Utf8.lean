/-
  Wikitext/Text/Utf8.lean
  =======================
  **UTF-8** — reading bytes as text without ever failing, and writing text as bytes.
  Where the bytes are not UTF-8, each longest piece that could have begun a character
  is read as one replacement character, U+FFFD.

  The reader is a machine over single bytes: it is either between characters or inside
  one, and then knows how many bytes are missing and in which range the next one has to
  lie.  The ranges exclude overlong forms and surrogates at the second byte.
-/
import Wikitext.Text.Basic

namespace Wikitext.Utf8

/-- What stands for bytes that are no text. -/
def replacement : Char := '\ufffd'

/-- A character that is being read: the number of bytes that are missing, the range
of the next byte, and the number read so far. -/
structure Unfinished where
  missing : Nat
  low : Nat
  high : Nat
  value : Nat
deriving DecidableEq, Repr

/-- What a byte between characters gives: a text, or the start of a character. -/
def start (b : Nat) : Text × Option Unfinished :=
  if b < 0x80 then ([Char.ofNat b], none)
  else if b < 0xc2 then ([replacement], none)
  else if b < 0xe0 then ([], some ⟨1, 0x80, 0xbf, b - 0xc0⟩)
  else if b = 0xe0 then ([], some ⟨2, 0xa0, 0xbf, 0⟩)
  else if b = 0xed then ([], some ⟨2, 0x80, 0x9f, 13⟩)
  else if b < 0xf0 then ([], some ⟨2, 0x80, 0xbf, b - 0xe0⟩)
  else if b = 0xf0 then ([], some ⟨3, 0x90, 0xbf, 0⟩)
  else if b < 0xf4 then ([], some ⟨3, 0x80, 0xbf, b - 0xf0⟩)
  else if b = 0xf4 then ([], some ⟨3, 0x80, 0x8f, 4⟩)
  else ([replacement], none)

/-- One byte.  A byte that cannot continue the unfinished character ends it, and is
then read on its own. -/
def step : Option Unfinished → Nat → Text × Option Unfinished
  | none, b => start b
  | some u, b =>
    if u.low ≤ b ∧ b ≤ u.high then
      let value := u.value * 64 + (b - 0x80)
      if u.missing ≤ 1 then ([Char.ofNat value], none)
      else ([], some ⟨u.missing - 1, 0x80, 0xbf, value⟩)
    else
      let (t, s) := start b
      (replacement :: t, s)

/-- Reads bytes from a state. -/
def decodeFrom : Option Unfinished → List UInt8 → Text
  | none, [] => []
  | some _, [] => [replacement]
  | s, b :: bs => (step s b.toNat).1 ++ decodeFrom (step s b.toNat).2 bs

/-- Reads bytes as text. -/
def decode (bs : List UInt8) : Text :=
  decodeFrom none bs

def encodeChar (c : Char) : List UInt8 :=
  let n := c.toNat
  if n < 0x80 then [UInt8.ofNat n]
  else if n < 0x800 then [UInt8.ofNat (0xc0 + n / 64), UInt8.ofNat (0x80 + n % 64)]
  else if n < 0x10000 then
    [UInt8.ofNat (0xe0 + n / 4096), UInt8.ofNat (0x80 + n / 64 % 64), UInt8.ofNat (0x80 + n % 64)]
  else
    [UInt8.ofNat (0xf0 + n / 262144), UInt8.ofNat (0x80 + n / 4096 % 64),
      UInt8.ofNat (0x80 + n / 64 % 64), UInt8.ofNat (0x80 + n % 64)]

def encode (t : Text) : List UInt8 :=
  t.flatMap encodeChar

end Wikitext.Utf8

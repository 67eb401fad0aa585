/-
  Wikitext/Url/Host.lean
  ======================
  **Hosts** — the part of a URL between its two slashes and its path.  Nearly any text is
  a host.  Square brackets are for one thing only: they hold an address of the Internet
  Protocol, version 6 or of a version to come.  A character that would turn into a
  delimiter of a URL when it is brought into compatible form is refused.
-/
import Wikitext.Text.Percent
import Wikitext.Text.Quoted

namespace Wikitext

/-- Why a reference cannot be read. -/
inductive UrlError where
  /-- The host has one kind of bracket only, or text beside its brackets. -/
  | misplacedBracket
  /-- The address in brackets is of a version to come, and is not written as such. -/
  | futureAddress
  /-- The address in brackets is of version 4, which has none. -/
  | bracketedVersionFour
  /-- What should be an address is none. -/
  | noAddress (t : Text)
  /-- The host has a character that stands for a delimiter. -/
  | deceptiveHost (host : Text)
  /-- The reference is to be resolved against a value that is no text. -/
  | unusableBase
deriving DecidableEq, Repr

def UrlError.message : UrlError → Text
  | misplacedBracket => "Invalid IPv6 URL".toList
  | futureAddress => "IPvFuture address is invalid".toList
  | bracketedVersionFour => "An IPv4 address cannot be in brackets".toList
  | noAddress t => t.quoted ++ " does not appear to be an IPv4 or IPv6 address".toList
  | deceptiveHost host =>
    "netloc '".toList ++ host ++ "' contains invalid characters under NFKC normalization".toList
  | unusableBase => "Cannot mix str and non-str arguments".toList

namespace Host

/-! ### Addresses -/

/-- A number from 0 to 255 in decimal, without a leading zero. -/
def isOctet (t : Text) : Bool :=
  !t.isEmpty && t.all Char.isDigit && t.length ≤ 3 && (t == ['0'] || t.head? != some '0')
    && t.foldl (fun n c => 10 * n + (c.toNat - 0x30)) 0 ≤ 255

/-- An address of version 4: four numbers between full stops. -/
def isVersionFour (t : Text) : Bool :=
  let octets := t.splitOn '.'
  octets.length == 4 && octets.all isOctet

/-- A group of an address of version 6: up to four hexadecimal digits. -/
def isGroup (t : Text) : Bool :=
  !t.isEmpty && t.all Percent.isHexDigit && t.length ≤ 4

/-- The groups of an address; an address of version 4 at its end stands for two. -/
def groups (t : Text) : List Text :=
  let parts := t.splitOn ':'
  match parts.getLast? with
  | some last => if isVersionFour last then parts.dropLast ++ [['0'], ['0']] else parts
  | none => parts

/-- The groups on one side of a gap.  A gap at the very start or end of an address leaves
an empty part there. -/
def beside (parts : List Text) : List Text :=
  if parts = [[]] then [] else parts

/-- Whether groups form an address: eight of them, or fewer with one gap, an empty part
that is neither the first nor the last. -/
def areGroups (parts : List Text) : Bool :=
  match parts.tail.dropLast.findIdx? (·.isEmpty) with
  | some i =>
    let before := beside (parts.take (i + 1))
    let after := beside (parts.drop (i + 2))
    before.all isGroup && after.all isGroup && before.length + after.length < 8
  | none => parts.length == 8 && parts.all isGroup

/-- An address of version 6, with the name of a zone after a percent sign or without. -/
def isVersionSix (t : Text) : Bool :=
  match t.cut '%' with
  | (address, none) => areGroups (groups address)
  | (address, some zone) => areGroups (groups address) && !zone.isEmpty && !zone.contains '%'

/-- An address of a version to come: the version in hexadecimal digits after a `v`, and
something after a full stop. -/
def isFutureAddress (t : Text) : Bool :=
  match t.cut '.' with
  | ('v' :: version, some rest) => !version.isEmpty && version.all Percent.isHexDigit && !rest.isEmpty
  | _ => false

/-- Checks what stands between brackets. -/
def checkAddress (t : Text) : Except UrlError Unit :=
  if t.head? = some 'v' then if isFutureAddress t then .ok () else .error .futureAddress
  else if isVersionFour t then .error .bracketedVersionFour
  else if isVersionSix t then .ok ()
  else .error (.noAddress t)

/-! ### Brackets -/

/-- The host without what stands before its last `@`. -/
def withoutUser (host : Text) : Text :=
  (host.splitOn '@').getLast?.getD []

/-- Checks a host that has brackets of both kinds.  They may stand before the `@` only;
then what is after it has to be an address all the same. -/
def checkBrackets (host : Text) : Except UrlError Unit :=
  match (withoutUser host).cut '[' with
  | ([], some t) =>
    match t.cut ']' with
    | (address, some (c :: _)) => if c = ':' then checkAddress address else .error .misplacedBracket
    | (address, _) => checkAddress address
  | (_, some _) => .error .misplacedBracket
  | (t, none) => checkAddress (t.cut ':').1

/-- The characters that become a delimiter of a URL, or contain one, when they are
brought into compatible form. -/
def deceptiveChars : List Nat :=
  [0x2048, 0x2049, 0x2047, 0x2100, 0x2101, 0x2105, 0x2106, 0x2a74, 0xfe13, 0xfe16, 0xfe55, 0xfe56,
    0xfe5f, 0xfe6b, 0xff03, 0xff0f, 0xff1a, 0xff1f, 0xff20]

def check (host : Text) : Except UrlError Unit := do
  if host.contains '[' then
    if host.contains ']' then checkBrackets host else throw .misplacedBracket
  else if host.contains ']' then throw .misplacedBracket
  if host.any fun c => deceptiveChars.contains c.toNat then throw (.deceptiveHost host)

end Host

end Wikitext

/-
  Wikitext/Url/Basic.lean
  =======================
  **URLs as their parts** — reading a reference into scheme, host, path, parameters,
  query and fragment, and writing the parts back.  An absent part is an empty one.

  Reading is lenient: any text is a reference, except that its host may be refused
  (`Wikitext.Url.Host`).
-/
import Wikitext.Url.Host

namespace Wikitext

/-- The parts of a reference. -/
structure Url where
  scheme : Text
  host : Text
  path : Text
  parameters : Text
  query : Text
  fragment : Text
deriving DecidableEq, Repr

namespace Url

/-! ### Schemes -/

/-- The schemes whose references are resolved against a base. -/
def relativeSchemes : List Text :=
  ["", "ftp", "http", "gopher", "nntp", "imap", "wais", "file", "https", "shttp", "mms",
    "prospero", "rtsp", "rtspu", "sftp", "svn", "svn+ssh", "ws", "wss"].map String.toList

/-- The schemes whose URLs have a host. -/
def hostSchemes : List Text :=
  ["", "ftp", "http", "gopher", "nntp", "telnet", "imap", "wais", "file", "mms", "https",
    "shttp", "snews", "prospero", "rtsp", "rtspu", "rsync", "svn", "svn+ssh", "sftp", "nfs",
    "git", "git+ssh", "ws", "wss"].map String.toList

/-- The schemes whose paths have parameters. -/
def parameterSchemes : List Text :=
  ["", "ftp", "hdl", "prospero", "http", "imap", "https", "shttp", "rtsp", "rtspu", "sip",
    "sips", "mms", "sftp", "tel"].map String.toList

def isSchemeChar (c : Char) : Bool :=
  c.isAlphanum || c == '+' || c == '-' || c == '.'

/-! ### Reading -/

/-- Drops what no reference keeps: control characters and spaces in front, and tabs and
line ends anywhere. -/
def clean (t : Text) : Text :=
  (t.dropWhile (·.toNat ≤ 0x20)).filter fun c => !(c == '\t' || c == '\r' || c == '\n')

/-- Takes the scheme off the front; without one the scheme is `base`. -/
def takeScheme (base t : Text) : Text × Text :=
  match t.cut ':' with
  | (s, some rest) =>
    if s.head?.any Char.isAlpha && s.all isSchemeChar then (s.map Char.toLower, rest) else (base, t)
  | (_, none) => (base, t)

/-- Takes the host off the front, if two slashes announce one. -/
def takeHost : Text → Text × Text
  | '/' :: '/' :: rest =>
    let inHost (c : Char) := !(c == '/' || c == '?' || c == '#')
    (rest.takeWhile inHost, rest.dropWhile inHost)
  | t => ([], t)

/-- Takes the part after a mark off the end. -/
def takeAfter (mark : Char) (t : Text) : Text × Text :=
  ((t.cut mark).1, (t.cut mark).2.getD [])

/-- Takes the parameters off the last segment of a path. -/
def takeParameters (path : Text) : Text × Text :=
  let segments := path.splitOn '/'
  let (last, parameters) := takeAfter ';' (segments.getLast?.getD [])
  (Text.join ['/'] (segments.dropLast ++ [last]), parameters)

/-- Reads a reference; without a scheme of its own it has the scheme `base`. -/
def read (base : Text) (t : Text) : Except UrlError Url := do
  let (scheme, t) := takeScheme base (clean t)
  let (host, t) := takeHost t
  Host.check host
  let (t, fragment) := takeAfter '#' t
  let (t, query) := takeAfter '?' t
  let (path, parameters) := if parameterSchemes.contains scheme then takeParameters t else (t, [])
  return { scheme, host, path, parameters, query, fragment }

/-! ### Writing -/

/-- A part with the mark that sets it off, or nothing. -/
def after (mark : Char) (part : Text) : Text :=
  if part = [] then [] else mark :: part

/-- Writes the parts as a reference. -/
def write (u : Url) : Text :=
  let path := u.path ++ after ';' u.parameters
  let rooted := if path.isEmpty || path.head? == some '/' then path else '/' :: path
  let hasHost := !u.host.isEmpty
    || (!u.scheme.isEmpty && hostSchemes.contains u.scheme && !(List.isPrefixOf ['/', '/'] path))
  let place := if hasHost then ['/', '/'] ++ u.host ++ rooted else path
  (if u.scheme = [] then [] else u.scheme ++ [':']) ++ place
    ++ after '?' u.query ++ after '#' u.fragment

/-! ### File names -/

/-- The last segment of a path, trailing slashes aside. -/
def fileName (path : Text) : Text :=
  ((path.trimEnd (· == '/')).splitOn '/').getLast?.getD []

end Url

end Wikitext

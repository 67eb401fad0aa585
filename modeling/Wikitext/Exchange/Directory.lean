/-
  Wikitext/Exchange/Directory.lean
  ================================
  **Directories** — the files that a conversion reads and writes, by their places, and what
  can go wrong with them.  A path is followed segment by segment; each place on the way has
  to be a folder, also if the path turns back from it.  A device stands where a file could
  stand: it can be written to, and is no file that can be read.
-/
import Wikitext.Exchange.Path
import Wikitext.Text.Quoted
import Wikitext.Text.Utf8

namespace Wikitext

/-- What goes wrong with a file. -/
inductive FileError where
  /-- The file, or a folder on the way to it, does not exist. -/
  | missing (path : Text)
  /-- A file stands where a folder is needed. -/
  | noFolder (path : Text)
  /-- A folder stands where a file is needed. -/
  | folder (path : Text)
  /-- The path, or a segment of it, has too many bytes. -/
  | tooLong (path : Text)
  /-- There is no room for what is written. -/
  | full
  /-- A text with a null character is no path. -/
  | null
deriving DecidableEq, Repr

def FileError.message : FileError → Text
  | missing path => "[Errno 2] No such file or directory: ".toList ++ path.quoted
  | noFolder path => "[Errno 20] Not a directory: ".toList ++ path.quoted
  | folder path => "[Errno 21] Is a directory: ".toList ++ path.quoted
  | tooLong path => "[Errno 36] File name too long: ".toList ++ path.quoted
  | full => "[Errno 28] No space left on device".toList
  | null => "embedded null byte".toList

/-- What can be written to and is no file. -/
inductive Device where
  /-- One that takes whatever is written. -/
  | sink
  /-- One that has no room. -/
  | full
deriving DecidableEq, Repr

/-- Files with their contents, folders, and devices.  What was written to a device counts
as the content of its place. -/
structure Directory where
  files : List (Place × List UInt8)
  folders : List Place
  devices : List (Place × Device)
deriving DecidableEq, Repr

namespace Directory

/-- A directory without anything. -/
def empty : Directory := ⟨[], [], []⟩

/-- The folders that every system has at its root. -/
def systemFolders : List Place :=
  ["bin", "dev", "etc", "home", "lib", "mnt", "opt", "root", "run", "sbin", "tmp", "usr",
    "var"].map fun name => Path.place ('/' :: name.toList)

def systemDevices : List (Place × Device) :=
  [("null", .sink), ("zero", .sink), ("full", .full)].map fun (name, device) =>
    (Path.place ("/dev/".toList ++ String.toList name), device)

/-- A directory with the given files and the folders that these need, on a system with
nothing else of its own but what every system has. -/
def ofFiles (files : List (Text × List UInt8)) : Directory :=
  let files := files.map fun (path, content) => (Path.place path, content)
  ⟨files, (files.flatMap fun (place, _) => place.above) ++ systemFolders, systemDevices⟩

def contentAt? (d : Directory) (p : Place) : Option (List UInt8) :=
  (d.files.find? (·.1 == p)).map (·.2)

def deviceAt? (d : Directory) (p : Place) : Option Device :=
  (d.devices.find? (·.1 == p)).map (·.2)

def isFolder (d : Directory) (p : Place) : Bool :=
  p.isStart || d.folders.contains p

/-- Follows segments from a place.  The error is made from the path `path`. -/
def follow (d : Directory) (path : Text) (here : Place) : List Text → Except FileError Place
  | [] => .ok here
  | s :: rest =>
    if d.isFolder here then
      if (Utf8.encode s).length > Path.segmentLimit then .error (.tooLong path)
      else d.follow path (here.enter s) rest
    else if (d.contentAt? here).isSome || (d.deviceAt? here).isSome then .error (.noFolder path)
    else .error (.missing path)

/-- What a path leads to. -/
def find (d : Directory) (path : Text) : Except FileError Place :=
  let plain := Path.plain path
  if Path.hasNull plain then .error .null
  else if (Utf8.encode plain).length > Path.limit then .error (.tooLong plain)
  else d.follow plain (Path.start path) (Path.segments path)

/-- The content of the file that a path leads to.  There is none where no file is, but it
is an error to ask with a path that is too long. -/
def read (d : Directory) (path : Text) : Except FileError (Option (List UInt8)) :=
  match d.find path with
  | .ok p => .ok (if (d.deviceAt? p).isSome then none else d.contentAt? p)
  | .error (.tooLong path) => .error (.tooLong path)
  | .error _ => .ok none

/-- The content of the file that a path leads to, where there is one. -/
def content? (d : Directory) (path : Text) : Option (List UInt8) :=
  match d.read path with
  | .ok content => content
  | .error _ => none

/-- Stores a content: in the place of the one before, or as a new file. -/
def put (files : List (Place × List UInt8)) (place : Place) (content : List UInt8) :
    List (Place × List UInt8) :=
  match files with
  | [] => [(place, content)]
  | (p, c) :: rest => if p = place then (p, content) :: rest else (p, c) :: put rest place content

def write (d : Directory) (path : Text) (content : List UInt8) : Except FileError Directory := do
  let p ← d.find path
  if d.isFolder p then throw (.folder (Path.plain path))
  if d.deviceAt? p = some .full ∧ content ≠ [] then throw .full
  return { d with files := put d.files p content }

/-- Adds text to the end of a file, which may be a new one.  What a path turns back from
need not exist. -/
def append (d : Directory) (path content : Text) : Except FileError Directory := do
  let path := (Path.place path).path
  let p ← d.find path
  d.write path ((d.contentAt? p).getD [] ++ Utf8.encode content)

end Directory

end Wikitext

/-
  Wikitext/Exchange/Source.lean
  =============================
  **Sources** — what a conversion can start from: a document, or HTML that is given as
  text or bytes, in a file or by a stream.  A document is taken as it is; for anything else
  the reader has to be installed, and the source has to be readable.
-/
import Wikitext.Dependency.Basic
import Wikitext.Exchange.Directory
import Wikitext.Html.Encoding
import Wikitext.Html.Reader
import Wikitext.Options.Basic

namespace Wikitext

/-- What a conversion starts from. -/
inductive Source where
  | document (nodes : List Node)
  /-- HTML as text. -/
  | html (t : Text)
  /-- HTML as bytes. -/
  | bytes (bs : List UInt8)
  /-- A file that does not exist. -/
  | missingFile (path : Text)
  /-- A stream that gives an error. -/
  | brokenStream (reason : Text)
  /-- A value that is no source, by the name of its kind. -/
  | unsupported (kindName : Text)

/-- Why a source cannot be read. -/
inductive SourceError where
  | file (path : Text) (e : FileError)
  | stream (reason : Text)
  | unsupported (kindName : Text)
  | dependency (e : DependencyFault)
deriving DecidableEq, Repr

def DependencyFault.message : DependencyFault → Text
  | unmet e => e.message
  | unreadable e => e.message

def SourceError.message : SourceError → Text
  | file path e => "Could not read HTML file ".toList ++ path ++ [':', ' '] ++ e.message
  | stream reason => "Could not read HTML stream: ".toList ++ reason
  | unsupported kindName => "Unsupported HTML source type: ".toList ++ kindName
  | dependency e => e.message

namespace Source

/-- The packages that a reader needs. -/
def requirements : HtmlReader → List Requirement
  | .plain => []
  | .lxml => [⟨"lxml".toList, "lxml".toList, []⟩]
  | .html5lib => [⟨"html5lib".toList, "html5lib".toList, []⟩]

/-- The component that the packages are for. -/
def component : Text := "html".toList

/-- The error for a reader that nobody knows. -/
def unknownReader (name : Text) : DependencyError :=
  DependencyError.make component [(name, [])] [] [] <| some <|
    "BeautifulSoup tree builder '".toList ++ name ++
      "' is not available: Couldn't find a tree builder with the features you requested: ".toList
      ++ name ++ ". Do you need to install a parser library?".toList

/-- The text of a source that is no document. -/
def text : Source → Except SourceError Text
  | document _ => .ok []
  | html t => .ok t
  | bytes bs => .ok (Html.decode bs)
  | missingFile path => .error (.file path (.missing path))
  | brokenStream reason => .error (.stream reason)
  | unsupported kindName => .error (.unsupported kindName)

/-- Loads a source with the reader of a given name, where no further packages are
installed. -/
def load (readerName : String) : Source → Except SourceError (List Node)
  | document nodes => .ok nodes
  | source =>
    match HtmlReader.ofName? readerName with
    | some reader =>
      match Installed.check ⟨[], []⟩ component (requirements reader) with
      | .error e => .error (.dependency e)
      | .ok () => source.text.map Html.read
    | none => do
      let _ ← source.text
      .error (.dependency (.unmet (unknownReader readerName.toList)))

end Source

end Wikitext

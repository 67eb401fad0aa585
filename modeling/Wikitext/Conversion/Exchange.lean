/-
  Wikitext/Conversion/Exchange.lean
  =================================
  **From source to destination** — the whole way of a conversion: its options are made, the
  source is loaded and converted, and the markup is written.
-/
import Wikitext.Conversion.Basic
import Wikitext.Dialect.MediaWiki
import Wikitext.Failure

namespace Wikitext

/-- Options that a caller hands over, of either kind. -/
inductive GivenOptions where
  | common (o : CommonOptions)
  | mediaWiki (o : Options)

namespace GivenOptions

def kind : GivenOptions → OptionsKind
  | common _ => .common
  | mediaWiki _ => .mediaWiki

/-- The settings that every dialect has. -/
def shared : GivenOptions → CommonOptions
  | common o => o
  | mediaWiki o => o.toCommonOptions

/-- The options, if they are those of the MediaWiki dialect. -/
def forMediaWiki : GivenOptions → Except Failure Options
  | mediaWiki o => .ok o
  | common _ =>
    .error (.optionsKind "mediawiki".toList OptionsKind.mediaWiki.name.toList
      OptionsKind.common.name.toList)

def make (kind : OptionsKind) (settings : Settings) : Except OptionsError GivenOptions :=
  match kind with
  | .common => (CommonOptions.make settings).map common
  | .mediaWiki => (Options.make settings).map mediaWiki

/-- Options with some values changed. -/
def update (o : GivenOptions) (settings : Settings) : Except OptionsError GivenOptions :=
  match o with
  | common o => (o.update settings).map common
  | mediaWiki o => (o.update settings).map mediaWiki

end GivenOptions

/-- Options with single settings on top.  A setting that is no option is passed over; if
none is left, the options are taken as they are. -/
def Options.override (given : Option GivenOptions) (settings : Settings) :
    Except Failure Options := do
  let settings := settings.restrict .mediaWiki
  match given with
  | none => (Options.make settings).mapError .options
  | some given =>
    let o ← given.forMediaWiki
    if settings.isEmpty then .ok o else (o.update settings).mapError .options

namespace Session

def convertSource (s : Session) (source : Source) : Report Failure Text := do
  let document ← Report.ofExcept ((source.load s.options.reader.name).mapError .source)
  (s.convert document).mapError .url

/-- Converts the part of a document at a path of child numbers; the empty path is that of
the document.  A text or special string is HTML of its own. -/
def convertPart (s : Session) (document : List Node) (path : List Nat) : Report Failure Text :=
  match path, Node.focus? document path with
  | [], _ => s.convertSource (.document document)
  | _, some (around, .element name attributes children) =>
    (s.convertElement around name attributes children).mapError .url
  | _, some (_, .text content _) => s.convertSource (.html content)
  | _, some (_, .special _ content) => s.convertSource (.html content)
  | _, none => s.convertSource (.document [])

/-- Loads a source, converts it, and writes the markup to a destination, if there is
one. -/
def convertTo (s : Session) (source : Source) (destination : Option Destination) :
    Report Failure (Text × Option Delivery) := do
  let t ← s.convertSource source
  match destination with
  | none => return (t, none)
  | some destination =>
    let delivery ← Report.ofExcept ((destination.write t).mapError .destination)
    return (t, some delivery)

end Session

def toMediaWiki (source : Source) (given : Option GivenOptions) (settings : Settings)
    (destination : Option Destination) : Report Failure (Text × Option Delivery) := do
  let options ← Report.ofExcept (Options.override given settings)
  (Session.mediaWiki options).convertTo source destination

end Wikitext

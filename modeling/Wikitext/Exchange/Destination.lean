/-
  Wikitext/Exchange/Destination.lean
  ==================================
  **Destinations** — where finished markup goes: a file, or a stream of bytes or of text.
  Bytes are the UTF-8 of the markup.
-/
import Wikitext.Exchange.Directory

namespace Wikitext

/-- Where markup goes. -/
inductive Destination where
  | file
  /-- A file that cannot be written. -/
  | unwritable (path : Text)
  /-- A stream of bytes or of text. -/
  | stream (binary : Bool)
  /-- Anything else that can be written to; its mode, where that is a text, has a `b` for
  bytes. -/
  | writer (mode : Option Text)
  /-- A value that is no destination, by the name of its kind. -/
  | unsupported (kindName : Text)
deriving DecidableEq, Repr

/-- Why markup cannot be written. -/
inductive DestinationError where
  | file (e : FileError)
  | unsupported (kindName : Text)
deriving DecidableEq, Repr

def DestinationError.message : DestinationError → Text
  | file e => e.message
  | unsupported kindName => "Unsupported output type: <class '".toList ++ kindName ++ "'>".toList

/-- What has arrived: markup, as bytes or as text. -/
structure Delivery where
  binary : Bool
  text : Text
deriving DecidableEq, Repr

def Destination.write (t : Text) : Destination → Except DestinationError Delivery
  | file => .ok ⟨true, t⟩
  | unwritable path => .error (.file (.missing path))
  | stream binary => .ok ⟨binary, t⟩
  | writer mode => .ok ⟨mode.any fun m => 'b' ∈ m, t⟩
  | unsupported kindName => .error (.unsupported kindName)

end Wikitext

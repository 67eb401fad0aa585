/-
  Wikitext/Failure.lean
  =====================
  **Failures** — everything that can go wrong, in one type.  A failure keeps its cause; it
  has a wording, and a status with which a command that it ends exits.
-/
import Wikitext.Exchange.Destination
import Wikitext.Exchange.Source
import Wikitext.Options.Build
import Wikitext.Rule.Table
import Wikitext.Store.Edit
import Wikitext.Url.Basic

namespace Wikitext

/-- What went wrong. -/
inductive Failure where
  | options (e : OptionsError)
  /-- A component was given options of another kind than its own. -/
  | optionsKind (component expected received : Text)
  | rule (e : RuleError)
  | unresolved (e : AliasError)
  /-- An element that has no rule was looked up. -/
  | noRule (tag : Text)
  | url (e : UrlError)
  | edit (e : EditError)
  | source (e : SourceError)
  | destination (e : DestinationError)
  | dependency (e : DependencyFault)
  /-- A byte that does not belong to a text. -/
  | undecodable (byte : Nat) (position : Nat) (reason : Text)
deriving DecidableEq, Repr

namespace Failure

def message : Failure → Text
  | options e => e.message
  | optionsKind component expected received =>
    component ++ " expected options of type '".toList ++ expected ++ "' but received '".toList
      ++ received
      ++ "'. Please provide the correct options type for the renderer.".toList
  | rule e => e.message
  | unresolved e => e.message
  | noRule tag => tag.quoted
  | url e => e.message
  | edit e => e.message
  | source e => e.message
  | destination e => e.message
  | dependency e => e.message
  | undecodable byte position reason =>
    "'utf-8' codec can't decode byte 0x".toList ++ Text.hexDigits 2 byte ++ " in position ".toList
      ++ Nat.toDigits 10 position ++ [':', ' '] ++ reason

/-- What a failure is about, as far as an exit status tells. -/
inductive Area where
  /-- A source or a file. -/
  | file
  /-- A value that was given. -/
  | value
  | other
deriving DecidableEq, Repr

/-- The exit status of a command that succeeds. -/
def success : Nat := 0

/-- The exit status of a command that fails for a reason in some area. -/
def Area.status : Area → Nat
  | file => 3
  | value => 2
  | other => 1

def sourceArea : SourceError → Area
  | .file _ _ => .file
  | .stream _ => .file
  | .unsupported _ => .value
  | .dependency (.unmet _) => .other
  | .dependency (.unreadable _) => .value

def area : Failure → Area
  | options (.unexpectedName _ _) => .other
  | options (.namespaceOfKind _) => .other
  | options (.assignment _) => .other
  | options _ => .value
  | optionsKind _ _ _ => .value
  | rule (.unknownKind _) => .value
  | rule _ => .other
  | unresolved _ => .other
  | noRule _ => .other
  | url .unusableBase => .other
  | url _ => .value
  | edit _ => .value
  | source e => sourceArea e
  | destination (.file .null) => .value
  | destination (.file _) => .file
  | destination (.unsupported _) => .other
  | dependency (.unmet _) => .other
  | dependency (.unreadable _) => .value
  | undecodable _ _ _ => .value

/-- The exit status of a command that fails for this reason. -/
def status (f : Failure) : Nat :=
  f.area.status

end Failure

end Wikitext

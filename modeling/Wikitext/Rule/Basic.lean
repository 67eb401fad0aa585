/-
  Wikitext/Rule/Basic.lean
  ========================
  **Rules** — how one kind of element becomes markup.  A rule replaces the element, wraps
  its converted content, preserves it as HTML, stands for the rule of another element, or
  deletes it.

  A rule is written down as a draft, whose words are checked when the rule is made
  (`Rule.Draft.check`).
-/
import Wikitext.Text.Layout
import Wikitext.Options.Value

namespace Wikitext

/-- What a rule does with an element. -/
inductive RuleKind where
  | replace
  | wrap
  | preserve
  /-- Stands for the rule of another element. -/
  | synonym
  | delete
deriving DecidableEq, Repr

namespace RuleKind

def name : RuleKind → String
  | replace => "replace"
  | wrap => "wrap"
  | preserve => "preserve"
  | synonym => "alias"
  | delete => "delete"

def all : List RuleKind := [replace, wrap, preserve, synonym, delete]

def ofName? (s : String) : Option RuleKind :=
  all.find? (·.name == s)

end RuleKind

/-- Markup that depends on the element. -/
inductive Feature where
  | tableStart
  | rowStart
  | cellStart
  | captionStart
  | itemStart
  | image
  | link
deriving DecidableEq, Repr

/-- A piece of markup in a rule: the same for every element, or computed from it. -/
inductive Fragment where
  | literal (t : Text)
  | feature (f : Feature)
deriving DecidableEq, Repr

/-- How one kind of element becomes markup. -/
structure Rule where
  kind : RuleKind
  /-- Put before the content that is wrapped. -/
  opening : Fragment
  /-- Put after the content that is wrapped. -/
  closing : Fragment
  /-- Put in the place of an element that is replaced. -/
  substitute : Fragment
  /-- Whether empty lines set the result off. -/
  block : Bool
  lineFormat : LineFormat
  trim : TrimPolicy
  /-- Put at the start of every line of the result. -/
  linePrefix : Text
  /-- The attributes that a preserved element keeps. -/
  attributes : List String
  /-- Whether a preserved element has no content. -/
  void : Bool
  /-- The element whose rule an alias stands for. -/
  target : Option String
deriving DecidableEq, Repr

namespace Rule

/-- A rule of a kind, without any markup. -/
def bare (kind : RuleKind) : Rule where
  kind := kind
  opening := .literal []
  closing := .literal []
  substitute := .literal []
  block := false
  lineFormat := .keep
  trim := .keep
  linePrefix := []
  attributes := []
  void := false
  target := none

def wrap (opening closing : Fragment) : Rule :=
  { bare .wrap with opening, closing }

def replaceBy (substitute : Fragment) : Rule :=
  { bare .replace with substitute }

def preserve (attributes : List String) : Rule :=
  { bare .preserve with attributes }

/-- Stands for the rule of another element. -/
def aliasOf (target : String) : Rule :=
  { bare .synonym with target := some target }

def delete : Rule := bare .delete

/-! ### Layout -/

/-- Lays out a converted content: trims it, brings its line feeds into shape, puts
`opening` and `closing` around it, marks its lines and sets it off. -/
def layout (rule : Rule) (opening content closing : Text) : Text :=
  let body := opening ++ rule.lineFormat.apply (rule.trim.apply content) ++ closing
  let body := if rule.linePrefix = [] then body else Text.markLines rule.linePrefix body
  if rule.block then ['\n', '\n'] ++ body ++ ['\n', '\n'] else body

end Rule

/-! ### Drafts -/

/-- Why a draft is no rule.  The refused value is given as it is shown. -/
inductive RuleError where
  | unknownKind (shown : Text)
  | unknownLineFormat (shown : Text)
  | unknownTrim (shown : Text)
  | aliasWithoutTarget
deriving DecidableEq, Repr

def RuleError.message : RuleError → Text
  | unknownKind shown => shown ++ " is not a valid RuleKind".toList
  | unknownLineFormat shown => "Unknown line format ".toList ++ shown
  | unknownTrim shown => "Unknown trim policy ".toList ++ shown
  | aliasWithoutTarget => "Alias rule requires a target tag".toList

/-- A rule as it is written down, with words that have not been checked. -/
structure Rule.Draft where
  kind : Value
  lineFormat : Value
  trim : Value
  /-- All other fields. -/
  body : Rule

/-- Makes a rule.  Of several faults the kind is reported first, then the line format,
then the trimming, then a missing target. -/
def Rule.Draft.check (draft : Draft) : Except RuleError Rule := do
  let kind ← match draft.kind.word? RuleKind.ofName? with
    | some kind => .ok kind
    | none => .error (.unknownKind draft.kind.shown)
  let lineFormat ← match draft.lineFormat.word? LineFormat.ofName? with
    | some lineFormat => .ok lineFormat
    | none => .error (.unknownLineFormat draft.lineFormat.shown)
  let trim ← match draft.trim.word? TrimPolicy.ofName? with
    | some trim => .ok trim
    | none => .error (.unknownTrim draft.trim.shown)
  if kind = .synonym ∧ (draft.body.target.getD "").isEmpty then .error .aliasWithoutTarget
  else return { draft.body with kind, lineFormat, trim }

end Wikitext

/-
  Wikitext/Dialect/MediaWiki.lean
  ===============================
  **The MediaWiki dialect** — its rules and its way with text.  Elements that MediaWiki has
  markup for become that markup; elements that it accepts as HTML are preserved with their
  allowed attributes; elements that it refuses are deleted.

  The lines of preformatted text start with a space, which the last layout pass would
  remove.  A placeholder stands for that space until the markup is finished.
-/
import Wikitext.Dialect.Basic
import Wikitext.Element.Allowed
import Wikitext.Nowiki

namespace Wikitext.MediaWiki

/-- Stands for the space at the start of a line of preformatted text. -/
def placeholder : Text := "[qzhvkwpxrjmbtnfgdlsycq]".toList

/-- Puts the spaces in the places that were kept for them. -/
def finish (t : Text) : Text :=
  Text.replace placeholder [' '] t

/-! ### Rules -/

/-- The elements that MediaWiki accepts as HTML, and has no markup for. -/
def preservedTags : List String :=
  ["center", "cite", "code", "var", "sup", "sub", "tt", "big", "small", "strike", "s", "u", "ruby",
    "rb", "rt", "rp"]

/-- The elements that are dropped with their content. -/
def deletedTags : List String := ["head", "title", "script", "style", "meta", "link", "object"]

/-- The rule of a heading: its text on one line between equals signs. -/
def headingRule (level : Nat) : Rule :=
  let marks := List.replicate level '='
  { Rule.wrap (.literal (marks ++ [' '])) (.literal (' ' :: marks)) with
    block := true, trim := .both, lineFormat := .single }

/-- The rule of an element whose content stands between the same marks on both sides. -/
def emphasisRule (marks : Text) : Rule :=
  { Rule.wrap (.literal marks) (.literal marks) with lineFormat := .single }

/-- The rules of elements that have markup or attributes of their own. -/
def markupRules : Declarations := [
  ("hr", .replaceBy (.literal "\n----\n".toList)),
  ("br", { Rule.preserve Element.breakNames with void := true }),
  ("p", { Rule.bare .wrap with block := true, trim := .both, lineFormat := .multi }),
  ("em", emphasisRule ['\'', '\'']),
  ("i", .aliasOf "em"),
  ("strong", emphasisRule ['\'', '\'', '\'']),
  ("b", .aliasOf "strong"),
  ("pre", { Rule.bare .wrap with linePrefix := placeholder, block := true }),
  ("table", { Rule.wrap (.feature .tableStart) (.literal ['|', '\x7d']) with
    block := true, lineFormat := .blocks }),
  ("tr", .wrap (.feature .rowStart) (.literal [])),
  ("td", { Rule.wrap (.feature .cellStart) (.literal ['\n']) with
    trim := .both, lineFormat := .blocks }),
  ("th", { Rule.wrap (.feature .cellStart) (.literal ['\n']) with
    trim := .both, lineFormat := .single }),
  ("caption", { Rule.wrap (.feature .captionStart) (.literal ['\n']) with lineFormat := .single }),
  ("img", .replaceBy (.feature .image)),
  ("a", .replaceBy (.feature .link)),
  ("ul", { Rule.bare .wrap with lineFormat := .multi, block := true }),
  ("ol", .aliasOf "ul"),
  ("dl", .aliasOf "ul"),
  ("li", { Rule.wrap (.feature .itemStart) (.literal []) with trim := .leading }),
  ("dt", .aliasOf "li"),
  ("dd", .aliasOf "li"),
  ("div", .preserve Element.blockNames),
  ("span", .aliasOf "div"),
  ("blockquote", .preserve Element.quotationNames),
  ("del", .preserve Element.editNames),
  ("ins", .aliasOf "del"),
  ("font", .preserve Element.fontNames)
]

def rules : Declarations :=
  markupRules
    ++ preservedTags.map (fun tag => (tag, .preserve Element.commonNames))
    ++ deletedTags.map (fun tag => (tag, .delete))
    ++ [1, 2, 3, 4, 5, 6].map fun level => ("h" ++ toString level, headingRule level)

/-- The rules of a session: `b` and `i` may be preserved as HTML. -/
def sessionRules (options : Options) : Declarations :=
  let kept := Rule.preserve Element.commonNames
  let italic := if options.preserveItalic then [("i", kept)] else []
  let bold := if options.preserveBold then [("b", kept)] else []
  rules.declareAll (italic ++ bold)

/-- The rule table of a session.  Its aliases all lead to rules (`make_sessionRules`). -/
def table (options : Options) : RuleTable :=
  match RuleTable.make (sessionRules options) with
  | .ok table => table
  | .error _ => ⟨[]⟩

/-- The rules of every session make a table. -/
theorem make_sessionRules (options : Options) :
    RuleTable.make (sessionRules options) = .ok (table options) := by
  have all : ∀ italic bold : Bool, (RuleTable.make (sessionRules
      { preserveItalic := italic, preserveBold := bold })).isOk = true := by
    decide +kernel
  have made : (RuleTable.make (sessionRules options)).isOk = true :=
    all options.preserveItalic options.preserveBold
  unfold table
  cases h : RuleTable.make (sessionRules options) with
  | ok t => rfl
  | error e => simp [h, Except.isOk, Except.toBool] at made

def dialect : Dialect where
  removesNoise := true
  guard := Nowiki.guard
  finish := finish

end Wikitext.MediaWiki

namespace Wikitext.Session

/-- A session of the MediaWiki dialect. -/
def mediaWiki (options : Options) : Session where
  dialect := MediaWiki.dialect
  table := MediaWiki.table options
  options := options

end Wikitext.Session

/-
  Wikitext/Dialect/Basic.lean
  ===========================
  **Dialects** — what distinguishes one kind of markup from another besides its rules:
  whether noise is removed from a document, how a text is protected, and what is done to
  the finished markup.  A session is a dialect with its rules and options.
-/
import Wikitext.Options.Basic
import Wikitext.Rule.Table

namespace Wikitext

/-- A kind of markup. -/
structure Dialect where
  /-- Whether named anchors and furniture are removed. -/
  removesNoise : Bool
  /-- Protects a collapsed and escaped text, given also as it stood in the document. -/
  guard : (t raw : Text) → Text
  /-- Finishes the tidied markup. -/
  finish : Text → Text

/-- The dialect that leaves everything to its rules. -/
def Dialect.plain : Dialect where
  removesNoise := false
  guard := fun t _ => t
  finish := id

/-- A dialect with its rules and options. -/
structure Session where
  dialect : Dialect
  table : RuleTable
  options : Options

namespace Session

/-- A session with rules of its own. -/
def plain (options : CommonOptions) (declared : Declarations) : Except AliasError Session := do
  let table ← RuleTable.make declared
  return { dialect := .plain, table, options := { toCommonOptions := options } }

end Session

end Wikitext

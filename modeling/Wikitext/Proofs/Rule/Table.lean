/-
  Wikitext/Proofs/Rule/Table.lean
  ===============================
  **The rules of a session.**  The rule table of a session depends on two of its options only, so
  there are four tables, and what is to be known of every rule of every session can be looked up
  in them (`rule_of_find?`).
-/
import Wikitext.Dialect.MediaWiki

namespace Wikitext

theorem RuleTable.mem_of_find? {table : RuleTable} {tag : String} {rule : Rule}
    (h : table.find? tag = some rule) : (lowerName tag, rule) ∈ table.rules := by
  rw [find?, Declarations.find?] at h
  obtain ⟨entry, hentry, rfl⟩ := Option.map_eq_some_iff.mp h
  have hname : entry.1 = lowerName tag := by simpa using List.find?_some hentry
  rw [← hname]
  exact List.mem_of_find?_eq_some hentry

namespace MediaWiki

/-- The rules that `b` and `i` have in one of four ways, and all others. -/
def tableOf (italic bold : Bool) : RuleTable :=
  table { preserveItalic := italic, preserveBold := bold }

theorem table_eq (options : Options) :
    table options = tableOf options.preserveItalic options.preserveBold := rfl

/-- What holds of the rules of the four tables holds of the rules of every session. -/
theorem rule_of_find? {P : String → Rule → Prop}
    (h : ∀ italic bold : Bool, ∀ entry ∈ (tableOf italic bold).rules, P entry.1 entry.2)
    {options : Options} {tag : String} {rule : Rule}
    (hrule : (table options).find? tag = some rule) : P (lowerName tag) rule :=
  h _ _ _ (RuleTable.mem_of_find? hrule)

/-- No element that is mere scaffolding has a rule. -/
theorem find?_of_mem_transparentTags {options : Options} {tag : String}
    (h : tag ∈ ["[document]", "html", "body", "thead", "tbody", "tfoot"]) :
    (table options).find? tag = none := by
  have hall : ∀ italic bold : Bool,
      ∀ tag ∈ ["[document]", "html", "body", "thead", "tbody", "tfoot"],
        (tableOf italic bold).find? tag = none := by
    decide +kernel
  exact hall options.preserveItalic options.preserveBold tag h

end MediaWiki

end Wikitext

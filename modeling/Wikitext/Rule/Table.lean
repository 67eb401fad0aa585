/-
  Wikitext/Rule/Table.lean
  ========================
  **Rule tables** — the rules of a dialect, by element.  Rules are declared under names,
  and some only stand for the rule of another element.  A table is made once: it resolves
  every such alias, so that looking up an element gives the rule that applies.

  Making a table fails when an alias leads to a name that is not declared or comes back to
  a name it has passed; the error carries the names that were followed.
-/
import Wikitext.Rule.Basic
import Wikitext.Text.Lowercase

namespace Wikitext

/-- Rules under their names, each name once, in the order of first declaration. -/
abbrev Declarations := List (String × Rule)

namespace Declarations

/-- The rule declared under a name. -/
def find? (rules : Declarations) (name : String) : Option Rule :=
  (List.find? (·.1 == name) rules).map (·.2)

/-- Declares a rule: in the place of one with the same name, or at the end. -/
def declare (name : String) (rule : Rule) : Declarations → Declarations
  | [] => [(name, rule)]
  | (n, r) :: rest => if n = name then (n, rule) :: rest else (n, r) :: declare name rule rest

/-- Adds declarations one after the other. -/
def declareAll (rules : Declarations) (more : List (String × Rule)) : Declarations :=
  more.foldl (fun rules (name, rule) => rules.declare name rule) rules

/-- The declarations under lower-case names. -/
def lowered (rules : Declarations) : Declarations :=
  declareAll [] (rules.map fun (name, rule) => (lowerName name, rule))

end Declarations

/-! ### Aliases -/

/-- Why an alias does not lead to a rule. -/
inductive AliasFault where
  /-- The element itself has no rule. -/
  | undeclared
  /-- Some alias on the way stands for an element without a rule. -/
  | unknownTarget (target : String)
  /-- The way comes back to where it has been. -/
  | cycle
deriving DecidableEq, Repr

/-- An alias that does not lead to a rule: the element, the names that were followed from
it, the offending one included, and the fault. -/
structure AliasError where
  tag : String
  chain : List String
  fault : AliasFault
deriving DecidableEq, Repr

def AliasError.message (e : AliasError) : Text :=
  match e.fault with
  | .undeclared => "No rule defined for tag '".toList ++ e.tag.toList ++ "'".toList
  | .unknownTarget target =>
    "Rule for '".toList ++ e.tag.toList ++ "' aliases unknown tag '".toList ++ target.toList
      ++ "'".toList
  | .cycle =>
    "Alias cycle detected for tag '".toList ++ e.tag.toList ++ "': ".toList
      ++ Text.join " -> ".toList (e.chain.map String.toList)

namespace Declarations

/-- Follows aliases from a rule that the names in `chain` led to.  Every step adds a
declared name to the chain, so there are no more steps than declarations. -/
def follow (rules : Declarations) (tag : String) :
    (fuel : Nat) → (chain : List String) → Rule → Except AliasError Rule
  | fuel, chain, rule =>
    if rule.kind ≠ .synonym then .ok rule
    else
      let target := rule.target.getD ""
      if target ∈ chain then .error ⟨tag, chain ++ [target], .cycle⟩
      else match rules.find? target, fuel with
        | none, _ => .error ⟨tag, chain ++ [target], .unknownTarget target⟩
        | some _, 0 => .error ⟨tag, chain ++ [target], .cycle⟩
        | some next, fuel + 1 => follow rules tag fuel (chain ++ [target]) next

/-- The rule that an element has when aliases are followed. -/
def resolve (rules : Declarations) (tag : String) : Except AliasError Rule :=
  match rules.find? tag with
  | none => .error ⟨tag, [tag], .undeclared⟩
  | some rule => rules.follow tag rules.length [tag] rule

end Declarations

/-! ### Tables -/

/-- Rules under lower-case names, none of them an alias. -/
structure RuleTable where
  rules : Declarations

namespace RuleTable

/-- Resolves each declared name in turn. -/
def resolveAll (rules : Declarations) : List String → Except AliasError Declarations
  | [] => .ok []
  | name :: names => do
    let rule ← rules.resolve name
    let rest ← resolveAll rules names
    return (name, rule) :: rest

/-- Makes a table.  Names are declared without regard to case, the targets of aliases are
taken as they are spelled. -/
def make (declared : Declarations) : Except AliasError RuleTable := do
  let rules := declared.lowered
  let resolved ← resolveAll rules (rules.map (·.1))
  return ⟨resolved⟩

/-- The rule of an element, whatever the case of its name. -/
def find? (table : RuleTable) (tag : String) : Option Rule :=
  table.rules.find? (lowerName tag)

/-- The number of elements with a rule. -/
def size (table : RuleTable) : Nat :=
  table.rules.length

/-- The elements with a rule, in the order of declaration. -/
def tags (table : RuleTable) : List String :=
  table.rules.map (·.1)

def describe (table : RuleTable) : Text :=
  "RuleTable(".toList ++ Nat.toDigits 10 table.size ++ " tags)".toList

end RuleTable

end Wikitext

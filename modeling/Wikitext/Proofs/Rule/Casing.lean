/-
  Wikitext/Proofs/Rule/Casing.lean
  ================================
  **The case of names in declarations.**  Rules are declared and looked up without regard to case,
  but an alias is followed as it is spelled.  A table is made of declarations in which case matters
  nowhere else, if and only if every alias spells its target in lower case and the same table is
  made of the declarations in lower case throughout (`make_eq_ok_iff_caseless`).

  So an alias of a name that is declared in capitals, and spelled as it is declared, leads nowhere
  (`not_forall_exists_make_iff`).
-/
import Wikitext.Proofs.Rule.Alias
import Wikitext.Proofs.Text.Lowercase

namespace Wikitext

/-- The rule, with the name that it stands for in lower case. -/
def Rule.lowerTarget (rule : Rule) : Rule :=
  if rule.kind = .synonym then { rule with target := rule.target.map lowerName } else rule

namespace Declarations

variable {rules : Declarations} {name : String} {rule : Rule} {table : RuleTable}

/-- The declarations in lower case throughout: the names, and those that aliases stand for. -/
def caseless (rules : Declarations) : Declarations :=
  rules.map fun (name, rule) => (lowerName name, rule.lowerTarget)

/-- Every alias spells the name that it stands for in lower case. -/
def SpelledLow (rules : Declarations) : Prop :=
  ∀ entry ∈ rules, entry.2.kind = .synonym →
    lowerName (entry.2.target.getD "") = entry.2.target.getD ""

theorem find?_of_mem (hnodup : (rules.map (·.1)).Nodup) (hmem : (name, rule) ∈ rules) :
    rules.find? name = some rule := by
  induction rules with
  | nil => cases hmem
  | cons entry rules ih =>
    obtain ⟨first, firstRule⟩ := entry
    rw [List.map_cons, List.nodup_cons] at hnodup
    rcases List.mem_cons.mp hmem with heq | hmem
    · obtain ⟨rfl, rfl⟩ := Prod.mk.inj heq
      exact find?_cons_self
    · have hne : first ≠ name := by
        rintro rfl
        exact hnodup.1 (List.mem_map_of_mem (f := (·.1)) hmem)
      rw [find?_cons_of_ne hne]
      exact ih hnodup.2 hmem

/-- Where an alias can be resolved the name that it stands for is declared. -/
theorem StandsFor.isSome_target {a b : String} (h : rules.StandsFor a b)
    (hresolve : rules.resolve a = .ok rule) : (rules.find? b).isSome := by
  obtain ⟨names, last, htrail, hrule, hkind⟩ := resolve_eq_ok_iff.mp hresolve
  cases htrail with
  | here => exact absurd h (not_standsFor_of_kind_ne hrule hkind)
  | step hfirst hrest =>
    obtain rfl := h.unique hfirst
    cases hrest with
    | here => rw [hrule]; rfl
    | step hnext _ => exact hnext.isSome

/-- Of different names each declaration stays, under its lower case. -/
theorem lowered_eq_map (hnodup : ((rules.map (·.1)).map lowerName).Nodup) :
    rules.lowered = rules.map fun (name, rule) => (lowerName name, rule) := by
  refine declareAll_of_nodup ?_
  rw [List.map_map] at hnodup
  rw [List.nil_append, List.map_map]
  exact hnodup

theorem map_caseless (rules : Declarations) :
    rules.caseless.map (·.1) = (rules.map (·.1)).map lowerName := by
  rw [caseless, List.map_map, List.map_map]
  rfl

theorem caseless_eq_map (hlow : rules.SpelledLow) :
    rules.caseless = rules.map fun (name, rule) => (lowerName name, rule) := by
  refine List.map_congr_left fun entry hentry => Prod.ext rfl ?_
  change entry.2.lowerTarget = entry.2
  rw [Rule.lowerTarget]
  split
  · next hkind =>
    have hspelled := hlow entry hentry hkind
    have htarget : entry.2.target.map lowerName = entry.2.target := by
      cases htarget : entry.2.target with
      | none => rfl
      | some target =>
        rw [htarget] at hspelled
        exact congrArg some hspelled
    rw [htarget]
  · rfl

variable (hascii : ∀ name ∈ rules.map (·.1), ∀ c ∈ name.toList, c.toNat < 0x80)
  (hnodup : ((rules.map (·.1)).map lowerName).Nodup)

include hascii in
theorem lowerName_of_mem_lowered (hname : name ∈ (rules.map (·.1)).map lowerName) :
    lowerName name = name := by
  obtain ⟨declared, hdeclared, rfl⟩ := List.mem_map.mp hname
  exact lowerName_lowerName (hascii declared hdeclared)

include hascii hnodup in
/-- The aliases of a table spell the names that they stand for in lower case. -/
theorem spelledLow_of_make (h : RuleTable.make rules = .ok table) : rules.SpelledLow := by
  have hlowered := lowered_eq_map hnodup
  have hnames : rules.lowered.map (·.1) = (rules.map (·.1)).map lowerName := by
    rw [hlowered, List.map_map, List.map_map]
    rfl
  have hall := RuleTable.exists_resolveAll_iff.mp ⟨_, RuleTable.make_eq_ok_iff.mp h⟩
  intro entry hentry hkind
  have hmem : (lowerName entry.1, entry.2) ∈ rules.lowered := by
    rw [hlowered]
    exact List.mem_map.mpr ⟨entry, hentry, rfl⟩
  have hstands : rules.lowered.StandsFor (lowerName entry.1) (entry.2.target.getD "") :=
    ⟨entry.2, find?_of_mem (hnames ▸ hnodup) hmem, hkind, rfl⟩
  obtain ⟨rule, hresolve⟩ := hall _ (List.mem_map_of_mem (f := (·.1)) hmem)
  have htarget := isSome_find?_iff.mp (hstands.isSome_target hresolve)
  exact lowerName_of_mem_lowered hascii (hnames ▸ htarget)

include hascii hnodup in
/-- A table is made of declarations exactly if the same table is made of them in lower case
throughout and their aliases are spelled in lower case.  It gives a tag in any case the rule that
the declarations in lower case lead to. -/
theorem make_eq_ok_iff_caseless (table : RuleTable) :
    (RuleTable.make rules = .ok table ↔
      rules.SpelledLow ∧ RuleTable.make rules.caseless = .ok table) ∧
    (RuleTable.make rules.caseless = .ok table → ∀ tag : String,
      table.find? tag = (rules.caseless.resolve (lowerName tag)).toOption) := by
  have hsame : rules.caseless.lowered = rules.caseless := by
    refine lowered_eq_self ?_ fun name hname => ?_
    · rw [map_caseless]
      exact hnodup
    · rw [map_caseless] at hname
      exact lowerName_of_mem_lowered hascii hname
  have hmake : rules.SpelledLow → RuleTable.make rules = RuleTable.make rules.caseless := by
    intro hlow
    rw [RuleTable.make, RuleTable.make, hsame, lowered_eq_map hnodup, caseless_eq_map hlow]
  refine ⟨⟨fun h => ?_, fun h => (hmake h.1).trans h.2⟩, fun h tag => ?_⟩
  · have hlow := spelledLow_of_make hascii hnodup h
    exact ⟨hlow, (hmake hlow).symm.trans h⟩
  · rw [RuleTable.find?_eq_resolve h, hsame]

/-- Two names for one rule, in capitals. -/
def shouted : Declarations :=
  [("EM", .bare .wrap), ("I", .aliasOf "em")]

theorem make_shouted :
    (∃ table, RuleTable.make shouted = .ok table) ∧
    ∀ table, RuleTable.make shouted = .ok table → table.find? "i" = some (.bare .wrap) := by
  have hspec := @make_eq_ok_iff_caseless shouted (by simp [shouted]) (by decide +kernel)
  have hexists : ∃ table, RuleTable.make shouted.caseless = .ok table :=
    ⟨⟨[("em", .bare .wrap), ("i", .bare .wrap)]⟩,
      RuleTable.make_eq_ok_iff.mpr (by decide +kernel)⟩
  have hlow : shouted.SpelledLow := by
    intro entry hentry
    revert entry
    decide +kernel
  constructor
  · obtain ⟨table, htable⟩ := hexists
    exact ⟨table, (hspec table).1.mpr ⟨hlow, htable⟩⟩
  · intro table htable
    rw [(hspec table).2 ((hspec table).1.mp htable).2 "i"]
    decide +kernel

/-- The alias is spelled as its target is declared. -/
def shoutedBack : Declarations :=
  [("EM", .bare .wrap), ("I", .aliasOf "EM")]

/-- Declarations in different names need not make a table where the same in lower case do. -/
theorem not_forall_exists_make_iff : ¬ ∀ rules : Declarations,
    (∀ name ∈ rules.map (·.1), ∀ c ∈ name.toList, c.toNat < 0x80) →
      ((rules.map (·.1)).map lowerName).Nodup →
        ((∃ table, RuleTable.make rules = .ok table) ↔
          ∃ table, RuleTable.make rules.caseless = .ok table) := by
  intro h
  have hlow : ∃ table, RuleTable.make shoutedBack.caseless = .ok table :=
    ⟨⟨[("em", .bare .wrap), ("i", .bare .wrap)]⟩,
      RuleTable.make_eq_ok_iff.mpr (by decide +kernel)⟩
  obtain ⟨table, htable⟩ := (h shoutedBack (by simp [shoutedBack]) (by decide +kernel)).mpr hlow
  have hfails : RuleTable.resolveAll shoutedBack.lowered (shoutedBack.lowered.map (·.1)) =
      .error ⟨"i", ["i", "EM"], .unknownTarget "EM"⟩ := by decide +kernel
  rw [RuleTable.make_eq_ok_iff, hfails] at htable
  cases htable

end Declarations

end Wikitext

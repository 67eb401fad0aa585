/-
  Wikitext/Proofs/Rule/Alias.lean
  ===============================
  **Where aliases lead.**  Declarations are a graph: an alias has one way out, to its target, and
  every other rule has none (`StandsFor`).  To resolve a name is to walk along its trail.  The
  walk ends at the first name that has no way out or that it has passed before, so that

    * it gives a rule exactly when the trail reaches one (`resolve_eq_ok_iff`), and
    * an error carries the trail that was walked (`strands_of_resolve_eq_error`).

  `follow` is handed as much fuel as there are declarations.  That never runs out: the names of
  the chain are declared and no two of them are equal (`length_le_of_nodup`).

  A table resolves every declared name when it is made, and its lookups are those resolutions
  (`RuleTable.find?_eq_resolve`).
-/
import Mathlib.Data.List.Nodup
import Mathlib.Data.List.Perm.Subperm
import Wikitext.Rule.Table

namespace Wikitext

namespace Declarations

variable {rules acc more : Declarations} {tag name a b c last : String}
  {names names' : List String} {rule : Rule} {e : AliasError}

/-! ### Declared names -/

theorem isSome_find?_iff : (rules.find? name).isSome ↔ name ∈ rules.map (·.1) := by
  rw [find?, Option.isSome_map, List.find?_isSome]
  simp

theorem find?_eq_none_iff : rules.find? name = none ↔ name ∉ rules.map (·.1) := by
  rw [← isSome_find?_iff]
  simp

theorem find?_cons_self : find? ((name, rule) :: rules) name = some rule := by
  simp [find?]

theorem find?_cons_of_ne (h : name ≠ a) : find? ((name, rule) :: rules) a = rules.find? a := by
  simp [find?, h]

theorem length_le_of_nodup (hnodup : names.Nodup)
    (hdeclared : ∀ name ∈ names, (rules.find? name).isSome) : names.length ≤ rules.length := by
  have hsubset : names ⊆ rules.map (·.1) := fun name hname =>
    isSome_find?_iff.mp (hdeclared name hname)
  have hle := (hnodup.subperm hsubset).length_le
  rwa [List.length_map] at hle

/-! ### Trails -/

/-- The first name is declared as an alias of the second. -/
def StandsFor (rules : Declarations) (a b : String) : Prop :=
  ∃ rule, rules.find? a = some rule ∧ rule.kind = .synonym ∧ rule.target.getD "" = b

/-- The way along aliases from a name to another, with the names passed before that one. -/
inductive Trail (rules : Declarations) : String → List String → String → Prop where
  | here {a : String} : Trail rules a [] a
  | step {a b c : String} {names : List String} :
      rules.StandsFor a b → Trail rules b names c → Trail rules a (a :: names) c

theorem StandsFor.unique (h : rules.StandsFor a b) (h' : rules.StandsFor a c) : b = c := by
  obtain ⟨rule, hrule, -, rfl⟩ := h
  obtain ⟨rule', hrule', -, rfl⟩ := h'
  rw [hrule, Option.some.injEq] at hrule'
  rw [hrule']

theorem StandsFor.isSome (h : rules.StandsFor a b) : (rules.find? a).isSome := by
  obtain ⟨rule, hrule, -, -⟩ := h
  rw [hrule]
  rfl

theorem not_standsFor_of_find?_eq_none (h : rules.find? a = none) : ¬ rules.StandsFor a b := by
  rintro ⟨rule, hrule, -, -⟩
  rw [h] at hrule
  cases hrule

theorem not_standsFor_of_kind_ne (h : rules.find? a = some rule) (hkind : rule.kind ≠ .synonym) :
    ¬ rules.StandsFor a b := by
  rintro ⟨rule', hrule', hkind', -⟩
  rw [h, Option.some.injEq] at hrule'
  exact hkind (hrule' ▸ hkind')

namespace Trail

theorem concat (h : rules.Trail a names b) (hstep : rules.StandsFor b c) :
    rules.Trail a (names ++ [b]) c := by
  induction h with
  | here => exact .step hstep .here
  | step hfirst _ ih => exact .step hfirst (ih hstep)

/-- A name that was passed has its own trail to the end. -/
theorem exists_of_mem (h : rules.Trail a names b) (hmem : c ∈ names) :
    ∃ before after, names = before ++ c :: after ∧ rules.Trail c (c :: after) b := by
  induction h with
  | here => cases hmem
  | @step a _ _ names hfirst htrail ih =>
    rcases List.mem_cons.mp hmem with rfl | hmem
    · exact ⟨[], names, rfl, .step hfirst htrail⟩
    · obtain ⟨before, after, rfl, hrest⟩ := ih hmem
      exact ⟨a :: before, after, rfl, hrest⟩

theorem exists_standsFor (h : rules.Trail a names b) (hmem : c ∈ names) :
    ∃ d, rules.StandsFor c d := by
  obtain ⟨_, _, -, hrest⟩ := h.exists_of_mem hmem
  cases hrest with
  | step hfirst _ => exact ⟨_, hfirst⟩

theorem isSome_of_mem (h : rules.Trail a names b) (hmem : c ∈ names) :
    (rules.find? c).isSome := by
  obtain ⟨d, hstands⟩ := h.exists_standsFor hmem
  exact hstands.isSome

/-- There is one way to go: a trail that ends where no way leads on goes through every place that
can be reached. -/
theorem resume (h : rules.Trail a names b) (h' : rules.Trail a names' c)
    (hends : ∀ d, ¬ rules.StandsFor c d) :
    ∃ rest, names' = names ++ rest ∧ rules.Trail b rest c := by
  induction h generalizing names' with
  | here => exact ⟨names', rfl, h'⟩
  | @step a _ _ _ hfirst _ ih =>
    cases h' with
    | here => exact absurd hfirst (hends _)
    | step hfirst' htrail' =>
      obtain rfl := hfirst.unique hfirst'
      obtain ⟨rest, rfl, hrest⟩ := ih htrail'
      exact ⟨rest, rfl, hrest⟩

/-- Two trails from one name that both end where no way leads on are the same. -/
theorem unique (h : rules.Trail a names b) (h' : rules.Trail a names' c)
    (hends : ∀ d, ¬ rules.StandsFor b d) (hends' : ∀ d, ¬ rules.StandsFor c d) :
    names = names' ∧ b = c := by
  obtain ⟨rest, rfl, hrest⟩ := h.resume h' hends'
  cases hrest with
  | here => exact ⟨(List.append_nil names).symm, rfl⟩
  | step hfirst _ => exact absurd hfirst (hends _)

/-- A trail that ends where no way leads on passes no name twice. -/
theorem nodup (h : rules.Trail a names b) (hends : ∀ d, ¬ rules.StandsFor b d) :
    names.Nodup := by
  induction h with
  | here => exact List.nodup_nil
  | @step a _ _ names hfirst htrail ih =>
    refine List.nodup_cons.mpr ⟨?_, ih hends⟩
    intro hmem
    obtain ⟨before, after, heq, hrest⟩ := htrail.exists_of_mem hmem
    have hsame := (hrest.unique (.step hfirst htrail) hends hends).1
    rw [List.cons.injEq] at hsame
    have hlength := congrArg List.length heq
    rw [← hsame.2, List.length_append, List.length_cons] at hlength
    omega

/-- No trail from where a trail has come back to itself ends. -/
theorem not_ends_of_mem (h : rules.Trail a names b) (hback : b ∈ names)
    (h' : rules.Trail a names' c) (hends : ∀ d, ¬ rules.StandsFor c d) : False := by
  obtain ⟨rest, rfl, hrest⟩ := h.resume h' hends
  obtain ⟨d, hstands⟩ := h.exists_standsFor hback
  cases hrest with
  | here => exact hends d hstands
  | step _ _ =>
    have hdisjoint := (List.nodup_append'.mp (h'.nodup hends)).2.2
    exact hdisjoint hback (List.mem_cons_self ..)

end Trail

/-! ### Resolving -/

/-- What an error says is so: its chain is the trail of its name up to the first name that has no
rule, or that was passed before. -/
def Strands (rules : Declarations) (e : AliasError) : Prop :=
  ∃ names last, e.chain = names ++ [last] ∧ rules.Trail e.tag names last ∧ names.Nodup ∧
    match e.fault with
    | .undeclared => names = [] ∧ rules.find? last = none
    | .unknownTarget target => names ≠ [] ∧ target = last ∧ rules.find? last = none
    | .cycle => last ∈ names

/-- What the outcome of resolving a name says is so. -/
def Settles (rules : Declarations) (tag : String) : Except AliasError Rule → Prop
  | .ok rule => ∃ names last,
      rules.Trail tag names last ∧ rules.find? last = some rule ∧ rule.kind ≠ .synonym
  | .error e => e.tag = tag ∧ rules.Strands e

/-- Following aliases from the end of a trail.  The fuel and the chain together are one longer
than the declarations, so that the fuel is not used up before the walk ends. -/
theorem settles_follow {fuel : Nat} (htrail : rules.Trail tag names last)
    (hnodup : (names ++ [last]).Nodup) (hrule : rules.find? last = some rule)
    (hfuel : names.length + fuel = rules.length) :
    rules.Settles tag (rules.follow tag fuel (names ++ [last]) rule) := by
  induction fuel generalizing names last rule with
  | zero =>
    -- the chain would have a name more than there are declarations
    exfalso
    have hdeclared : ∀ name ∈ names ++ [last], (rules.find? name).isSome := by
      intro name hname
      rcases List.mem_append.mp hname with hname | hname
      · exact htrail.isSome_of_mem hname
      · rw [List.mem_singleton.mp hname, hrule]
        rfl
    have hle := length_le_of_nodup hnodup hdeclared
    rw [List.length_append, List.length_singleton] at hle
    omega
  | succ fuel ih =>
    by_cases hkind : rule.kind ≠ .synonym
    · rw [follow, if_pos hkind]
      exact ⟨names, last, htrail, hrule, hkind⟩
    · have hstands : rules.StandsFor last (rule.target.getD "") :=
        ⟨rule, hrule, not_not.mp hkind, rfl⟩
      have htrail' := htrail.concat hstands
      rw [follow, if_neg hkind]
      by_cases hback : rule.target.getD "" ∈ names ++ [last]
      · rw [if_pos hback]
        exact ⟨rfl, names ++ [last], _, rfl, htrail', hnodup, hback⟩
      · rw [if_neg hback]
        cases hnext : rules.find? (rule.target.getD "") with
        | none =>
          exact ⟨rfl, names ++ [last], _, rfl, htrail', hnodup, by simp, rfl, hnext⟩
        | some next =>
          apply ih htrail' _ hnext
          · rw [List.length_append, List.length_singleton]
            omega
          · exact List.nodup_append'.mpr ⟨hnodup, List.nodup_singleton _,
              List.disjoint_singleton.mpr hback⟩

theorem settles_resolve (rules : Declarations) (tag : String) :
    rules.Settles tag (rules.resolve tag) := by
  rw [resolve]
  cases hrule : rules.find? tag with
  | none => exact ⟨rfl, [], tag, rfl, .here, List.nodup_nil, rfl, hrule⟩
  | some rule =>
    exact settles_follow .here (List.nodup_singleton tag) hrule (Nat.zero_add _)

theorem strands_of_resolve_eq_error (h : rules.resolve tag = .error e) :
    e.tag = tag ∧ rules.Strands e := by
  have hsettles := settles_resolve rules tag
  rwa [h] at hsettles

theorem not_strands (hstrands : rules.Strands e) (htrail : rules.Trail e.tag names last)
    (hrule : rules.find? last = some rule) (hkind : rule.kind ≠ .synonym) : False := by
  obtain ⟨passed, stop, -, hstop, -, hfault⟩ := hstrands
  have hends : ∀ d, ¬ rules.StandsFor last d := fun d => not_standsFor_of_kind_ne hrule hkind
  have hdeclared : rules.find? stop ≠ none := by
    intro hnone
    obtain ⟨-, rfl⟩ :=
      htrail.unique hstop hends fun d => not_standsFor_of_find?_eq_none hnone
    rw [hrule] at hnone
    cases hnone
  cases hcase : e.fault with
  | undeclared =>
    rw [hcase] at hfault
    exact hdeclared hfault.2
  | unknownTarget target =>
    rw [hcase] at hfault
    exact hdeclared hfault.2.2
  | cycle =>
    rw [hcase] at hfault
    exact hstop.not_ends_of_mem hfault htrail hends

theorem resolve_eq_ok_iff : rules.resolve tag = .ok rule ↔ ∃ names last,
    rules.Trail tag names last ∧ rules.find? last = some rule ∧ rule.kind ≠ .synonym := by
  have hsettles := settles_resolve rules tag
  constructor
  · intro h
    rwa [h] at hsettles
  · rintro ⟨names, last, htrail, hrule, hkind⟩
    cases hcase : rules.resolve tag with
    | error e =>
      rw [hcase] at hsettles
      obtain ⟨rfl, hstrands⟩ := hsettles
      exact (not_strands hstrands htrail hrule hkind).elim
    | ok found =>
      rw [hcase] at hsettles
      obtain ⟨names', last', htrail', hfound, hkind'⟩ := hsettles
      obtain ⟨-, rfl⟩ := htrail.unique htrail'
        (fun d => not_standsFor_of_kind_ne hrule hkind)
        (fun d => not_standsFor_of_kind_ne hfound hkind')
      rw [hrule, Option.some.injEq] at hfound
      rw [hfound]

/-! ### Lower case -/

theorem declare_of_notMem (h : name ∉ rules.map (·.1)) :
    rules.declare name rule = rules ++ [(name, rule)] := by
  induction rules with
  | nil => rfl
  | cons entry rules ih =>
    rw [List.map_cons, List.mem_cons, not_or] at h
    rw [declare, if_neg (Ne.symm h.1), ih h.2, List.cons_append]

theorem declareAll_of_nodup (h : ((acc ++ more).map (·.1)).Nodup) :
    acc.declareAll more = acc ++ more := by
  induction more generalizing acc with
  | nil => exact (List.append_nil acc).symm
  | cons entry more ih =>
    obtain ⟨name, rule⟩ := entry
    have hfresh : name ∉ acc.map (·.1) := by
      intro hmem
      rw [List.map_append] at h
      exact (List.nodup_append'.mp h).2.2 hmem (List.mem_cons_self ..)
    have hnext : ((acc ++ [(name, rule)] ++ more).map (·.1)).Nodup := by
      rwa [List.append_assoc, List.singleton_append]
    have hdeclare : acc.declareAll ((name, rule) :: more) =
        (acc.declare name rule).declareAll more := rfl
    rw [hdeclare, declare_of_notMem hfresh, ih hnext, List.append_assoc, List.singleton_append]

theorem lowered_eq_self (hnodup : (rules.map (·.1)).Nodup)
    (hlower : ∀ name ∈ rules.map (·.1), lowerName name = name) : rules.lowered = rules := by
  have hsame : ∀ entry ∈ rules, (lowerName entry.1, entry.2) = id entry := by
    intro entry hentry
    exact Prod.ext (hlower entry.1 (List.mem_map_of_mem hentry)) rfl
  have hlowered : rules.lowered =
      declareAll [] (rules.map fun entry => (lowerName entry.1, entry.2)) := rfl
  rw [hlowered, List.map_congr_left hsame, List.map_id]
  exact declareAll_of_nodup hnodup

end Declarations

/-! ### Tables -/

namespace RuleTable

open Declarations

variable {rules found : Declarations} {name : String} {names : List String} {table : RuleTable}

theorem resolveAll_cons_eq_ok (h : resolveAll rules (name :: names) = .ok found) :
    ∃ rule rest, rules.resolve name = .ok rule ∧ resolveAll rules names = .ok rest ∧
      found = (name, rule) :: rest := by
  rw [resolveAll] at h
  cases hrule : rules.resolve name with
  | error e =>
    rw [hrule] at h
    cases h
  | ok rule =>
    rw [hrule] at h
    cases hrest : resolveAll rules names with
    | error e =>
      rw [hrest] at h
      cases h
    | ok rest =>
      rw [hrest] at h
      cases h
      exact ⟨rule, rest, rfl, rfl, rfl⟩

theorem exists_resolveAll_iff : (∃ found, resolveAll rules names = .ok found) ↔
    ∀ name ∈ names, ∃ rule, rules.resolve name = .ok rule := by
  induction names with
  | nil => exact ⟨fun _ _ hname => absurd hname List.not_mem_nil, fun _ => ⟨[], rfl⟩⟩
  | cons name names ih =>
    rw [List.forall_mem_cons, ← ih]
    constructor
    · rintro ⟨found, hfound⟩
      obtain ⟨rule, rest, hrule, hrest, -⟩ := resolveAll_cons_eq_ok hfound
      exact ⟨⟨rule, hrule⟩, rest, hrest⟩
    · rintro ⟨⟨rule, hrule⟩, rest, hrest⟩
      refine ⟨(name, rule) :: rest, ?_⟩
      rw [resolveAll, hrule, hrest]
      rfl

theorem find?_resolveAll (h : resolveAll rules names = .ok found) (hname : name ∈ names) :
    found.find? name = (rules.resolve name).toOption := by
  induction names generalizing found with
  | nil => cases hname
  | cons first names ih =>
    obtain ⟨rule, rest, hrule, hrest, rfl⟩ := resolveAll_cons_eq_ok h
    by_cases heq : first = name
    · subst heq
      rw [find?_cons_self, hrule]
      rfl
    · rw [find?_cons_of_ne heq]
      exact ih hrest ((List.mem_cons.mp hname).resolve_left (Ne.symm heq))

theorem map_resolveAll (h : resolveAll rules names = .ok found) : found.map (·.1) = names := by
  induction names generalizing found with
  | nil =>
    cases h
    rfl
  | cons first names ih =>
    obtain ⟨rule, rest, -, hrest, rfl⟩ := resolveAll_cons_eq_ok h
    rw [List.map_cons, ih hrest]

theorem make_eq_ok_iff : make rules = .ok table ↔
    resolveAll rules.lowered (rules.lowered.map (·.1)) = .ok table.rules := by
  rw [make]
  cases resolveAll rules.lowered (rules.lowered.map (·.1)) with
  | error e =>
    constructor
    · intro h
      cases h
    · intro h
      cases h
  | ok found =>
    constructor
    · intro h
      cases h
      rfl
    · intro h
      cases h
      rfl

theorem find?_eq_resolve (h : make rules = .ok table) (tag : String) :
    table.find? tag = (rules.lowered.resolve (lowerName tag)).toOption := by
  rw [make_eq_ok_iff] at h
  rw [RuleTable.find?]
  by_cases hmem : lowerName tag ∈ rules.lowered.map (·.1)
  · exact find?_resolveAll h hmem
  · have hnone : rules.lowered.find? (lowerName tag) = none := find?_eq_none_iff.mpr hmem
    rw [Declarations.resolve, hnone, find?_eq_none_iff.mpr ((map_resolveAll h).symm ▸ hmem)]
    rfl

theorem kind_ne_of_find? {tag : String} {rule : Rule} (h : make rules = .ok table)
    (hfind : table.find? tag = some rule) : rule.kind ≠ .synonym := by
  rw [find?_eq_resolve h] at hfind
  cases hresolve : rules.lowered.resolve (lowerName tag) with
  | error e =>
    rw [hresolve] at hfind
    cases hfind
  | ok found =>
    rw [hresolve] at hfind
    cases hfind
    obtain ⟨_, _, -, -, hkind⟩ := resolve_eq_ok_iff.mp hresolve
    exact hkind

theorem find?_eq_none_iff_notMem {tag : String} (h : make rules = .ok table) :
    table.find? tag = none ↔ lowerName tag ∉ rules.lowered.map (·.1) := by
  rw [RuleTable.find?, find?_eq_none_iff, map_resolveAll (make_eq_ok_iff.mp h)]

end RuleTable

/-! ### Resolution is exact -/

namespace Declarations

/-- Resolving a name gives the rule at the end of its trail, and where there is none, an error
that carries the trail, which has passed each declaration once at most.  A table of different
names in lower case can be made when all of them resolve; it has a rule for these names only, and
none of its rules is an alias. -/
theorem resolve_exact :
    (∀ (rules : Declarations) (tag : String),
      (∀ rule, rules.resolve tag = .ok rule ↔ ∃ names last,
        rules.Trail tag names last ∧ rules.find? last = some rule ∧ rule.kind ≠ .synonym) ∧
      ∀ e, rules.resolve tag = .error e →
        e.tag = tag ∧ rules.Strands e ∧ e.chain.length ≤ rules.length + 1) ∧
    ∀ rules : Declarations, (rules.map (·.1)).Nodup →
      (∀ name ∈ rules.map (·.1), lowerName name = name) →
      ((∃ table, RuleTable.make rules = .ok table) ↔
        ∀ name ∈ rules.map (·.1), ∃ rule, rules.resolve name = .ok rule) ∧
      ∀ table, RuleTable.make rules = .ok table → ∀ tag : String,
        (∀ rule, table.find? tag = some rule → rule.kind ≠ .synonym) ∧
        (table.find? tag = none ↔ lowerName tag ∉ rules.map (·.1)) := by
  refine ⟨fun rules tag => ⟨fun rule => resolve_eq_ok_iff, fun e h => ?_⟩,
    fun rules hnodup hlower => ⟨?_, fun table h tag => ?_⟩⟩
  · obtain ⟨htag, hstrands⟩ := strands_of_resolve_eq_error h
    refine ⟨htag, hstrands, ?_⟩
    obtain ⟨names, last, hchain, htrail, hnames, -⟩ := hstrands
    have hle := length_le_of_nodup hnames fun name hname => htrail.isSome_of_mem hname
    rw [hchain, List.length_append, List.length_singleton]
    omega
  · have hlowered := lowered_eq_self hnodup hlower
    rw [← RuleTable.exists_resolveAll_iff]
    constructor
    · rintro ⟨table, h⟩
      rw [RuleTable.make_eq_ok_iff, hlowered] at h
      exact ⟨table.rules, h⟩
    · rintro ⟨found, h⟩
      refine ⟨⟨found⟩, ?_⟩
      rw [RuleTable.make_eq_ok_iff, hlowered]
      exact h
  · refine ⟨fun rule hfind => RuleTable.kind_ne_of_find? h hfind, ?_⟩
    rw [RuleTable.find?_eq_none_iff_notMem h, lowered_eq_self hnodup hlower]

/-- The kinds of lists, two of which have the rule of the first. -/
def listKinds : Declarations :=
  [("ul", .bare .wrap), ("ol", .aliasOf "ul"), ("menu", .aliasOf "ol")]

/-- A name that leads into a loop it is no part of, and one that leads nowhere. -/
def detours : Declarations :=
  [("dir", .aliasOf "ul"), ("ul", .aliasOf "ol"), ("ol", .aliasOf "ul"), ("dl", .aliasOf "dt")]

theorem resolve_listKinds_detours :
    listKinds.resolve "menu" = .ok (.bare .wrap) ∧
    (∃ table, RuleTable.make listKinds = .ok table ∧
      ∀ rule, table.find? "MENU" = some rule → rule.kind ≠ .synonym) ∧
    detours.Strands ⟨"dir", ["dir", "ul", "ol", "ul"], .cycle⟩ ∧
    detours.Strands ⟨"dl", ["dl", "dt"], .unknownTarget "dt"⟩ ∧
    detours.Strands ⟨"li", ["li"], .undeclared⟩ := by
  have hmenu : listKinds.resolve "menu" = .ok (.bare .wrap) :=
    ((resolve_exact.1 listKinds "menu").1 _).mpr ⟨["menu", "ol"], "ul",
      .step ⟨.aliasOf "ol", rfl, rfl, rfl⟩ (.step ⟨.aliasOf "ul", rfl, rfl, rfl⟩ .here),
      rfl, by decide⟩
  have hlists := resolve_exact.2 listKinds (by decide +kernel) (by decide +kernel)
  have hall : ∀ name ∈ listKinds.map (·.1), ∃ rule, listKinds.resolve name = .ok rule := by
    intro name hname
    refine ⟨.bare .wrap, ?_⟩
    revert name
    decide +kernel
  obtain ⟨table, htable⟩ := hlists.1.mpr hall
  refine ⟨hmenu, ⟨table, htable, (hlists.2 table htable "MENU").1⟩, ?_, ?_, ?_⟩
  · exact ((resolve_exact.1 detours "dir").2 _ (by decide +kernel)).2.1
  · exact ((resolve_exact.1 detours "dl").2 _ (by decide +kernel)).2.1
  · exact ((resolve_exact.1 detours "li").2 _ (by decide +kernel)).2.1

end Declarations

end Wikitext

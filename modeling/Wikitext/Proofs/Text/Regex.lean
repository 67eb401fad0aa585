/-
  Wikitext/Proofs/Text/Regex.lean
  ===============================
  **Regular expressions that backtrack.**  An expression is tried at a place of a text, and
  `Regex.ends` lists the places where it can end, in the order in which a search that backtracks
  comes upon them: the first alternative before the second, long repetitions before short ones if
  the repetition is greedy, and short ones before long ones if it is lazy.  The first of these
  places is the match, and `Regex.substitute` replaces the matches from left to right.

  Which match is preferred depends on the order, whether there is one does not.  So an expression
  is known by the texts it takes (`Regex.Takes`), part by part; where these tell the end of a
  match from its start, the order does not matter.
-/
import Mathlib.Data.List.Basic
import Wikitext.Link.Pattern

namespace Wikitext

/-! ### Places and words -/

/-- A place in a text: the characters before it, from there to the left, and those after it. -/
structure Spot where
  before : Text
  after : Text

/-- From the one place to the other stands the text `l`. -/
def Spot.Moves (p : Spot) (l : Text) (q : Spot) : Prop :=
  p.after = l ++ q.after ∧ q.before = l.reverse ++ p.before

/-- The characters of words.  In ASCII these are letters, digits and the underscore; which others
there are is a matter of the edition of Unicode. -/
structure WordClass where
  has : Char → Bool
  ascii : ∀ c, c.toNat < 0x80 → has c = (c.isAlphanum || c == '_')

/-- Only letters, digits and the underscore of ASCII. -/
def WordClass.basic : WordClass where
  has c := c.isAlphanum || c == '_'
  ascii _ _ := rfl

/-- A word starts or ends at the place. -/
def WordClass.atEdge (w : WordClass) (p : Spot) : Bool :=
  p.before.head?.any w.has != p.after.head?.any w.has

/-! ### Expressions -/

/-- A regular expression over the characters of a text. -/
inductive Regex where
  /-- No character. -/
  | nothing
  /-- One character of a class. -/
  | one (k : CharClass)
  /-- The start or the end of a word. -/
  | wordEdge
  | seq (r s : Regex)
  /-- The one or the other, tried in this order. -/
  | either (r s : Regex)
  /-- Any number of characters of a class, the more the better. -/
  | greedy (k : CharClass)
  /-- Any number of characters of a class, the fewer the better. -/
  | lazily (k : CharClass)

namespace Regex

/-- A text, character by character. -/
def literal (l : Text) : Regex :=
  l.foldr (fun c r => seq (one (.only c)) r) nothing

/-- One of the texts, tried in their order. -/
def oneOf (l : Text) : List Text → Regex
  | [] => literal l
  | m :: ls => either (literal l) (oneOf m ls)

/-- Ends of a greedy repetition. -/
def greedyEnds (k : CharClass) (before : Text) : Text → List Spot
  | [] => [⟨before, []⟩]
  | c :: t => (if k.has c then greedyEnds k (c :: before) t else []) ++ [⟨before, c :: t⟩]

/-- Ends of a lazy repetition. -/
def lazyEnds (k : CharClass) (before : Text) : Text → List Spot
  | [] => [⟨before, []⟩]
  | c :: t => ⟨before, c :: t⟩ :: if k.has c then lazyEnds k (c :: before) t else []

/-- The places where an expression that starts at a place can end, the preferred ones first. -/
def ends (w : WordClass) : Regex → Spot → List Spot
  | nothing, p => [p]
  | one k, p =>
    match p.after with
    | [] => []
    | c :: t => if k.has c then [⟨c :: p.before, t⟩] else []
  | wordEdge, p => if w.atEdge p then [p] else []
  | seq r s, p => (r.ends w p).flatMap (s.ends w)
  | either r s, p => r.ends w p ++ s.ends w p
  | greedy k, p => greedyEnds k p.before p.after
  | lazily k, p => lazyEnds k p.before p.after

/-- The length of the match at a place. -/
def matched? (w : WordClass) (r : Regex) (p : Spot) : Option Nat :=
  (r.ends w p).head?.map fun q => p.after.length - q.after.length

/-- Replaces matches from left to right after the characters `before`; `skip` characters of the
last match are still to be passed over.  An empty match is none. -/
def substituteFrom (w : WordClass) (r : Regex) (new : Text → Text) (before : Text) :
    Nat → Text → Text
  | _, [] => []
  | skip + 1, c :: t => substituteFrom w r new (c :: before) skip t
  | 0, c :: t =>
    match r.matched? w ⟨before, c :: t⟩ with
    | some (n + 1) => new ((c :: t).take (n + 1)) ++ substituteFrom w r new (c :: before) n t
    | _ => c :: substituteFrom w r new (c :: before) 0 t

/-- Replaces the leftmost matches that do not overlap. -/
def substitute (w : WordClass) (r : Regex) (new : Text → Text) (t : Text) : Text :=
  substituteFrom w r new [] 0 t

/-! ### What an expression takes -/

variable {w : WordClass} {r s : Regex} {L M : Text → Prop} {k : CharClass} {p q e : Spot}
  {l m : Text}

theorem moves_append_iff : p.Moves (l ++ m) e ↔ ∃ q, p.Moves l q ∧ q.Moves m e := by
  constructor
  · rintro ⟨hafter, hbefore⟩
    refine ⟨⟨l.reverse ++ p.before, m ++ e.after⟩, ⟨?_, rfl⟩, rfl, ?_⟩
    · rw [hafter, List.append_assoc]
    · rw [hbefore, List.reverse_append, List.append_assoc]
  · rintro ⟨q, ⟨hafter, hbefore⟩, hafter', hbefore'⟩
    constructor
    · rw [hafter, hafter', List.append_assoc]
    · rw [hbefore', hbefore, List.reverse_append, List.append_assoc]

theorem moves_nil_iff : p.Moves [] e ↔ e = p := by
  obtain ⟨before, after⟩ := p
  obtain ⟨before', after'⟩ := e
  simp only [Spot.Moves, List.nil_append, List.reverse_nil, Spot.mk.injEq]
  exact ⟨fun h => ⟨h.2, h.1.symm⟩, fun h => ⟨h.2.symm, h.1⟩⟩

/-- The expression takes the texts in `L`, wherever they stand. -/
def Takes (w : WordClass) (r : Regex) (L : Text → Prop) : Prop :=
  ∀ p e, e ∈ r.ends w p ↔ ∃ l, L l ∧ p.Moves l e

theorem Takes.congr (h : Takes w r L) (hLM : ∀ l, L l ↔ M l) : Takes w r M := by
  intro p e
  rw [h p e]
  exact exists_congr fun l => and_congr_left' (hLM l)

theorem takes_nothing : Takes w nothing fun l => l = [] := by
  intro p e
  rw [ends, List.mem_singleton, exists_eq_left, moves_nil_iff]

theorem takes_one : Takes w (one k) fun l => ∃ c, l = [c] ∧ k.has c = true := by
  rintro ⟨before, after⟩ e
  constructor
  · intro h
    cases after with
    | nil => cases h
    | cons c t =>
      simp only [ends] at h
      split at h
      · next hc =>
        rw [List.mem_singleton.mp h]
        exact ⟨[c], ⟨c, rfl, hc⟩, rfl, rfl⟩
      · cases h
  · rintro ⟨-, ⟨c, rfl, hc⟩, hafter, hbefore⟩
    obtain rfl : after = [c] ++ e.after := hafter
    obtain ⟨before', after'⟩ := e
    obtain rfl : before' = c :: before := hbefore
    simp [ends, hc]

theorem Takes.seq (hr : Takes w r L) (hs : Takes w s M) :
    Takes w (seq r s) fun t => ∃ l m, t = l ++ m ∧ L l ∧ M m := by
  intro p e
  simp only [ends, List.mem_flatMap]
  constructor
  · rintro ⟨q, hq, he⟩
    obtain ⟨l, hl, hpq⟩ := (hr p q).mp hq
    obtain ⟨m, hm, hqe⟩ := (hs q e).mp he
    exact ⟨l ++ m, ⟨l, m, rfl, hl, hm⟩, moves_append_iff.mpr ⟨q, hpq, hqe⟩⟩
  · rintro ⟨-, ⟨l, m, rfl, hl, hm⟩, hmoves⟩
    obtain ⟨q, hpq, hqe⟩ := moves_append_iff.mp hmoves
    exact ⟨q, (hr p q).mpr ⟨l, hl, hpq⟩, (hs q e).mpr ⟨m, hm, hqe⟩⟩

theorem Takes.either (hr : Takes w r L) (hs : Takes w s M) :
    Takes w (either r s) fun l => L l ∨ M l := by
  intro p e
  rw [ends, List.mem_append, hr p e, hs p e]
  simp only [or_and_right, exists_or]

/-- Both kinds of repetition end at the same places. -/
theorem mem_lazyEnds_iff {before t : Text} :
    e ∈ lazyEnds k before t ↔ e ∈ greedyEnds k before t := by
  induction t generalizing before with
  | nil => rfl
  | cons c t ih =>
    rw [lazyEnds, greedyEnds]
    split
    · rw [List.mem_cons, List.mem_append, List.mem_singleton, ih, or_comm]
    · simp

theorem takes_greedy : Takes w (greedy k) fun l => ∀ c ∈ l, k.has c = true := by
  rintro ⟨before, after⟩ e
  change e ∈ greedyEnds k before after ↔ _
  induction after generalizing before with
  | nil =>
    rw [greedyEnds, List.mem_singleton, ← moves_nil_iff]
    constructor
    · intro h
      exact ⟨[], by simp, h⟩
    · rintro ⟨l, -, hafter, hbefore⟩
      obtain ⟨rfl, hnil⟩ := List.append_eq_nil_iff.mp hafter.symm
      exact ⟨hafter, hbefore⟩
  | cons c t ih =>
    rw [greedyEnds, List.mem_append, List.mem_singleton, ← moves_nil_iff]
    constructor
    · rintro (h | h)
      · split at h
        · next hc =>
          obtain ⟨l, hl, hmoves⟩ := (ih (c :: before)).mp h
          refine ⟨c :: l, List.forall_mem_cons.mpr ⟨hc, hl⟩, ?_⟩
          exact moves_append_iff (l := [c]).mpr ⟨⟨c :: before, t⟩, ⟨rfl, rfl⟩, hmoves⟩
        · cases h
      · exact ⟨[], by simp, h⟩
    · rintro ⟨l, hl, hmoves⟩
      cases l with
      | nil => exact Or.inr hmoves
      | cons d l =>
        have hd : k.has d = true := hl d (List.mem_cons_self ..)
        have htail : ∀ c ∈ l, k.has c = true := fun c hc => hl c (List.mem_cons_of_mem _ hc)
        obtain ⟨⟨before', after'⟩, ⟨hafter, hbefore⟩, hrest⟩ := moves_append_iff (l := [d]).mp hmoves
        obtain ⟨rfl, rfl⟩ := List.cons.inj hafter
        obtain rfl : before' = c :: before := hbefore
        rw [if_pos hd]
        exact Or.inl ((ih (c :: before)).mpr ⟨l, htail, hrest⟩)

theorem takes_lazily : Takes w (lazily k) fun l => ∀ c ∈ l, k.has c = true := by
  intro p e
  rw [ends, mem_lazyEnds_iff]
  exact takes_greedy (w := w) p e

theorem has_only {c d : Char} : (CharClass.only c).has d = true ↔ d = c := by
  have hle : c ≤ d ∧ d ≤ c ↔ d = c :=
    ⟨fun h => Char.le_antisymm h.2 h.1, fun h => by rw [h]; exact ⟨Char.le_refl c, Char.le_refl c⟩⟩
  simp [CharClass.has, CharClass.only, hle]

theorem takes_literal (l : Text) : Takes w (literal l) fun t => t = l := by
  induction l with
  | nil => exact takes_nothing
  | cons c l ih =>
    refine (takes_one.seq ih).congr fun t => ?_
    constructor
    · rintro ⟨-, -, rfl, ⟨d, rfl, hd⟩, rfl⟩
      rw [has_only.mp hd]
      rfl
    · rintro rfl
      exact ⟨[c], l, rfl, ⟨c, rfl, has_only.mpr rfl⟩, rfl⟩

theorem takes_oneOf (l : Text) (ls : List Text) : Takes w (oneOf l ls) fun t => t ∈ l :: ls := by
  induction ls generalizing l with
  | nil =>
    refine (takes_literal l).congr fun t => ?_
    rw [List.mem_singleton]
  | cons m ls ih =>
    refine ((takes_literal l).either (ih m)).congr fun t => ?_
    rw [List.mem_cons (a := t) (b := l)]

/-- Between a character that is in no word and one that is, a word starts. -/
theorem Takes.afterEdge {c : Char} (hc : w.has c = false) (hs : Takes w s M)
    (hM : ∀ m, M m → m.head?.any w.has = true) :
    Takes w (Regex.seq (one (.only c)) (Regex.seq wordEdge s)) fun t => ∃ m, t = c :: m ∧ M m := by
  intro p e
  have hedge : ∀ q, p.Moves [c] q → (e ∈ (Regex.seq wordEdge s).ends w q ↔
      ∃ m, M m ∧ q.Moves m e) := by
    rintro ⟨before, after⟩ ⟨-, hbefore⟩
    obtain rfl : before = c :: p.before := hbefore
    simp only [ends]
    by_cases hat : w.atEdge ⟨c :: p.before, after⟩ = true
    · rw [if_pos hat, List.flatMap_singleton]
      exact hs _ e
    · rw [if_neg hat]
      constructor
      · intro h
        cases h
      · rintro ⟨m, hm, hafter, -⟩
        refine absurd ?_ hat
        have hhead := hM m hm
        cases m with
        | nil => cases hhead
        | cons d m =>
          obtain rfl : after = d :: m ++ e.after := hafter
          have hd : w.has d = true := hhead
          simp [WordClass.atEdge, hc, hd]
  rw [ends, List.mem_flatMap]
  constructor
  · rintro ⟨q, hq, he⟩
    obtain ⟨-, ⟨d, rfl, hd⟩, hpq⟩ := (takes_one p q).mp hq
    rw [has_only.mp hd] at hpq
    obtain ⟨m, hm, hqe⟩ := (hedge q hpq).mp he
    exact ⟨[c] ++ m, ⟨m, rfl, hm⟩, moves_append_iff.mpr ⟨q, hpq, hqe⟩⟩
  · rintro ⟨-, ⟨m, rfl, hm⟩, hmoves⟩
    obtain ⟨q, hpq, hqe⟩ := moves_append_iff (l := [c]).mp hmoves
    exact ⟨q, (takes_one p q).mpr ⟨[c], ⟨c, rfl, has_only.mpr rfl⟩, hpq⟩,
      (hedge q hpq).mpr ⟨m, hm, hqe⟩⟩

/-- Where all matches that start at a place have one length, this is the length of the match. -/
theorem matched?_eq (h : Takes w r L) {found : Option Nat}
    (hfound : ∀ n, found = some n ↔ ∃ l u, p.after = l ++ u ∧ L l ∧ l.length = n) :
    r.matched? w p = found := by
  have hends : ∀ e ∈ r.ends w p, found = some (p.after.length - e.after.length) := by
    intro e he
    obtain ⟨l, hl, hafter, -⟩ := (h p e).mp he
    refine (hfound _).mpr ⟨l, e.after, hafter, hl, ?_⟩
    rw [hafter, List.length_append, Nat.add_sub_cancel]
  rw [matched?]
  cases hlist : r.ends w p with
  | nil =>
    cases hnone : found with
    | none => rfl
    | some n =>
      obtain ⟨l, u, hafter, hl, -⟩ := (hfound n).mp hnone
      have hmem : ⟨l.reverse ++ p.before, u⟩ ∈ r.ends w p := (h p _).mpr ⟨l, hl, hafter, rfl⟩
      rw [hlist] at hmem
      cases hmem
  | cons e es =>
    rw [List.head?_cons, Option.map_some]
    exact (hends e (by rw [hlist]; exact List.mem_cons_self ..)).symm

end Regex

end Wikitext

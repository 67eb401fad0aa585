/-
  Wikitext/Proofs/Conversion/FreeTables.lean
  ==========================================
  **Tables that stand free.**  A table is balanced if the walk comes to both of its marks at the
  start of a line, or to neither.  Two things take a mark from the start of its line: an element
  that puts its content behind a mark of its own, and content of the table that does not end its
  line.  A table is free of both if all of its content ends the line, and if every list item, header
  cell and caption around it begins with a text that can be seen (`Node.isFree`).

  Three invariants are carried through a tree by one induction (`Trace.Kept`).  Outside of trimmed
  contents nothing is waited for, so line feeds start lines (`kept_unlead`); on one line no other
  line starts, so nothing more is met (`kept_muted`); and without tables nothing is met at all
  (`kept_marks`).  From these, and from where the content of a table ends (`start_walkAll`), one
  lemma on the treatments has the balance (`surplus_walkTreated`).
-/
import Wikitext.Proofs.Conversion.Orderly
import Wikitext.Proofs.Conversion.TableWalk

namespace Wikitext

open Text Trace

namespace Node

/-! ### Where tables stand free -/

/-- The elements whose content follows a mark on the same line. -/
def confiningTags : List String := ["li", "dt", "dd", "th", "caption"]

/-- The elements that end their line. -/
def lineTags : List String :=
  ["table", "caption", "td", "th", "p", "ul", "ol", "dl", "hr", "h1", "h2", "h3", "h4", "h5", "h6"]

mutual
def isTableless : Node → Bool
  | .element name _ children => lowerName name != "table" && isTablelessAll children
  | _ => true

def isTablelessAll : List Node → Bool
  | [] => true
  | node :: nodes => isTableless node && isTablelessAll nodes
end

mutual
/-- Whether a line starts behind a node that stands at the start of a line.  Rows and groups of rows
end their line if all of their content does. -/
def endsLine : Node → Bool
  | .text content _ => content.isWhite
  | .special _ _ => false
  | .element name _ children =>
    lineTags.contains (lowerName name) || rowTags.contains (lowerName name) && endsLineAll children

def endsLineAll : List Node → Bool
  | [] => true
  | node :: nodes => endsLine node && endsLineAll nodes
end

/-- Whether nodes begin with a text that can be seen. -/
def isHeaded : List Node → Bool
  | .text content _ :: _ => !content.isWhite
  | _ => false

mutual
/-- Whether the tables in a prepared node stand free. -/
def isFree : Node → Bool
  | .element name _ children =>
    (!confiningTags.contains (lowerName name) || isTablelessAll children || isHeaded children) &&
      (lowerName name != "table" || endsLineAll children) && isFreeAll children
  | _ => true

def isFreeAll : List Node → Bool
  | [] => true
  | node :: nodes => isFree node && isFreeAll nodes
end

end Node

/-! ### Invariants of the walk -/

namespace Trace

/-- A property that going on does not change, in texts that are flat as `flats` says. -/
structure Kept (flats : Bool → Prop) (Q : Trace → Prop) : Prop where
  single : flats true
  pass : ∀ {flat : Bool} {r : Trace} (t : Text), flats flat → Q r → Q (r.pass flat t)
  trimmed : ∀ (policy : TrimPolicy) {inner : Trace → Trace} {r : Trace},
    (∀ r, Q r → Q (inner r)) → Q r → Q (trimmed policy inner r)

variable {flat : Bool} {r before : Trace} {t : Text} {policy : TrimPolicy} {inner : Trace → Trace}
  {flats : Bool → Prop} {Q : Trace → Prop}

@[simp] theorem await_marks (r : Trace) : r.await.marks = r.marks := by
  rw [await]
  split <;> rfl

@[simp] theorem resume_marks (before r : Trace) : (resume before r).marks = r.marks := by
  rw [resume]
  split <;> rfl

theorem await_of_ne (h : r.cursor ≠ .mid) : r.await = r := if_neg h

theorem resume_of_ne (h : before.cursor ≠ .mid) (r : Trace) : resume before r = r :=
  if_neg fun hmid => h hmid.1

theorem read_ne_start (h : r.cursor ≠ .start) (t : Text) : (r.read true t).cursor ≠ .start := by
  induction t generalizing r with
  | nil => exact h
  | cons x t ih =>
    refine ih ?_
    obtain ⟨c, ms⟩ := r
    cases c with
    | start => exact absurd rfl h
    | _ =>
      simp only [step, Cursor.next]
      split_ifs <;> simp_all

/-- What can be seen is in a line. -/
theorem read_visible (ht : t.isWhite = false) (flat : Bool) (r : Trace) :
    (r.read flat t).cursor ≠ .lead ∧ (flat = true → (r.read flat t).cursor ≠ .start) := by
  induction t generalizing r with
  | nil => cases ht
  | cons x t ih =>
    rw [read_cons]
    cases hx : isSpace x with
    | true =>
      refine ih ?_ _
      simpa [isWhite, hx] using ht
    | false =>
      have hstep : (r.step flat x).cursor ≠ .lead ∧ (r.step flat x).cursor ≠ .start := by
        simp only [step, Cursor.next, hx]
        split_ifs <;> simp_all
      refine ⟨read_ne_lead hstep.1 flat t, ?_⟩
      rintro rfl
      exact read_ne_start hstep.2 t

/-- Outside of a trimmed content nothing is waited for. -/
theorem kept_unlead : Kept (fun _ => True) (·.cursor ≠ .lead) where
  single := trivial
  pass := fun t _ h => read_ne_lead h _ t
  trimmed := by
    intro policy inner r hinner h
    rw [Trace.trimmed]
    split
    · by_cases hmid : r.cursor = .mid
      · rw [resume]
        split
        · simp
        · next hlead => exact fun hin => hlead ⟨hmid, hin⟩
      · rw [resume_of_ne hmid, await_of_ne hmid]
        exact hinner r h
    · exact hinner r h

/-- On one line nothing more is met. -/
theorem kept_muted (ms : List TableMark) :
    Kept (· = true) fun r => r.cursor ≠ .start ∧ r.marks = ms where
  single := rfl
  pass := by
    rintro flat r t rfl ⟨h, hms⟩
    exact ⟨read_ne_start h t, hms⟩
  trimmed := by
    rintro policy inner r hinner ⟨h, hms⟩
    have hawait : r.await.cursor ≠ .start := by
      rw [await]
      split
      · simp
      · exact h
    rw [Trace.trimmed]
    split
    · obtain ⟨hstart, hmarks⟩ := hinner r.await ⟨hawait, by rw [await_marks, hms]⟩
      refine ⟨?_, by rw [resume_marks, hmarks]⟩
      rw [resume]
      split
      · simp
      · exact hstart
    · exact hinner r ⟨h, hms⟩

/-- Without tables nothing is met. -/
theorem kept_marks (ms : List TableMark) : Kept (fun _ => True) (·.marks = ms) where
  single := trivial
  pass := fun _ _ h => h
  trimmed := by
    intro policy inner r hinner h
    rw [Trace.trimmed]
    split
    · rw [resume_marks]
      exact hinner _ (by rw [await_marks, h])
    · exact hinner r h

theorem Kept.flat_or (hQ : Kept flats Q) (h : flats flat) (single : Bool) :
    flats (flat || single) := by
  cases single with
  | false => rwa [Bool.or_false]
  | true =>
    rw [Bool.or_true]
    exact hQ.single

end Trace

/-- The mark that opens a table or the one that closes it. -/
def Fragment.marksTable (f : Fragment) : Bool :=
  decide (f = .feature .tableStart ∨ f = .literal tableEnd)

def Treatment.marksTable : Treatment → Bool
  | .wrapped rule => rule.opening.marksTable || rule.closing.marksTable
  | _ => false

namespace Session

variable {s : Session} {e : PlacedElement} {f : Fragment} {content : Report UrlError Text}

theorem passFragment_of_marksTable (h : f.marksTable = false) (flat : Bool) (r : Trace) :
    s.passFragment e content f flat r = r.pass flat (s.expand e content f).text := by
  rw [Fragment.marksTable, decide_eq_false_iff_not, not_or] at h
  rw [passFragment, if_neg h.1, if_neg h.2]

/-- Only tables have the marks of tables. -/
theorem eq_table_of_marksTable {name : String}
    (h : ((mediaWiki {}).treatment (lowerName name)).marksTable = true) :
    lowerName name = "table" := by
  have htag := treatment_induction
    (P := fun tag t => t.marksTable = true → tag = "table") {} (lowerName name)
    (by decide +kernel) nofun nofun nofun
  exact lowerName_eq_of_lowerName (by decide) (htag h)

end Session

namespace Trace.Kept

open Session

variable {s : Session} {flats : Bool → Prop} {Q : Trace → Prop} {e : PlacedElement} {f : Fragment}
  {content : Report UrlError Text} {inner : Bool → Trace → Trace} {treatment : Treatment}
  {flat : Bool} {r : Trace}

theorem passFragment (hQ : Kept flats Q)
    (hmeet : f.marksTable = true → ∀ mark r, Q r → Q (r.meet mark)) (hflat : flats flat)
    (h : Q r) : Q (s.passFragment e content f flat r) := by
  rw [Session.passFragment]
  split_ifs with hstart hend
  · exact hQ.pass _ hflat (hmeet (by simp [Fragment.marksTable, hstart]) _ _ h)
  · exact hmeet (by simp [Fragment.marksTable, hend]) _ _ h
  · exact hQ.pass _ hflat h

theorem walkTreated (hQ : Kept flats Q)
    (hmeet : treatment.marksTable = true → ∀ mark r, Q r → Q (r.meet mark))
    (hinner : ∀ flat, flats flat → ∀ r, Q r → Q (inner flat r)) (hflat : flats flat) (h : Q r) :
    Q (s.walkTreated e content inner treatment flat r) := by
  have hmid := hinner flat hflat
  cases treatment with
  | dropped => exact h
  | unwrapped => exact hmid r h
  | replaced f =>
    rw [Session.walkTreated]
    split_ifs
    · exact hQ.pass _ hflat h
    · exact hmid r h
    · exact hQ.pass _ hflat (hmid _ (hQ.pass _ hflat h))
  | void rule => exact hQ.pass _ hflat h
  | tagged rule => exact hQ.pass _ hflat (hmid _ (hQ.pass _ hflat h))
  | wrapped rule =>
    rw [Session.walkTreated]
    split
    · have hopening : rule.opening.marksTable = true → ∀ mark r, Q r → Q (r.meet mark) :=
        fun hmark => hmeet (by simp [Treatment.marksTable, hmark])
      have hclosing : rule.closing.marksTable = true → ∀ mark r, Q r → Q (r.meet mark) :=
        fun hmark => hmeet (by simp [Treatment.marksTable, hmark])
      refine hQ.pass _ hflat (hQ.passFragment hclosing hflat ?_)
      refine hQ.trimmed rule.trim (hinner _ (hQ.flat_or hflat _)) ?_
      exact hQ.passFragment hopening hflat (hQ.pass rule.gap hflat h)
    · exact hQ.pass _ hflat h

mutual
theorem walk (hQ : Kept flats Q) : ∀ (node : Node) (around : Surroundings) {flat : Bool}
    {r : Trace}, (node.isTableless = false → ∀ mark r, Q r → Q (r.meet mark)) → flats flat → Q r →
      Q ((mediaWiki {}).walk around node flat r)
  | .text content _, around, flat, r, hmeet, hflat, h => hQ.pass content hflat h
  | .special kind content, around, flat, r, hmeet, hflat, h => by
    cases kind with
    | comment => exact hQ.pass _ hflat h
    | _ => exact h
  | .element name attributes children, around, flat, r, hmeet, hflat, h => by
    refine hQ.walkTreated (fun hmark => hmeet ?_) (fun flat hflat r h => ?_) hflat h
    · simp [Node.isTableless, eq_table_of_marksTable hmark]
    · refine walkAll hQ children _ _ (fun hall => hmeet ?_) hflat h
      simp [Node.isTableless, hall]

theorem walkAll (hQ : Kept flats Q) : ∀ (nodes : List Node) (ancestors : List Frame)
    (preceded : Bool) {flat : Bool} {r : Trace},
    (Node.isTablelessAll nodes = false → ∀ mark r, Q r → Q (r.meet mark)) → flats flat → Q r →
      Q ((mediaWiki {}).walkAll ancestors preceded nodes flat r)
  | [], ancestors, preceded, flat, r, hmeet, hflat, h => h
  | node :: nodes, ancestors, preceded, flat, r, hmeet, hflat, h => by
    refine walkAll hQ nodes _ _ (fun hall => hmeet ?_) hflat
      (walk hQ node _ (fun hnode => hmeet ?_) hflat h)
    · simp [Node.isTablelessAll, hall]
    · simp [Node.isTablelessAll, hnode]
end

end Trace.Kept

namespace Session

open Node

variable {nodes : List Node} {r : Trace}

theorem walkAll_ne_lead (nodes : List Node) (ancestors : List Frame) (preceded flat : Bool)
    (h : r.cursor ≠ .lead) :
    ((mediaWiki {}).walkAll ancestors preceded nodes flat r).cursor ≠ .lead :=
  kept_unlead.walkAll nodes ancestors preceded (fun _ mark r _ => by simp [meet]) trivial h

theorem walk_ne_lead (node : Node) (around : Surroundings) (flat : Bool) (h : r.cursor ≠ .lead) :
    ((mediaWiki {}).walk around node flat r).cursor ≠ .lead :=
  kept_unlead.walk node around (fun _ mark r _ => by simp [meet]) trivial h

theorem walkAll_muted (nodes : List Node) (ancestors : List Frame) (preceded : Bool)
    (h : r.cursor ≠ .start) :
    ((mediaWiki {}).walkAll ancestors preceded nodes true r).cursor ≠ .start ∧
      ((mediaWiki {}).walkAll ancestors preceded nodes true r).marks = r.marks := by
  refine (kept_muted r.marks).walkAll nodes ancestors preceded (fun _ mark r h => ?_) rfl ⟨h, rfl⟩
  exact ⟨by simp [meet], by rw [meet, if_neg h.1, h.2]⟩

theorem marks_walkAll_of_isTablelessAll (hnodes : isTablelessAll nodes = true)
    (ancestors : List Frame) (preceded flat : Bool) (r : Trace) :
    ((mediaWiki {}).walkAll ancestors preceded nodes flat r).marks = r.marks := by
  refine (kept_marks r.marks).walkAll nodes ancestors preceded (fun hall => ?_) trivial rfl
  rw [hnodes] at hall
  cases hall

end Session

/-! ### Ends of lines -/

/-- The element ends its line, whatever its content is. -/
def Treatment.endsLine : Treatment → Bool
  | .replaced (.literal t) => t.getLast? == some '\n'
  | .wrapped rule =>
    rule.linePrefix.isEmpty && (rule.block || decide (rule.closing = .literal ['\n']))
  | _ => false

/-- The element adds to its content at most the mark of a row. -/
def Treatment.isRow : Treatment → Bool
  | .unwrapped => true
  | .wrapped rule => rule.isBare && decide (rule.opening = .feature .rowStart) &&
      decide (rule.closing = .literal [])
  | _ => false

namespace Trace

variable {r : Trace} {t : Text}

theorem read_getLast (h : r.cursor ≠ .lead) (ht : t.getLast? = some '\n') :
    (r.read false t).cursor = .start := by
  obtain ⟨u, rfl⟩ := List.getLast?_eq_some_iff.mp ht
  rw [read_append, read_cons, read_nil, TableMark.step_newline (read_ne_lead h false u)]

theorem read_white (h : r.cursor = .start) (ht : t.isWhite = true) (flat : Bool) :
    (r.read flat t).cursor = .start := by
  induction t generalizing r with
  | nil => exact h
  | cons x t ih =>
    have hx : isSpace x = true ∧ isWhite t = true := by simpa [isWhite] using ht
    refine ih ?_ hx.2
    rw [step_of_isSpace hx.1, h]
    simp [Cursor.next, hx.1]

theorem read_gap_of_block {rule : Rule} (hblock : rule.block = true) (h : r.cursor ≠ .lead) :
    (r.read false rule.gap).cursor = .start := by
  rw [Rule.gap, if_pos hblock]
  exact read_getLast h rfl

theorem read_gap_of_start (h : r.cursor = .start) (rule : Rule) (flat : Bool) :
    (r.read flat rule.gap).cursor = .start := by
  refine read_white h ?_ flat
  rw [Rule.gap]
  split <;> rfl

theorem trimmed_of_start (h : r.cursor = .start) (policy : TrimPolicy) (inner : Trace → Trace) :
    trimmed policy inner r = inner r := by
  have hmid : r.cursor ≠ .mid := by simp [h]
  rw [trimmed, await_of_ne hmid, resume_of_ne hmid, ite_self]

end Trace

namespace Session

open Node

theorem endsLine_treatment : ∀ tag ∈ lineTags, ((mediaWiki {}).treatment tag).endsLine = true := by
  decide +kernel

theorem isRow_treatment : ∀ tag ∈ rowTags, ((mediaWiki {}).treatment tag).isRow = true := by
  decide +kernel

section Ends

variable {s : Session} {e : PlacedElement} {content : Report UrlError Text}
  {inner : Bool → Trace → Trace} {treatment : Treatment} {r : Trace}

theorem passFragment_ne_lead (s : Session) (e : PlacedElement) (content : Report UrlError Text)
    (f : Fragment) (flat : Bool) (h : r.cursor ≠ .lead) :
    (s.passFragment e content f flat r).cursor ≠ .lead :=
  kept_unlead.passFragment (fun _ mark r _ => by simp [meet]) trivial h

theorem start_walkTreated_of_endsLine (hends : treatment.endsLine = true)
    (hinner : ∀ flat r, r.cursor ≠ .lead → (inner flat r).cursor ≠ .lead)
    (h : r.cursor = .start) :
    (s.walkTreated e content inner treatment false r).cursor = .start := by
  have hlead : r.cursor ≠ .lead := by simp [h]
  cases treatment with
  | replaced f =>
    cases f with
    | literal t =>
      have hlast : t.getLast? = some '\n' := by simpa [Treatment.endsLine] using hends
      rw [walkTreated, if_pos (by simp)]
      exact read_getLast hlead hlast
    | feature f => cases hends
  | wrapped rule =>
    rw [Treatment.endsLine, Bool.and_eq_true, Bool.or_eq_true, decide_eq_true_eq,
      List.isEmpty_iff] at hends
    obtain ⟨hline, hends⟩ := hends
    have hgap : (r.pass false rule.gap).cursor ≠ .lead := read_ne_lead hlead false rule.gap
    have hopened := passFragment_ne_lead s e content rule.opening false hgap
    have hfilled := kept_unlead.trimmed rule.trim
      (hinner (false || decide (rule.lineFormat = .single))) hopened
    rw [walkTreated_wrapped hline]
    rcases hends with hblock | hclosing
    · exact read_gap_of_block hblock (passFragment_ne_lead s e content rule.closing false hfilled)
    · refine read_gap_of_start ?_ rule false
      rw [hclosing, passFragment_of_marksTable (by decide)]
      exact read_getLast hfilled rfl
  | dropped => cases hends
  | unwrapped => cases hends
  | void rule => cases hends
  | tagged rule => cases hends

theorem start_rowStart (around : Surroundings) (attributes : Attributes) (h : r.cursor = .start) :
    (r.read false (Element.rowStart around attributes)).cursor = .start := by
  have hlead : r.cursor ≠ .lead := by simp [h]
  rw [Element.rowStart]
  split
  · split
    · exact read_getLast hlead rfl
    · exact h
  · exact read_getLast hlead List.getLast?_concat

theorem start_walkTreated_of_isRow (hrow : treatment.isRow = true)
    (hinner : ∀ r, r.cursor = .start → (inner false r).cursor = .start) (h : r.cursor = .start) :
    (s.walkTreated e content inner treatment false r).cursor = .start := by
  cases treatment with
  | unwrapped => exact hinner r h
  | wrapped rule =>
    simp only [Treatment.isRow, Rule.isBare, Bool.and_eq_true, Bool.not_eq_true', List.isEmpty_iff,
      decide_eq_true_eq] at hrow
    obtain ⟨⟨⟨⟨hline, -⟩, hformat, -⟩, hopening⟩, hclosing⟩ := hrow
    have hgap : (r.pass false rule.gap).cursor = .start := read_gap_of_start h rule false
    have hopened : ((r.pass false rule.gap).pass false
        (s.expand e content (.feature .rowStart)).text).cursor = .start :=
      start_rowStart e.around e.attributes hgap
    rw [walkTreated_wrapped hline, hopening, hclosing, passFragment_of_marksTable rfl,
      passFragment_of_marksTable rfl, trimmed_of_start hopened, hformat]
    exact read_gap_of_start (hinner _ hopened) rule false
  | dropped => cases hrow
  | replaced f => cases hrow
  | void rule => cases hrow
  | tagged rule => cases hrow

end Ends

mutual
theorem start_walk : ∀ (node : Node) (around : Surroundings) {r : Trace}, node.endsLine = true →
    r.cursor = .start → ((mediaWiki {}).walk around node false r).cursor = .start
  | .text content _, around, r, hends, h => read_white h hends false
  | .special _ _, around, r, hends, h => by cases hends
  | .element name attributes children, around, r, hends, h => by
    rw [endsLine, Bool.or_eq_true, Bool.and_eq_true, List.contains_iff_mem,
      List.contains_iff_mem] at hends
    rcases hends with htag | ⟨htag, hchildren⟩
    · exact start_walkTreated_of_endsLine (endsLine_treatment _ htag)
        (fun flat r => walkAll_ne_lead children _ _ flat) h
    · exact start_walkTreated_of_isRow (isRow_treatment _ htag)
        (fun r => start_walkAll children _ _ hchildren) h

theorem start_walkAll : ∀ (nodes : List Node) (ancestors : List Frame) (preceded : Bool)
    {r : Trace}, endsLineAll nodes = true → r.cursor = .start →
      ((mediaWiki {}).walkAll ancestors preceded nodes false r).cursor = .start
  | [], ancestors, preceded, r, hends, h => h
  | node :: nodes, ancestors, preceded, r, hends, h => by
    rw [endsLineAll, Bool.and_eq_true] at hends
    exact start_walkAll nodes _ _ hends.2 (start_walk node _ hends.1 h)
end

end Session

/-! ### Balance -/

namespace Trace

variable {r before : Trace} {inner : Trace → Trace}

/-- The tables that were opened less those that were closed. -/
def surplus (r : Trace) : Int :=
  r.marks.count .opening - r.marks.count .closing

theorem surplus_of_marks (h : r.marks = before.marks) : r.surplus = before.surplus := by
  rw [surplus, h, surplus]

theorem surplus_meet (h : r.cursor = .start) :
    (r.meet .opening).surplus = r.surplus + 1 ∧ (r.meet .closing).surplus = r.surplus - 1 := by
  constructor
  · simp [surplus, meet, h]
    omega
  · simp [surplus, meet, h]
    omega

theorem surplus_trimmed (h : ∀ r, (inner r).surplus = r.surplus) (policy : TrimPolicy)
    (r : Trace) : (trimmed policy inner r).surplus = r.surplus := by
  rw [trimmed]
  split
  · rw [surplus_of_marks (resume_marks r _), h, surplus_of_marks (await_marks r)]
  · exact h r

end Trace

/-- The content goes on where the rule stands, or it starts a line. -/
def Rule.isOpen (rule : Rule) : Bool :=
  decide (rule.lineFormat ≠ .single) && (decide (rule.trim = .keep ∨ rule.trim = .trailing) ||
    rule.block && decide (rule.opening = .literal []))

/-- The content follows something that can be seen, on the same line. -/
def Rule.isMuted (rule : Rule) : Bool :=
  decide (rule.lineFormat = .single) && match rule.opening with
    | .literal t => !t.isWhite && decide ('\n' ∉ t)
    | .feature _ => false

/-- The content follows the mark of a cell. -/
def Rule.isCell (rule : Rule) : Bool :=
  decide (rule.lineFormat ≠ .single ∧ rule.opening = .feature .cellStart)

/-- The content is on lines of its own between the marks of a table. -/
def Rule.isTable (rule : Rule) : Bool :=
  rule.block && decide (rule.trim = .keep ∧ rule.lineFormat ≠ .single) &&
    decide (rule.opening = .feature .tableStart ∧ rule.closing = .literal tableEnd)

/-- What is relied on about the treatment of a tag. -/
def Treatment.Safe (tag : String) : Treatment → Prop
  | .wrapped rule => rule.linePrefix ≠ [] ∨ tag = "table" ∧ rule.isTable = true ∨
      (Treatment.wrapped rule).marksTable = false ∧
        (tag ∈ Node.confiningTags ∨ rule.isMuted = true ∨ rule.isOpen = true ∨ rule.isCell = true)
  | _ => True

instance (tag : String) : (t : Treatment) → Decidable (t.Safe tag)
  | .wrapped _ => inferInstanceAs (Decidable (_ ∨ _))
  | .replaced _ => inferInstanceAs (Decidable True)
  | .dropped => inferInstanceAs (Decidable True)
  | .unwrapped => inferInstanceAs (Decidable True)
  | .tagged _ => inferInstanceAs (Decidable True)
  | .void _ => inferInstanceAs (Decidable True)

/-- The element begins with something that can be seen. -/
def Treatment.headsLine : Treatment → Bool
  | .tagged _ | .void _ | .replaced (.literal _) => true
  | .wrapped rule =>
    rule.linePrefix.isEmpty && rule.isMuted && !(Treatment.wrapped rule).marksTable
  | _ => false

/-- What is known of the walk through the content of an element whose tables stand free. -/
structure FreeContent (tag : String) (children : List Node) (inner : Bool → Trace → Trace) :
    Prop where
  unlead : ∀ flat r, r.cursor ≠ .lead → (inner flat r).cursor ≠ .lead
  muted : ∀ r, r.cursor ≠ .start →
    (inner true r).cursor ≠ .start ∧ (inner true r).marks = r.marks
  balanced : ∀ r, r.cursor ≠ .lead → (inner false r).surplus = r.surplus
  phrasal : children.all Element.isPhrasal = true → ∀ r, (inner false r).surplus = r.surplus
  confined : tag ∈ Node.confiningTags → ∀ flat r, (inner flat r).surplus = r.surplus
  ended : tag = "table" → ∀ r, r.cursor = .start → (inner false r).cursor = .start

namespace Session

open Node

theorem safe_treatment (name : String) :
    ((mediaWiki {}).treatment (lowerName name)).Safe (lowerName name) := by
  have hsafe := treatment_induction (P := fun tag t => t.Safe tag) {} (lowerName name)
    (by decide +kernel) (fun _ => trivial) (fun _ => trivial) (fun _ => trivial)
  have hwords : ∀ word ∈ confiningTags,
      word.toList.all (fun d => d.isLower && d != 'k') = true := by decide +kernel
  cases htreatment : (mediaWiki {}).treatment (lowerName name) with
  | wrapped rule =>
    rw [htreatment] at hsafe
    refine hsafe.imp_right (Or.imp (And.imp_left ?_) (And.imp_right (Or.imp_left fun htag => ?_)))
    · exact lowerName_eq_of_lowerName (by decide)
    · rwa [lowerName_eq_of_lowerName (hwords _ htag) rfl]
  | _ => trivial

theorem headsLine_treatment :
    ∀ tag ∈ Element.phrasalTags, ((mediaWiki {}).treatment tag).headsLine = true := by
  decide +kernel

section Treatments

variable {s : Session} {e : PlacedElement} {content : Report UrlError Text} {tag : String}
  {inner : Bool → Trace → Trace} {treatment : Treatment} {rule : Rule} {r : Trace}

/-- Other markup than that of tables goes around a content without changing the balance. -/
theorem surplus_walkTreated_wrapped (hline : rule.linePrefix = [])
    (hmarks : (Treatment.wrapped rule).marksTable = false)
    (hinner : (trimmed rule.trim (inner (decide (rule.lineFormat = .single)))
      ((r.pass false rule.gap).pass false (s.expand e content rule.opening).text)).surplus =
        r.surplus) :
    (s.walkTreated e content inner (.wrapped rule) false r).surplus = r.surplus := by
  rw [Treatment.marksTable, Bool.or_eq_false_iff] at hmarks
  rw [walkTreated_wrapped hline, passFragment_of_marksTable hmarks.1,
    passFragment_of_marksTable hmarks.2]
  exact hinner

/-- Nothing is met in what follows something that can be seen on its line. -/
theorem surplus_muted (hmuted : rule.isMuted = true) (hin : FreeContent tag e.children inner)
    (r : Trace) : (trimmed rule.trim (inner (decide (rule.lineFormat = .single)))
      (r.pass false (s.expand e content rule.opening).text)).surplus = r.surplus := by
  rw [Rule.isMuted, Bool.and_eq_true, decide_eq_true_eq] at hmuted
  obtain ⟨hsingle, hopening⟩ := hmuted
  cases hliteral : rule.opening with
  | feature f =>
    rw [hliteral] at hopening
    cases hopening
  | literal t =>
    simp only [hliteral, Bool.and_eq_true, Bool.not_eq_true', decide_eq_true_eq] at hopening
    obtain ⟨hvisible, hnewline⟩ := hopening
    have hstart : (r.pass false t).cursor ≠ .start := by
      rw [Trace.pass, read_of_notMem hnewline]
      exact (read_visible hvisible true r).2 rfl
    have hinner : ∀ r' : Trace, r'.cursor ≠ .start ∧ r'.marks = r.marks →
        (inner true r').cursor ≠ .start ∧ (inner true r').marks = r.marks := by
      rintro r' ⟨hr', hmarks⟩
      obtain ⟨hcursor, hsame⟩ := hin.muted r' hr'
      exact ⟨hcursor, hsame.trans hmarks⟩
    have hkept := (kept_muted r.marks).trimmed rule.trim hinner ⟨hstart, rfl⟩
    rw [hsingle]
    exact surplus_of_marks hkept.2

theorem surplus_open (hopen : rule.isOpen = true) (hin : FreeContent tag e.children inner)
    (h : r.cursor ≠ .lead) : (trimmed rule.trim (inner (decide (rule.lineFormat = .single)))
      ((r.pass false rule.gap).pass false (s.expand e content rule.opening).text)).surplus =
        r.surplus := by
  rw [Rule.isOpen, Bool.and_eq_true, Bool.or_eq_true, Bool.and_eq_true, decide_eq_true_eq,
    decide_eq_true_eq, decide_eq_true_eq] at hopen
  obtain ⟨hformat, hopen⟩ := hopen
  have hgap : (r.pass false rule.gap).cursor ≠ .lead := kept_unlead.pass _ trivial h
  rw [decide_eq_false hformat]
  rcases hopen with htrim | ⟨hblock, hopening⟩
  · have hleading : ¬ (rule.trim = .leading ∨ rule.trim = .both) := by
      rcases htrim with htrim | htrim <;> simp [htrim]
    rw [trimmed, if_neg hleading]
    exact hin.balanced _ (kept_unlead.pass _ trivial hgap)
  · have hstart : (r.pass false rule.gap).cursor = .start := read_gap_of_block hblock h
    rw [hopening]
    refine (congrArg surplus (trimmed_of_start hstart rule.trim (inner false))).trans ?_
    exact hin.balanced _ hgap

theorem surplus_cell (hcell : rule.isCell = true) (hin : FreeContent tag e.children inner)
    (h : r.cursor ≠ .lead) : (trimmed rule.trim (inner (decide (rule.lineFormat = .single)))
      ((r.pass false rule.gap).pass false (s.expand e content rule.opening).text)).surplus =
        r.surplus := by
  rw [Rule.isCell, decide_eq_true_eq] at hcell
  obtain ⟨hformat, hopening⟩ := hcell
  have hgap : (r.pass false rule.gap).cursor ≠ .lead := kept_unlead.pass _ trivial h
  have htext : (s.expand e content rule.opening).text =
      Element.cellStart e.tag e.attributes e.children := by
    rw [hopening]
    rfl
  rw [decide_eq_false hformat, htext]
  by_cases hphrasal : e.children.all Element.isPhrasal = true
  · exact surplus_trimmed (hin.phrasal hphrasal) rule.trim _
  · -- other content is on lines of its own
    have hstart : ((r.pass false rule.gap).pass false
        (Element.cellStart e.tag e.attributes e.children)).cursor = .start := by
      refine read_getLast hgap ?_
      rw [Element.cellStart, if_neg hphrasal]
      exact List.getLast?_concat
    rw [trimmed_of_start hstart]
    exact hin.balanced _ (by simp [hstart])

theorem surplus_table (hline : rule.linePrefix = []) (htable : rule.isTable = true)
    (hin : FreeContent "table" e.children inner) (h : r.cursor ≠ .lead) :
    (s.walkTreated e content inner (.wrapped rule) false r).surplus = r.surplus := by
  rw [Rule.isTable, Bool.and_eq_true, Bool.and_eq_true, decide_eq_true_eq,
    decide_eq_true_eq] at htable
  obtain ⟨⟨hblock, htrim, hformat⟩, hopening, hclosing⟩ := htable
  have hstart : (r.pass false rule.gap).cursor = .start := read_gap_of_block hblock h
  obtain ⟨opened, hopened⟩ : ∃ opened, opened =
    ((r.pass false rule.gap).meet .opening).pass false ['\n'] := ⟨_, rfl⟩
  have hopen : s.passFragment e content rule.opening false (r.pass false rule.gap) = opened := by
    rw [hopening, hopened]
    exact if_pos rfl
  have hclose : ∀ r', s.passFragment e content rule.closing false r' = r'.meet .closing := by
    intro r'
    rw [hclosing, passFragment, if_neg (by simp), if_pos rfl]
  -- both marks are met, as the content begins and ends at the start of a line
  have hcursor : opened.cursor = .start := by
    rw [hopened]
    rfl
  have hfirst : opened.surplus = r.surplus + 1 := by
    rw [hopened]
    exact (surplus_meet hstart).1
  have hbalanced := hin.balanced opened (by simp [hcursor])
  have hlast := (surplus_meet (hin.ended rfl opened hcursor)).2
  rw [walkTreated_wrapped hline, hopen, hclose, htrim, decide_eq_false hformat]
  calc ((inner false opened).meet .closing).surplus
      = (inner false opened).surplus - 1 := hlast
    _ = r.surplus := by omega

theorem surplus_walkTreated (hsafe : treatment.Safe tag) (hin : FreeContent tag e.children inner)
    (h : r.cursor ≠ .lead) :
    (s.walkTreated e content inner treatment false r).surplus = r.surplus := by
  cases treatment with
  | dropped => rfl
  | unwrapped => exact hin.balanced r h
  | replaced f =>
    rw [walkTreated]
    split_ifs
    · rfl
    · exact hin.balanced r h
    · exact hin.balanced _ (kept_unlead.pass ['['] trivial h)
  | void rule => rfl
  | tagged rule => exact hin.balanced _ (kept_unlead.pass _ trivial h)
  | wrapped rule =>
    by_cases hline : rule.linePrefix = []
    · rcases hsafe with hmark | ⟨rfl, htable⟩ | ⟨hmarks, htag | hmuted | hopen | hcell⟩
      · exact absurd hline hmark
      · exact surplus_table hline htable hin h
      · exact surplus_walkTreated_wrapped hline hmarks (surplus_trimmed (hin.confined htag _) _ _)
      · exact surplus_walkTreated_wrapped hline hmarks (surplus_muted hmuted hin _)
      · exact surplus_walkTreated_wrapped hline hmarks (surplus_open hopen hin h)
      · exact surplus_walkTreated_wrapped hline hmarks (surplus_cell hcell hin h)
    · rw [walkTreated, if_neg hline]
      rfl

/-- An element that begins with something that can be seen may follow the mark of a cell. -/
theorem surplus_walkTreated_of_headsLine (hheads : treatment.headsLine = true)
    (hin : FreeContent tag e.children inner) (r : Trace) :
    (s.walkTreated e content inner treatment false r).surplus = r.surplus := by
  cases treatment with
  | dropped => rfl
  | unwrapped => cases hheads
  | replaced f =>
    cases f with
    | literal t => rfl
    | feature f => cases hheads
  | void rule => rfl
  | tagged rule =>
    have hvisible : (startTag e.name rule.attributes e.attributes false).isWhite = false := rfl
    exact hin.balanced _ (read_visible hvisible false r).1
  | wrapped rule =>
    simp only [Treatment.headsLine, Bool.and_eq_true, Bool.not_eq_true',
      List.isEmpty_iff] at hheads
    obtain ⟨⟨hline, hmuted⟩, hmarks⟩ := hheads
    exact surplus_walkTreated_wrapped hline hmarks (surplus_muted hmuted hin _)

end Treatments

/-! ### Trees -/

theorem exists_of_isHeaded {nodes : List Node} (h : isHeaded nodes = true) :
    ∃ content guarded rest, nodes = .text content guarded :: rest ∧ content.isWhite = false := by
  unfold isHeaded at h
  split at h
  · next content guarded rest => exact ⟨content, guarded, rest, rfl, by simpa using h⟩
  · cases h

theorem surplus_walkAll_of_isHeaded {nodes : List Node} (h : isHeaded nodes = true)
    (ancestors : List Frame) (preceded : Bool) (r : Trace) :
    ((mediaWiki {}).walkAll ancestors preceded nodes true r).surplus = r.surplus := by
  obtain ⟨content, guarded, rest, rfl, hvisible⟩ := exists_of_isHeaded h
  have hstart : (r.pass true content).cursor ≠ .start := (read_visible hvisible true r).2 rfl
  rw [walkAll, walk]
  exact surplus_of_marks (walkAll_muted rest _ _ hstart).2

mutual
theorem surplus_walk : ∀ (node : Node) (around : Surroundings) {r : Trace}, node.isFree = true →
    (r.cursor ≠ .lead ∨ Element.isPhrasal node = true) →
      ((mediaWiki {}).walk around node false r).surplus = r.surplus
  | .text _ _, around, r, hfree, h => rfl
  | .special kind _, around, r, hfree, h => by cases kind <;> rfl
  | .element name attributes children, around, r, hfree, h => by
    simp only [isFree, Bool.and_eq_true, Bool.or_eq_true, Bool.not_eq_true', bne_iff_ne] at hfree
    obtain ⟨⟨hconfined, htable⟩, hchildren⟩ := hfree
    have hin : FreeContent (lowerName name) children
        ((mediaWiki {}).walkAll (around.enter (lowerName name)) false children) := {
      unlead := fun flat r => walkAll_ne_lead children _ _ flat
      muted := fun r => walkAll_muted children _ _
      balanced := fun r hr => surplus_walkAll children _ _ hchildren (Or.inl hr)
      phrasal := fun hphrasal r =>
        surplus_walkAll children _ _ hchildren (Or.inr (Or.inl hphrasal))
      confined := fun htag flat r => by
        rcases hconfined with (hconfined | htableless) | hheaded
        · rw [List.contains_iff_mem.mpr htag] at hconfined
          cases hconfined
        · exact surplus_of_marks (marks_walkAll_of_isTablelessAll htableless _ _ flat r)
        · cases flat with
          | false => exact surplus_walkAll children _ _ hchildren (Or.inr (Or.inr hheaded))
          | true => exact surplus_walkAll_of_isHeaded hheaded _ _ r
      ended := fun htag r => start_walkAll children _ _ (htable.resolve_left (not_not_intro htag)) }
    rcases h with h | hphrasal
    · exact surplus_walkTreated (safe_treatment name) hin h
    · have htag : lowerName name ∈ Element.phrasalTags := by
        simpa [Element.isPhrasal, Node.isText, Node.tag] using hphrasal
      exact surplus_walkTreated_of_headsLine (headsLine_treatment _ htag) hin r

theorem surplus_walkAll : ∀ (nodes : List Node) (ancestors : List Frame) (preceded : Bool)
    {r : Trace}, isFreeAll nodes = true →
      (r.cursor ≠ .lead ∨ nodes.all Element.isPhrasal = true ∨ isHeaded nodes = true) →
        ((mediaWiki {}).walkAll ancestors preceded nodes false r).surplus = r.surplus
  | [], ancestors, preceded, r, hfree, h => rfl
  | node :: nodes, ancestors, preceded, r, hfree, h => by
    rw [isFreeAll, Bool.and_eq_true] at hfree
    have hcursor : (r.cursor ≠ .lead ∨ Element.isPhrasal node = true) ∧
        (((mediaWiki {}).walk ⟨preceded, ancestors⟩ node false r).cursor ≠ .lead ∨
          nodes.all Element.isPhrasal = true ∨ isHeaded nodes = true) := by
      rcases h with h | hphrasal | hheaded
      · exact ⟨Or.inl h, Or.inl (walk_ne_lead node _ false h)⟩
      · rw [List.all_cons, Bool.and_eq_true] at hphrasal
        exact ⟨Or.inr hphrasal.1, Or.inr (Or.inl hphrasal.2)⟩
      · obtain ⟨content, guarded, rest, heq, hvisible⟩ := exists_of_isHeaded hheaded
        obtain ⟨rfl, rfl⟩ := List.cons.inj heq
        exact ⟨Or.inr rfl, Or.inl (read_visible hvisible false r).1⟩
    rw [walkAll, surplus_walkAll nodes _ _ hfree.2 hcursor.2,
      surplus_walk node _ hfree.1 hcursor.1]
end

/-- In a document whose tables stand free the walk comes to as many marks that close a table as to
marks that open one. -/
theorem count_walkAll_of_isFreeAll {document : List Node} (h : isFreeAll document = true) :
    ((mediaWiki {}).walkAll Surroundings.document false document false ⟨.start, []⟩).marks.count
        .opening =
      ((mediaWiki {}).walkAll Surroundings.document false document false ⟨.start, []⟩).marks.count
        .closing := by
  have hbalance := surplus_walkAll document Surroundings.document false (r := ⟨.start, []⟩) h
    (Or.inl (by simp))
  simp only [surplus, List.count_nil] at hbalance
  omega

end Session

end Wikitext

/-
  Wikitext/Proofs/Conversion/TableTrace.lean
  ==========================================
  **Tracing the marks of tables.**  A mark counts where a line starts.  Whether a piece of markup
  comes to stand there is told by what was written before it, so a text is read from left to right
  with the place in the line as the state (`Cursor`); a `Trace` has the marks that were met.

  The passes of the layout change where lines start, but each in a way that the state can tell
  beforehand.  A text that will be joined on one line is read *flat*, with its line feeds as blanks
  (`read_apply`).  A text that will lose the white space at its start is read from a cursor that
  waits for something visible (`read_trimStart`).  And white space at the end of a text makes no
  difference before more of it (`step_read_trimEnd`).
-/
import Wikitext.Proofs.Conversion.TableMarks
import Wikitext.Proofs.Text.Edges
import Wikitext.Proofs.Text.Tight

namespace Wikitext

open Text

/-- Where in its line a text goes on. -/
inductive Cursor where
  /-- At the start of a line, white space aside. -/
  | start
  /-- In a line, where white space will be dropped. -/
  | lead
  /-- In a line. -/
  | mid
  /-- After a brace at the start of a line. -/
  | brace
  /-- After a bar at the start of a line. -/
  | bar
deriving DecidableEq, Repr

namespace Cursor

/-- The cursor after a character; in a flat text a line feed is a blank. -/
def next (flat : Bool) (c : Cursor) (x : Char) : Cursor :=
  if isSpace x then
    match c with
    | start => start
    | lead => lead
    | _ => if x = '\n' ∧ flat = false then start else mid
  else if c = start then
    if x = '\x7b' then brace else if x = '|' then bar else mid
  else mid

/-- The mark that a character completes. -/
def completed (c : Cursor) (x : Char) : List TableMark :=
  if c = brace ∧ x = '|' then [.opening] else if c = bar ∧ x = '\x7d' then [.closing] else []

/-- No mark has begun. -/
def atRest (c : Cursor) : Bool :=
  c != brace && c != bar

end Cursor

/-- Where a text goes on, and the marks of tables at the starts of the lines before. -/
structure Trace where
  cursor : Cursor
  marks : List TableMark
deriving DecidableEq, Repr

namespace Trace

def step (flat : Bool) (r : Trace) (x : Char) : Trace :=
  ⟨r.cursor.next flat x, r.marks ++ r.cursor.completed x⟩

/-- Reads a text. -/
def read (flat : Bool) (r : Trace) (t : Text) : Trace :=
  t.foldl (step flat) r

variable {flat : Bool} {r : Trace} {x : Char} {t u w : Text} {ls : List Text}

@[simp] theorem read_nil (flat : Bool) (r : Trace) : r.read flat [] = r := rfl

@[simp] theorem read_cons (flat : Bool) (r : Trace) (x : Char) (t : Text) :
    r.read flat (x :: t) = (r.step flat x).read flat t := rfl

@[simp] theorem read_append (flat : Bool) (r : Trace) (t u : Text) :
    r.read flat (t ++ u) = (r.read flat t).read flat u :=
  List.foldl_append

/-! ### White space -/

theorem step_of_isSpace (hx : isSpace x = true) (flat : Bool) (r : Trace) :
    r.step flat x = ⟨r.cursor.next flat x, r.marks⟩ := by
  have hcompleted : r.cursor.completed x = [] := by
    rw [Cursor.completed, if_neg, if_neg]
    · rintro ⟨-, rfl⟩
      exact absurd hx (by decide)
    · rintro ⟨-, rfl⟩
      exact absurd hx (by decide)
  rw [step, hcompleted, List.append_nil]

/-- White space before white space makes no difference in a flat text, and before a line feed none
in any. -/
theorem step_step_of_isSpace {y : Char} (hy : isSpace y = true) (hx : isSpace x = true) {f : Bool}
    (h : f = true ∨ f = flat ∧ x = '\n') (r : Trace) :
    (r.step f y).step flat x = r.step flat x := by
  rw [step_of_isSpace hy, step_of_isSpace hx, step_of_isSpace hx]
  obtain ⟨c, ms⟩ := r
  rcases h with rfl | ⟨rfl, rfl⟩
  · cases c <;> simp [Cursor.next, hx, hy]
  · by_cases hbreak : y = '\n' ∧ f = false
    · cases c <;> simp [Cursor.next, hx, hbreak]
    · cases c <;> simp [Cursor.next, hx, hy, hbreak]

theorem step_read_white {f : Bool} (hw : ∀ c ∈ w, isSpace c = true) (hx : isSpace x = true)
    (h : f = true ∨ f = flat ∧ x = '\n') (r : Trace) :
    (r.read f w).step flat x = r.step flat x := by
  induction w generalizing r with
  | nil => rfl
  | cons y w ih =>
    rw [read_cons, ih fun c hc => hw c (List.mem_cons_of_mem _ hc)]
    exact step_step_of_isSpace (hw y (List.mem_cons_self ..)) hx h r

/-- White space at the end is not missed before other white space. -/
theorem step_read_trimEnd {f : Bool} {p : Char → Bool} (hp : ∀ c, p c = true → isSpace c = true)
    (hx : isSpace x = true) (h : f = true ∨ f = flat ∧ x = '\n') (r : Trace) (t : Text) :
    (r.read f (trimEnd p t)).step flat x = (r.read f t).step flat x := by
  have ht : trimEnd p t ++ t.rtakeWhile p = t := List.rdropWhile_append_rtakeWhile
  have hwhite : ∀ c ∈ t.rtakeWhile p, isSpace c = true := fun c hc =>
    hp c (List.mem_rtakeWhile_imp hc)
  conv_rhs => rw [← ht, read_append, step_read_white hwhite hx h]

/-- In a flat text, white space at the start is not missed after other white space. -/
theorem read_step_trimStart {p : Char → Bool} (hp : ∀ c, p c = true → isSpace c = true)
    (hx : isSpace x = true) (r : Trace) (t : Text) :
    (r.step true x).read true (trimStart p t) = (r.step true x).read true t := by
  have hblank : ∀ y, isSpace y = true → r.step true y = r.step true x := by
    intro y hy
    rw [step_of_isSpace hx, step_of_isSpace hy]
    cases r.cursor <;> simp [Cursor.next, hx, hy]
  induction t with
  | nil => rfl
  | cons y t ih =>
    rw [trimStart_cons]
    split
    · next hy =>
      have hspace := hp y hy
      rw [ih, read_cons, step_step_of_isSpace hx hspace (Or.inl rfl), hblank y hspace]
    · rfl

/-! ### Lines -/

theorem read_unlines_cons (flat : Bool) (r : Trace) (l : Text) (h : ls ≠ []) :
    r.read flat (unlines (l :: ls)) =
      ((r.read flat l).step flat '\n').read flat (unlines ls) := by
  rw [unlines_cons l h, read_append, read_cons]

theorem step_newline_newline (flat : Bool) (r : Trace) :
    (r.step flat '\n').step flat '\n' = r.step flat '\n' :=
  step_step_of_isSpace rfl rfl (Or.inr ⟨rfl, rfl⟩) r

theorem read_mapEnded_clear (flat : Bool) (r : Trace) (ls : List Text) :
    r.read flat (unlines (mapEnded LineFormat.clearWhiteLine ls)) = r.read flat (unlines ls) := by
  induction ls generalizing r with
  | nil => rfl
  | cons l ls ih =>
    cases ls with
    | nil => rfl
    | cons m ls =>
      have hne : mapEnded LineFormat.clearWhiteLine (m :: ls) ≠ [] := by
        cases ls <;> simp [mapEnded]
      rw [mapEnded_cons_cons, read_unlines_cons flat r _ hne, ih,
        read_unlines_cons flat r l (List.cons_ne_nil m ls), LineFormat.clearWhiteLine]
      split
      · next hwhite =>
        rw [read_nil, step_read_white (isWhite_iff.mp hwhite) rfl (Or.inr ⟨rfl, rfl⟩)]
      · rfl

theorem dropEmpty_ne_nil (l : Text) (ls : List Text) : dropEmpty (l :: ls) ≠ [] := by
  obtain ⟨ks, k, hks⟩ := (List.eq_nil_or_concat' (l :: ls)).resolve_left (List.cons_ne_nil l ls)
  rw [hks, dropEmpty_concat]
  exact List.concat_ne_nil k _

/-- After a line feed empty lines make no difference. -/
theorem read_dropEmpty (flat : Bool) (r : Trace) (ls : List Text) :
    (r.step flat '\n').read flat (unlines (dropEmpty ls)) =
      (r.step flat '\n').read flat (unlines ls) := by
  induction ls generalizing r with
  | nil => rfl
  | cons l ls ih =>
    cases ls with
    | nil => rfl
    | cons m ls =>
      rw [read_unlines_cons flat _ l (List.cons_ne_nil m ls), dropEmpty_cons_cons]
      split
      · next hl => rw [hl, read_nil, step_newline_newline, ih]
      · rw [read_unlines_cons flat _ l (dropEmpty_ne_nil m ls), ih]

theorem squeezeEmpty_ne_nil (l : Text) (ls : List Text) : squeezeEmpty (l :: ls) ≠ [] := by
  obtain ⟨ks, k, hks⟩ := (List.eq_nil_or_concat' (l :: ls)).resolve_left (List.cons_ne_nil l ls)
  rw [hks, squeezeEmpty_concat]
  exact List.concat_ne_nil k _

theorem read_squeezeEmpty (flat : Bool) (r : Trace) (ls : List Text) :
    r.read flat (unlines (squeezeEmpty ls)) = r.read flat (unlines ls) := by
  induction ls generalizing r with
  | nil => rfl
  | cons l ls ih =>
    cases ls with
    | nil => rfl
    | cons m ls =>
      rw [read_unlines_cons flat r l (List.cons_ne_nil m ls), squeezeEmpty]
      split
      · next h =>
        obtain ⟨hl, hm, hne⟩ := h
        rw [ih, hl, hm, read_unlines_cons flat _ [] hne, read_unlines_cons flat _ [] hne, read_nil,
          read_nil, step_newline_newline]
      · rw [read_unlines_cons flat r l (squeezeEmpty_ne_nil m ls), ih]

/-! ### Formats -/

/-- Only at line feeds do flat texts differ from others. -/
theorem read_of_notMem (h : '\n' ∉ t) (flat : Bool) (r : Trace) :
    r.read flat t = r.read true t := by
  induction t generalizing r with
  | nil => rfl
  | cons x t ih =>
    rw [List.mem_cons, not_or] at h
    have hnext : r.cursor.next flat x = r.cursor.next true x := by
      simp [Cursor.next, Ne.symm h.1]
    rw [read_cons, read_cons, ih h.2, step, step, hnext]

theorem step_true_newline (r : Trace) : r.step true '\n' = r.step true ' ' := by
  rw [step_of_isSpace rfl, step_of_isSpace rfl]
  cases r.cursor <;> rfl

theorem read_joinWithSpaces_rest (r : Trace) (hne : ls ≠ []) :
    r.read true (joinWithSpaces.rest ls) = (r.step true '\n').read true (unlines ls) := by
  have hblank : ∀ c, isBlank c = true → isSpace c = true := fun _ => isSpace_of_isBlank
  induction ls generalizing r with
  | nil => exact absurd rfl hne
  | cons l ls ih =>
    cases ls with
    | nil =>
      rw [joinWithSpaces.rest, read_cons, read_step_trimStart hblank rfl, step_true_newline]
      rfl
    | cons m ls =>
      have hrest := List.cons_ne_nil m ls
      rw [read_unlines_cons true _ l hrest, joinWithSpaces.rest]
      · split
        · next hl => rw [ih r hrest, hl, read_nil, step_newline_newline]
        · rw [read_cons, read_append, ih _ hrest, trim,
            step_read_trimEnd hblank rfl (Or.inl rfl), read_step_trimStart hblank rfl,
            step_true_newline r]
      · exact hrest

theorem read_joinWithSpaces (r : Trace) (ls : List Text) :
    r.read true (joinWithSpaces ls) = r.read true (unlines ls) := by
  cases ls with
  | nil => rfl
  | cons l ls =>
    cases ls with
    | nil => rfl
    | cons m ls =>
      have hrest := List.cons_ne_nil m ls
      rw [joinWithSpaces, read_append, read_joinWithSpaces_rest _ hrest,
        read_unlines_cons true r l hrest,
        step_read_trimEnd (fun _ => isSpace_of_isBlank) rfl (Or.inl rfl)]
      exact hrest

/-- A text in a format is read as it was; what is put on one line is read flat. -/
theorem read_apply (format : LineFormat) (flat : Bool) (r : Trace) (t : Text) :
    r.read flat (format.apply t) = r.read (flat || decide (format = .single)) t := by
  have hcleared : ∀ (f : Bool) (s : Trace),
      s.read f (unlines (LineFormat.clearedLines t)) = s.read f t := by
    intro f s
    rw [LineFormat.clearedLines, read_mapEnded_clear, unlines_lines]
  obtain ⟨l, ls, hls⟩ := List.exists_cons_of_ne_nil (clearedLines_ne_nil t)
  cases format with
  | keep =>
    rw [LineFormat.apply]
    simp
  | single =>
    have hline : '\n' ∉ joinWithSpaces (LineFormat.clearedLines t) := notMem_newline_single t
    rw [LineFormat.apply, read_of_notMem hline, read_joinWithSpaces, hcleared]
    simp
  | multi =>
    rw [LineFormat.apply, ← hcleared, hls, withoutEmptyLines]
    cases ls with
    | nil => simp [dropEmpty]
    | cons m ms =>
      rw [read_unlines_cons flat r l (dropEmpty_ne_nil m ms), read_dropEmpty,
        ← read_unlines_cons flat r l (List.cons_ne_nil m ms)]
      simp
  | blocks =>
    rw [LineFormat.apply, ← hcleared, hls, withSingleEmptyLines]
    cases ls with
    | nil => simp [squeezeEmpty]
    | cons m ms =>
      rw [read_unlines_cons flat r l (squeezeEmpty_ne_nil m ms), read_squeezeEmpty,
        ← read_unlines_cons flat r l (List.cons_ne_nil m ms)]
      simp

/-! ### Trimming -/

/-- In a line, what is read next is waited for. -/
def await (r : Trace) : Trace :=
  if r.cursor = .mid then { r with cursor := .lead } else r

/-- Waits no more, if it began to wait at `before`. -/
def resume (before r : Trace) : Trace :=
  if before.cursor = .mid ∧ r.cursor = .lead then { r with cursor := .mid } else r

theorem read_ne_lead (h : r.cursor ≠ .lead) (flat : Bool) (t : Text) :
    (r.read flat t).cursor ≠ .lead := by
  induction t generalizing r with
  | nil => exact h
  | cons x t ih =>
    refine ih ?_
    obtain ⟨c, ms⟩ := r
    cases c with
    | lead => exact absurd rfl h
    | _ =>
      simp only [step, Cursor.next]
      split_ifs <;> simp

/-- What is left when white space is dropped at the start of a text is read as the text is, when
something visible is waited for. -/
theorem read_trimStart (h : r.cursor.atRest = true) (flat : Bool) (t : Text) :
    r.read flat (trimStart isSpace t) = resume r (r.await.read flat t) := by
  induction t with
  | nil =>
    obtain ⟨c, ms⟩ := r
    cases c <;> rfl
  | cons x t ih =>
    rw [trimStart_cons, read_cons]
    split
    · next hx =>
      have hawait : r.await.step flat x = r.await := by
        rw [step_of_isSpace hx]
        obtain ⟨c, ms⟩ := r
        cases c with
        | brace => cases h
        | bar => cases h
        | _ => simp [await, Cursor.next, hx]
      rw [ih, hawait]
    · next hx =>
      have hstep : r.await.step flat x = r.step flat x := by
        obtain ⟨c, ms⟩ := r
        cases c <;> simp [await, step, Cursor.next, Cursor.completed, hx]
      have hresume : resume r ((r.step flat x).read flat t) = (r.step flat x).read flat t := by
        rw [resume, if_neg]
        rintro ⟨hmid, hlead⟩
        refine read_ne_lead ?_ flat t hlead
        rw [step, hmid]
        simp [Cursor.next, hx]
      rw [hstep, hresume, read_cons]

/-- What is read of a text that is trimmed, when `inner` is what is read of the text. -/
def trimmed (policy : TrimPolicy) (inner : Trace → Trace) (r : Trace) : Trace :=
  if policy = .leading ∨ policy = .both then resume r (inner r.await) else inner r

/-- White space that is dropped at the end of a text is not missed before more of it. -/
theorem step_read_trimmed {f : Bool} (policy : TrimPolicy) (h : r.cursor.atRest = true)
    (hx : isSpace x = true) (hgap : f = true ∨ f = flat ∧ x = '\n') (t : Text) :
    (r.read f (policy.apply t)).step flat x = (trimmed policy (·.read f t) r).step flat x := by
  cases policy with
  | keep => rfl
  | leading =>
    rw [TrimPolicy.apply, read_trimStart h]
    rfl
  | trailing =>
    rw [TrimPolicy.apply, step_read_trimEnd (fun _ h => h) hx hgap]
    rfl
  | both =>
    rw [TrimPolicy.apply, trim, step_read_trimEnd (fun _ h => h) hx hgap, read_trimStart h]
    rfl

theorem read_trimmed {policy : TrimPolicy} (hpolicy : policy = .keep ∨ policy = .leading)
    (h : r.cursor.atRest = true) (f : Bool) (t : Text) :
    r.read f (policy.apply t) = trimmed policy (·.read f t) r := by
  rcases hpolicy with rfl | rfl
  · rfl
  · exact read_trimStart h f t

end Trace

/-! ### Layout -/

/-- What sets the result of a rule off. -/
def Rule.gap (rule : Rule) : Text :=
  if rule.block then ['\n', '\n'] else []

/-- A rule that trims the end of a content has white space after it. -/
def Rule.spaces (rule : Rule) (closing : Text) : Bool :=
  decide (rule.trim = .keep ∨ rule.trim = .leading) ||
    (closing ++ rule.gap).head?.any fun x =>
      isSpace x && (decide (rule.lineFormat = .single) || x == '\n')

namespace Trace

variable {flat : Bool} {r : Trace} {t opening content closing : Text}

/-- What is read of a content that is laid out. -/
theorem read_layout {rule : Rule} (hline : rule.linePrefix = [])
    (hspaces : rule.spaces closing = true)
    (hrest : ((r.read flat rule.gap).read flat opening).cursor.atRest = true) :
    r.read flat (rule.layout opening content closing) =
      ((trimmed rule.trim (·.read (flat || decide (rule.lineFormat = .single)) content)
        ((r.read flat rule.gap).read flat opening)).read flat closing).read flat rule.gap := by
  have hlayout : rule.layout opening content closing = rule.gap ++ opening ++
      rule.lineFormat.apply (rule.trim.apply content) ++ (closing ++ rule.gap) := by
    rw [Rule.layout, if_pos hline, Rule.gap]
    split <;> simp
  have hread : r.read flat (rule.layout opening content closing) =
      (((r.read flat rule.gap).read flat opening).read
        (flat || decide (rule.lineFormat = .single)) (rule.trim.apply content)).read flat
          (closing ++ rule.gap) := by
    rw [hlayout]
    simp only [read_append, read_apply]
  rw [hread, ← read_append flat _ closing rule.gap]
  generalize (r.read flat rule.gap).read flat opening = s at hrest
  rw [Rule.spaces, Bool.or_eq_true, decide_eq_true_eq] at hspaces
  rcases hspaces with hpolicy | hspaces
  · rw [read_trimmed hpolicy hrest]
  · cases hcons : closing ++ rule.gap with
    | nil =>
      rw [hcons] at hspaces
      cases hspaces
    | cons x v =>
      rw [hcons, List.head?_cons, Option.any_some, Bool.and_eq_true, Bool.or_eq_true,
        beq_iff_eq] at hspaces
      obtain ⟨hx, hgap⟩ := hspaces
      rw [read_cons, read_cons, step_read_trimmed _ hrest hx]
      rcases hgap with hsingle | rfl
      · exact Or.inl (by rw [hsingle, Bool.or_true])
      · by_cases hsingle : rule.lineFormat = .single
        · exact Or.inl (by simp [hsingle])
        · exact Or.inr ⟨by simp [hsingle], rfl⟩

/-! ### Quiet texts -/

/-- Goes on behind a text that has no mark. -/
def pass (flat : Bool) (r : Trace) (t : Text) : Trace :=
  { r.read flat t with marks := r.marks }

/-- Comes to a mark, which counts at the start of a line. -/
def meet (mark : TableMark) (r : Trace) : Trace :=
  ⟨.mid, if r.cursor = .start then r.marks ++ [mark] else r.marks⟩

theorem read_eq_pass_iff : r.read flat t = r.pass flat t ↔ (r.read flat t).marks = r.marks := by
  rw [pass]
  generalize r.read flat t = s
  obtain ⟨c, ms⟩ := s
  simp

end Trace

open Trace

namespace Text

/-- No carriage return and no form feed. -/
def Smooth (t : Text) : Prop :=
  ∀ c ∈ t, isFeed c = false

instance (t : Text) : Decidable (Smooth t) :=
  decidable_of_iff (t.all (fun c => !isFeed c) = true) (by simp [Smooth])

theorem smooth_nil : Smooth [] := fun _ hc => absurd hc List.not_mem_nil

theorem Smooth.append {t u : Text} (ht : Smooth t) (hu : Smooth u) : Smooth (t ++ u) := fun c hc =>
  (List.mem_append.mp hc).elim (ht c) (hu c)

theorem Plain.smooth {t : Text} (h : Plain t) : Smooth t :=
  h.not_isFeed

theorem plain_of_smooth {t : Text} (h : Smooth t) (hline : '\n' ∉ t) : Plain t := by
  intro c hc hspace
  rw [isSpace_eq, h c hc, Bool.or_false, isGap, Bool.or_eq_true, beq_iff_eq] at hspace
  refine hspace.resolve_right ?_
  rintro rfl
  exact hline hc

theorem Plain.cons {x : Char} {t : Text} (hx : isSpace x = false) (h : Plain t) :
    Plain (x :: t) := by
  intro c hc hspace
  rcases List.mem_cons.mp hc with rfl | hc
  · rw [hx] at hspace
    cases hspace
  · exact h c hc hspace

theorem Plain.tail {x : Char} {t : Text} (h : Plain (x :: t)) : Plain t := fun c hc =>
  h c (List.mem_cons_of_mem _ hc)

end Text

/-- Wherever it stands, the text has no mark, and it ends apart from what follows. -/
structure Quiet (t : Text) : Prop where
  smooth : Smooth t
  marks : ∀ (flat : Bool) (r : Trace), r.cursor.atRest = true →
    (r.read flat t).marks = r.marks
  atRest : ∀ (flat : Bool) (r : Trace), r.cursor.atRest = true →
    (r.read flat t).cursor.atRest = true

section Quiet

variable {flat : Bool} {r : Trace} {x y : Char} {t u : Text} {ls : List Text}

theorem Quiet.read (h : Quiet t) (flat : Bool) (hr : r.cursor.atRest = true) :
    r.read flat t = r.pass flat t :=
  read_eq_pass_iff.mpr (h.marks flat r hr)

theorem quiet_nil : Quiet [] := ⟨smooth_nil, fun _ _ _ => rfl, fun _ _ hr => hr⟩

theorem Quiet.append (ht : Quiet t) (hu : Quiet u) : Quiet (t ++ u) := by
  refine ⟨ht.smooth.append hu.smooth, fun flat r hr => ?_, fun flat r hr => ?_⟩
  · rw [read_append, hu.marks flat _ (ht.atRest flat r hr), ht.marks flat r hr]
  · rw [read_append]
    exact hu.atRest flat _ (ht.atRest flat r hr)

theorem quiet_gap (hx : isGap x = true) : Quiet [x] := by
  have hspace := isSpace_of_isGap hx
  refine ⟨fun c hc => ?_, fun flat r _ => ?_, fun flat r hr => ?_⟩
  · rw [List.mem_singleton.mp hc]
    rw [isGap, isBlank, Bool.or_eq_true, Bool.or_eq_true, beq_iff_eq, beq_iff_eq, beq_iff_eq] at hx
    rcases hx with (rfl | rfl) | rfl <;> rfl
  · rw [read_cons, read_nil, step_of_isSpace hspace]
  · rw [read_cons, read_nil, step_of_isSpace hspace]
    obtain ⟨c, ms⟩ := r
    simp only [Cursor.next, if_pos hspace]
    cases c with
    | mid => simp only; split <;> rfl
    | brace => cases hr
    | bar => cases hr
    | _ => rfl

/-- Within a line nothing is a mark. -/
theorem read_of_mid (hr : r.cursor = .mid) (h : '\n' ∉ t) (flat : Bool) : r.read flat t = r := by
  induction t with
  | nil => rfl
  | cons x t ih =>
    rw [List.mem_cons, not_or] at h
    have hstep : r.step flat x = r := by
      obtain ⟨c, ms⟩ := r
      obtain rfl : c = .mid := hr
      simp [step, Cursor.next, Cursor.completed, Ne.symm h.1]
    rw [read_cons, hstep, ih h.2]

/-- Nothing is met up to the middle of a line, nor in the rest of it. -/
theorem quiet_of_read (hplain : Plain t) (h : ∀ (flat : Bool) (r : Trace),
    r.cursor.atRest = true → r.read flat t = ⟨.mid, r.marks⟩) : Quiet t := by
  refine ⟨hplain.smooth, fun flat r hr => ?_, fun flat r hr => ?_⟩
  · rw [h flat r hr]
  · rw [h flat r hr]
    rfl

theorem step_of_visible (hx : isSpace x = false) (hbrace : x ≠ '\x7b') (hbar : x ≠ '|')
    (hr : r.cursor.atRest = true) (flat : Bool) : r.step flat x = ⟨.mid, r.marks⟩ := by
  obtain ⟨c, ms⟩ := r
  cases c with
  | brace => cases hr
  | bar => cases hr
  | _ => simp [step, Cursor.next, Cursor.completed, hx, hbrace, hbar]

/-- A line that does not start like a mark. -/
theorem quiet_cons (hx : isSpace x = false) (hbrace : x ≠ '\x7b') (hbar : x ≠ '|')
    (h : Plain t) : Quiet (x :: t) := by
  refine quiet_of_read (Plain.cons hx h) fun flat r hr => ?_
  rw [read_cons, step_of_visible hx hbrace hbar hr, read_of_mid rfl h.notMem_newline]

/-- A line that starts with one character of a mark. -/
theorem quiet_cons_cons (hx : x = '|' ∧ y ≠ '\x7d' ∨ x = '\x7b' ∧ y ≠ '|')
    (h : Plain (y :: t)) : Quiet (x :: y :: t) := by
  have hline := h.notMem_newline
  rw [List.mem_cons, not_or] at hline
  have hspace : isSpace x = false := by rcases hx with ⟨rfl, -⟩ | ⟨rfl, -⟩ <;> rfl
  refine quiet_of_read (Plain.cons hspace h) fun flat r hr => ?_
  have hsteps : (r.step flat x).step flat y = ⟨.mid, r.marks⟩ := by
    obtain ⟨c, ms⟩ := r
    cases c with
    | brace => cases hr
    | bar => cases hr
    | _ => rcases hx with ⟨rfl, hx⟩ | ⟨rfl, hx⟩ <;>
        simp [step, Cursor.next, Cursor.completed, isSpace, hx, Ne.symm hline.1]
  rw [read_cons, read_cons, hsteps, read_of_mid rfl hline.2]

theorem quiet_unlines (h : ∀ l ∈ ls, Quiet l) : Quiet (unlines ls) := by
  induction ls with
  | nil => exact quiet_nil
  | cons l ls ih =>
    have hl := h l (List.mem_cons_self ..)
    cases hls : ls with
    | nil => exact hl
    | cons m ms =>
      rw [← hls, unlines_cons l (by simp [hls]), ← List.singleton_append]
      exact hl.append ((quiet_gap rfl).append (ih fun k hk => h k (List.mem_cons_of_mem _ hk)))

/-- A text on one line that starts, white space aside, with no mark and is no brace alone. -/
theorem quiet_of_plain (hplain : Plain t) (hopening : ¬ ['\x7b', '|'] <+: trimStart isSpace t)
    (hbar : ¬ ['|'] <+: trimStart isSpace t) (hbrace : trimStart isSpace t ≠ ['\x7b']) :
    Quiet t := by
  induction t with
  | nil => exact quiet_nil
  | cons x t ih =>
    rw [trimStart_cons] at hopening hbar hbrace
    have hrest := Plain.tail hplain
    split at hopening
    · next hx =>
      rw [if_pos hx] at hbar hbrace
      have hgap := isGap_of_isBlank (hplain x (List.mem_cons_self ..) hx)
      exact (quiet_gap hgap).append (ih hrest hopening hbar hbrace)
    · next hx =>
      rw [if_neg hx] at hbar hbrace
      by_cases hcurly : x = '\x7b'
      · subst hcurly
        cases t with
        | nil => exact absurd rfl hbrace
        | cons y t =>
          refine quiet_cons_cons (Or.inr ⟨rfl, ?_⟩) hrest
          rintro rfl
          exact hopening ⟨t, rfl⟩
      · refine quiet_cons (eq_false_of_ne_true hx) hcurly ?_ hrest
        rintro rfl
        exact hbar ⟨t, rfl⟩

/-- What is read does not depend on the marks before. -/
theorem read_append_marks (flat : Bool) (r : Trace) (ms : List TableMark) (t : Text) :
    ({ r with marks := ms ++ r.marks } : Trace).read flat t =
      { r.read flat t with marks := ms ++ (r.read flat t).marks } := by
  induction t generalizing r with
  | nil => rfl
  | cons x t ih =>
    rw [read_cons, read_cons, ← ih]
    simp [step]

/-- Whether a text is quiet. -/
def isQuiet (t : Text) : Bool :=
  t.all (fun c => !isFeed c) && [false, true].all fun flat =>
    [Cursor.start, .lead, .mid].all fun c =>
      (Trace.read flat ⟨c, []⟩ t).marks.isEmpty && (Trace.read flat ⟨c, []⟩ t).cursor.atRest

theorem quiet_of_isQuiet (h : isQuiet t = true) : Quiet t := by
  rw [isQuiet, Bool.and_eq_true] at h
  obtain ⟨hsmooth, hread⟩ := h
  have hall : ∀ (flat : Bool) (c : Cursor), c.atRest = true →
      (Trace.read flat ⟨c, []⟩ t).marks = [] ∧
        (Trace.read flat ⟨c, []⟩ t).cursor.atRest = true := by
    intro flat c hc
    have hflat := List.all_eq_true.mp hread flat (by cases flat <;> simp)
    have hcursor := List.all_eq_true.mp hflat c (by cases c <;> simp_all [Cursor.atRest])
    rw [Bool.and_eq_true, List.isEmpty_iff] at hcursor
    exact hcursor
  have hmarks : ∀ (flat : Bool) (r : Trace), r.read flat t =
      { Trace.read flat ⟨r.cursor, []⟩ t with
        marks := r.marks ++ (Trace.read flat ⟨r.cursor, []⟩ t).marks } := by
    intro flat r
    rw [← read_append_marks, List.append_nil]
  refine ⟨fun c hc => by simpa using List.all_eq_true.mp hsmooth c hc, fun flat r hr => ?_,
    fun flat r hr => ?_⟩
  · rw [hmarks, (hall flat r.cursor hr).1, List.append_nil]
  · rw [hmarks]
    exact (hall flat r.cursor hr).2

/-- The mark that opens a table, and the mark that closes it. -/
theorem read_marks (hr : r.cursor.atRest = true) (flat : Bool) :
    r.read flat ['\x7b', '|'] = r.meet .opening ∧ r.read flat ['|', '\x7d'] = r.meet .closing := by
  obtain ⟨c, ms⟩ := r
  cases c with
  | brace => cases hr
  | bar => cases hr
  | _ => simp [step, meet, Cursor.next, Cursor.completed, isSpace]

end Quiet

/-! ### Counting -/

namespace TableMark

/-- The marks of tables that a line starts with. -/
def delimiters (l : Text) : List TableMark :=
  [opening, closing].filter (·.starts l)

variable {r : Trace} {l : Text} {ls : List Text}

/-- A line is told by its first two characters. -/
theorem delimiters_cons_of_ne {x : Char} (hbrace : x ≠ '\x7b') (hbar : x ≠ '|') (t : Text) :
    delimiters (x :: t) = [] := by
  simp [delimiters, starts, List.isPrefixOf, Ne.symm hbrace, Ne.symm hbar]

theorem delimiters_cons_trimEnd {x y : Char} {t : Text}
    (hx : x = '|' ∧ y ≠ '\x7d' ∨ x = '\x7b' ∧ y ≠ '|') :
    delimiters (x :: trimEnd isSpace (y :: t)) = [] := by
  by_cases hnil : trimEnd isSpace (y :: t) = []
  · rw [hnil]
    rcases hx with ⟨rfl, -⟩ | ⟨rfl, -⟩ <;> rfl
  · obtain ⟨u, hu⟩ := trimEnd_isSpace_cons_of_ne_nil hnil
    rw [hu]
    rcases hx with ⟨rfl, hy⟩ | ⟨rfl, hy⟩ <;>
      simp [delimiters, starts, List.isPrefixOf, Ne.symm hy]

/-- Reading a line finds the mark that it starts with, white space aside. -/
theorem read_line (hl : Plain l) (ms : List TableMark) :
    ((⟨.start, ms⟩ : Trace).read false l).marks = ms ++ delimiters (trim isSpace l) := by
  induction l with
  | nil => exact (List.append_nil ms).symm
  | cons x t ih =>
    have ht := Plain.tail hl
    cases hx : isSpace x with
    | true =>
      rw [trim_cons_of_pos hx, ← ih ht, read_cons, step_of_isSpace hx]
      simp [Cursor.next, hx]
    | false =>
      rw [trim_cons_of_neg hx]
      by_cases hmark : x = '\x7b' ∨ x = '|'
      · cases t with
        | nil =>
          rcases hmark with rfl | rfl <;>
            simp [step, Cursor.completed, delimiters, starts, List.isPrefixOf]
        | cons y t =>
          have hrest := (Plain.tail ht).notMem_newline
          have hread := read_marks (r := ⟨.start, ms⟩) rfl false
          by_cases hfirst : x = '|' ∧ y ≠ '\x7d' ∨ x = '\x7b' ∧ y ≠ '|'
          · rw [(quiet_cons_cons hfirst ht).marks false _ rfl, delimiters_cons_trimEnd hfirst,
              List.append_nil]
          · -- what is left are the two marks
            have hsplit : x :: y :: t = [x, y] ++ t := rfl
            rcases hmark with rfl | rfl
            · obtain rfl : y = '|' := by simpa using hfirst
              rw [hsplit, read_append, hread.1, read_of_mid rfl hrest,
                trimEnd_cons_of_neg (by decide)]
              simp [meet, delimiters, starts, List.isPrefixOf]
            · obtain rfl : y = '\x7d' := by simpa using hfirst
              rw [hsplit, read_append, hread.2, read_of_mid rfl hrest,
                trimEnd_cons_of_neg (by decide)]
              simp [meet, delimiters, starts, List.isPrefixOf]
      · rw [not_or] at hmark
        rw [read_cons, step_of_visible hx hmark.1 hmark.2 rfl,
          read_of_mid rfl ht.notMem_newline, delimiters_cons_of_ne hmark.1 hmark.2, List.append_nil]

theorem step_newline (hr : r.cursor ≠ .lead) : r.step false '\n' = ⟨.start, r.marks⟩ := by
  rw [step_of_isSpace rfl]
  obtain ⟨c, ms⟩ := r
  cases c with
  | lead => exact absurd rfl hr
  | _ => rfl

/-- Reading a text finds the marks that its inked lines start with. -/
theorem read_lines (hls : ∀ l ∈ ls, Plain l) (ms : List TableMark) :
    ((⟨.start, ms⟩ : Trace).read false (unlines ls)).marks =
      ms ++ (inked ls).flatMap delimiters := by
  have hinked : ∀ l : Text, (inked [l]).flatMap delimiters = delimiters (trim isSpace l) := by
    intro l
    by_cases hnil : trim isSpace l = []
    · rw [inked_of_trim_eq_nil hnil, hnil]
      rfl
    · rw [inked_of_trim_ne_nil hnil]
      simp
  induction ls generalizing ms with
  | nil => exact (List.append_nil ms).symm
  | cons l ls ih =>
    have hl := read_line (hls l (List.mem_cons_self ..)) ms
    cases hne : ls with
    | nil => rw [unlines_singleton, hl, hinked]
    | cons m ks =>
      rw [← hne, read_unlines_cons false _ l (by simp [hne]),
        step_newline (read_ne_lead (by simp) false l), hl,
        ih fun k hk => hls k (List.mem_cons_of_mem _ hk), inked_cons, List.flatMap_append, hinked,
        List.append_assoc]

theorem count_delimiters {mark : TableMark} (hmark : mark = opening ∨ mark = closing)
    (ls : List Text) : (ls.flatMap delimiters).count mark = mark.count ls := by
  have hline : ∀ l : Text, (delimiters l).count mark = if mark.starts l then 1 else 0 := by
    intro l
    rcases hmark with rfl | rfl <;> cases ho : opening.starts l <;> cases hc : closing.starts l <;>
      simp [delimiters, ho, hc]
  induction ls with
  | nil => rfl
  | cons l ls ih =>
    rw [List.flatMap_cons, List.count_append, ih, hline, ← count_singleton, ← count_append]
    rfl

end TableMark

end Wikitext

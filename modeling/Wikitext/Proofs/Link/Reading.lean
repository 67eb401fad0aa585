/-
  Wikitext/Proofs/Link/Reading.lean
  =================================
  **Reading links.**  A wiki reads a link in two brackets up to the next two closing ones, with a
  bar between its target and its label, and a link in one bracket up to the next closing one,
  with a space between its URL and its label.  A link stands on one line.  What the reader gives
  is what was written if the parts have none of the marks that part them (`Reading.IsLegible`,
  `read?_write_iff`).

  The markup of a link puts the title, the URL and the label in as they are.  So it is read as
  the link that is meant exactly if they leave its marks alone (`read?_markup_iff`): a bar in a
  title, a space in a URL or a line feed in a label makes another link of it, or none.
-/
import Wikitext.Link.Markup
import Wikitext.Proofs.Text.Search

namespace Wikitext

open Text

namespace Link

variable {marks : List Text} {k l m t u v : Text} {c d e : Char}

/-! ### Up to a mark -/

/-- The text before the first of some marks, on one line, that mark, and what follows it. -/
def upTo (marks : List Text) : Text → Option (Text × Text × Text)
  | [] => none
  | c :: t =>
    match marks.find? fun m => m.isPrefixOf (c :: t) with
    | some m => some ([], m, (c :: t).drop m.length)
    | none => if c = '\n' then none else (upTo marks t).map fun (l, m, u) => (c :: l, m, u)

/-- None of the marks starts in a text that `u` follows. -/
def Clear (marks : List Text) (u : Text) : Text → Prop
  | [] => True
  | c :: l => (∀ k ∈ marks, ¬ k <+: c :: (l ++ u)) ∧ Clear marks u l

theorem clear_cons : Clear (k :: marks) u l ↔ Clear [k] u l ∧ Clear marks u l := by
  induction l with
  | nil => simp [Clear]
  | cons c l ih =>
    simp only [Clear, ih, List.mem_cons, List.not_mem_nil, or_false, forall_eq_or_imp, forall_eq]
    tauto

theorem clear_one : Clear [[c]] u l ↔ c ∉ l := by
  induction l with
  | nil => simp [Clear]
  | cons d l ih => simp [Clear, ih, List.cons_prefix_cons]

theorem clear_two : Clear [[c, d]] (e :: u) l ↔ ¬ [c, d] <:+: l ++ [e] := by
  induction l with
  | nil =>
    simp only [Clear, List.nil_append, true_iff]
    intro h
    have hlength := h.length_le
    simp at hlength
  | cons f l ih =>
    have hprefix : [c, d] <+: f :: (l ++ e :: u) ↔ [c, d] <+: f :: (l ++ [e]) := by
      cases l <;> simp [List.cons_prefix_cons]
    simp only [Clear, ih, List.mem_singleton, forall_eq, List.cons_append, List.infix_cons_iff,
      hprefix]
    tauto

/-- What is taken apart is the text. -/
theorem eq_of_upTo (h : upTo marks t = some (l, m, u)) :
    t = l ++ (m ++ u) ∧ marks.find? (fun k => k.isPrefixOf (m ++ u)) = some m := by
  induction t generalizing l with
  | nil => cases h
  | cons c t ih =>
    rw [upTo] at h
    split at h
    · next found hfound =>
      obtain ⟨rfl, rfl, rfl⟩ : [] = l ∧ found = m ∧ (c :: t).drop found.length = u := by
        simpa using h
      have hprefix : found <+: c :: t := by
        have hstart := List.find?_some hfound
        rwa [List.isPrefixOf_iff_prefix] at hstart
      have heq : found ++ (c :: t).drop found.length = c :: t := by
        obtain ⟨rest, hrest⟩ := hprefix
        rw [← hrest, List.drop_left]
      rw [heq]
      exact ⟨rfl, hfound⟩
    · split at h
      · cases h
      · obtain ⟨⟨l', m', u'⟩, hrest, heq⟩ := Option.map_eq_some_iff.mp h
        obtain ⟨rfl, rfl, rfl⟩ : c :: l' = l ∧ m' = m ∧ u' = u := by simpa using heq
        obtain ⟨rfl, hfound⟩ := ih hrest
        exact ⟨rfl, hfound⟩

/-- A text is taken whole if it is on one line and the mark behind it is the first. -/
theorem upTo_append_iff (hfound : marks.find? (fun k => k.isPrefixOf (m ++ u)) = some m)
    (hne : m ≠ []) :
    upTo marks (l ++ (m ++ u)) = some (l, m, u) ↔ '\n' ∉ l ∧ Clear marks (m ++ u) l := by
  induction l with
  | nil =>
    obtain ⟨c, m, rfl⟩ := List.exists_cons_of_ne_nil hne
    rw [List.cons_append] at hfound
    simp [upTo, hfound, Clear]
  | cons c l ih =>
    have hstart : marks.find? (fun k => k.isPrefixOf (c :: (l ++ (m ++ u)))) = none ↔
        ∀ k ∈ marks, ¬ k <+: c :: (l ++ (m ++ u)) := by
      simp [List.find?_eq_none]
    rw [List.cons_append, upTo, Clear, ← hstart, List.mem_cons, not_or]
    cases hmark : marks.find? (fun k => k.isPrefixOf (c :: (l ++ (m ++ u)))) with
    | some k => simp
    | none =>
      by_cases hc : c = '\n'
      · simp [hc]
      · have hsome : (upTo marks (l ++ (m ++ u))).map (fun (l, m, u) => (c :: l, m, u)) =
            some (c :: l, m, u) ↔ upTo marks (l ++ (m ++ u)) = some (l, m, u) := by
          rw [Option.map_eq_some_iff]
          constructor
          · rintro ⟨⟨l', m', u'⟩, hrest, heq⟩
            obtain ⟨⟨-, rfl⟩, rfl, rfl⟩ : (c = c ∧ l' = l) ∧ m' = m ∧ u' = u := by simpa using heq
            exact hrest
          · intro h
            exact ⟨_, h, rfl⟩
        simp only [hc, if_false, hsome, ih, true_and]
        have hne : ¬ '\n' = c := fun h => hc h.symm
        simp [hne]

/-! ### The grammar -/

/-- What a link says. -/
inductive Reading where
  /-- A page of the wiki; without a label, its name is shown. -/
  | page (target : Text) (label : Option Text)
  | external (url label : Text)
  /-- A URL that stands by itself. -/
  | bare (url : Text)
deriving DecidableEq, Repr

/-- What stands between two brackets, and what follows it. -/
def page? (t : Text) : Option (Reading × Text) :=
  (upTo [['|'], [']', ']']] t).bind fun (target, mark, rest) =>
    if mark = ['|'] then
      (upTo [[']', ']']] rest).map fun (label, _, rest) => (.page target (some label), rest)
    else some (.page target none, rest)

/-- What stands between single brackets, and what follows it. -/
def external? (t : Text) : Option (Reading × Text) :=
  (upTo [[' '], [']']] t).bind fun (url, mark, rest) =>
    if mark = [' '] then
      (upTo [[']']] rest).map fun (label, _, rest) => (.external url label, rest)
    else none

/-- The link in brackets at the start of a text, and what follows it. -/
def bracketed? : Text → Option (Reading × Text)
  | '[' :: '[' :: t => page? t
  | '[' :: t => external? t
  | _ => none

/-- Reads a text that is one link. -/
def read? (t : Text) : Option Reading :=
  match bracketed? t with
  | some (r, []) => some r
  | some _ => none
  | none => if t.head? = some '[' ∨ t.any isSpace then none else some (.bare t)

/-- Reads the links in brackets from left to right, after `skip` characters. -/
def readAllFrom : (skip : Nat) → Text → List Reading
  | _, [] => []
  | skip + 1, _ :: t => readAllFrom skip t
  | 0, c :: t =>
    match bracketed? (c :: t) with
    | some (r, rest) => r :: readAllFrom (t.length - rest.length) t
    | none => readAllFrom 0 t

/-- The links in brackets of a page. -/
def readAll (t : Text) : List Reading :=
  readAllFrom 0 t

namespace Reading

variable {r : Reading}

def write : Reading → Text
  | page target none => ['[', '['] ++ target ++ [']', ']']
  | page target (some label) => ['[', '['] ++ target ++ '|' :: label ++ [']', ']']
  | external url label => '[' :: url ++ ' ' :: label ++ [']']
  | bare url => url

def isBare : Reading → Bool
  | bare _ => true
  | _ => false

/-- No part has a mark that would end it. -/
def IsLegible : Reading → Prop
  | page target none => '\n' ∉ target ∧ '|' ∉ target ∧ ¬ [']', ']'] <:+: target ++ [']']
  | page target (some label) => ('\n' ∉ target ∧ '|' ∉ target ∧ ¬ [']', ']'] <:+: target) ∧
      '\n' ∉ label ∧ ¬ [']', ']'] <:+: label ++ [']']
  | external url label => (url.head? ≠ some '[' ∧ '\n' ∉ url ∧ ' ' ∉ url ∧ ']' ∉ url) ∧
      '\n' ∉ label ∧ ']' ∉ label
  | bare url => url.head? ≠ some '[' ∧ url.any isSpace = false

instance : DecidablePred IsLegible
  | page _ none => inferInstanceAs (Decidable (_ ∧ _ ∧ _))
  | page _ (some _) => inferInstanceAs (Decidable ((_ ∧ _ ∧ _) ∧ _ ∧ _))
  | external _ _ => inferInstanceAs (Decidable ((_ ∧ _ ∧ _ ∧ _) ∧ _ ∧ _))
  | bare _ => inferInstanceAs (Decidable (_ ∧ _))

end Reading

open Reading

variable {r : Reading}

/-! ### What is read -/

theorem page?_eq_some_iff : page? t = some (r, u) ↔
    (∃ target, r = .page target none ∧
        upTo [['|'], [']', ']']] t = some (target, [']', ']'], u)) ∨
      ∃ target label rest, r = .page target (some label) ∧
        upTo [['|'], [']', ']']] t = some (target, ['|'], rest) ∧
          upTo [[']', ']']] rest = some (label, [']', ']'], u) := by
  constructor
  · intro h
    obtain ⟨⟨target, mark, rest⟩, hup, h⟩ := Option.bind_eq_some_iff.mp h
    have hmark : mark = ['|'] ∨ mark = [']', ']'] := by
      simpa using List.mem_of_find?_eq_some (eq_of_upTo hup).2
    rcases hmark with rfl | rfl
    · dsimp only at h
      rw [if_pos rfl] at h
      obtain ⟨⟨label, close, rest'⟩, hup', h⟩ := Option.map_eq_some_iff.mp h
      obtain ⟨rfl, rfl⟩ := Prod.mk.inj h
      obtain rfl : close = [']', ']'] := by
        simpa using List.mem_of_find?_eq_some (eq_of_upTo hup').2
      exact Or.inr ⟨target, label, rest, rfl, hup, hup'⟩
    · dsimp only at h
      rw [if_neg (by decide)] at h
      obtain ⟨rfl, rfl⟩ := Prod.mk.inj (Option.some.inj h)
      exact Or.inl ⟨target, rfl, hup⟩
  · rintro (⟨target, rfl, hup⟩ | ⟨target, label, rest, rfl, hup, hup'⟩)
    · simp [page?, hup]
    · simp [page?, hup, hup']

theorem external?_eq_some_iff : external? t = some (r, u) ↔
    ∃ url label rest, r = .external url label ∧
      upTo [[' '], [']']] t = some (url, [' '], rest) ∧
        upTo [[']']] rest = some (label, [']'], u) := by
  constructor
  · intro h
    obtain ⟨⟨url, mark, rest⟩, hup, h⟩ := Option.bind_eq_some_iff.mp h
    have hmark : mark = [' '] ∨ mark = [']'] := by
      simpa using List.mem_of_find?_eq_some (eq_of_upTo hup).2
    rcases hmark with rfl | rfl
    · dsimp only at h
      rw [if_pos rfl] at h
      obtain ⟨⟨label, close, rest'⟩, hup', h⟩ := Option.map_eq_some_iff.mp h
      obtain ⟨rfl, rfl⟩ := Prod.mk.inj h
      obtain rfl : close = [']'] := by
        simpa using List.mem_of_find?_eq_some (eq_of_upTo hup').2
      exact ⟨url, label, rest, rfl, hup, hup'⟩
    · dsimp only at h
      rw [if_neg (by decide)] at h
      cases h
  · rintro ⟨url, label, rest, rfl, hup, hup'⟩
    simp [external?, hup, hup']

/-- What is read is what was written. -/
theorem eq_of_bracketed? (h : bracketed? t = some (r, u)) :
    t = r.write ++ u ∧ r.isBare = false := by
  unfold bracketed? at h
  split at h
  · rcases page?_eq_some_iff.mp h with ⟨target, rfl, hup⟩ | ⟨target, label, rest, rfl, hup, hup'⟩
    · rw [(eq_of_upTo hup).1]
      simp [write, isBare]
    · rw [(eq_of_upTo hup).1, (eq_of_upTo hup').1]
      simp [write, isBare]
  · obtain ⟨url, label, rest, rfl, hup, hup'⟩ := external?_eq_some_iff.mp h
    rw [(eq_of_upTo hup).1, (eq_of_upTo hup').1]
    simp [write, isBare]
  · cases h

theorem eq_of_read? (h : read? t = some r) : r.write = t := by
  unfold read? at h
  split at h
  · next hread =>
    obtain rfl := Option.some.inj h
    rw [(eq_of_bracketed? hread).1, List.append_nil]
  · cases h
  · split at h
    · cases h
    · obtain rfl := Option.some.inj h
      rfl

theorem bracketed?_eq_none (h : t.head? ≠ some '[') : bracketed? t = none := by
  unfold bracketed?
  split
  · exact absurd rfl h
  · exact absurd rfl h
  · rfl

/-! ### What is written -/

section Write

variable {target label url : Text}

theorem upTo_target_iff (u : Text) : upTo [['|'], [']', ']']] (target ++ ([']', ']'] ++ u)) =
    some (target, [']', ']'], u) ↔
      '\n' ∉ target ∧ '|' ∉ target ∧ ¬ [']', ']'] <:+: target ++ [']'] := by
  rw [upTo_append_iff (by simp) (by simp), clear_cons, clear_one, List.cons_append, clear_two]

theorem upTo_bar_iff (u : Text) : upTo [['|'], [']', ']']] (target ++ (['|'] ++ u)) =
    some (target, ['|'], u) ↔ '\n' ∉ target ∧ '|' ∉ target ∧ ¬ [']', ']'] <:+: target := by
  have hbar : [']', ']'] <:+: target ++ ['|'] ↔ [']', ']'] <:+: target := by
    constructor
    · intro h
      rcases infix_append_cons (by decide) (by decide) h with h | h
      · exact h
      · exact absurd h (by decide)
    · intro h
      exact h.trans (List.prefix_append ..).isInfix
  rw [upTo_append_iff (by simp) (by simp), clear_cons, clear_one, List.singleton_append, clear_two,
    hbar]

theorem upTo_label_iff (u : Text) : upTo [[']', ']']] (label ++ ([']', ']'] ++ u)) =
    some (label, [']', ']'], u) ↔ '\n' ∉ label ∧ ¬ [']', ']'] <:+: label ++ [']'] := by
  rw [upTo_append_iff (by simp) (by simp), List.cons_append, clear_two]

theorem upTo_url_iff (u : Text) : upTo [[' '], [']']] (url ++ ([' '] ++ u)) =
    some (url, [' '], u) ↔ '\n' ∉ url ∧ ' ' ∉ url ∧ ']' ∉ url := by
  rw [upTo_append_iff (by simp) (by simp), clear_cons, clear_one, clear_one]

theorem upTo_bracket_iff (u : Text) : upTo [[']']] (label ++ ([']'] ++ u)) =
    some (label, [']'], u) ↔ '\n' ∉ label ∧ ']' ∉ label := by
  rw [upTo_append_iff (by simp) (by simp), clear_one]

end Write

/-- What is not bare is written between brackets. -/
theorem exists_write_eq_brackets (hr : r.isBare = false) : ∃ w, r.write = '[' :: (w ++ [']']) := by
  cases r with
  | bare url => cases hr
  | external url label => exact ⟨url ++ ' ' :: label, rfl⟩
  | page target label =>
    cases label with
    | none => exact ⟨'[' :: target ++ [']'], by simp [write]⟩
    | some label => exact ⟨'[' :: target ++ '|' :: label ++ [']'], by simp [write]⟩

/-- A legible link stands on one line. -/
theorem Reading.IsLegible.notMem_newline (h : r.IsLegible) : '\n' ∉ r.write := by
  cases r with
  | page target label =>
    cases label with
    | none => simp [write, h.1]
    | some label => simp [write, h.1.1, h.2.1]
  | external url label => simp [write, h.1.2.1, h.2.1]
  | bare url =>
    intro hin
    exact absurd rfl (List.any_eq_false.mp h.2 _ hin)

theorem bracketed?_page_none_iff {target : Text} (u : Text) :
    bracketed? (write (.page target none) ++ u) = some (.page target none, u) ↔
      IsLegible (.page target none) := by
  have hwrite : bracketed? (write (.page target none) ++ u) =
      page? (target ++ ([']', ']'] ++ u)) := by
    simp [write, bracketed?]
  rw [hwrite, page?_eq_some_iff, IsLegible, ← upTo_target_iff u]
  constructor
  · rintro (⟨target', heq, hup⟩ | ⟨target', label, rest, heq, -⟩)
    · obtain ⟨rfl, -⟩ := Reading.page.inj heq
      exact hup
    · cases heq
  · intro hup
    exact Or.inl ⟨target, rfl, hup⟩

theorem bracketed?_page_some_iff {target label : Text} (u : Text) :
    bracketed? (write (.page target (some label)) ++ u) = some (.page target (some label), u) ↔
      IsLegible (.page target (some label)) := by
  have hwrite : bracketed? (write (.page target (some label)) ++ u) =
      page? (target ++ (['|'] ++ (label ++ ([']', ']'] ++ u)))) := by
    simp [write, bracketed?]
  rw [hwrite, page?_eq_some_iff, IsLegible, ← upTo_bar_iff (label ++ ([']', ']'] ++ u)),
    ← upTo_label_iff u]
  constructor
  · rintro (⟨target', heq, -⟩ | ⟨target', label', rest, heq, hup, hup'⟩)
    · cases heq
    · obtain ⟨rfl, hlabel⟩ := Reading.page.inj heq
      obtain rfl := Option.some.inj hlabel
      obtain rfl : label ++ ([']', ']'] ++ u) = rest := by simpa using (eq_of_upTo hup).1
      exact ⟨hup, hup'⟩
  · rintro ⟨hup, hup'⟩
    exact Or.inr ⟨target, label, _, rfl, hup, hup'⟩

theorem bracketed?_external_iff {url label : Text} (u : Text) :
    bracketed? (write (.external url label) ++ u) = some (.external url label, u) ↔
      IsLegible (.external url label) := by
  by_cases hhead : url.head? = some '['
  · -- such a URL makes a second bracket
    obtain ⟨url, rfl⟩ := List.head?_eq_some_iff.mp hhead
    simp only [IsLegible, hhead, ne_eq, not_true_eq_false, false_and, iff_false]
    intro h
    have hpage : page? (url ++ ' ' :: label ++ [']'] ++ u) =
        some (.external ('[' :: url) label, u) := by
      simpa [write, bracketed?] using h
    rcases page?_eq_some_iff.mp hpage with ⟨target, heq, -⟩ | ⟨target, label', rest, heq, -⟩
    · cases heq
    · cases heq
  · have hwrite : bracketed? (write (.external url label) ++ u) =
        external? (url ++ ([' '] ++ (label ++ ([']'] ++ u)))) := by
      cases url with
      | nil => simp [write, bracketed?]
      | cons c url =>
        have hc : c ≠ '[' := fun hc => hhead (by rw [hc]; rfl)
        simp [write, bracketed?, hc]
    rw [hwrite, external?_eq_some_iff, IsLegible,
      ← upTo_url_iff (label ++ ([']'] ++ u)), ← upTo_bracket_iff u]
    constructor
    · rintro ⟨url', label', rest, heq, hup, hup'⟩
      obtain ⟨rfl, rfl⟩ := Reading.external.inj heq
      obtain rfl : label ++ ([']'] ++ u) = rest := by simpa using (eq_of_upTo hup).1
      exact ⟨⟨hhead, hup⟩, hup'⟩
    · rintro ⟨⟨-, hup⟩, hup'⟩
      exact ⟨url, label, _, rfl, hup, hup'⟩

/-- A link in brackets is read in front of any text if it is legible. -/
theorem bracketed?_write_iff (hr : r.isBare = false) (u : Text) :
    bracketed? (r.write ++ u) = some (r, u) ↔ r.IsLegible := by
  cases r with
  | bare url => cases hr
  | page target label =>
    cases label with
    | none => exact bracketed?_page_none_iff u
    | some label => exact bracketed?_page_some_iff u
  | external url label => exact bracketed?_external_iff u

/-- A link is read as it was written exactly if it is legible. -/
theorem read?_write_iff : read? r.write = some r ↔ r.IsLegible := by
  cases hr : r.isBare with
  | false =>
    rw [← bracketed?_write_iff hr [], List.append_nil, read?]
    constructor
    · intro h
      split at h
      · next hread =>
        rw [hread, Option.some.inj h]
      · cases h
      · split at h
        · cases h
        · rw [← Option.some.inj h] at hr
          cases hr
    · intro h
      rw [h]
  | true =>
    cases r with
    | page target label => cases hr
    | external url label => cases hr
    | bare url =>
      by_cases hhead : url.head? = some '['
      · simp only [IsLegible, hhead, ne_eq, not_true_eq_false, false_and, iff_false]
        intro h
        rw [read?, write] at h
        split at h
        · next hread =>
          have hbare := (eq_of_bracketed? hread).2
          rw [Option.some.inj h] at hbare
          cases hbare
        · cases h
        · rw [if_pos (Or.inl hhead)] at h
          cases h
      · simp [read?, write, bracketed?_eq_none hhead, hhead, IsLegible]

/-! ### Pages -/

theorem readAllFrom_drop (n : Nat) (t : Text) : readAllFrom n t = readAll (t.drop n) := by
  induction n generalizing t with
  | zero => rfl
  | succ n ih =>
    cases t with
    | nil => rfl
    | cons c t => exact ih t

theorem readAll_cons (hc : c ≠ '[') (t : Text) : readAll (c :: t) = readAll t := by
  have hnone : bracketed? (c :: t) = none := bracketed?_eq_none (by simpa using hc)
  rw [readAll, readAllFrom, hnone]
  rfl

theorem readAll_append (ht : '[' ∉ t) (u : Text) : readAll (t ++ u) = readAll u := by
  induction t with
  | nil => rfl
  | cons c t ih =>
    rw [List.mem_cons, not_or] at ht
    rw [List.cons_append, readAll_cons (Ne.symm ht.1), ih ht.2]

/-- A legible link in brackets is read where it stands. -/
theorem readAll_write_append (hr : r.isBare = false) (h : r.IsLegible) (u : Text) :
    readAll (r.write ++ u) = r :: readAll u := by
  have hread := (bracketed?_write_iff hr u).mpr h
  obtain ⟨w, hw⟩ := exists_write_eq_brackets hr
  rw [hw, List.cons_append] at hread ⊢
  have hskip : (w ++ [']'] ++ u).length - u.length = (w ++ [']']).length := by
    rw [List.length_append, Nat.add_sub_cancel]
  rw [readAll, readAllFrom, hread]
  simp only
  rw [hskip, readAllFrom_drop, List.drop_left]

/-! ### Links -/

/-- A link: where it leads, the title of the page that this is, if it is one, and the converted
text of the link. -/
structure Anchor where
  url : Text
  title : Option Text
  label : Text
deriving DecidableEq, Repr

namespace Anchor

variable {a : Anchor}

def isPage (a : Anchor) : Bool :=
  a.title.any fun title => !title.isEmpty

/-- What is displayed of the place that a link leads to. -/
def target (a : Anchor) : Text :=
  if a.isPage then displayTitle (a.title.getD []) else a.url

/-- What is written for a link. -/
def reading (a : Anchor) : Reading :=
  if a.isPage then
    if a.label = a.target ∨ a.label = lowerFirst a.target then .page a.label none
    else .page a.target (some a.label)
  else if a.url = a.label then .bare a.url
  else .external a.url a.label

/-- A link to a page is read as one to its title, up to the case of the first letter, any other
link as one to its URL, and both show the converted text. -/
def Means (a : Anchor) : Reading → Prop
  | .page target label => a.isPage = true ∧
      (target = a.target ∨ target = lowerFirst a.target) ∧ label.getD target = a.label
  | .external url label => a.isPage = false ∧ url = a.url ∧ label = a.label
  | .bare url => a.isPage = false ∧ url = a.url ∧ url = a.label

instance (a : Anchor) : DecidablePred a.Means
  | .page _ _ => inferInstanceAs (Decidable (_ ∧ _ ∧ _))
  | .external _ _ => inferInstanceAs (Decidable (_ ∧ _ ∧ _))
  | .bare _ => inferInstanceAs (Decidable (_ ∧ _ ∧ _))

def markup (a : Anchor) : Text :=
  Link.markup a.url a.title a.label

theorem markup_page (title label : Text) : page title label =
    write (if label = displayTitle title ∨ label = lowerFirst (displayTitle title) then
      .page label none else .page (displayTitle title) (some label)) := by
  unfold page
  by_cases hlabel : label = displayTitle title
  · simp [hlabel, write]
  · by_cases hlower : label = lowerFirst (displayTitle title)
    · rw [if_neg hlabel, if_pos hlower, if_pos (Or.inr hlower)]
      rfl
    · rw [if_neg hlabel, if_neg hlower, if_neg (not_or.mpr ⟨hlabel, hlower⟩)]
      rfl

theorem markup_external (url label : Text) : external url label =
    write (if url = label then .bare url else .external url label) := by
  unfold external
  split
  · rfl
  · rfl

/-- The markup of a link writes its reading. -/
theorem markup_eq (a : Anchor) : a.markup = a.reading.write := by
  obtain ⟨url, title, label⟩ := a
  cases title with
  | none => exact markup_external url label
  | some title =>
    cases title with
    | nil => exact markup_external url label
    | cons c cs => exact markup_page (c :: cs) label

/-- The text of a link stands in its markup. -/
theorem exists_write_eq (a : Anchor) :
    ∃ before after, a.reading.write = before ++ (a.label ++ after) := by
  unfold reading
  split
  · split
    · exact ⟨['[', '['], [']', ']'], by simp [write]⟩
    · exact ⟨['[', '['] ++ a.target ++ ['|'], [']', ']'], by simp [write]⟩
  · split
    · next hurl => exact ⟨[], [], by simp [write, hurl]⟩
    · exact ⟨'[' :: a.url ++ [' '], [']'], by simp [write]⟩

theorem notMem_newline_label (h : a.reading.IsLegible) : '\n' ∉ a.label := by
  obtain ⟨before, after, hwrite⟩ := a.exists_write_eq
  have hline := h.notMem_newline
  rw [hwrite] at hline
  exact fun hin => hline (List.mem_append_right _ (List.mem_append_left _ hin))

/-- A bare link shows its URL. -/
theorem reading_of_isBare (h : a.reading.isBare = true) :
    a.reading = .bare a.url ∧ a.url = a.label := by
  unfold reading at h ⊢
  split at h
  · split at h <;> cases h
  · next hpage =>
    rw [if_neg hpage]
    split at h
    · next hurl =>
      rw [if_pos hurl]
      exact ⟨rfl, hurl⟩
    · cases h

theorem length_lowerFirst (t : Text) : (lowerFirst t).length = t.length := by
  cases t with
  | nil => rfl
  | cons c t => rfl

theorem means_reading (a : Anchor) : a.Means a.reading := by
  unfold reading
  cases hpage : a.isPage with
  | true =>
    by_cases hlabel : a.label = a.target ∨ a.label = lowerFirst a.target
    · rw [if_pos rfl, if_pos hlabel]
      exact ⟨hpage, hlabel, rfl⟩
    · rw [if_pos rfl, if_neg hlabel]
      exact ⟨hpage, Or.inl rfl, rfl⟩
  | false =>
    by_cases hurl : a.url = a.label
    · rw [if_neg (by simp), if_pos hurl]
      exact ⟨hpage, rfl, hurl⟩
    · rw [if_neg (by simp), if_neg hurl]
      exact ⟨hpage, rfl, rfl⟩

/-- There is one way to write what is meant. -/
theorem eq_of_means {s : Reading} (h : a.Means r) (h' : a.Means s) (hwrite : r.write = s.write) :
    r = s := by
  -- the targets are of the same length, so what follows them starts at the same place
  have hlength : ∀ {t : Text}, t = a.target ∨ t = lowerFirst a.target →
      t.length = a.target.length := by
    rintro t (rfl | rfl)
    · rfl
    · exact length_lowerFirst a.target
  cases r with
  | page target label =>
    cases s with
    | page target' label' =>
      obtain ⟨-, htarget, hlabel⟩ := h
      obtain ⟨-, htarget', hlabel'⟩ := h'
      have hsame := (hlength htarget).trans (hlength htarget').symm
      cases label with
      | none =>
        cases label' with
        | none => simpa [write] using hwrite
        | some label' =>
          have hcount := congrArg List.length hwrite
          simp [write] at hcount
          omega
      | some label =>
        cases label' with
        | none =>
          have hcount := congrArg List.length hwrite
          simp [write] at hcount
          omega
        | some label' =>
          obtain rfl : label = label' := hlabel.trans hlabel'.symm
          simpa [write] using hwrite
    | external url' label' => exact absurd (h.1.symm.trans h'.1) (by decide)
    | bare url' => exact absurd (h.1.symm.trans h'.1) (by decide)
  | external url label =>
    obtain ⟨hpage, rfl, rfl⟩ := h
    cases s with
    | page target' label' => exact absurd (h'.1.symm.trans hpage) (by decide)
    | external url' label' =>
      obtain ⟨-, rfl, rfl⟩ := h'
      rfl
    | bare url' =>
      obtain ⟨-, rfl, -⟩ := h'
      have hcount := congrArg List.length hwrite
      simp [write] at hcount
      omega
  | bare url =>
    obtain ⟨hpage, rfl, -⟩ := h
    cases s with
    | page target' label' => exact absurd (h'.1.symm.trans hpage) (by decide)
    | external url' label' =>
      obtain ⟨-, rfl, rfl⟩ := h'
      have hcount := congrArg List.length hwrite
      simp [write] at hcount
      omega
    | bare url' =>
      obtain ⟨-, rfl, -⟩ := h'
      rfl

/-- A link is read as it is meant exactly if what is written for it is legible. -/
theorem read?_markup_iff (a : Anchor) :
    (∃ r, read? a.markup = some r ∧ a.Means r) ↔ a.reading.IsLegible := by
  rw [markup_eq, ← read?_write_iff]
  constructor
  · rintro ⟨r, hread, hmeans⟩
    rw [eq_of_means hmeans a.means_reading (eq_of_read? hread)] at hread
    exact hread
  · intro hread
    exact ⟨a.reading, hread, a.means_reading⟩

/-- Two braces stand in the markup of a link exactly if they stand in its target or its text. -/
theorem braces_iff (a : Anchor) : ['\x7b', '\x7b'] <:+: a.reading.write ↔
    ['\x7b', '\x7b'] <:+: a.target ∨ ['\x7b', '\x7b'] <:+: a.label := by
  have hafter : ∀ {c : Char} {t u : Text}, c ≠ '\x7b' → (['\x7b', '\x7b'] <:+: t ++ c :: u ↔
      ['\x7b', '\x7b'] <:+: t ∨ ['\x7b', '\x7b'] <:+: u) := fun hc =>
    infix_append_cons_iff (by simp) (by simp [hc])
  have hstart : ∀ {c : Char} {u : Text}, c ≠ '\x7b' → (['\x7b', '\x7b'] <:+: c :: u ↔
      ['\x7b', '\x7b'] <:+: u) := by
    intro c u hc
    have h := hafter (t := []) (u := u) hc
    simpa using h
  have hlower : ['\x7b', '\x7b'] <:+: a.target → ['\x7b', '\x7b'] <:+: lowerFirst a.target := by
    cases a.target with
    | nil => exact id
    | cons c t =>
      intro h
      rcases List.infix_cons_iff.mp h with h | h
      · obtain ⟨rfl, -⟩ := List.cons_prefix_cons.mp h
        exact h.isInfix
      · exact h.trans (List.suffix_cons ..).isInfix
  unfold reading
  cases hpage : a.isPage with
  | true =>
    by_cases hlabel : a.label = a.target ∨ a.label = lowerFirst a.target
    · have htarget : ['\x7b', '\x7b'] <:+: a.target → ['\x7b', '\x7b'] <:+: a.label := by
        rcases hlabel with h | h
        · exact fun hin => h ▸ hin
        · exact fun hin => h ▸ hlower hin
      rw [if_pos rfl, if_pos hlabel]
      simp [write, hafter, hstart]
      exact htarget
    · rw [if_pos rfl, if_neg hlabel]
      simp [write, hafter, hstart]
  | false =>
    have htarget : a.target = a.url := by
      rw [target, hpage]
      rfl
    by_cases hurl : a.url = a.label
    · rw [if_neg (by simp), if_pos hurl, htarget, ← hurl]
      simp [write]
    · rw [if_neg (by simp), if_neg hurl, htarget]
      simp [write, hafter, hstart]

end Anchor

end Link

end Wikitext

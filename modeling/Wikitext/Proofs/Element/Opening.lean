/-
  Wikitext/Proofs/Element/Opening.lean
  ====================================
  **What opens tables, rows and cells.**  Written attributes stand on one line if their values do,
  and end with a quote.  So the line that opens a table or a cell starts with its mark, goes on
  with a space or not at all, and ends with no white space before the content of the cell.
-/
import Wikitext.Element.Table
import Wikitext.Proofs.Nowiki.Guard

namespace Wikitext.Element

open Text

variable {allowed : List String} {attributes : Attributes} {name tag : String} {value w : Text}
  {d : Char}

/-! ### Written attributes -/

/-- The allowed attributes have values on one line. -/
def onOneLine (allowed : List String) (attributes : Attributes) : Bool :=
  (allowedPairs allowed attributes).all fun pair => !pair.2.contains '\n'

theorem mem_distinct {x : String} {xs : List String} (h : x ∈ distinct xs) : x ∈ xs := by
  induction xs with
  | nil => exact h
  | cons y ys ih =>
    rcases List.mem_cons.mp h with rfl | h
    · exact List.mem_cons_self ..
    · exact List.mem_cons_of_mem _ (ih (List.mem_filter.mp h).1)

theorem notMem_escapeAttribute (hd : isSpace d = true) (h : d ∉ value) :
    d ∉ value.escapeAttribute := by
  intro hin
  obtain ⟨c, hc, hmem⟩ := List.mem_flatMap.mp hin
  rw [escapeAttributeChar.eq_def] at hmem
  split at hmem
  · have hquote : ∀ e ∈ ['&', 'q', 'u', 'o', 't', ';'], isSpace e = false := fun e he =>
      not_isSpace_of_all (by decide) e he
    rw [hquote d hmem] at hd
    cases hd
  · exact h (eq_of_mem_escapeChar hmem hd ▸ hc)

theorem notMem_writtenPair (hd : isSpace d = true) (hname : d ∉ name.toList)
    (hvalue : d ∉ value) : d ∉ writtenPair name value := by
  have hescaped := notMem_escapeAttribute hd hvalue
  have hmarks : ∀ e ∈ ['=', '"'], isSpace e = false := fun e he =>
    not_isSpace_of_all (by decide) e he
  simp only [writtenPair, List.mem_append, not_or]
  refine ⟨⟨⟨hname, fun hin => ?_⟩, hescaped⟩, fun hin => ?_⟩
  · rw [hmarks d hin] at hd
    cases hd
  · rw [hmarks d (List.mem_cons_of_mem _ hin)] at hd
    cases hd

theorem notMem_join (hblank : d ≠ ' ') {ts : List Text} (h : ∀ t ∈ ts, d ∉ t) :
    d ∉ join [' '] ts := by
  induction ts with
  | nil => exact List.not_mem_nil
  | cons t ts ih =>
    have ht := h t (List.mem_cons_self ..)
    cases hts : ts with
    | nil => exact ht
    | cons u us =>
      rw [join, ← hts, List.mem_append, List.mem_append, not_or, not_or]
      · exact ⟨⟨ht, by simpa using hblank⟩, ih fun v hv => h v (List.mem_cons_of_mem _ hv)⟩
      · simp

/-- The last piece ends the whole. -/
theorem exists_join_concat {ts : List Text} (hne : ts ≠ [])
    (h : ∀ t ∈ ts, ∃ u, t = u ++ ['"']) : ∃ u, join [' '] ts = u ++ ['"'] := by
  induction ts with
  | nil => exact absurd rfl hne
  | cons t ts ih =>
    cases hts : ts with
    | nil => exact h t (List.mem_cons_self ..)
    | cons u us =>
      obtain ⟨v, hv⟩ := ih (by simp [hts]) fun x hx => h x (List.mem_cons_of_mem _ hx)
      refine ⟨t ++ [' '] ++ v, ?_⟩
      rw [join, ← hts, hv]
      · simp
      · simp

/-- Written attributes are nothing, or end with a quote. -/
theorem spacedAttributes_eq_nil_or (allowed : List String) (attributes : Attributes) :
    spacedAttributes allowed attributes = [] ∨
      ∃ w, spacedAttributes allowed attributes = ' ' :: (w ++ ['"']) := by
  rw [spacedAttributes, writtenAttributes]
  split
  · exact Or.inl rfl
  · rename_i w hw
    right
    have hne : (allowedPairs allowed attributes).map
        (fun pair => writtenPair pair.1 pair.2) ≠ [] := by
      intro hnil
      rw [hnil] at hw
      exact hw rfl
    obtain ⟨u, hu⟩ := exists_join_concat hne fun t ht => by
      obtain ⟨pair, -, rfl⟩ := List.mem_map.mp ht
      exact ⟨_, rfl⟩
    exact ⟨u, congrArg _ hu⟩

/-- White space but for spaces comes from names and values. -/
theorem notMem_writtenAttributes (hd : isSpace d = true) (hblank : d ≠ ' ')
    (hnames : ∀ name ∈ allowed.map lowerName, d ∉ name.toList)
    (h : ∀ pair ∈ allowedPairs allowed attributes, d ∉ pair.2) :
    d ∉ writtenAttributes allowed attributes := by
  refine notMem_join hblank fun t ht => ?_
  obtain ⟨pair, hpair, rfl⟩ := List.mem_map.mp ht
  refine notMem_writtenPair hd ?_ (h pair hpair)
  obtain ⟨name, hname, hfound⟩ := List.mem_filterMap.mp hpair
  obtain ⟨value, -, rfl⟩ := Option.map_eq_some_iff.mp hfound
  exact hnames name (mem_distinct hname)

theorem spacedAttributes_eq (allowed : List String) (attributes : Attributes) :
    spacedAttributes allowed attributes = [] ∨
      spacedAttributes allowed attributes = ' ' :: writtenAttributes allowed attributes := by
  rw [spacedAttributes]
  split
  · exact Or.inl rfl
  · exact Or.inr rfl

theorem notMem_newline_writtenAttributes
    (hnames : ∀ name ∈ allowed.map lowerName, '\n' ∉ name.toList)
    (h : onOneLine allowed attributes = true) : '\n' ∉ writtenAttributes allowed attributes :=
  notMem_writtenAttributes rfl (by decide) hnames fun pair hpair => by
    simpa using List.all_eq_true.mp h pair hpair

/-! ### Lines that open -/

/-- A line that starts with `mark`, goes on with a space or not at all, and ends with no white
space. -/
structure Opens (mark l : Text) : Prop where
  starts : l = mark ∨ ∃ rest, l = mark ++ ' ' :: rest
  last : ∀ c ∈ l.getLast?, isSpace c = false
  notMem_newline : '\n' ∉ l

theorem Opens.refl {mark : Text} (hlast : ∀ c ∈ mark.getLast?, isSpace c = false)
    (hline : '\n' ∉ mark) : Opens mark mark :=
  ⟨Or.inl rfl, hlast, hline⟩

theorem Opens.spaced {mark : Text} {c : Char} (hmark : '\n' ∉ mark) (hw : '\n' ∉ w)
    (hspace : isSpace c = false) (hc : c ≠ '\n') : Opens mark (mark ++ ' ' :: (w ++ [c])) := by
  refine ⟨Or.inr ⟨_, rfl⟩, ?_, ?_⟩
  · intro d hd
    have hlast : (mark ++ ' ' :: (w ++ [c])).getLast? = some c := by
      rw [← List.cons_append, ← List.append_assoc, List.getLast?_concat]
    rw [hlast] at hd
    exact Option.mem_some.mp hd ▸ hspace
  · simp only [List.mem_append, List.mem_cons, List.not_mem_nil, or_false, not_or]
    exact ⟨hmark, by decide, hw, Ne.symm hc⟩

/-- A mark and the attributes behind it. -/
theorem opens_spacedAttributes (mark : Text) (hlast : ∀ c ∈ mark.getLast?, isSpace c = false)
    (hmark : '\n' ∉ mark) (h : '\n' ∉ writtenAttributes allowed attributes) :
    Opens mark (mark ++ spacedAttributes allowed attributes) := by
  rcases spacedAttributes_eq_nil_or allowed attributes with hnil | ⟨w, hw⟩
  · rw [hnil, List.append_nil]
    exact Opens.refl hlast hmark
  · rcases spacedAttributes_eq allowed attributes with hnil | hspaced
    · rw [hnil] at hw
      cases hw
    · obtain ⟨-, hwritten⟩ := List.cons.inj (hspaced.symm.trans hw)
      rw [hwritten, List.mem_append, not_or] at h
      rw [hw]
      exact Opens.spaced hmark h.1 (by decide) (by decide)

theorem opens_tableStart (h : onOneLine tableNames attributes = true) :
    ∃ l, tableStart attributes = l ++ ['\n'] ∧ Opens ['\x7b', '|'] l := by
  have hnames : ∀ name ∈ tableNames.map lowerName, '\n' ∉ name.toList := by decide +kernel
  exact ⟨_, rfl, opens_spacedAttributes _ (by simp [isSpace]) (by decide)
    (notMem_newline_writtenAttributes hnames h)⟩

/-- The mark of a cell. -/
def cellMark (tag : String) : Char := if tag = "th" then '!' else '|'

theorem isSpace_cellMark (tag : String) : isSpace (cellMark tag) = false := by
  rw [cellMark]
  split_ifs <;> decide

/-- What stands between the mark of a cell and its content: the written attributes `w`, if there
are any, and a bar. -/
def cellHead (w : Text) : Text :=
  if w = [] then [] else ' ' :: (w ++ [' ', '|'])

theorem cellStart_eq (tag : String) (attributes : Attributes) (children : List Node) :
    cellStart tag attributes children =
      cellMark tag :: (cellHead (writtenAttributes cellNames attributes) ++
        [if children.all isPhrasal then ' ' else '\n']) := by
  rw [cellStart, cellHead, spacedAttributes]
  cases writtenAttributes cellNames attributes with
  | nil => rfl
  | cons c w => simp [cellMark]

theorem opens_cellHead (tag : String) (hw : '\n' ∉ w) :
    Opens [cellMark tag] (cellMark tag :: cellHead w) := by
  have hspace := isSpace_cellMark tag
  have hline : '\n' ∉ [cellMark tag] := fun hin => by
    rw [← List.mem_singleton.mp hin] at hspace
    cases hspace
  rw [cellHead]
  split
  · exact Opens.refl (by simpa using hspace) hline
  · have hparts : cellMark tag :: ' ' :: (w ++ [' ', '|']) =
        [cellMark tag] ++ ' ' :: (w ++ [' '] ++ ['|']) := by
      simp
    rw [hparts]
    exact Opens.spaced hline (by simpa using hw) (by decide) (by decide)

theorem opens_cellStart (h : onOneLine cellNames attributes = true) (tag : String)
    (children : List Node) : ∃ l, cellStart tag attributes children =
      l ++ [if children.all isPhrasal then ' ' else '\n'] ∧ Opens [cellMark tag] l := by
  have hnames : ∀ name ∈ cellNames.map lowerName, '\n' ∉ name.toList := by decide +kernel
  exact ⟨_, cellStart_eq tag attributes children,
    opens_cellHead tag (notMem_newline_writtenAttributes hnames h)⟩

theorem rowStart_eq (h : allowedPairs rowNames attributes = []) (around : Surroundings) :
    rowStart around attributes = if followsContent around then ['|', '-', '\n'] else [] := by
  rw [rowStart, spacedAttributes, writtenAttributes, h]; rfl

end Wikitext.Element

/-
  Wikitext/Proofs/Element/Written.lean
  ====================================
  **Written attributes and tags.**  Names of attributes are words, and values are escaped, so
  written attributes have no angles: no value opens or closes a tag.  A tag that is written with
  attributes is read as one tag, whatever the values are (`scans_startTag`), and the markup that
  opens tables, rows, cells, captions and items is passed over.
-/
import Wikitext.Conversion.Markup
import Wikitext.Proofs.Element.Opening
import Wikitext.Proofs.Text.Tags

namespace Wikitext

open Text

namespace Element

variable {allowed : List String} {attributes : Attributes} {name : String} {value : Text}
  {ts : List Text}

/-! ### Attributes -/

/-- The names of a list are words in lower case, and none is empty. -/
def worded (allowed : List String) : Bool :=
  (allowed.map lowerName).all fun name =>
    !name.toList.isEmpty && name.toList.all Char.isAlphanum

theorem exists_of_worded (h : worded allowed = true) (hname : name ∈ allowed.map lowerName) :
    Tag.IsWord name.toList ∧ ∃ c ∈ name.toList.head?, c.isAlphanum = true := by
  have hworded := List.all_eq_true.mp h name hname
  rw [Bool.and_eq_true] at hworded
  have hword := Tag.isWord_of_all hworded.2
  refine ⟨hword, ?_⟩
  cases hchars : name.toList with
  | nil =>
    rw [hchars] at hworded
    cases hworded.1
  | cons c cs =>
    rw [hchars] at hword
    exact ⟨c, rfl, hword c (List.mem_cons_self ..)⟩

theorem worded_of_mem (h : allowed ∈ [tableNames, rowNames, cellNames, captionNames]) :
    worded allowed = true := by
  have hall : [tableNames, rowNames, cellNames, captionNames].all worded = true := by
    decide +kernel
  exact List.all_eq_true.mp hall allowed h

theorem worded_tableNames : worded tableNames = true := worded_of_mem (by simp)

theorem worded_rowNames : worded rowNames = true := worded_of_mem (by simp)

theorem worded_cellNames : worded cellNames = true := worded_of_mem (by simp)

theorem worded_captionNames : worded captionNames = true := worded_of_mem (by simp)

theorem unangled_of_worded (h : worded allowed = true) :
    ∀ name ∈ allowed.map lowerName, Unangled name.toList := fun _ hname =>
  (exists_of_worded h hname).1.unangled

theorem unangled_writtenPair (hname : Unangled name.toList) (value : Text) :
    Unangled (writtenPair name value) :=
  ((hname.append (by decide)).append (unangled_escapeAttribute value)).append (by decide)

theorem unangled_join (h : ∀ t ∈ ts, Unangled t) : Unangled (join [' '] ts) := by
  induction ts with
  | nil => exact unangled_nil
  | cons t ts ih =>
    rw [List.forall_mem_cons] at h
    cases ts with
    | nil => exact h.1
    | cons u us =>
      rw [join]
      · exact (h.1.append (by decide)).append (ih h.2)
      · exact List.cons_ne_nil u us

theorem exists_of_mem_allowedPairs {pair : String × Text}
    (h : pair ∈ allowedPairs allowed attributes) : pair.1 ∈ allowed.map lowerName := by
  obtain ⟨name, hname, hfound⟩ := List.mem_filterMap.mp h
  obtain ⟨value, -, rfl⟩ := Option.map_eq_some_iff.mp hfound
  exact mem_distinct hname

/-- No value opens or closes a tag. -/
theorem unangled_writtenAttributes (h : ∀ name ∈ allowed.map lowerName, Unangled name.toList)
    (attributes : Attributes) : Unangled (writtenAttributes allowed attributes) := by
  apply unangled_join
  intro t ht
  obtain ⟨pair, hpair, rfl⟩ := List.mem_map.mp ht
  exact unangled_writtenPair (h _ (exists_of_mem_allowedPairs hpair)) _

theorem unangled_spacedAttributes (h : worded allowed = true) (attributes : Attributes) :
    Unangled (spacedAttributes allowed attributes) := by
  rw [spacedAttributes]
  split
  · exact unangled_nil
  · exact unangled_cons_iff.mpr ⟨by decide, unangled_writtenAttributes (unangled_of_worded h) attributes⟩

theorem head_writtenAttributes (h : worded allowed = true) (attributes : Attributes) :
    ∀ c ∈ (writtenAttributes allowed attributes).head?, c.isAlphanum = true := by
  intro c hc
  rw [writtenAttributes] at hc
  cases hpairs : allowedPairs allowed attributes with
  | nil =>
    rw [hpairs] at hc
    cases hc
  | cons pair pairs =>
    obtain ⟨-, d, hd, halnum⟩ := exists_of_worded h (exists_of_mem_allowedPairs
      (hpairs ▸ List.mem_cons_self .. : pair ∈ allowedPairs allowed attributes))
    obtain ⟨w, hw⟩ := List.head?_eq_some_iff.mp hd
    rw [hpairs, List.map_cons] at hc
    have hstart : ∀ us, (join [' '] (writtenPair pair.1 pair.2 :: us)).head? = some d := by
      intro us
      cases us with
      | nil => simp [join, writtenPair, hw]
      | cons u us => simp [join, writtenPair, hw]
    rw [hstart] at hc
    exact Option.mem_some.mp hc ▸ halnum

/-- Attributes are nothing, or a space and what goes on with a letter and ends with a quote. -/
theorem exists_of_spacedAttributes (h : worded allowed = true) (attributes : Attributes) :
    spacedAttributes allowed attributes = [] ∨ ∃ c w,
      spacedAttributes allowed attributes = ' ' :: c :: (w ++ ['"']) ∧ c.isAlphanum = true ∧
        Unangled w := by
  have hangles := unangled_spacedAttributes h attributes
  refine (spacedAttributes_eq_nil_or allowed attributes).imp_right ?_
  rintro ⟨w, hw⟩
  have hwritten : writtenAttributes allowed attributes = w ++ ['"'] := by
    rw [spacedAttributes] at hw
    split at hw
    · cases hw
    · exact (List.cons.inj hw).2
  have hhead := head_writtenAttributes h attributes
  rw [hwritten] at hhead
  cases w with
  | nil => exact absurd (hhead '"' rfl) (by decide)
  | cons c w =>
    refine ⟨c, w, hw, hhead c rfl, ?_⟩
    rw [hw] at hangles
    obtain ⟨-, hangles⟩ := unangled_cons_iff.mp hangles
    obtain ⟨-, hangles⟩ := unangled_cons_iff.mp hangles
    exact (unangled_append_iff.mp hangles).1

/-! ### Tags -/

open Tag (Step scans_of_unangled)

/-- A tag is read as one tag, whatever its attributes are. -/
theorem scans_startTag (hname : Tag.IsWord name.toList) (hallowed : worded allowed = true)
    (attributes : Attributes) (void : Bool) (ts : List Tag) :
    Scans Step (none, ⟨if void then .void else .start, name.toList⟩ :: ts)
      (startTag name allowed attributes void) (none, ts) := by
  generalize htag : (⟨if void then .void else .start, name.toList⟩ : Tag) = tag
  have hword : Tag.IsWord tag.name := htag ▸ hname
  have hkind : tag.kind ≠ .stop := by
    rw [← htag]
    cases void <;> simp
  have hname' : tag.name = name.toList := htag ▸ rfl
  have hending : (if void then [' ', '/', '>'] else ['>']) = Tag.ending tag.kind := by
    rw [← htag]
    cases void <;> rfl
  rw [startTag, hending, ← hname']
  rcases exists_of_spacedAttributes hallowed attributes with hnil | ⟨c, w, hspaced, hc, hw⟩
  · have hwhole : tag.write = '<' :: tag.name ++ [] ++ Tag.ending tag.kind := by
      rw [Tag.write, if_neg hkind, List.append_nil]
    rw [hnil, ← hwhole]
    exact .token (.whole hword)
  · have hparts : '<' :: tag.name ++ ' ' :: c :: (w ++ ['"']) ++ Tag.ending tag.kind =
        ('<' :: tag.name ++ [' ', c]) ++ (w ++ '"' :: Tag.ending tag.kind) := by
      simp
    rw [hspaced, hparts]
    exact .step (.enter hword hc)
      ((scans_of_unangled hw _).append (.token (.leave hword hkind)))

theorem scans_endTag (hname : Tag.IsWord name.toList) (ts : List Tag) :
    Scans Step (none, ⟨.stop, name.toList⟩ :: ts) (endTag name) (none, ts) :=
  .token (.whole hname)

/-! ### Markup without tags -/

theorem unangled_tableStart (attributes : Attributes) : Unangled (tableStart attributes) :=
  (Unangled.append (by decide) (unangled_spacedAttributes worded_tableNames attributes)).append
    (by decide)

theorem unangled_rowStart (around : Surroundings) (attributes : Attributes) :
    Unangled (rowStart around attributes) := by
  have hspaced := unangled_spacedAttributes worded_rowNames attributes
  rw [rowStart]
  split
  · split
    · decide
    · exact unangled_nil
  · exact (Unangled.append (by decide) hspaced).append (by decide)

theorem unangled_cellStart (tag : String) (attributes : Attributes) (children : List Node) :
    Unangled (cellStart tag attributes children) := by
  have hspaced := unangled_spacedAttributes worded_cellNames attributes
  have hmark : (if tag = "th" then '!' else '|') ≠ '<' ∧ (if tag = "th" then '!' else '|') ≠ '>' := by
    split
    · decide
    · decide
  have hgap : Unangled [if children.all isPhrasal then ' ' else '\n'] := by
    split
    · decide
    · decide
  rw [cellStart]
  refine (unangled_cons_iff.mpr ⟨hmark, ?_⟩).append hgap
  split
  · exact unangled_nil
  · exact hspaced.append (by decide)

theorem unangled_captionStart (attributes : Attributes) : Unangled (captionStart attributes) := by
  have hwritten := unangled_writtenAttributes (unangled_of_worded worded_captionNames) attributes
  rw [captionStart]
  split
  · decide
  · exact Unangled.append (by decide) (hwritten.append (by decide))

theorem unangled_itemStart (tag : String) (around : Surroundings) :
    Unangled (itemStart tag around) := by
  have hmark : ∀ list : Frame, Unangled (listMark tag list.tag) := by
    intro list
    rw [listMark]
    split_ifs
    · decide
    · decide
    · decide
    · decide
  have hmarks : Unangled (listMarks tag around) := by
    rw [listMarks]
    generalize around.ancestorsAmong listTags = lists
    induction lists with
    | nil => exact unangled_nil
    | cons list lists ih => exact (hmark list).append ih
  exact Unangled.append (t := '\n' :: listMarks tag around)
    (unangled_cons_iff.mpr ⟨by decide, hmarks⟩) (by decide)

end Element

end Wikitext

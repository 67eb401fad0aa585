/-
  Wikitext/Proofs/Element/Quiet.lean
  ==================================
  **What elements write is quiet.**  If the values of the attributes stand on one line, so does what
  is written of them.  Then of all that is put around or in the place of a content, only the marks
  of tables themselves are met at the start of a line; everything else is `Quiet`.
-/
import Wikitext.Proofs.Conversion.TableTrace
import Wikitext.Proofs.Element.Written

namespace Wikitext

open Text

/-- No value has other white space than blanks. -/
def Attributes.isPlain (attributes : Attributes) : Bool :=
  attributes.all fun a => a.value.text.all fun c => !isSpace c || isBlank c

theorem Attributes.plain_text? {attributes : Attributes} (h : attributes.isPlain = true)
    {name : String} {value : Text} (hvalue : attributes.text? name = some value) :
    Plain value := by
  obtain ⟨v, hv, rfl⟩ := Option.map_eq_some_iff.mp hvalue
  obtain ⟨a, ha, rfl⟩ := Option.map_eq_some_iff.mp hv
  have hall := List.all_eq_true.mp h a (List.mem_of_find?_eq_some ha)
  intro c hc hspace
  simpa [hspace] using List.all_eq_true.mp hall c hc

theorem Tag.IsWord.plain {name : Text} (h : Tag.IsWord name) : Plain name := by
  intro c hc hspace
  have halnum : c.isAlphanum = false := by
    simp only [isSpace, Bool.or_eq_true, beq_iff_eq] at hspace
    rcases hspace with (((rfl | rfl) | rfl) | rfl) | rfl <;> rfl
  rw [h c hc] at halnum
  cases halnum

namespace Element

variable {allowed : List String} {attributes : Attributes} {name tag : String}

/-! ### Attributes -/

theorem plain_writtenAttributes (hallowed : worded allowed = true)
    (h : attributes.isPlain = true) : Plain (writtenAttributes allowed attributes) := by
  intro d hin hd
  by_contra hblank
  have hne : d ≠ ' ' := by
    rintro rfl
    exact hblank rfl
  refine notMem_writtenAttributes hd hne (fun name hname hmem => ?_) (fun pair hpair hmem => ?_) hin
  · exact hblank ((exists_of_worded hallowed hname).1.plain d hmem hd)
  · obtain ⟨name, -, hfound⟩ := List.mem_filterMap.mp hpair
    obtain ⟨value, hvalue, rfl⟩ := Option.map_eq_some_iff.mp hfound
    exact hblank (Attributes.plain_text? h hvalue d hmem hd)

theorem plain_spacedAttributes (hallowed : worded allowed = true)
    (h : attributes.isPlain = true) : Plain (spacedAttributes allowed attributes) := by
  have hblank : Plain [' '] := by
    intro c hc _
    rw [List.mem_singleton.mp hc]
    rfl
  rcases spacedAttributes_eq allowed attributes with heq | heq
  · rw [heq]
    exact plain_nil
  · rw [heq]
    exact hblank.append (plain_writtenAttributes hallowed h)

/-! ### Tags -/

theorem quiet_startTag (hname : Plain name.toList) (hallowed : worded allowed = true)
    (h : attributes.isPlain = true) (void : Bool) :
    Quiet (startTag name allowed attributes void) := by
  have hend : Plain (if void then [' ', '/', '>'] else ['>']) := by
    cases void <;> decide
  refine quiet_cons (by decide) (by decide) (by decide) ?_
  exact (hname.append (plain_spacedAttributes hallowed h)).append hend

theorem quiet_endTag (hname : Plain name.toList) : Quiet (endTag name) := by
  have hend : Plain ['>'] := by decide
  have hslash : Plain ['/'] := by decide
  refine quiet_cons (by decide) (by decide) (by decide) ?_
  exact (hslash.append hname).append hend

/-! ### Tables and lists -/

theorem quiet_rowStart (h : attributes.isPlain = true) (around : Surroundings) :
    Quiet (rowStart around attributes) := by
  have hspaced := plain_spacedAttributes worded_rowNames h
  have hmark : ∀ w, Plain w → Quiet (['|', '-'] ++ w ++ ['\n']) := fun w hw =>
    (quiet_cons_cons (Or.inl ⟨rfl, by decide⟩) (Plain.cons (by decide) hw)).append (quiet_gap rfl)
  rw [rowStart]
  split
  · split
    · exact hmark [] plain_nil
    · exact quiet_nil
  · exact hmark _ hspaced

theorem quiet_cellStart (h : attributes.isPlain = true) (tag : String) (children : List Node) :
    Quiet (cellStart tag attributes children) := by
  have hgap : Quiet [if children.all isPhrasal then ' ' else '\n'] := by
    split <;> exact quiet_gap rfl
  rw [cellStart]
  rcases spacedAttributes_eq cellNames attributes with heq | heq
  · rw [heq]
    simp only
    split_ifs <;> exact quiet_of_isQuiet (by decide)
  · have hspaced := plain_spacedAttributes worded_cellNames h
    rw [heq] at hspaced ⊢
    have hline : Plain (' ' :: writtenAttributes cellNames attributes ++ [' ', '|']) :=
      hspaced.append (by decide)
    refine Quiet.append ?_ hgap
    simp only
    split_ifs
    · exact quiet_cons (by decide) (by decide) (by decide) hline
    · exact quiet_cons_cons (Or.inl ⟨rfl, by decide⟩) hline

theorem quiet_captionStart (h : attributes.isPlain = true) : Quiet (captionStart attributes) := by
  have hwritten := plain_writtenAttributes worded_captionNames h
  rw [captionStart, List.cons_append, List.cons_append]
  refine quiet_cons_cons (Or.inl ⟨rfl, by decide⟩) ?_
  have hmark : Plain ['+', ' '] := by decide
  refine hmark.append ?_
  split
  · exact plain_nil
  · exact hwritten.append (by decide)

theorem quiet_itemStart (tag : String) (around : Surroundings) : Quiet (itemStart tag around) := by
  have hmark : ∀ list, Quiet (listMark tag list) := by
    intro list
    unfold listMark
    split_ifs <;> exact quiet_of_isQuiet (by decide)
  have hmarks : ∀ frames : List Frame,
      Quiet (frames.flatMap fun list => listMark tag list.tag) := by
    intro frames
    induction frames with
    | nil => exact quiet_nil
    | cons f fs ih =>
      rw [List.flatMap_cons]
      exact (hmark f.tag).append ih
  exact ((quiet_gap (x := '\n') rfl).append (hmarks _)).append (quiet_gap rfl)

/-- What opens a table comes to the mark of it, and ends the line. -/
theorem read_tableStart (h : attributes.isPlain = true) {r : Trace}
    (hr : r.cursor.atRest = true) (flat : Bool) :
    r.read flat (tableStart attributes) = (r.meet .opening).pass flat ['\n'] ∧
      ((r.meet .opening).pass flat ['\n']).cursor.atRest = true ∧
      Smooth (tableStart attributes) := by
  have hspaced := plain_spacedAttributes worded_tableNames h
  have hnewline : Quiet ['\n'] := quiet_gap rfl
  have hmid : (r.meet .opening).cursor.atRest = true := rfl
  have hpass := hnewline.read flat hmid
  refine ⟨?_, ?_, ?_⟩
  · rw [tableStart, Trace.read_append, Trace.read_append, (read_marks hr flat).1,
      read_of_mid rfl hspaced.notMem_newline, hpass]
  · rw [← hpass]
    exact hnewline.atRest flat _ hmid
  · have hmark : Smooth ['\x7b', '|'] := by decide
    exact (hmark.append hspaced.smooth).append hnewline.smooth

end Element

end Wikitext

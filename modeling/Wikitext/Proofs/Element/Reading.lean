/-
  Wikitext/Proofs/Element/Reading.lean
  ====================================
  **What a rule reads of an element.**  The markup of an element depends on its name, its place and
  its content, on the attributes that its rule reads (`Rule.readNames`), and on whether its children
  may share a line with the mark of a cell.  It depends on nothing else (`elementMarkup_congr`).
-/
import Mathlib.Data.List.Basic
import Wikitext.Conversion.Markup
import Wikitext.Proofs.Element.Opening

namespace Wikitext

variable {a b : Attributes} {names names' allowed : List String} {n : String}

namespace Attributes

/-! ### Agreement -/

/-- Two elements have the same values under some names. -/
def Agree (names : List String) (a b : Attributes) : Prop :=
  ∀ n ∈ names, a.find? n = b.find? n

theorem Agree.mono (h : Agree names a b) (hsub : names' ⊆ names) : Agree names' a b :=
  fun n hn => h n (hsub hn)

theorem Agree.text? (h : Agree names a b) (hn : n ∈ names) : a.text? n = b.text? n := by
  rw [Attributes.text?, Attributes.text?, h n hn]

/-- The values under some names, in the order of the names. -/
def restrict (names : List String) (a : Attributes) : Attributes :=
  names.filterMap fun n => (a.find? n).map fun value => ⟨n, value⟩

theorem find?_cons_self (n : String) (value : AttributeValue) (a : Attributes) :
    Attributes.find? (⟨n, value⟩ :: a) n = some value := by
  simp [Attributes.find?]

theorem find?_cons_of_ne {m : String} (h : m ≠ n) (value : AttributeValue) (a : Attributes) :
    Attributes.find? (⟨m, value⟩ :: a) n = a.find? n := by
  have hfalse : (m == n) = false := by simpa using h
  simp [Attributes.find?, hfalse]

theorem agree_restrict (names : List String) (a : Attributes) :
    Agree names a (a.restrict names) := by
  intro n hn
  induction names with
  | nil => cases hn
  | cons m names ih =>
    cases hm : a.find? m with
    | none =>
      have hskip : a.restrict (m :: names) = a.restrict names := by simp [restrict, hm]
      rw [hskip]
      rcases List.mem_cons.mp hn with rfl | hn
      · -- what is not there is not there after the restriction either
        by_cases hrest : n ∈ names
        · exact ih hrest
        · rw [hm, eq_comm, Attributes.find?, Option.map_eq_none_iff, List.find?_eq_none]
          intro entry hentry hname
          obtain ⟨k, hk, hvalue⟩ := List.mem_filterMap.mp hentry
          obtain ⟨value, -, rfl⟩ := Option.map_eq_some_iff.mp hvalue
          have hkn : k = n := by simpa using hname
          exact hrest (hkn ▸ hk)
      · exact ih hn
    | some value =>
      have hkeep : a.restrict (m :: names) = ⟨m, value⟩ :: a.restrict names := by
        simp [restrict, hm]
      rw [hkeep]
      by_cases hmn : m = n
      · rw [← hmn, hm, find?_cons_self]
      · rw [find?_cons_of_ne hmn]
        exact ih ((List.mem_cons.mp hn).resolve_left (Ne.symm hmn))

end Attributes

open Attributes

namespace Element

/-! ### Noise and written attributes -/

theorem isFurniture_congr (h : Agree ["id", "class"] a b) : isFurniture a = isFurniture b := by
  have hid : a.text? "id" = b.text? "id" := h.text? (by simp)
  have hclass : a.text? "class" = b.text? "class" := h.text? (by simp)
  simp only [isFurniture, furnitureMarks, List.any_cons, List.any_nil, hid, hclass]

theorem isNamedAnchor_congr {tag : String} (h : tag = "a" → a.find? "href" = b.find? "href") :
    isNamedAnchor tag a = isNamedAnchor tag b := by
  by_cases htag : tag = "a"
  · simp [isNamedAnchor, has, text?, h htag]
  · have hfalse : (tag == "a") = false := by simpa using htag
    rw [isNamedAnchor, isNamedAnchor, hfalse]
    rfl

/-- The allowed names of tables and their parts are in lower case. -/
theorem lowerName_of_mem (hn : n ∈ tableNames ++ rowNames ++ cellNames ++ captionNames) :
    lowerName n = n := by
  have hall : ∀ n ∈ tableNames ++ rowNames ++ cellNames ++ captionNames, lowerName n = n := by
    decide +kernel
  exact hall n hn

theorem writtenAttributes_congr (hlower : ∀ n ∈ allowed, lowerName n = n)
    (h : Agree allowed a b) : writtenAttributes allowed a = writtenAttributes allowed b := by
  have hnames : allowed.map lowerName = allowed := by
    rw [List.map_congr_left hlower, List.map_id']
  have hpairs : allowedPairs allowed a = allowedPairs allowed b := by
    rw [allowedPairs, allowedPairs, hnames]
    refine List.filterMap_congr fun n hn => ?_
    rw [h.text? (mem_distinct hn)]
  rw [writtenAttributes, writtenAttributes, hpairs]

theorem spacedAttributes_congr (hlower : ∀ n ∈ allowed, lowerName n = n)
    (h : Agree allowed a b) : spacedAttributes allowed a = spacedAttributes allowed b := by
  rw [spacedAttributes, spacedAttributes, writtenAttributes_congr hlower h]

theorem tableStart_congr (h : Agree tableNames a b) : tableStart a = tableStart b := by
  have hlower : ∀ n ∈ tableNames, lowerName n = n := fun n hn => lowerName_of_mem (by simp [hn])
  rw [tableStart, tableStart, spacedAttributes_congr hlower h]

theorem rowStart_congr (around : Surroundings) (h : Agree rowNames a b) :
    rowStart around a = rowStart around b := by
  have hlower : ∀ n ∈ rowNames, lowerName n = n := fun n hn => lowerName_of_mem (by simp [hn])
  rw [rowStart, rowStart, spacedAttributes_congr hlower h]

theorem cellStart_congr (tag : String) {xs ys : List Node} (h : Agree cellNames a b)
    (hphrasal : xs.all isPhrasal = ys.all isPhrasal) :
    cellStart tag a xs = cellStart tag b ys := by
  have hlower : ∀ n ∈ cellNames, lowerName n = n := fun n hn => lowerName_of_mem (by simp [hn])
  rw [cellStart, cellStart, spacedAttributes_congr hlower h, hphrasal]

theorem captionStart_congr (h : Agree captionNames a b) : captionStart a = captionStart b := by
  have hlower : ∀ n ∈ captionNames, lowerName n = n := fun n hn => lowerName_of_mem (by simp [hn])
  rw [captionStart, captionStart, writtenAttributes_congr hlower h]

end Element

/-! ### Rules -/

/-- The attributes that a piece of markup is computed from. -/
def Feature.readNames : Feature → List String
  | .tableStart => Element.tableNames
  | .rowStart => Element.rowNames
  | .cellStart => Element.cellNames
  | .captionStart => Element.captionNames
  | .itemStart => []
  | .image => ["src"]
  | .link => ["href"]

def Fragment.readNames : Fragment → List String
  | .literal _ => []
  | .feature f => f.readNames

/-- The attributes that a rule reads: those it keeps, and those its markup is computed from. -/
def Rule.readNames (rule : Rule) : List String :=
  rule.attributes ++ rule.opening.readNames ++ rule.closing.readNames ++ rule.substitute.readNames

namespace Session

variable {s : Session} {around : Surroundings} {name : String} {xs ys : List Node}
  {content : Report UrlError Text}

theorem expand_congr (fragment : Fragment) (h : Agree fragment.readNames a b)
    (hphrasal : xs.all Element.isPhrasal = ys.all Element.isPhrasal) :
    s.expand ⟨around, name, a, xs⟩ content fragment =
      s.expand ⟨around, name, b, ys⟩ content fragment := by
  cases fragment with
  | literal t => rfl
  | feature f =>
    cases f with
    | tableStart => exact congrArg pure (Element.tableStart_congr h)
    | rowStart => exact congrArg pure (Element.rowStart_congr around h)
    | cellStart => exact congrArg pure (Element.cellStart_congr _ h hphrasal)
    | captionStart => exact congrArg pure (Element.captionStart_congr h)
    | itemStart => rfl
    | image =>
      have hsrc : a.text? "src" = b.text? "src" := h.text? (List.mem_singleton_self _)
      rw [expand, expand, imageMarkup, imageMarkup, hsrc]
    | link =>
      have href : a.text? "href" = b.text? "href" := h.text? (List.mem_singleton_self _)
      rw [expand, expand, linkMarkup, linkMarkup, href]

theorem applyRule_congr (rule : Rule) (hlower : ∀ n ∈ rule.attributes, lowerName n = n)
    (h : Agree rule.readNames a b) (hphrasal : xs.all Element.isPhrasal = ys.all Element.isPhrasal) :
    s.applyRule rule ⟨around, name, a, xs⟩ content =
      s.applyRule rule ⟨around, name, b, ys⟩ content := by
  have hkept : Agree rule.attributes a b := h.mono (by simp [Rule.readNames])
  have hfragment : ∀ fragment ∈ [rule.opening, rule.closing, rule.substitute],
      s.expand ⟨around, name, a, xs⟩ content fragment =
        s.expand ⟨around, name, b, ys⟩ content fragment := by
    intro fragment hin
    refine expand_congr fragment (h.mono fun n hn => ?_) hphrasal
    simp only [List.mem_cons, List.not_mem_nil, or_false] at hin
    rcases hin with rfl | rfl | rfl <;> simp [Rule.readNames, hn]
  have htag : ∀ void, startTag name rule.attributes a void =
      startTag name rule.attributes b void := fun void => by
    rw [startTag, startTag, Element.spacedAttributes_congr hlower hkept]
  rw [applyRule, applyRule, hfragment _ (by simp), hfragment _ (by simp), hfragment _ (by simp)]
  simp only [htag]

/-- The attributes that the rule of an element reads decide on its markup. -/
theorem elementMarkup_congr (hrule : ∀ rule, s.table.find? (lowerName name) = some rule →
      (∀ n ∈ rule.attributes, lowerName n = n) ∧ Agree rule.readNames a b)
    (hphrasal : xs.all Element.isPhrasal = ys.all Element.isPhrasal) :
    s.elementMarkup ⟨around, name, a, xs⟩ content =
      s.elementMarkup ⟨around, name, b, ys⟩ content := by
  have htag : ∀ a xs, PlacedElement.tag ⟨around, name, a, xs⟩ = lowerName name := fun _ _ => rfl
  rw [elementMarkup, elementMarkup, htag, htag]
  cases hfind : s.table.find? (lowerName name) with
  | none => rfl
  | some rule =>
    obtain ⟨hlower, h⟩ := hrule rule hfind
    simp only [applyRule_congr rule hlower h hphrasal]

end Session

end Wikitext

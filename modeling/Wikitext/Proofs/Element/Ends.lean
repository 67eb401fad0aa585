/-
  Wikitext/Proofs/Element/Ends.lean
  =================================
  **The ends of an element's markup.**  Every piece of markup that a rule puts in starts and ends
  with a mark, whatever the attributes and the URLs hold.  So the markup of an element has no
  white space at its ends but blanks and line feeds, if its content has none
  (`edgedIn_elementMarkup`).
-/
import Wikitext.Conversion.Markup
import Wikitext.Proofs.Element.Opening
import Wikitext.Proofs.Rule.Table
import Wikitext.Proofs.Text.Edges

namespace Wikitext

open Text

namespace Element

theorem edged_tableStart (a : Attributes) : Edged (tableStart a) := by
  have hnewline : Edged ['\n'] := edged_of_clean (by decide)
  unfold tableStart
  rcases spacedAttributes_eq_nil_or tableNames a with h | ⟨w, h⟩
  · rw [h]
    exact edged_of_clean (by decide)
  · rw [h]
    exact (edged_between (by decide) (by decide) ('|' :: ' ' :: w)).append hnewline

theorem edged_rowStart (around : Surroundings) (a : Attributes) :
    Edged (rowStart around a) := by
  have hnewline : Edged ['\n'] := edged_of_clean (by decide)
  unfold rowStart
  rcases spacedAttributes_eq_nil_or rowNames a with h | ⟨w, h⟩
  · rw [h]
    simp only
    split
    · exact edged_of_clean (by decide)
    · exact edged_nil
  · rw [h]
    exact (edged_between (by decide) (by decide) ('-' :: ' ' :: w)).append hnewline

theorem edged_cellStart (tag : String) (a : Attributes) (children : List Node) :
    Edged (cellStart tag a children) := by
  have hmark : isSpace (if tag = "th" then '!' else '|') = false := by split <;> decide
  have hgap : Edged [if children.all isPhrasal then ' ' else '\n'] := by
    refine edged_of_clean ?_
    split <;> decide
  unfold cellStart
  rcases spacedAttributes_eq_nil_or cellNames a with h | ⟨w, h⟩
  · rw [h]
    have hsingle : Edged [if tag = "th" then '!' else '|'] := by
      refine edged_of_clean ?_
      split <;> decide
    exact hsingle.append hgap
  · rw [h]
    have hopening := edged_between hmark (d := '|') (by decide) (' ' :: (w ++ ['"', ' ']))
    simpa using hopening.append hgap

theorem edged_captionStart (a : Attributes) : Edged (captionStart a) := by
  unfold captionStart
  split
  · exact edged_of_clean (by decide)
  · simpa using edged_between (c := '|') (d := '|') (by decide) (by decide)
      ('+' :: ' ' :: (writtenAttributes captionNames a ++ [' ']))

theorem edged_itemStart (tag : String) (around : Surroundings) :
    Edged (itemStart tag around) := by
  have hmark : ∀ list, (listMark tag list).all (fun c => !isFeed c) = true := by
    intro list
    unfold listMark
    split
    · decide
    · split
      · decide
      · split <;> decide
  have hmarks : (listMarks tag around).all (fun c => !isFeed c) = true := by
    unfold listMarks
    rw [List.all_flatMap, List.all_eq_true]
    intro frame _
    exact hmark frame.tag
  refine edged_of_clean ?_
  unfold itemStart
  rw [List.all_append, List.all_cons, hmarks]
  rfl

theorem edged_link (url : Text) (title : Option Text) {label : Text} (h : Edged label) :
    Edged (Link.markup url title label) := by
  have hpage : ∀ t : Text, Edged ('[' :: '[' :: (t ++ [']', ']'])) := by
    intro t
    simpa using edged_between (c := '[') (d := ']') (by decide) (by decide) ('[' :: (t ++ [']']))
  have hexternal : Edged (Link.external url label) := by
    unfold Link.external
    split
    · next heq =>
      rw [heq]
      exact h
    · simpa using edged_between (c := '[') (d := ']') (by decide) (by decide) (url ++ ' ' :: label)
  unfold Link.markup
  split
  · unfold Link.page
    simp only
    split
    · simpa using hpage _
    · split
      · simpa using hpage _
      · simpa using hpage (Link.displayTitle _ ++ '|' :: label)
  · exact hexternal

end Element

/-- The literal pieces of a rule hold no carriage return and no form feed, and what marks its lines
is no white space. -/
def Rule.isClean (rule : Rule) : Bool :=
  [rule.opening, rule.closing, rule.substitute].all (fun
    | .literal t => t.all fun c => !isFeed c
    | .feature _ => true) &&
  rule.linePrefix.all (fun c => !isFeed c) &&
  (rule.linePrefix.isEmpty || !(solid rule.linePrefix).isEmpty)

namespace Session

variable {s : Session} {e : PlacedElement} {rule : Rule} {content : Report UrlError Text}
  {t : Text}

/-- The result, if there is one, has no white space at its ends but blanks and line feeds. -/
def EdgedIn (r : Report UrlError Text) : Prop :=
  ∀ t, r.outcome = .ok t → Edged t

theorem edgedIn_ok (h : Edged t) : EdgedIn (Report.ok t) := by
  intro u hu
  obtain rfl := Except.ok.inj hu
  exact h

theorem EdgedIn.andThen {r : Report UrlError Text} {f : Text → Report UrlError Text}
    (hr : EdgedIn r) (h : ∀ t, Edged t → EdgedIn (f t)) : EdgedIn (r.andThen f) := by
  intro u hu
  cases hout : r.outcome with
  | error e =>
    simp [Report.andThen, hout] at hu
  | ok t =>
    refine h t (hr t hout) u ?_
    simpa [Report.andThen, hout] using hu

theorem edgedIn_image (a : Attributes) : EdgedIn (s.imageMarkup a) := by
  unfold imageMarkup
  split
  · next c cs _ =>
    intro t ht
    simp only [Report.bind_eq, Report.andThen, Report.ofExcept] at ht
    split at ht
    · split at ht
      · obtain rfl := Except.ok.inj ht
        exact edged_nil
      · obtain rfl := Except.ok.inj ht
        simpa using edged_between (c := '[') (d := ']') (by decide) (by decide)
          ('[' :: (s.options.imageNamespace ++ ':' :: (Url.fileName _ ++ [']'])))
    · cases ht
  · exact edgedIn_ok edged_nil

theorem edgedIn_expand (hcontent : EdgedIn content) {fragment : Fragment}
    (hclean : ∀ t, fragment = .literal t → t.all (fun c => !isFeed c) = true) :
    EdgedIn (s.expand e content fragment) := by
  cases fragment with
  | literal t => exact edgedIn_ok (edged_of_clean (hclean t rfl))
  | feature f =>
    cases f with
    | tableStart => exact edgedIn_ok (Element.edged_tableStart _)
    | rowStart => exact edgedIn_ok (Element.edged_rowStart _ _)
    | cellStart => exact edgedIn_ok (Element.edged_cellStart _ _ _)
    | captionStart => exact edgedIn_ok (Element.edged_captionStart _)
    | itemStart => exact edgedIn_ok (Element.edged_itemStart _ _)
    | image => exact edgedIn_image _
    | link =>
      have hlink : ∀ url, EdgedIn (content.andThen fun label =>
          Report.ok (Link.markup url (Recognizer.resolve s.options.recognizers url) label)) :=
        fun url => hcontent.andThen fun label hlabel => edgedIn_ok (Element.edged_link _ _ hlabel)
      unfold expand linkMarkup
      simp only [Report.bind_eq, Report.pure_eq]
      split
      · intro t ht
        exact hlink _ t ht
      · intro t ht
        exact hlink _ t ht

theorem Rule.isClean_literal (h : rule.isClean = true) {fragment : Fragment}
    (hfragment : fragment ∈ [rule.opening, rule.closing, rule.substitute]) :
    ∀ t, fragment = .literal t → t.all (fun c => !isFeed c) = true := by
  rintro t rfl
  rw [Rule.isClean, Bool.and_eq_true, Bool.and_eq_true] at h
  exact List.all_eq_true.mp h.1.1 _ hfragment

theorem Rule.isClean_linePrefix (h : rule.isClean = true) (hne : rule.linePrefix ≠ []) :
    Edged rule.linePrefix ∧ solid rule.linePrefix ≠ [] := by
  simp only [Rule.isClean, Bool.and_eq_true, Bool.or_eq_true] at h
  obtain ⟨⟨-, hfeed⟩, hsolid⟩ := h
  constructor
  · exact edged_of_clean hfeed
  · rcases hsolid with hempty | hsolid
    · exact absurd (List.isEmpty_iff.mp hempty) hne
    · simpa using hsolid

theorem edgedIn_applyRule (hcontent : EdgedIn content) (hclean : rule.isClean = true) :
    EdgedIn (s.applyRule rule e content) := by
  have hexpand : ∀ fragment ∈ [rule.opening, rule.closing, rule.substitute],
      EdgedIn (s.expand e content fragment) := fun fragment hin =>
    edgedIn_expand hcontent (Rule.isClean_literal hclean hin)
  have hstart : ∀ void, Edged (startTag e.name rule.attributes e.attributes void) := by
    intro void
    unfold startTag
    cases void with
    | true =>
      simpa using edged_between (c := '<') (d := '>') (by decide) (by decide)
        (e.name.toList ++ (Element.spacedAttributes rule.attributes e.attributes ++ [' ', '/']))
    | false =>
      simpa using edged_between (c := '<') (d := '>') (by decide) (by decide)
        (e.name.toList ++ Element.spacedAttributes rule.attributes e.attributes)
  have hend : Edged (endTag e.name) := by
    unfold endTag
    simpa using edged_between (c := '<') (d := '>') (by decide) (by decide)
      ('/' :: e.name.toList)
  have hlayout : ∀ {opening inner closing : Text}, Edged opening → Edged inner → Edged closing →
      EdgedIn (Report.ok (rule.layout opening inner closing)) := fun hopening hinner hclosing =>
    edgedIn_ok (hopening.layout hinner hclosing (Rule.isClean_linePrefix hclean))
  have hwrap : EdgedIn (content.andThen fun inner => (s.expand e content rule.opening).andThen
      fun opening => (s.expand e content rule.closing).andThen fun closing =>
        Report.ok (rule.layout opening inner closing)) :=
    hcontent.andThen fun inner hinner =>
      (hexpand _ (by simp)).andThen fun opening hopening =>
        (hexpand _ (by simp)).andThen fun closing hclosing => hlayout hopening hinner hclosing
  unfold applyRule
  cases rule.kind with
  | delete => exact edgedIn_ok edged_nil
  | replace => exact hexpand _ (by simp)
  | preserve =>
    simp only
    split
    · exact hlayout (hstart true) edged_nil edged_nil
    · exact hcontent.andThen fun inner hinner => hlayout (hstart false) hinner hend
  | wrap => exact hwrap
  | synonym => exact hwrap

theorem edgedIn_elementMarkup (hcontent : EdgedIn content)
    (hclean : ∀ rule, s.table.find? e.tag = some rule → rule.isClean = true) :
    EdgedIn (s.elementMarkup e content) := by
  unfold elementMarkup
  split
  · exact hcontent
  · split
    · next rule hrule => exact edgedIn_applyRule hcontent (hclean rule hrule)
    · unfold unknownMarkup
      split
      · exact edgedIn_ok edged_nil
      · exact hcontent
      · refine hcontent.andThen fun inner _ => edgedIn_ok ?_
        simpa [endTag] using edged_between (c := '<') (d := '>') (by decide) (by decide)
          (e.name.toList ++ '>' :: (inner ++ ('<' :: '/' :: e.name.toList)))

end Session

end Wikitext

/-
  Wikitext/Proofs/Conversion/TableWalk.lean
  =========================================
  **Where tables stand.**  Whether a table begins and ends at the start of a line can be told from
  the tree alone.  A walk over the tree carries along where in its line the markup goes on, through
  what the rules put around their contents, into contents that are trimmed or put on one line, and
  out again (`Session.walk`).  It notes the marks of the tables that it comes to at the start of a
  line.

  In a steady tree, whose texts and attributes imitate no mark, reading the markup is this walk
  (`traces_markup`).
-/
import Wikitext.Proofs.Conversion.Visible
import Wikitext.Proofs.Element.Quiet
import Wikitext.Proofs.Url.Parts

namespace Wikitext

open Text Trace

/-- What closes a table. -/
def tableEnd : Text := ['|', '\x7d']

namespace Session

/-! ### The walk -/

/-- Goes on behind what a rule puts before or after a content. -/
def passFragment (s : Session) (e : PlacedElement) (content : Report UrlError Text)
    (f : Fragment) (flat : Bool) (r : Trace) : Trace :=
  if f = .feature .tableStart then (r.meet .opening).pass flat ['\n']
  else if f = .literal tableEnd then r.meet .closing
  else r.pass flat (s.expand e content f).text

/-- Goes through an element that is treated in some way; `inner` goes through its content. -/
def walkTreated (s : Session) (e : PlacedElement) (content : Report UrlError Text)
    (inner : Bool → Trace → Trace) : Treatment → Bool → Trace → Trace
  | .dropped, _, r => r
  | .unwrapped, flat, r => inner flat r
  | .replaced f, flat, r =>
    if f ≠ .feature .link then r.pass flat (s.expand e content f).text
    -- a link to the address that is its label is written as its label
    else if (e.attributes.text? "href").getD [] = content.text then inner flat r
    else (inner flat (r.pass flat ['['])).pass flat [']']
  | .void rule, flat, r => r.pass flat (startTag e.name rule.attributes e.attributes true)
  | .tagged rule, flat, r =>
    (inner flat (r.pass flat (startTag e.name rule.attributes e.attributes false))).pass flat
      (endTag e.name)
  | .wrapped rule, flat, r =>
    if rule.linePrefix = [] then
      let opened := s.passFragment e content rule.opening flat (r.pass flat rule.gap)
      let filled := trimmed rule.trim (inner (flat || decide (rule.lineFormat = .single))) opened
      (s.passFragment e content rule.closing flat filled).pass flat rule.gap
    else r.pass flat (s.treat e content (.wrapped rule)).text

mutual
/-- Goes through the markup of a node at a place. -/
def walk (s : Session) (around : Surroundings) : Node → Bool → Trace → Trace
  | .text content _, flat, r => r.pass flat content
  | .special .comment content, flat, r => r.pass flat (commentMarkup content)
  | .special _ _, _, r => r
  | .element name attributes children, flat, r =>
    s.walkTreated ⟨around, name, attributes, children⟩
      (s.markupAll (around.enter (lowerName name)) false children)
      (walkAll s (around.enter (lowerName name)) false children) (s.treatment (lowerName name))
      flat r

/-- Goes through the markup of siblings. -/
def walkAll (s : Session) (ancestors : List Frame) (preceded : Bool) :
    List Node → Bool → Trace → Trace
  | [], _, r => r
  | node :: nodes, flat, r =>
    walkAll s ancestors (preceded || node.carriesContent) nodes flat
      (walk s ⟨preceded, ancestors⟩ node flat r)
end

end Session

/-! ### Texts that are read as they are walked -/

/-- Wherever the text stands, reading it is `walk`. -/
def Traces (t : Text) (walk : Bool → Trace → Trace) : Prop :=
  ∀ (flat : Bool) (r : Trace), r.cursor.atRest = true →
    r.read flat t = walk flat r ∧ (walk flat r).cursor.atRest = true

section Traces

variable {rule : Rule} {t u opening content closing : Text} {f g inner : Bool → Trace → Trace}

theorem Quiet.traces (h : Quiet t) : Traces t fun flat r => r.pass flat t := by
  intro flat r hr
  have hread := h.read flat hr
  have hrest := h.atRest flat r hr
  rw [hread] at hrest
  exact ⟨hread, hrest⟩

theorem traces_nil : Traces [] fun _ r => r := fun _ _ hr => ⟨rfl, hr⟩

theorem Traces.append (ht : Traces t f) (hu : Traces u g) :
    Traces (t ++ u) fun flat r => g flat (f flat r) := by
  intro flat r hr
  obtain ⟨hread, hrest⟩ := ht flat r hr
  rw [read_append, hread]
  exact hu flat _ hrest

theorem quiet_of_gap (rule : Rule) : Quiet rule.gap := by
  rw [Rule.gap]
  split <;> exact quiet_of_isQuiet (by decide)

/-- What is walked through of a content that is trimmed. -/
theorem traces_trimmed (policy : TrimPolicy) (flat : Bool) (h : Traces content inner) {r : Trace}
    (hr : r.cursor.atRest = true) :
    trimmed policy (·.read flat content) r = trimmed policy (inner flat) r ∧
      (trimmed policy (inner flat) r).cursor.atRest = true := by
  have hawait : r.await.cursor.atRest = true := by
    rw [await]
    split
    · rfl
    · exact hr
  rw [trimmed, trimmed]
  split
  · obtain ⟨hread, hrest⟩ := h flat _ hawait
    refine ⟨congrArg _ hread, ?_⟩
    rw [resume]
    split
    · rfl
    · exact hrest
  · exact h flat r hr

theorem Traces.layout (hline : rule.linePrefix = []) (hspaces : rule.spaces closing = true)
    (hopening : Traces opening f) (hcontent : Traces content inner) (hclosing : Traces closing g) :
    Traces (rule.layout opening content closing) fun flat r =>
      (g flat (trimmed rule.trim (inner (flat || decide (rule.lineFormat = .single)))
        (f flat (r.pass flat rule.gap)))).pass flat rule.gap := by
  intro flat r hr
  have hgap := (quiet_of_gap rule).traces
  obtain ⟨hread, hrest⟩ := hgap flat r hr
  obtain ⟨hread', hrest'⟩ := hopening flat _ hrest
  have hopened : ((r.read flat rule.gap).read flat opening).cursor.atRest = true := by
    rw [hread, hread']
    exact hrest'
  rw [read_layout hline hspaces hopened, hread, hread']
  obtain ⟨hfilled, hfilled'⟩ := traces_trimmed rule.trim
    (flat || decide (rule.lineFormat = .single)) hcontent hrest'
  obtain ⟨hclosed, hclosed'⟩ := hclosing flat _ hfilled'
  obtain ⟨hend, hend'⟩ := hgap flat _ hclosed'
  rw [hfilled, hclosed, hend]
  exact ⟨rfl, hend'⟩

end Traces

namespace Text

variable {t mark : Text} {rule : Rule} {opening content closing : Text}

/-- The passes of the layout bring no carriage return and no form feed. -/
theorem smooth_format (h : Smooth t) (policy : TrimPolicy) (format : LineFormat) :
    Smooth (format.apply (policy.apply t)) := by
  intro c hc
  by_contra hfeed
  rw [Bool.not_eq_false] at hfeed
  have hgap : isGap c = false := by
    rw [isFeed, Bool.or_eq_true, beq_iff_eq, beq_iff_eq] at hfeed
    rcases hfeed with rfl | rfl <;> rfl
  have hsolid : c ∈ solid (format.apply (policy.apply t)) :=
    List.mem_filter.mpr ⟨hc, by simp [hgap]⟩
  have hthins := (thins_policy policy t).trans (thins_format format _)
  have hmem := (List.mem_filter.mp (hthins.sublist.subset hsolid)).1
  rw [h c hmem] at hfeed
  cases hfeed

theorem mem_markEach {m : Text} {ls : List Text} (h : m ∈ markEach mark ls) :
    m = [] ∨ ∃ l ∈ ls, m = mark ++ l := by
  obtain rfl | ⟨ks, k, rfl⟩ := List.eq_nil_or_concat' ls
  · cases h
  · rw [markEach_concat, List.mem_append, List.mem_map, List.mem_singleton] at h
    rcases h with ⟨l, hl, rfl⟩ | h
    · exact Or.inr ⟨l, List.mem_append_left _ hl, rfl⟩
    · split at h
      · exact Or.inl h
      · exact Or.inr ⟨k, by simp, h⟩

end Text

/-- Lines that start with a placeholder. -/
theorem quiet_markLines {t : Text} (h : Smooth t) : Quiet (markLines MediaWiki.placeholder t) := by
  refine quiet_unlines fun m hm => ?_
  rcases mem_markEach hm with rfl | ⟨l, hl, rfl⟩
  · exact quiet_nil
  · have hline : Plain l := plain_of_smooth (fun c hc => h c (mem_of_mem_lines hl hc))
      (notMem_newline_of_mem_lines hl)
    have htail : Plain MediaWiki.placeholder.tail := by decide
    rw [MediaWiki.placeholder_eq.1, List.cons_append]
    exact quiet_cons (by decide) (by decide) (by decide) (htail.append hline)

theorem quiet_layout {rule : Rule} {opening content closing : Text}
    (hmark : rule.linePrefix = MediaWiki.placeholder) (hopening : Smooth opening)
    (hcontent : Smooth content) (hclosing : Smooth closing) :
    Quiet (rule.layout opening content closing) := by
  have hne : rule.linePrefix ≠ [] := by
    rw [hmark]
    decide
  have hbody := (hopening.append (smooth_format hcontent rule.trim rule.lineFormat)).append hclosing
  have hmarked := quiet_markLines hbody
  have hgap := quiet_of_gap rule
  rw [Rule.gap] at hgap
  rw [Rule.layout, if_neg hne, hmark]
  split
  · next hblock =>
    rw [if_pos hblock] at hgap
    exact (hgap.append hmarked).append hgap
  · exact hmarked

theorem smooth_layout {rule : Rule} {opening content closing : Text}
    (hmark : rule.linePrefix = []) (hopening : Smooth opening) (hcontent : Smooth content)
    (hclosing : Smooth closing) : Smooth (rule.layout opening content closing) := by
  have hbody := (hopening.append (smooth_format hcontent rule.trim rule.lineFormat)).append hclosing
  have hgap := (quiet_of_gap rule).smooth
  rw [Rule.gap] at hgap
  rw [Rule.layout, if_pos hmark]
  split
  · next hblock =>
    rw [if_pos hblock] at hgap
    exact (hgap.append hbody).append hgap
  · exact hbody

/-! ### Rules -/

/-- A piece of markup that is quiet or the mark of a table. -/
def Fragment.isTraceable : Fragment → Bool
  | .literal t => isQuiet t || decide (t = tableEnd)
  | f => f.isSettled

/-- A rule that leaves every line of a content as it is. -/
def Rule.isBare (rule : Rule) : Bool :=
  rule.linePrefix.isEmpty && !rule.block && decide (rule.lineFormat = .keep ∧ rule.trim = .keep)

/-- What the walk relies on about a rule. -/
def Treatment.isTraceable : Treatment → Bool
  | .dropped | .unwrapped => true
  | .replaced (.literal t) => isQuiet t
  | .replaced (.feature f) => decide (f = .image ∨ f = .link)
  | .void rule | .tagged rule => Element.worded rule.attributes && rule.isBare
  | .wrapped rule =>
    rule.opening.isTraceable && rule.closing.isTraceable &&
      (match rule.closing with
        | .literal t => rule.spaces t
        | .feature _ => false) &&
      decide (rule.linePrefix = [] ∨ rule.linePrefix = MediaWiki.placeholder)

/-- Whether the lines of the content get marks of their own. -/
def Treatment.marksLines : Treatment → Bool
  | .wrapped rule => decide (rule.linePrefix ≠ [])
  | _ => false

namespace Session

theorem traceable_treatment (tag : String) :
    ((mediaWiki {}).treatment tag).isTraceable = true := by
  refine treatment_induction (P := fun _ t => t.isTraceable = true) {} tag ?_ ?_ ?_ ?_
  · decide +kernel
  · intro _
    rfl
  · intro _
    rfl
  · intro _
    rfl

theorem marksLines_pre : ((mediaWiki {}).treatment "pre").marksLines = true := by
  decide +kernel

variable {s : Session} {e : PlacedElement} {f : Fragment} {rule : Rule} {treatment : Treatment}
  {content : Report UrlError Text} {t : Text} {inner : Bool → Trace → Trace}

theorem smooth_tableEnd : Smooth tableEnd := by decide

/-- The walk through an element with markup around its content. -/
theorem walkTreated_wrapped (hline : rule.linePrefix = [])
    (inner : Bool → Trace → Trace) (flat : Bool) (r : Trace) :
    s.walkTreated e content inner (.wrapped rule) flat r =
      (s.passFragment e content rule.closing flat
        (trimmed rule.trim (inner (flat || decide (rule.lineFormat = .single)))
          (s.passFragment e content rule.opening flat (r.pass flat rule.gap)))).pass flat
            rule.gap :=
  if_pos hline

/-- What a rule puts before or after a content. -/
theorem exists_expand_of_isTraceable (hplain : e.attributes.isPlain = true)
    (h : f.isTraceable = true) : ∃ t, (∀ content, s.expand e content f = Report.ok t) ∧ Smooth t ∧
      ∀ content, Traces t (s.passFragment e content f) := by
  have hquiet : ∀ t, (∀ content, s.expand e content f = Report.ok t) → Quiet t →
      f ≠ .feature .tableStart → f ≠ .literal tableEnd →
        ∃ t, (∀ content, s.expand e content f = Report.ok t) ∧ Smooth t ∧
          ∀ content, Traces t (s.passFragment e content f) := by
    intro t ht hquiet hstart hend
    refine ⟨t, ht, hquiet.smooth, fun content => ?_⟩
    have htext : (s.expand e content f).text = t := by rw [ht]; rfl
    intro flat r hr
    rw [passFragment, if_neg hstart, if_neg hend, htext]
    exact hquiet.traces flat r hr
  cases f with
  | literal t =>
    by_cases hend : t = tableEnd
    · subst hend
      refine ⟨tableEnd, fun _ => rfl, smooth_tableEnd, fun content flat r hr => ?_⟩
      rw [passFragment, if_neg (by simp), if_pos rfl]
      exact ⟨(read_marks hr flat).2, rfl⟩
    · rw [Fragment.isTraceable, Bool.or_eq_true, decide_eq_true_eq] at h
      exact hquiet t (fun _ => rfl) (quiet_of_isQuiet (h.resolve_right hend)) (by simp)
        (by simpa using hend)
  | feature f =>
    cases f with
    | image => cases h
    | link => cases h
    | tableStart =>
      refine ⟨_, fun _ => rfl, ?_, fun content flat r hr => ?_⟩
      · exact (Element.read_tableStart hplain (r := ⟨.start, []⟩) rfl false).2.2
      · rw [passFragment, if_pos rfl]
        obtain ⟨hread, hrest, -⟩ := Element.read_tableStart hplain hr flat
        exact ⟨hread, hrest⟩
    | rowStart =>
      exact hquiet _ (fun _ => rfl) (Element.quiet_rowStart hplain _) (by simp) (by simp)
    | cellStart =>
      exact hquiet _ (fun _ => rfl) (Element.quiet_cellStart hplain _ _) (by simp) (by simp)
    | captionStart =>
      exact hquiet _ (fun _ => rfl) (Element.quiet_captionStart hplain) (by simp) (by simp)
    | itemStart =>
      exact hquiet _ (fun _ => rfl) (Element.quiet_itemStart _ _) (by simp) (by simp)

/-! ### Images and links -/

theorem quiet_imageMarkup {attributes : Attributes} (h : attributes.isPlain = true)
    (ht : ((mediaWiki {}).imageMarkup attributes).outcome = .ok t) : Quiet t := by
  unfold imageMarkup at ht
  split at ht
  · next c cs hsrc =>
    simp only [Report.bind_eq, Report.andThen_outcome_ok_iff] at ht
    obtain ⟨url, hurl, ht⟩ := ht
    have hplain := Attributes.plain_text? h hsrc
    have hname : Plain (Url.fileName url.path) := by
      intro d hd hspace
      rcases Url.mem_path_of_read hurl (Url.mem_of_mem_fileName hd) with rfl | hd
      · cases hspace
      · exact hplain d hd hspace
    split at ht
    · obtain rfl := Except.ok.inj ht
      exact quiet_nil
    · obtain rfl := Except.ok.inj ht
      refine quiet_cons (by decide) (by decide) (by decide) ?_
      have hfront : Plain ('[' :: "Image:".toList) := by decide
      have hback : Plain [']', ']'] := by decide
      exact (hfront.append hname).append hback
  · obtain rfl := Except.ok.inj ht
    exact quiet_nil

theorem exists_of_linkMarkup {attributes : Attributes}
    (h : ((mediaWiki {}).linkMarkup attributes content).outcome = .ok t) :
    ∃ label, content.outcome = .ok label ∧
      t = Link.external ((attributes.text? "href").getD []) label := by
  have hnone : ∀ url, Recognizer.resolve (mediaWiki {}).options.recognizers url = none := by
    intro url
    rw [Recognizer.resolve]
    split <;> rfl
  have hmarkup : ∀ url label, Link.markup url none label = Link.external url label :=
    fun _ _ => rfl
  simp only [linkMarkup, Report.bind_eq, Report.pure_eq, hnone, hmarkup] at h
  split at h
  · obtain ⟨_, -, h⟩ := Report.andThen_outcome_ok_iff.mp h
    obtain ⟨label, hlabel, h⟩ := Report.andThen_outcome_ok_iff.mp h
    exact ⟨label, hlabel, (Except.ok.inj h).symm⟩
  · obtain ⟨label, hlabel, h⟩ := Report.andThen_outcome_ok_iff.mp h
    exact ⟨label, hlabel, (Except.ok.inj h).symm⟩

theorem smooth_external {url label : Text} (hurl : Smooth url) (hlabel : Smooth label) :
    Smooth (Link.external url label) := by
  rw [Link.external]
  split
  · exact hurl
  · have hmarks : Smooth ['['] ∧ Smooth [' '] ∧ Smooth [']'] := by decide
    have hall := ((hmarks.1.append hurl).append (hmarks.2.1.append hlabel)).append hmarks.2.2
    simpa using hall

/-- A bracketed address. -/
theorem traces_external {url label : Text} (hurl : Plain url) (hlabel : Traces label inner)
    (hne : url ≠ label) : Traces (Link.external url label) fun flat r =>
      (inner flat (r.pass flat ['['])).pass flat [']'] := by
  have hopening : Traces ('[' :: url ++ [' ']) fun flat r => r.pass flat ['['] := by
    intro flat r hr
    have hline : '\n' ∉ url ++ [' '] := by simp [hurl.notMem_newline]
    have hstep := step_of_visible (x := '[') (by decide) (by decide) (by decide) hr flat
    have hpass : r.pass flat ['['] = ⟨.mid, r.marks⟩ := by
      rw [Trace.pass, read_cons, read_nil, hstep]
    simp only [hpass]
    rw [List.cons_append, read_cons, hstep, read_of_mid rfl hline]
    exact ⟨rfl, rfl⟩
  have hclosing : Traces [']'] fun flat r => r.pass flat [']'] :=
    (quiet_of_isQuiet (by decide)).traces
  have heq : Link.external url label = '[' :: url ++ [' '] ++ label ++ [']'] := by
    rw [Link.external, if_neg hne]
    simp
  rw [heq]
  exact (hopening.append hlabel).append hclosing

/-! ### Elements -/

theorem layout_of_isBare (h : rule.isBare = true) (opening content closing : Text) :
    rule.layout opening content closing = opening ++ content ++ closing := by
  simp only [Rule.isBare, Bool.and_eq_true, Bool.not_eq_true', List.isEmpty_iff,
    decide_eq_true_eq] at h
  obtain ⟨⟨hline, hblock⟩, hformat, htrim⟩ := h
  simp [Rule.layout, hline, hblock, hformat, htrim, LineFormat.apply, TrimPolicy.apply]

/-- What is read of a link, if its label is read as it is walked. -/
theorem traces_link {P : Prop} (hplain : e.attributes.isPlain = true)
    (hcontent : ∀ u, content.outcome = .ok u → Smooth u ∧ (P → Traces u inner))
    (h : ((mediaWiki {}).linkMarkup e.attributes content).outcome = .ok t) :
    Smooth t ∧ (P → Traces t
      ((mediaWiki {}).walkTreated e content inner (.replaced (.feature .link)))) := by
  obtain ⟨label, hlabel, rfl⟩ := exists_of_linkMarkup h
  obtain ⟨hsmooth, htraces⟩ := hcontent label hlabel
  have hurl : Plain ((e.attributes.text? "href").getD []) := by
    cases hhref : e.attributes.text? "href" with
    | none => exact plain_nil
    | some url => exact Attributes.plain_text? hplain hhref
  refine ⟨smooth_external hurl.smooth hsmooth, fun hP flat r hr => ?_⟩
  rw [walkTreated, if_neg (by simp), Report.text_of_outcome hlabel]
  by_cases hbare : (e.attributes.text? "href").getD [] = label
  · rw [if_pos hbare, Link.external, if_pos hbare, hbare]
    exact htraces hP flat r hr
  · rw [if_neg hbare]
    exact traces_external hurl (htraces hP) hbare flat r hr

/-- What is read of an element with markup around its content. -/
theorem traces_wrapped {P : Prop} (hplain : e.attributes.isPlain = true)
    (htraceable : (Treatment.wrapped rule).isTraceable = true)
    (hcontent : ∀ u, content.outcome = .ok u → Smooth u ∧ (P → Traces u inner))
    (h : ((mediaWiki {}).treat e content (.wrapped rule)).outcome = .ok t) :
    Smooth t ∧ (P ∨ (Treatment.wrapped rule).marksLines = true →
      Traces t ((mediaWiki {}).walkTreated e content inner (.wrapped rule))) := by
  obtain ⟨body, hbody, h'⟩ := Report.andThen_outcome_ok_iff.mp h
  obtain ⟨opening, hopening, h'⟩ := Report.andThen_outcome_ok_iff.mp h'
  obtain ⟨closing, hclosing, h'⟩ := Report.andThen_outcome_ok_iff.mp h'
  obtain rfl := Except.ok.inj h'
  obtain ⟨hsmooth, htraces⟩ := hcontent body hbody
  simp only [Treatment.isTraceable, Bool.and_eq_true, decide_eq_true_eq] at htraceable
  obtain ⟨⟨⟨hopen, hclose⟩, hspaces⟩, hmark⟩ := htraceable
  obtain ⟨_, hopening', hsmooth', hopened⟩ := exists_expand_of_isTraceable
    (s := mediaWiki {}) hplain hopen
  obtain ⟨_, hclosing', hsmooth'', hclosed⟩ := exists_expand_of_isTraceable
    (s := mediaWiki {}) hplain hclose
  rw [hopening'] at hopening
  rw [hclosing'] at hclosing
  obtain rfl := Except.ok.inj hopening
  obtain rfl := Except.ok.inj hclosing
  rcases hmark with hmark | hmark
  · refine ⟨smooth_layout hmark hsmooth' hsmooth hsmooth'', fun hP flat r hr => ?_⟩
    have hinner := htraces (hP.resolve_right (by simp [Treatment.marksLines, hmark]))
    have hclosed' := hclosed content
    rw [walkTreated_wrapped hmark]
    cases hliteral : rule.closing with
    | feature f =>
      rw [hliteral] at hspaces
      cases hspaces
    | literal u =>
      rw [hliteral] at hspaces hclosing' hclosed'
      obtain rfl := Except.ok.inj (congrArg Report.outcome (hclosing' content))
      exact Traces.layout hmark hspaces (hopened content) hinner hclosed' flat r hr
  · have hquiet := quiet_layout hmark hsmooth' hsmooth hsmooth''
    have hne : rule.linePrefix ≠ [] := by
      rw [hmark]
      decide
    refine ⟨hquiet.smooth, fun _ flat r hr => ?_⟩
    rw [walkTreated, if_neg hne, Report.text_of_outcome h]
    exact hquiet.traces flat r hr

/-- What is read of an element, if its content is read as it is walked. -/
theorem traces_treat {P : Prop} (hplain : e.attributes.isPlain = true)
    (hname : Plain e.name.toList) (htraceable : treatment.isTraceable = true)
    (hcontent : ∀ u, content.outcome = .ok u → Smooth u ∧ (P → Traces u inner))
    (h : ((mediaWiki {}).treat e content treatment).outcome = .ok t) :
    Smooth t ∧ (P ∨ treatment.marksLines = true →
      Traces t ((mediaWiki {}).walkTreated e content inner treatment)) := by
  cases treatment with
  | dropped =>
    obtain rfl := Except.ok.inj h
    exact ⟨smooth_nil, fun _ => traces_nil⟩
  | unwrapped =>
    obtain ⟨hsmooth, htraces⟩ := hcontent t h
    exact ⟨hsmooth, fun hP => htraces (hP.resolve_right (by decide))⟩
  | replaced f =>
    have hquiet : Quiet t → f ≠ .feature .link → Smooth t ∧
        (P ∨ (Treatment.replaced f).marksLines = true →
          Traces t ((mediaWiki {}).walkTreated e content inner (.replaced f))) := by
      intro ht hlink
      refine ⟨ht.smooth, fun _ flat r hr => ?_⟩
      have htext : ((mediaWiki {}).expand e content f).text = t := Report.text_of_outcome h
      rw [walkTreated, if_pos hlink, htext]
      exact ht.traces flat r hr
    cases f with
    | literal u =>
      obtain rfl := Except.ok.inj h
      exact hquiet (quiet_of_isQuiet htraceable) (by simp)
    | feature f =>
      rw [Treatment.isTraceable, decide_eq_true_eq] at htraceable
      rcases htraceable with rfl | rfl
      · exact hquiet (quiet_imageMarkup hplain h) (by simp)
      · obtain ⟨hsmooth, htraces⟩ := traces_link hplain hcontent h
        exact ⟨hsmooth, fun hP => htraces (hP.resolve_right (by simp [Treatment.marksLines]))⟩
  | void rule =>
    rw [Treatment.isTraceable, Bool.and_eq_true] at htraceable
    have hstart := Element.quiet_startTag hname htraceable.1 hplain true
    obtain rfl := Except.ok.inj h
    rw [layout_of_isBare htraceable.2, List.append_nil, List.append_nil]
    exact ⟨hstart.smooth, fun _ => hstart.traces⟩
  | tagged rule =>
    rw [Treatment.isTraceable, Bool.and_eq_true] at htraceable
    have hstart := Element.quiet_startTag hname htraceable.1 hplain false
    have hend := Element.quiet_endTag hname
    obtain ⟨body, hbody, h⟩ := Report.andThen_outcome_ok_iff.mp h
    obtain rfl := Except.ok.inj h
    obtain ⟨hsmooth, htraces⟩ := hcontent body hbody
    rw [layout_of_isBare htraceable.2]
    refine ⟨(hstart.smooth.append hsmooth).append hend.smooth, fun hP => ?_⟩
    have hinner := htraces (hP.resolve_right (by simp [Treatment.marksLines]))
    exact (hstart.traces.append hinner).append hend.traces
  | wrapped rule => exact traces_wrapped hplain htraceable hcontent h

end Session

/-! ### Steady trees -/

namespace Node

mutual
/-- A prepared node whose texts and attributes imitate no mark; in preformatted text, where every
line has a mark of its own, the texts need not be quiet. -/
def Steady (preformatted : Bool) : Node → Prop
  | .text content _ => Smooth content ∧ (preformatted = false → Quiet content)
  | .special _ _ => False
  | .element name attributes children =>
    Plain name.toList ∧ attributes.isPlain = true ∧
      SteadyAll (preformatted || lowerName name == "pre") children

def SteadyAll (preformatted : Bool) : List Node → Prop
  | [] => True
  | node :: nodes => Steady preformatted node ∧ SteadyAll preformatted nodes
end

theorem steadyAll_append {preformatted : Bool} {xs ys : List Node}
    (hx : SteadyAll preformatted xs) (hy : SteadyAll preformatted ys) :
    SteadyAll preformatted (xs ++ ys) := by
  induction xs with
  | nil => exact hy
  | cons x xs ih => exact ⟨hx.1, ih hx.2⟩

end Node

namespace Session

mutual
theorem traces_markup : ∀ (node : Node) {preformatted : Bool} (around : Surroundings) {t : Text},
    node.Steady preformatted → ((mediaWiki {}).markup around node).outcome = .ok t →
      Smooth t ∧ (preformatted = false → Traces t ((mediaWiki {}).walk around node))
  | .text content guarded, preformatted, around, t, hsteady, h => by
    obtain rfl := Except.ok.inj h
    exact ⟨hsteady.1, fun hpre => (hsteady.2 hpre).traces⟩
  | .special kind content, preformatted, around, t, hsteady, h => hsteady.elim
  | .element name attributes children, preformatted, around, t, hsteady, h => by
    obtain ⟨hname, hplain, hchildren⟩ := hsteady
    rw [markup, elementMarkup_eq] at h
    obtain ⟨hsmooth, htraces⟩ := traces_treat hplain hname
      (traceable_treatment (lowerName name))
      (fun u hu => traces_markupAll children _ _ hchildren hu) h
    refine ⟨hsmooth, fun hpre => htraces ?_⟩
    by_cases htag : lowerName name = "pre"
    · right
      rw [htag]
      exact marksLines_pre
    · left
      simp [hpre, htag]

theorem traces_markupAll : ∀ (nodes : List Node) {preformatted : Bool} (ancestors : List Frame)
    (preceded : Bool) {t : Text}, Node.SteadyAll preformatted nodes →
      ((mediaWiki {}).markupAll ancestors preceded nodes).outcome = .ok t →
        Smooth t ∧ (preformatted = false →
          Traces t ((mediaWiki {}).walkAll ancestors preceded nodes))
  | [], preformatted, ancestors, preceded, t, hsteady, h => by
    obtain rfl := Except.ok.inj h
    exact ⟨smooth_nil, fun _ => traces_nil⟩
  | node :: nodes, preformatted, ancestors, preceded, t, hsteady, h => by
    rw [markupAll] at h
    obtain ⟨first, hfirst, h⟩ := Report.andThen_outcome_ok_iff.mp h
    obtain ⟨rest, hrest, h⟩ := Report.andThen_outcome_ok_iff.mp h
    obtain rfl := Except.ok.inj h
    obtain ⟨hsmooth, htraces⟩ := traces_markup node _ hsteady.1 hfirst
    obtain ⟨hsmooth', htraces'⟩ := traces_markupAll nodes _ _ hsteady.2 hrest
    exact ⟨hsmooth.append hsmooth', fun hpre => (htraces hpre).append (htraces' hpre)⟩
end

end Session

end Wikitext

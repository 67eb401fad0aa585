/-
  Wikitext/Proofs/Conversion/Refusal.lean
  =======================================
  **What a conversion is refused for.**  Nothing but a URL stops a conversion: a reference that
  cannot be resolved against the base while the document is prepared
  (`refuses_of_prepareAll_eq_error`), or the source of an image that cannot be read when the image
  is converted (`markupAll_succeeds_iff`).  Both are possible, since a host in brackets has to be
  an address (`bracketedImage`).  Whatever else an image lacks costs a warning, and the image is
  dropped.
-/
import Wikitext.Proofs.Conversion.Blocks
import Wikitext.Proofs.Conversion.Treatment

namespace Wikitext

/-! ### References -/

namespace Attributes

/-- The source of an image, unless it is missing or empty. -/
def source? (attributes : Attributes) : Option Text :=
  (attributes.text? "src").filter (· ≠ [])

/-- The reference that an element has, as it is resolved, unless it is missing or empty. -/
def reference? (attributes : Attributes) (tag : String) : Option Text :=
  (Session.urlAttribute? tag).bind fun name =>
    ((attributes.find? name).filter (!·.isEmpty)).map (·.shown)

end Attributes

mutual
/-- The references in a tree, in document order. -/
def Node.references : Node → List Text
  | .text _ _ => []
  | .special _ _ => []
  | .element name attributes children =>
    (attributes.reference? (lowerName name)).toList ++ Node.referencesAll children

def Node.referencesAll : List Node → List Text
  | [] => []
  | node :: nodes => node.references ++ Node.referencesAll nodes
end

/-- The sources that are read for a piece of markup of an element, when those in its content
are `inner`. -/
def Fragment.sources (attributes : Attributes) (inner : List Text) : Fragment → List Text
  | .feature .image => attributes.source?.toList
  | .feature .link => inner
  | _ => []

namespace Session

mutual
/-- The sources of the images that are converted, in document order. -/
def sources (s : Session) : Node → List Text
  | .text _ _ => []
  | .special _ _ => []
  | .element name attributes children =>
    match s.treatment (lowerName name) with
    | .dropped | .void _ => []
    | .unwrapped | .tagged _ | .wrapped _ => sourcesAll s children
    | .replaced f => f.sources attributes (sourcesAll s children)

def sourcesAll (s : Session) : List Node → List Text
  | [] => []
  | node :: nodes => sources s node ++ sourcesAll s nodes
end

/-! ### While the document is prepared -/

section Prepare

variable {s : Session} {above : List String} {tag : String} {attributes : Attributes}
  {error : UrlError}

/-- One of these references cannot be resolved against the base. -/
def Refuses (s : Session) (error : UrlError) (references : List Text) : Prop :=
  ∃ base, s.options.baseUri = some base ∧
    ∃ reference ∈ references, resolveAgainst base reference = .error error

theorem Refuses.mono {xs ys : List Text} (h : s.Refuses error xs) (hsubset : xs ⊆ ys) :
    s.Refuses error ys := by
  obtain ⟨base, hbase, reference, hmem, hresolve⟩ := h
  exact ⟨base, hbase, reference, hsubset hmem, hresolve⟩

theorem exists_of_bind_eq_error {ε α β : Type} {x : Except ε α} {f : α → Except ε β} {e : ε}
    (h : x >>= f = .error e) : x = .error e ∨ ∃ a, x = .ok a ∧ f a = .error e := by
  cases x with
  | ok a => exact Or.inr ⟨a, rfl, h⟩
  | error e' =>
    left
    cases h
    rfl

theorem eq_error_of_map_eq_error {ε α β : Type} {x : Except ε α} {f : α → β} {e : ε}
    (h : x.map f = .error e) : x = .error e := by
  cases x with
  | ok a => cases h
  | error e' =>
    cases h
    rfl

theorem refuses_of_resolveUrl_eq_error (h : s.resolveUrl tag attributes = .error error) :
    s.Refuses error (attributes.reference? tag).toList := by
  rw [resolveUrl] at h
  split at h
  · cases h
  · cases h
  · cases h
  · next base name _ hbase hname =>
    split at h
    · next value hvalue =>
      split at h
      · cases h
      · next hempty =>
        have hreference : attributes.reference? tag = some value.shown := by
          simp [Attributes.reference?, hname, hvalue, hempty]
        rw [hreference]
        exact ⟨base, hbase, value.shown, List.mem_singleton_self _, eq_error_of_map_eq_error h⟩
    · cases h

mutual
theorem refuses_of_prepareNode_eq_error : ∀ (node : Node) (above : List String),
    s.prepareNode above node = .error error → s.Refuses error node.references
  | .text _ true, _, h => by cases h
  | .text _ false, _, h => by cases h
  | .special _ _, _, h => by cases h
  | .element name attributes children, above, h => by
    have hbelow : ∀ above, s.prepareAll above children = .error error →
        s.Refuses error (Node.element name attributes children).references := fun above h =>
      (refuses_of_prepareAll_eq_error children above h).mono (List.subset_append_right ..)
    rw [prepareNode] at h
    rcases exists_of_bind_eq_error h with h | ⟨resolved, -, h⟩
    · exact (refuses_of_resolveUrl_eq_error h).mono (List.subset_append_left ..)
    · simp only at h
      split at h
      · exact hbelow _ h
      · split at h
        · cases h
        · rcases exists_of_bind_eq_error h with h | ⟨prepared, -, h⟩
          · exact hbelow _ h
          · cases h

/-- A document that is not prepared has a reference that cannot be resolved. -/
theorem refuses_of_prepareAll_eq_error : ∀ (nodes : List Node) (above : List String),
    s.prepareAll above nodes = .error error → s.Refuses error (Node.referencesAll nodes)
  | [], _, h => by cases h
  | node :: nodes, above, h => by
    rw [prepareAll] at h
    rcases exists_of_bind_eq_error h with h | ⟨first, -, h⟩
    · exact (refuses_of_prepareNode_eq_error node above h).mono (List.subset_append_left ..)
    · rcases exists_of_bind_eq_error h with h | ⟨rest, -, h⟩
      · exact (refuses_of_prepareAll_eq_error nodes above h).mono (List.subset_append_right ..)
      · cases h
end

end Prepare

end Session

/-! ### While the elements are converted -/

namespace Report

variable {ε α β : Type} {r : Report ε α} {f : α → Report ε β}

/-- Whether there is a result. -/
def Succeeds (r : Report ε α) : Prop := ∃ a, r.outcome = .ok a

theorem succeeds_ok (a : α) : (ok a : Report ε α).Succeeds := ⟨a, rfl⟩

theorem succeeds_warn (w : Warning) (a : α) : (warn w a : Report ε α).Succeeds := ⟨a, rfl⟩

theorem succeeds_andThen_iff :
    (r.andThen f).Succeeds ↔ ∃ a, r.outcome = .ok a ∧ (f a).Succeeds := by
  simp only [Succeeds, andThen_outcome_ok_iff]
  constructor
  · rintro ⟨b, a, ha, hb⟩
    exact ⟨a, ha, b, hb⟩
  · rintro ⟨a, ha, b, hb⟩
    exact ⟨b, a, ha, hb⟩

/-- A step that always has a result adds no condition. -/
theorem succeeds_andThen_iff_left (h : ∀ a, (f a).Succeeds) :
    (r.andThen f).Succeeds ↔ r.Succeeds := by
  rw [succeeds_andThen_iff]
  constructor
  · rintro ⟨a, ha, -⟩
    exact ⟨a, ha⟩
  · rintro ⟨a, ha⟩
    exact ⟨a, ha, h a⟩

end Report

namespace Session

open Report

variable {s : Session} {options : Options} {e : PlacedElement} {attributes : Attributes}
  {content : Report UrlError Text} {inner : List Text} {f : Fragment}

/-- Sources that can all be read. -/
def Readable (sources : List Text) : Prop :=
  ∀ source ∈ sources, ∃ url, Url.read [] source = .ok url

theorem readable_append_iff {xs ys : List Text} :
    Readable (xs ++ ys) ↔ Readable xs ∧ Readable ys :=
  List.forall_mem_append

theorem readable_nil : Readable [] := by
  intro source hsource
  cases hsource

theorem succeeds_ok_iff {t : Text} : (Report.ok t : Report UrlError Text).Succeeds ↔ Readable [] :=
  ⟨fun _ => readable_nil, fun _ => succeeds_ok t⟩

theorem imageMarkup_of_source?_eq_none (h : attributes.source? = none) :
    s.imageMarkup attributes = Report.warn .imageWithoutSource [] := by
  rw [Attributes.source?] at h
  rw [imageMarkup]
  cases hsrc : attributes.text? "src" with
  | none => rfl
  | some source =>
    cases source with
    | nil => rfl
    | cons c cs =>
      rw [hsrc] at h
      simp at h

theorem imageMarkup_of_source?_eq_some {source : Text} (h : attributes.source? = some source) :
    s.imageMarkup attributes = (Report.ofExcept (Url.read [] source)).andThen fun url =>
      match Url.fileName url.path with
      | [] => Report.warn (.imageWithoutFileName source) []
      | name => Report.ok
          (['[', '['] ++ s.options.imageNamespace ++ ':' :: name ++ [']', ']']) := by
  rw [Attributes.source?, Option.filter_eq_some_iff, decide_eq_true_eq] at h
  obtain ⟨hsrc, hne⟩ := h
  obtain ⟨c, cs, rfl⟩ := List.exists_cons_of_ne_nil hne
  rw [imageMarkup, hsrc]
  rfl

theorem succeeds_imageMarkup_iff :
    (s.imageMarkup attributes).Succeeds ↔ Readable attributes.source?.toList := by
  cases hsource : attributes.source? with
  | none =>
    rw [imageMarkup_of_source?_eq_none hsource]
    exact ⟨fun _ => readable_nil, fun _ => succeeds_warn _ _⟩
  | some source =>
    rw [imageMarkup_of_source?_eq_some hsource, succeeds_andThen_iff_left]
    · simp [Readable, Succeeds, Report.ofExcept]
    · intro url
      split
      · exact succeeds_warn _ _
      · exact succeeds_ok _

theorem succeeds_linkMarkup_iff :
    (s.linkMarkup attributes content).Succeeds ↔ content.Succeeds := by
  have hlink : ∀ url, (content.andThen fun label =>
      Report.ok (Link.markup url (Recognizer.resolve s.options.recognizers url) label)).Succeeds ↔
        content.Succeeds := fun url => succeeds_andThen_iff_left fun label => succeeds_ok _
  unfold linkMarkup
  simp only [bind_eq, pure_eq]
  split
  · exact hlink _
  · exact hlink _

theorem succeeds_expand_iff (hcontent : content.Succeeds ↔ Readable inner) :
    (s.expand e content f).Succeeds ↔ Readable (f.sources e.attributes inner) := by
  by_cases hsettled : f.isSettled = true
  · obtain ⟨t, ht⟩ := expand_of_isSettled (s := s) (e := e) hsettled
    have hnone : f.sources e.attributes inner = [] := by
      cases f with
      | literal t => rfl
      | feature f =>
        cases f with
        | image => cases hsettled
        | link => cases hsettled
        | _ => rfl
    rw [ht, hnone]
    exact succeeds_ok_iff
  · cases f with
    | literal t => exact absurd rfl hsettled
    | feature f =>
      cases f with
      | image => exact succeeds_imageMarkup_iff
      | link => exact succeeds_linkMarkup_iff.trans hcontent
      | _ => exact absurd rfl hsettled

theorem succeeds_wrapped_iff {rule : Rule} (hopening : rule.opening.isSettled = true)
    (hclosing : rule.closing.isSettled = true) :
    (s.treat e content (.wrapped rule)).Succeeds ↔ content.Succeeds := by
  obtain ⟨opening, hopening⟩ := expand_of_isSettled (s := s) (e := e) hopening
  obtain ⟨closing, hclosing⟩ := expand_of_isSettled (s := s) (e := e) hclosing
  refine succeeds_andThen_iff_left fun t => ?_
  rw [hopening, hclosing, ok_andThen, ok_andThen]
  exact succeeds_ok _

mutual
theorem markup_succeeds_iff : ∀ (node : Node) (around : Surroundings),
    ((mediaWiki options).markup around node).Succeeds ↔
      Readable ((mediaWiki options).sources node)
  | .text _ _, _ => succeeds_ok_iff
  | .special kind _, _ => by
    cases kind with
    | comment => exact succeeds_ok_iff
    | _ => exact succeeds_ok_iff
  | .element name attributes children, around => by
    have hchildren := markupAll_succeeds_iff children (around.enter (lowerName name)) false
    have hsettled := settled_treatment options (lowerName name)
    rw [markup, sources, elementMarkup_eq, PlacedElement.tag]
    cases htreatment : (mediaWiki options).treatment (lowerName name) with
    | dropped => exact succeeds_ok_iff
    | void rule => exact succeeds_ok_iff
    | unwrapped => exact hchildren
    | tagged rule => exact (succeeds_andThen_iff_left fun t => succeeds_ok _).trans hchildren
    | replaced f => exact succeeds_expand_iff hchildren
    | wrapped rule =>
      rw [htreatment] at hsettled
      exact (succeeds_wrapped_iff hsettled.1 hsettled.2).trans hchildren

theorem markupAll_succeeds_iff : ∀ (nodes : List Node) (ancestors : List Frame) (preceded : Bool),
    ((mediaWiki options).markupAll ancestors preceded nodes).Succeeds ↔
      Readable ((mediaWiki options).sourcesAll nodes)
  | [], _, _ => succeeds_ok_iff
  | node :: nodes, ancestors, preceded => by
    have hfirst := markup_succeeds_iff node ⟨preceded, ancestors⟩
    have hrest := markupAll_succeeds_iff nodes ancestors (preceded || node.carriesContent)
    rw [markupAll, sourcesAll, readable_append_iff, ← hfirst, ← hrest]
    simp only [bind_eq, pure_eq]
    rw [succeeds_andThen_iff]
    constructor
    · rintro ⟨t, ht, hall⟩
      exact ⟨⟨t, ht⟩, (succeeds_andThen_iff_left fun _ => succeeds_ok _).mp hall⟩
    · rintro ⟨⟨t, ht⟩, hall⟩
      exact ⟨t, ht, (succeeds_andThen_iff_left fun _ => succeeds_ok _).mpr hall⟩
end

/-! ### Conversion -/

theorem convert_succeeds_iff {document prepared : List Node}
    (h : (mediaWiki options).prepare document = .ok prepared) :
    ((mediaWiki options).convert document).Succeeds ↔
      Readable ((mediaWiki options).sourcesAll prepared) := by
  rw [convert, h]
  simp only [bind_eq, pure_eq]
  have hprepared : (Report.ofExcept (.ok prepared) : Report UrlError (List Node)) =
      Report.ok prepared := rfl
  rw [hprepared, ok_andThen, succeeds_andThen_iff_left fun _ => succeeds_ok _]
  exact markupAll_succeeds_iff prepared _ _

/-- A document is converted, unless one of its references cannot be resolved against the base or
the source of one of its images cannot be read.  An image without a source, or with one that has
no file name, leaves nothing but a warning. -/
theorem convert_refuses_references (options : Options) (document : List Node) :
    (∀ error, (mediaWiki options).prepare document = .error error →
      ∃ base, options.baseUri = some base ∧ ∃ reference ∈ Node.referencesAll document,
        resolveAgainst base reference = .error error) ∧
    (∀ prepared, (mediaWiki options).prepare document = .ok prepared →
      ((∃ t, ((mediaWiki options).convert document).outcome = .ok t) ↔
        ∀ source ∈ (mediaWiki options).sourcesAll prepared,
          ∃ url, Url.read [] source = .ok url)) ∧
    ∀ attributes : Attributes,
      (attributes.source? = none →
        (mediaWiki options).imageMarkup attributes = Report.warn .imageWithoutSource []) ∧
      ∀ source url, attributes.source? = some source → Url.read [] source = .ok url →
        Url.fileName url.path = [] →
        (mediaWiki options).imageMarkup attributes =
          Report.warn (.imageWithoutFileName source) [] := by
  refine ⟨fun error h => refuses_of_prepareAll_eq_error document _ h,
    fun prepared h => convert_succeeds_iff h, fun attributes => ⟨fun h => ?_, ?_⟩⟩
  · exact imageMarkup_of_source?_eq_none h
  · intro source url hsource hread hname
    rw [imageMarkup_of_source?_eq_some hsource, hread]
    have hurl : (Report.ofExcept (.ok url) : Report UrlError Url) = Report.ok url := rfl
    rw [hurl, ok_andThen, hname]

/-- Words after an image whose source is nothing but an opened bracket where a host is. -/
def bracketedImage : List Node :=
  [.element "img" [⟨"src", .single "http://[".toList⟩] [],
    .element "p" [] [.text "text".toList false]]

/-- An image without a file name, one without a source, and words. -/
def blankImages : List Node :=
  [.element "img" [⟨"src", .single "http://h/".toList⟩] [], .element "img" [] [],
    .element "p" [] [.text "text".toList false]]

theorem convert_blankImages :
    (∃ t, ((mediaWiki {}).convert blankImages).outcome = .ok t) ∧
      (mediaWiki {}).imageMarkup [] = Report.warn .imageWithoutSource [] := by
  obtain ⟨-, hconvert, himage⟩ := convert_refuses_references {} blankImages
  have hsources : ∃ prepared, (mediaWiki {}).prepare blankImages = .ok prepared ∧
      (mediaWiki {}).sourcesAll prepared = ["http://h/".toList] :=
    ⟨_, rfl, by decide +kernel⟩
  obtain ⟨prepared, hprepared, hsources⟩ := hsources
  refine ⟨(hconvert prepared hprepared).mpr ?_, (himage []).1 rfl⟩
  rw [hsources]
  exact List.forall_mem_singleton.mpr ⟨_, rfl⟩

theorem not_forall_convert_succeeds : ¬ ∀ (options : Options) (document : List Node),
    ∃ t, ((mediaWiki options).convert document).outcome = .ok t := by
  intro h
  obtain ⟨t, ht⟩ := h {} bracketedImage
  have hrefused : ((mediaWiki {}).convert bracketedImage).outcome =
      .error .misplacedBracket := by
    decide +kernel
  rw [hrefused] at ht
  cases ht

end Session

end Wikitext

/-
  Wikitext/Proofs/Store/Repetition.lean
  =====================================
  **Converting twice against a base.**  A conversion in place leaves the URLs of its document
  resolved, and the next one resolves them again.  It finds the same document, and gives the same
  markup, for every document if and only if what is resolved against the base names itself
  (`repeats_iff_settles`).

  So a base with a host is safe, and one without is not: against the base `a/b` the reference `c`
  becomes `a/c`, and that becomes `a/a/c`.
-/
import Wikitext.Proofs.Store.Conversion
import Wikitext.Proofs.Url.Settling

namespace Wikitext

variable {name : String} {value value' : AttributeValue}

namespace Attributes

@[simp] theorem find?_set (name : String) (value : AttributeValue) (attributes : Attributes) :
    (attributes.set name value).find? name = some value := by
  induction attributes with
  | nil => simp [set, find?]
  | cons a rest ih =>
    rw [set]
    split
    · simp [find?]
    · next ha =>
      rw [find?, List.find?_cons_of_neg (by simpa using ha)]
      exact ih

@[simp] theorem set_set (name : String) (value value' : AttributeValue) (attributes : Attributes) :
    (attributes.set name value).set name value' = attributes.set name value' := by
  induction attributes with
  | nil => simp [set]
  | cons a rest ih =>
    rw [set]
    split
    · next ha => rw [set, if_pos rfl, set, if_pos ha]
    · next ha => rw [set, if_neg ha, ih, set, if_neg ha]

end Attributes

theorem AttributeValue.shown_ne_nil (h : value.isEmpty = false) : value.shown ≠ [] := by
  cases value with
  | single t => simpa [isEmpty, shown] using h
  | list ts => simp [shown]

namespace Session

open Store Labelled

variable {s : Session} {base : Text} {document once twice : List Node}

/-- Walking over a document again finds it as the first walk left it, and converting it again
gives the same report. -/
def Repeats (s : Session) (document : List Node) : Prop :=
  ∀ once, s.prepareBelow (ofDocument document) root = (once, none) →
    ∃ twice, s.prepareBelow once root = (twice, none) ∧ twice.document = once.document ∧
      (s.convertAt once root).2 = (s.convertAt (ofDocument document) root).2

/-- A URL that is there and not empty is resolved against the base. -/
theorem resolveUrl_of_base (hbase : s.options.baseUri = some (.address base)) (hne : base ≠ [])
    {tag name : String} {attributes : Attributes} (hname : urlAttribute? tag = some name)
    (hvalue : attributes.find? name = some value) (hempty : value.isEmpty = false) :
    s.resolveUrl tag attributes =
      (Url.resolve base value.shown).map fun url => attributes.set name (.single url) := by
  obtain ⟨c, t, rfl⟩ := List.exists_cons_of_ne_nil hne
  simp only [resolveUrl, hbase, hname, hvalue, hempty, Bool.false_eq_true, if_false]
  rfl

/-- Any other URL stays as it is. -/
theorem resolveUrl_of_base_idle (hbase : s.options.baseUri = some (.address base))
    {tag name : String} {attributes : Attributes} (hname : urlAttribute? tag = some name)
    (hidle : base = [] ∨ ∀ value, attributes.find? name = some value → value.isEmpty = true) :
    s.resolveUrl tag attributes = .ok attributes := by
  rw [resolveUrl, hbase, hname]
  cases base with
  | nil => rfl
  | cons c t =>
    cases hvalue : attributes.find? name with
    | none => simp [hvalue]
    | some value => simp [hvalue, hidle.resolve_left (by simp) value hvalue]

/-- URLs stay as they are if what is resolved against the base names itself. -/
theorem stableUrls_of_settles (hbase : s.options.baseUri = some (.address base))
    (h : Url.Settles base) : s.StableUrls := by
  intro tag attributes resolved hresolved
  cases hname : urlAttribute? tag with
  | none => exact resolveUrl_of_urlAttribute?_eq_none hname resolved
  | some name =>
    by_cases hidle : base = [] ∨ ∀ value, attributes.find? name = some value → value.isEmpty = true
    · have hsame := resolveUrl_of_base_idle hbase hname hidle
      obtain rfl := Except.ok.inj (hsame.symm.trans hresolved)
      exact hsame
    · simp only [not_or, not_forall] at hidle
      obtain ⟨hne, value, hvalue, hempty⟩ := hidle
      have hempty' : value.isEmpty = false := eq_false_of_ne_true hempty
      rw [resolveUrl_of_base hbase hne hname hvalue hempty'] at hresolved
      cases hurl : Url.resolve base value.shown with
      | error e =>
        rw [hurl] at hresolved
        cases hresolved
      | ok url =>
        rw [hurl] at hresolved
        obtain rfl := Except.ok.inj hresolved
        have hagain := Url.resolve_resolve h (AttributeValue.shown_ne_nil hempty') hurl
        by_cases hnil : url = []
        · refine resolveUrl_of_base_idle hbase hname (Or.inr fun value' hvalue' => ?_)
          rw [Attributes.find?_set] at hvalue'
          obtain rfl := Option.some.inj hvalue'
          simpa [AttributeValue.isEmpty] using hnil
        · rw [resolveUrl_of_base hbase hne hname (Attributes.find?_set ..)
            (by simpa [AttributeValue.isEmpty] using hnil)]
          simp [AttributeValue.shown, hagain, Except.map]

theorem repeats_of_stableUrls (h : s.StableUrls) (document : List Node) : s.Repeats document := by
  intro once hwalk
  obtain ⟨ts, -, hsettled⟩ := settled_ofDocument document
  obtain ⟨us, honce, hsettled'⟩ := hsettled.of_prepareBelow hwalk
  have hstays := prepareAllTo_again h _ _ _ _ honce
  obtain ⟨twice, vs, hwalk', hsettled'', hsame⟩ := hsettled'.prepareBelow_of_ok hstays
  refine ⟨twice, hwalk', ?_, ?_⟩
  · rw [document_of_row hsettled''.row, document_of_row hsettled'.row, hsame]
  · rw [hsettled.convertAt hwalk hsettled', hsettled'.convertAt hwalk' hsettled'', hsame]

/-- A document that is not found again as it was left. -/
theorem not_repeats (honce : s.prepareAllTo maxHeight [documentTag] document = .ok once)
    (htwice : s.prepareAllTo maxHeight [documentTag] once = .ok twice) (hne : twice ≠ once) :
    ¬ s.Repeats document := by
  intro h
  obtain ⟨ts, rfl, hsettled⟩ := settled_ofDocument document
  obtain ⟨store, us, hwalk, hsettled', rfl⟩ := hsettled.prepareBelow_of_ok honce
  obtain ⟨store', vs, hwalk', hsettled'', rfl⟩ := hsettled'.prepareBelow_of_ok htwice
  obtain ⟨store'', hwalk'', hsame, -⟩ := h store hwalk
  obtain rfl : store' = store'' := congrArg Prod.fst (hwalk'.symm.trans hwalk'')
  rw [document_of_row hsettled''.row, document_of_row hsettled'.row] at hsame
  exact hne hsame

/-- A link and nothing else. -/
def loneLink (url : Text) : List Node :=
  [.element "a" [⟨"href", .single url⟩] []]

theorem prepareAllTo_loneLink {options : Options} {url resolved : Text}
    (hbase : options.baseUri = some (.address base)) (hne : base ≠ []) (hurl : url ≠ [])
    (hresolved : Url.resolve base url = .ok resolved) (hkept : resolved ≠ []) :
    (mediaWiki options).prepareAllTo maxHeight [documentTag] (loneLink url) =
      .ok (loneLink resolved) := by
  have hname : lowerName "a" = "a" := by decide +kernel
  have hproper : ∀ above, properName above "a" = "a" := fun above =>
    if_neg fun h => by simp [hname] at h
  have hempty : (AttributeValue.single url).isEmpty = false := by
    simpa [AttributeValue.isEmpty] using hurl
  have hattributes : (mediaWiki options).resolveUrl (lowerName "a") [⟨"href", .single url⟩] =
      .ok [⟨"href", .single resolved⟩] := by
    rw [hname, resolveUrl_of_base hbase hne rfl rfl hempty, AttributeValue.shown, hresolved]
    rfl
  have hanchor : Element.isNamedAnchor "a" [⟨"href", .single resolved⟩] = false := by
    simp [Element.isNamedAnchor, Attributes.has, Attributes.text?, Attributes.find?,
      AttributeValue.text, hkept]
  have hfurniture : Element.isFurniture [⟨"href", .single resolved⟩] = false := by
    simp [Element.isFurniture, Element.furnitureMarks, Attributes.text?, Attributes.find?]
  rw [loneLink, prepareAllTo, prepareNodeTo_element (by decide) _ hattributes, hproper, hname,
    hanchor, hfurniture]
  rfl

/-- Every document is converted to the same markup twice if and only if what is resolved against
the base names itself. -/
theorem repeats_iff_settles (options : Options) (base : Text) :
    (∀ document, (mediaWiki { options with baseUri := some (.address base) }).Repeats document) ↔
      Url.Settles base := by
  constructor
  · intro h
    by_contra hsettles
    have hbase : base ≠ [] := fun hnil => hsettles (Or.inl hnil)
    obtain ⟨t, v, w, ht, honce, hv, htwice, hw, hne⟩ := Url.exists_resolve_ne hsettles
    refine not_repeats (prepareAllTo_loneLink rfl hbase ht honce hv)
      (prepareAllTo_loneLink rfl hbase hv htwice hw) ?_ (h (loneLink t))
    intro hsame
    simp only [loneLink, List.cons.injEq, Node.element.injEq, Attribute.mk.injEq,
      AttributeValue.single.injEq] at hsame
    exact hne hsame.1.2.1.1.2
  · intro h document
    exact repeats_of_stableUrls (stableUrls_of_settles rfl h) document

/-- Against a base that is a relative path itself a link is resolved over and over. -/
theorem not_forall_repeats : ¬ ∀ (base : Text) (document : List Node),
    (mediaWiki { baseUri := some (.address base) }).Repeats document := by
  intro h
  have hbase : ({ baseUri := some (.address "a/b".toList) } : Options).baseUri =
      some (.address "a/b".toList) := rfl
  have honce : Url.resolve "a/b".toList "c".toList = .ok "a/c".toList := by decide +kernel
  have htwice : Url.resolve "a/b".toList "a/c".toList = .ok "a/a/c".toList := by decide +kernel
  refine not_repeats (prepareAllTo_loneLink hbase (by decide) (by decide) honce (by decide))
    (prepareAllTo_loneLink hbase (by decide) (by decide) htwice (by decide)) ?_
    (h "a/b".toList (loneLink "c".toList))
  simp [loneLink]

end Session

end Wikitext

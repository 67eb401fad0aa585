/-
  Wikitext/Proofs/Store/Conversion.lean
  =====================================
  **Converting a document twice.**  A conversion in place prepares the document that it
  converts, and leaves it prepared.  Without a base for URLs a document that is prepared stays as
  it is, so the next conversion finds what the first one found (`convertAt_twice`).  This holds
  of documents of any height: what is out of reach of one walk is out of reach of the next.
-/
import Wikitext.Proofs.Store.Preparation

namespace Wikitext.Session

open Store Labelled

variable {s : Session} {store store' : Store} {ts us : List Labelled}

/-- The walk ends where the recursion has a result, and leaves a document with that result. -/
theorem Settled.prepareBelow_of_ok {result : List Node} (h : Settled store ts)
    (hresult : s.prepareAllTo maxHeight [documentTag] (nodes ts) = .ok result) :
    ∃ store' us, s.prepareBelow store root = (store', none) ∧ Settled store' us ∧
      nodes us = result := by
  have hwalk := realizes_prepareBelow (s := s) h
  rw [hresult] at hwalk
  obtain ⟨hnone, us, hnodes, hrewrites⟩ := hwalk
  exact ⟨_, us, Prod.ext rfl hnone, h.rewrites hrewrites, hnodes⟩

/-- Where the walk ends the recursion has a result. -/
theorem Settled.of_prepareBelow (h : Settled store ts)
    (hwalk : s.prepareBelow store root = (store', none)) :
    ∃ us, s.prepareAllTo maxHeight [documentTag] (nodes ts) = .ok (nodes us) ∧
      Settled store' us := by
  cases hresult : s.prepareAllTo maxHeight [documentTag] (nodes ts) with
  | error e =>
    have herror := realizes_prepareBelow (s := s) h
    rw [hresult, hwalk] at herror
    cases herror
  | ok result =>
    obtain ⟨store'', us, hwalk', h', rfl⟩ := h.prepareBelow_of_ok hresult
    obtain rfl : store'' = store' := congrArg Prod.fst (hwalk'.symm.trans hwalk)
    exact ⟨us, rfl, h'⟩

/-- Without a base for URLs the walk ends, and walking again leaves the document that it
left. -/
theorem Settled.prepareBelow (h : Settled store ts) (hbase : s.options.baseUri = none) :
    ∃ store' us, s.prepareBelow store root = (store', none) ∧ Settled store' us ∧
      s.prepareAllTo maxHeight [documentTag] (nodes us) = .ok (nodes us) := by
  obtain ⟨result, honce, htwice⟩ :=
    prepareAllTo_twice hbase (nodes ts) maxHeight [documentTag]
  obtain ⟨store', us, hwalk, h', rfl⟩ := h.prepareBelow_of_ok honce
  exact ⟨store', us, hwalk, h', htwice⟩

theorem Settled.prepareBelow_again (h : Settled store ts)
    (hstays : s.prepareAllTo maxHeight [documentTag] (nodes ts) = .ok (nodes ts)) :
    ∃ store' us, s.prepareBelow store root = (store', none) ∧ Settled store' us ∧
      nodes us = nodes ts :=
  h.prepareBelow_of_ok hstays

/-- The markup of the document is that of its trees, below a root that stands nowhere. -/
theorem Settled.markupAt (h : Settled store ts) :
    s.markupAt store root = s.markup Surroundings.root (.element documentTag [] (nodes ts)) := by
  have hancestors : store.ancestors root = [] := by
    rw [ancestors, h.parent, maxHeight, climb]
  have hbefore : store.siblingsBefore root = [] := by
    rw [siblingsBefore, h.parent]
  have hplace : store.surroundings root = Surroundings.root := by
    rw [surroundings, precedingContent?, hbefore, hancestors]; rfl
  have htree : store.tree root = .element documentTag [] (nodes ts) := by
    rw [tree, treeTo, h.document]
    exact congrArg _ (trees_of_row h.row (Nat.le_refl _))
  rw [Session.markupAt, hplace, htree]

theorem Settled.convertAt (h : Settled store ts)
    (hwalk : s.prepareBelow store root = (store', none)) (h' : Settled store' us) :
    s.convertAt store root = (store',
      ((s.markup Surroundings.root (.element documentTag [] (nodes us))).andThen fun t =>
        Report.ok (s.complete t)).mapError .url) := by
  rw [Session.convertAt, h.document]
  simp only [hwalk, h'.markupAt]

/-- A document that is converted in place is left prepared, and is converted to the same markup
when it is converted again. -/
theorem convertAt_twice (s : Session) (hbase : s.options.baseUri = none)
    (document : List Node) :
    ∃ once twice : Store,
      s.prepareBelow (ofDocument document) root = (once, none) ∧
      s.prepareBelow once root = (twice, none) ∧
      twice.document = once.document ∧
      (s.convertAt (ofDocument document) root).1 = once ∧
      (s.convertAt once root).2 = (s.convertAt (ofDocument document) root).2 := by
  obtain ⟨ts, -, hsettled⟩ := settled_ofDocument document
  obtain ⟨once, us, honce, honce', hstays⟩ := hsettled.prepareBelow hbase
  obtain ⟨twice, vs, htwice, htwice', hsame⟩ := honce'.prepareBelow_again hstays
  refine ⟨once, twice, honce, htwice, ?_, ?_, ?_⟩
  · rw [document_of_row htwice'.row, document_of_row honce'.row, hsame]
  · rw [hsettled.convertAt honce honce']
  · rw [hsettled.convertAt honce honce', honce'.convertAt htwice htwice', hsame]

theorem convertAt_mixture_twice : (mediaWiki {}).options.baseUri = none ∧
    ((mediaWiki {}).convertAt ((mediaWiki {}).convertAt (ofDocument mixture) root).1 root).2 =
      ((mediaWiki {}).convertAt (ofDocument mixture) root).2 := by
  obtain ⟨once, _, _, _, _, honce, hsame⟩ := convertAt_twice (mediaWiki {}) rfl mixture
  refine ⟨rfl, ?_⟩
  rw [honce, hsame]

end Wikitext.Session

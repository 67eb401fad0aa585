/-
  Wikitext/Proofs/Store/Preparation.lean
  ======================================
  **Preparation in place is preparation from the top down.**  The nodes below the root are
  listed before the first of them is visited, and visits take nodes out, put others in their
  place and move whole families up; what the walk leaves is nevertheless the prepared document
  (`prepareInPlace_eq`).

  The walk is followed along the listed trees.  When a tree is reached it is still held as it
  was listed, in a row of the children of its present parent, and all that is above it has
  been visited (`Store.Inside`); so a visit sees the same names above as the recursion carries,
  and after the nodes of a tree the row holds what the recursion makes of it
  (`Realizes`).  Nodes of a destroyed tree are passed over, and so are nodes that are too
  deep to be seen from the root.
-/
import Wikitext.Proofs.Conversion.Reach
import Wikitext.Proofs.Store.Document
import Wikitext.Proofs.Store.Edit
import Wikitext.Store.Conversion

namespace Wikitext.Store

open Labelled

/-! ### The way up to the top -/

/-- `as` is the lineage of `p`, without repetitions, and `top` is `p` or on that way. -/
structure Inside (s : Store) (top p : NodeId) (as : List NodeId) : Prop where
  lineage : s.Lineage p as
  nodup : (p :: as).Nodup
  passes : top ∈ p :: as
  present : ∀ a ∈ p :: as, a < s.size

/-- The number of levels below `p` from which a walk up reaches `top`. -/
def reachBelow (top p : NodeId) (as : List NodeId) : Nat :=
  maxHeight - (p :: as).idxOf top

/-- The names above a child of `p`, innermost first. -/
def namesAbove (s : Store) (p : NodeId) (as : List NodeId) : List String :=
  (p :: as).map s.tag

theorem mem_take_iff_idxOf_lt {l : List NodeId} {a : NodeId} (h : a ∈ l) (k : Nat) :
    a ∈ l.take k ↔ l.idxOf a < k := by
  induction l generalizing k with
  | nil => cases h
  | cons b l ih =>
    cases k with
    | zero => simp
    | succ k =>
      rw [List.take_succ_cons, List.mem_cons, List.idxOf_cons]
      by_cases hb : b = a
      · simp [hb]
      · have hmem : a ∈ l := (List.mem_cons.mp h).resolve_left (Ne.symm hb)
        simp [Ne.symm hb, beq_false_of_ne hb, ih hmem k]

variable {s s' : Store} {top p n : NodeId} {as left right : List NodeId}
  {ts us vs : List Labelled} {t : Labelled}

/-- A child of `p` is seen from `top` when a level is within reach. -/
theorem Inside.isAttached_iff (h : s.Inside top p as) (ht : s.Holds p t)
    (hout : t.label ∉ p :: as) :
    s.isAttached top t.label = true ↔ reachBelow top p as ≠ 0 := by
  obtain ⟨hparent, halive⟩ := parent_of_holds ht
  have hne : top ≠ t.label := by
    rintro rfl
    exact hout h.passes
  rw [Store.isAttached_iff hparent h.lineage, mem_take_iff_idxOf_lt h.passes]
  simp [halive, hne, reachBelow, Nat.sub_eq_zero_iff_le]

theorem Inside.ancestors_eq (h : s.Inside top p as) (ht : s.Holds p t) :
    (s.ancestors t.label).map s.tag = (s.namesAbove p as).take maxHeight := by
  rw [ancestors_eq_take (parent_of_holds ht).1 h.lineage h.nodup, namesAbove, List.map_take]

/-- What rewrites a row of `p` changes nothing on the way up. -/
theorem Inside.rewrites (h : s.Inside top p as) (hr : Rewrites p left right s ts s' us)
    (hout : ∀ a ∈ p :: as, a ∉ labelsAll ts) :
    s'.Inside top p as ∧ s'.namesAbove p as = s.namesAbove p as := by
  have hframe : ∀ a ∈ as, s'.record a = s.record a := fun a ha =>
    hr.frame a (h.present a (List.mem_cons_of_mem _ ha))
      (fun hap => (List.nodup_cons.mp h.nodup).1 (hap ▸ ha)) (hout a (List.mem_cons_of_mem _ ha))
  constructor
  · refine ⟨h.lineage.congr fun a ha => ?_, h.nodup, h.passes, fun a ha =>
      Nat.lt_of_lt_of_le (h.present a ha) hr.grows⟩
    rcases List.mem_cons.mp ha with rfl | ha
    · exact hr.parent
    · rw [parent, hframe a ha]; rfl
  · refine List.map_congr_left fun a ha => ?_
    rcases List.mem_cons.mp ha with rfl | ha
    · rw [tag, hr.payload]; rfl
    · rw [tag, payload, hframe a ha]; rfl

/-- One step down. -/
theorem Inside.down {name : String} {attributes : Attributes} {children : List Labelled}
    (h : s.Inside top p as) (ht : s.Holds p (.element n name attributes children))
    (hout : n ∉ p :: as) :
    s.Inside top n (p :: as) ∧ reachBelow top n (p :: as) = reachBelow top p as - 1 ∧
      s.namesAbove n (p :: as) = lowerName name :: s.namesAbove p as := by
  have hparent : s.parent n = some p := (parent_of_holds ht).1
  have hsize : n < s.size := lt_size_of_holds ht n (List.mem_cons_self ..)
  have hn : s.record n = _ := ht.1
  have hne : n ≠ top := by
    rintro rfl
    exact hout h.passes
  refine ⟨⟨⟨hparent, h.lineage⟩, List.nodup_cons.mpr ⟨hout, h.nodup⟩,
    List.mem_cons_of_mem _ h.passes, ?_⟩, ?_, ?_⟩
  · intro a ha
    rcases List.mem_cons.mp ha with rfl | ha
    · exact hsize
    · exact h.present a ha
  · rw [reachBelow, reachBelow, List.idxOf_cons, beq_false_of_ne hne, Bool.cond_false]
    omega
  · rw [namesAbove, namesAbove, List.map_cons, tag, payload, hn]; rfl

mutual
/-- No node of a tree is seen from `top` when no level is within reach. -/
theorem Inside.out_of_reach : ∀ {t : Labelled} {p : NodeId} {as : List NodeId},
    s.Inside top p as → s.Holds p t → t.labels.Nodup → (∀ a ∈ p :: as, a ∉ t.labels) →
      reachBelow top p as = 0 → ∀ m ∈ t.labels, s.isAttached top m = false
  | .text n content guarded, p, as, h, ht, _, hout, hreach, m, hm => by
    rw [List.mem_singleton.mp hm]
    have hn : n ∉ p :: as := fun hin => hout n hin (List.mem_cons_self ..)
    exact eq_false_of_ne_true fun ha => (h.isAttached_iff ht hn).mp ha hreach
  | .special n kind content, p, as, h, ht, _, hout, hreach, m, hm => by
    rw [List.mem_singleton.mp hm]
    have hn : n ∉ p :: as := fun hin => hout n hin (List.mem_cons_self ..)
    exact eq_false_of_ne_true fun ha => (h.isAttached_iff ht hn).mp ha hreach
  | .element n name attributes children, p, as, h, ht, hnodup, hout, hreach, m, hm => by
    have hn : n ∉ p :: as := fun hin => hout n hin (List.mem_cons_self ..)
    obtain ⟨hnot, hnodup⟩ := List.nodup_cons.mp hnodup
    rcases List.mem_cons.mp hm with rfl | hm
    · exact eq_false_of_ne_true fun ha => (h.isAttached_iff ht hn).mp ha hreach
    · obtain ⟨hdown, hreach', _⟩ := h.down ht hn
      refine hdown.out_of_reachAll ht.2 hnodup (fun a ha hin => ?_) (by omega) m hm
      rcases List.mem_cons.mp ha with rfl | ha
      · exact hnot hin
      · exact hout a ha (List.mem_cons_of_mem _ hin)

theorem Inside.out_of_reachAll : ∀ {ts : List Labelled} {p : NodeId} {as : List NodeId},
    s.Inside top p as → s.HoldsAll p ts → (labelsAll ts).Nodup →
      (∀ a ∈ p :: as, a ∉ labelsAll ts) → reachBelow top p as = 0 →
        ∀ m ∈ labelsAll ts, s.isAttached top m = false
  | t :: ts, p, as, h, hts, hnodup, hout, hreach, m, hm => by
    obtain ⟨hfirst, hrest, _⟩ := List.nodup_append.mp hnodup
    rcases List.mem_append.mp hm with hm | hm
    · exact h.out_of_reach hts.1 hfirst (fun a ha hin => hout a ha (List.mem_append_left _ hin))
        hreach m hm
    · exact h.out_of_reachAll hts.2 hrest
        (fun a ha hin => hout a ha (List.mem_append_right _ hin)) hreach m hm
end

end Wikitext.Store

namespace Wikitext.Session

open Store Labelled

variable {s : Session} {store store' : Store} {top p n : NodeId} {as left right : List NodeId}
  {ts us : List Labelled} {t : Labelled}

/-! ### Walks -/

theorem visitAll_append (store : Store) (ns ms : List NodeId) :
    s.visitAll top store (ns ++ ms) =
      match s.visitAll top store ns with
      | (store', none) => s.visitAll top store' ms
      | (store', some e) => (store', some e) := by
  induction ns generalizing store with
  | nil => rfl
  | cons n ns ih =>
    rw [List.cons_append, visitAll, visitAll]
    cases s.visit top store n with
    | ok store' => exact ih store'
    | error e => rfl

/-- A walk over nodes that are not part of the tree below `top` does nothing. -/
theorem visitAll_of_not_isAttached {ns : List NodeId}
    (h : ∀ n ∈ ns, store.isAttached top n = false) : s.visitAll top store ns = (store, none) := by
  induction ns with
  | nil => rfl
  | cons n ns ih =>
    have hn : s.visit top store n = .ok store := by
      rw [visit, h n (List.mem_cons_self ..)]; rfl
    rw [visitAll, hn]
    exact ih fun m hm => h m (List.mem_cons_of_mem _ hm)

/-- A walk has made of the row `ts` what is expected of it: a row of the expected nodes, or the
expected error. -/
def Realizes (p : NodeId) (left right : List NodeId) (store : Store) (ts : List Labelled)
    (expected : Except UrlError (List Node)) (walk : Store × Option UrlError) : Prop :=
  match expected with
  | .ok nodes => walk.2 = none ∧
    ∃ us, Labelled.nodes us = nodes ∧ Rewrites p left right store ts walk.1 us
  | .error e => walk.2 = some e

theorem Realizes.after {expected : Except UrlError (List Node)} {walk : Store × Option UrlError}
    (hr : Rewrites p left right store ts store' us)
    (h : Realizes p left right store' us expected walk) :
    Realizes p left right store ts expected walk := by
  cases expected with
  | error e => exact h
  | ok nodes =>
    obtain ⟨hnone, vs, hnodes, hrewrites⟩ := h
    exact ⟨hnone, vs, hnodes, hr.trans hrewrites⟩

/-- What is made of the children of an element is made of the element. -/
theorem Realizes.nest {name : String} {attributes : Attributes}
    {expected : Except UrlError (List Node)} {walk : Store × Option UrlError}
    (hrow : store.Row p left [.element n name attributes ts] right)
    (h : Realizes n [] [] store ts expected walk) :
    Realizes p left right store [.element n name attributes ts]
      (expected.map fun nodes => [.element name attributes nodes]) walk := by
  cases expected with
  | error e => exact h
  | ok nodes =>
    obtain ⟨hnone, us, hnodes, hrewrites⟩ := h
    refine ⟨hnone, [.element n name attributes us], ?_, Rewrites.nest hrow hrewrites⟩
    rw [Labelled.nodes, Labelled.node, hnodes]
    rfl

/-! ### Single visits -/

/-- What a visit makes of a text that is no markup yet. -/
theorem visitText_rewrites {raw : Text} (hrow : store.Row p left [.text n raw false] right)
    {above : List String} (habove : (store.ancestors n).map store.tag = above) :
    ∃ store' us, s.visitText store n raw = .ok store' ∧
      Labelled.nodes us = (if dropsText above raw then []
        else [.text (s.guardText (above.contains "pre") raw) true]) ∧
      Rewrites p left right store [.text n raw false] store' us := by
  rw [visitText, habove]
  by_cases hdrop : dropsText above raw = true
  · exact ⟨store.detach n, [], by rw [if_pos hdrop], by rw [if_pos hdrop]; rfl,
      rewrites_detach hrow (n := n) rfl⟩
  · rw [if_neg hdrop, if_neg hdrop]
    generalize hnormal : s.normalizeText (above.contains "pre") raw = normal
    have hguard : s.guardText (above.contains "pre") raw = s.dialect.guard normal raw := by
      rw [guardText, hnormal]
    -- the guarded text takes the place of the normal one, which stands in `m` by then
    have hfinish : ∀ {store₁ : Store} {m : NodeId},
        Rewrites p left right store [.text n raw false] store₁ [.text m normal false] →
          ∃ store₂ k, store₁.replaceText m (s.dialect.guard normal raw) = .ok (store₂, k) ∧
            Rewrites p left right store [.text n raw false] store₂
              [.text k (s.dialect.guard normal raw) true] := by
      intro store₁ m hrewrites
      obtain ⟨store₂, k, heq, hrewrites'⟩ :=
        rewrites_replaceText hrewrites.row (s.dialect.guard normal raw)
      exact ⟨store₂, k, heq, hrewrites.trans hrewrites'⟩
    by_cases hsame : normal = raw
    · have hself : Rewrites p left right store [.text n raw false] store
          [.text n normal false] := by
        rw [hsame]
        exact Rewrites.refl hrow
      obtain ⟨store₂, k, heq, hrewrites⟩ := hfinish hself
      refine ⟨store₂, _, ?_, by rw [hguard]; rfl, hrewrites⟩
      simp only [if_pos hsame, bind, Except.bind, heq]
      rfl
    · obtain ⟨store₁, hfirst, hrewrites⟩ := rewrites_replaceByText hrow (n := n) rfl normal false
      obtain ⟨store₂, k, heq, hrewrites⟩ := hfinish hrewrites
      refine ⟨store₂, _, ?_, by rw [hguard]; rfl, hrewrites⟩
      simp only [if_neg hsame, bind, Except.bind, hfirst, heq]
      rfl

/-- A visit to a text makes of it what the recursion makes of it. -/
theorem realizes_text {content : Text} {guarded : Bool}
    (hrow : store.Row p left [.text n content guarded] right) (h : store.Inside top p as)
    (hout : n ∉ p :: as) (hreach : reachBelow top p as ≠ 0) :
    Realizes p left right store [.text n content guarded]
      (s.prepareNode ((store.namesAbove p as).take maxHeight) (.text content guarded))
      (s.visitAll top store [n]) := by
  have hn : store.record n = _ := hrow.held.1
  have hpayload : store.payload n = .text content guarded := by rw [Store.payload, hn]
  have hattached : store.isAttached top n = true :=
    (h.isAttached_iff hrow.held.1 hout).mpr hreach
  cases guarded with
  | true =>
    have hvisit : s.visit top store n = .ok store := by
      simp [visit, hattached, hpayload]
    rw [visitAll, hvisit]
    exact ⟨rfl, _, rfl, Rewrites.refl hrow⟩
  | false =>
    obtain ⟨store', us, heq, hnodes, hrewrites⟩ :=
      visitText_rewrites (s := s) hrow (h.ancestors_eq hrow.held.1)
    have hvisit : s.visit top store n = .ok store' := by
      simp [visit, hattached, hpayload, heq]
    rw [visitAll, hvisit]
    exact ⟨rfl, us, hnodes, hrewrites⟩

/-- A visit to a special string makes of it what the recursion makes of it. -/
theorem realizes_special {kind : SpecialKind} {content : Text}
    (hrow : store.Row p left [.special n kind content] right) (h : store.Inside top p as)
    (hout : n ∉ p :: as) (hreach : reachBelow top p as ≠ 0) (above : List String) :
    Realizes p left right store [.special n kind content]
      (s.prepareNode above (.special kind content)) (s.visitAll top store [n]) := by
  have hn : store.record n = _ := hrow.held.1
  have hpayload : store.payload n = .special kind content := by rw [Store.payload, hn]
  have hattached : store.isAttached top n = true :=
    (h.isAttached_iff hrow.held.1 hout).mpr hreach
  by_cases hkeep : kind = .comment ∧ s.options.stripComments = false
  · have hvisit : s.visit top store n = .ok store := by
      simp [visit, hattached, hpayload, hkeep]
    rw [visitAll, hvisit, prepareNode, if_pos hkeep]
    exact ⟨rfl, _, rfl, Rewrites.refl hrow⟩
  · have hvisit : s.visit top store n = .ok (store.detach n) := by
      simp only [visit, hattached, hpayload, if_neg hkeep]
      rfl
    rw [visitAll, hvisit, prepareNode, if_neg hkeep]
    exact ⟨rfl, [], rfl, rewrites_detach hrow (n := n) rfl⟩

/-- The store after an edit, or as it was if the edit cannot be done. -/
def afterEdit (store : Store) : Except EditError Store → Store
  | .ok store' => store'
  | .error _ => store

/-- A visit to an element whose URL is resolved: an anchor leaves its children as they were
listed, furniture leaves nothing and is destroyed, and any other element stays with its proper
name. -/
theorem visit_element {name : String} {attributes resolved : Attributes}
    {children : List Labelled}
    (hrow : store.Row p left [.element n name attributes children] right)
    (hattached : store.isAttached top n = true)
    {above : List String} (habove : (store.ancestors n).map store.tag = above)
    (hresolved : s.resolveUrl (lowerName name) attributes = .ok resolved) :
    ∃ store', s.visit top store n = .ok store' ∧
      if s.dialect.removesNoise &&
          Element.isNamedAnchor (lowerName (properName above name)) resolved then
        Rewrites p left right store [.element n name attributes children] store' children
      else if s.dialect.removesNoise && Element.isFurniture resolved then
        Rewrites p left right store [.element n name attributes children] store' [] ∧
          ∀ m ∈ labelsAll children, store'.isDestroyed m = true
      else
        Rewrites p left right store [.element n name attributes children] store'
          [.element n (properName above name) resolved children] := by
  have hn : store.record n = _ := hrow.held.1.1
  have hpayload : store.payload n = .element name attributes := by rw [Store.payload, hn]
  let named := store.setPayload n (.element (properName above name) resolved)
  have hnamed : Rewrites p left right store [.element n name attributes children] named
      [.element n (properName above name) resolved children] := rewrites_setPayload hrow
  have hpayload' : named.payload n = .element (properName above name) resolved := by
    have hn' : named.record n = _ := hnamed.row.held.1.1
    rw [Store.payload, hn']
  have htag : named.tag n = lowerName (properName above name) := by
    rw [Store.tag, hpayload']; rfl
  have hattributes : (named.payload n).attributes = resolved := by rw [hpayload']; rfl
  have hvisit : s.visit top store n =
      (s.visitElement store n name attributes).map (afterEdit store) := by
    simp only [visit, hattached, hpayload]
    rfl
  rw [hvisit, visitElement, habove, hresolved]
  cases hnoise : s.dialect.removesNoise with
  | false => exact ⟨named, rfl, hnamed⟩
  | true =>
    by_cases hanchor : Element.isNamedAnchor (lowerName (properName above name)) resolved = true
    · obtain ⟨store', heq, hrewrites⟩ := rewrites_unwrap hnamed.row
      refine ⟨store', ?_, ?_⟩
      · have hstrip : named.stripNamedAnchor n = .ok (store', true) := by
          rw [stripNamedAnchor, htag, hattributes, if_pos hanchor, heq]; rfl
        simp only [bind, Except.bind, pure, Except.pure, if_true]
        change Except.ok (afterEdit store ((named.stripNamedAnchor n).map _)) = _
        rw [hstrip]
        rfl
      · simp only [hanchor, Bool.and_self, if_true]
        exact hnamed.trans hrewrites
    · have hstrip : named.stripNamedAnchor n = .ok (named, false) := by
        rw [stripNamedAnchor, htag, hattributes, if_neg hanchor]
      refine ⟨(named.stripFurniture n).1, ?_, ?_⟩
      · simp only [bind, Except.bind, pure, Except.pure, if_true]
        change Except.ok (afterEdit store ((named.stripNamedAnchor n).map _)) = _
        rw [hstrip]
        rfl
      · simp only [hanchor, Bool.true_and, Bool.false_eq_true, if_false]
        by_cases hfurniture : Element.isFurniture resolved = true
        · obtain ⟨hdelete, hdestroyed⟩ := rewrites_delete hnamed.row
          rw [if_pos hfurniture, stripFurniture, isFurniture, hattributes, if_pos hfurniture]
          exact ⟨hnamed.trans hdelete, fun m hm => hdestroyed m (List.mem_cons_of_mem _ hm)⟩
        · rw [if_neg hfurniture, stripFurniture, isFurniture, hattributes, if_neg hfurniture]
          exact hnamed

/-! ### The walk -/

/-- A tree out of reach stays as it is. -/
theorem realizes_out_of_reach (hrow : store.Row p left [t] right) (h : store.Inside top p as)
    (hout : ∀ a ∈ p :: as, a ∉ t.labels) (hreach : reachBelow top p as = 0) :
    Realizes p left right store [t]
      (s.prepareNodeTo (reachBelow top p as) (store.namesAbove p as) t.node)
      (s.visitAll top store t.labels) := by
  have hnodup : t.labels.Nodup := by simpa [labelsAll] using hrow.nodup
  rw [hreach, prepareNodeTo_zero,
    visitAll_of_not_isAttached (h.out_of_reach hrow.held.1 hnodup hout hreach)]
  exact ⟨rfl, [t], rfl, Rewrites.refl hrow⟩

/-- The visits to an element and to what is below it make of it what the recursion makes of it,
if this is so of its children wherever they stand by then: below the element, or below its
parent. -/
theorem realizes_element {name : String} {attributes : Attributes} {children : List Labelled}
    (hrow : store.Row p left [.element n name attributes children] right)
    (h : store.Inside top p as)
    (hout : ∀ a ∈ p :: as, a ∉ labels (.element n name attributes children))
    (hreach : reachBelow top p as ≠ 0)
    (hchildren : ∀ {store' : Store} {p' : NodeId} {as' left' right' : List NodeId},
      store'.Row p' left' children right' → store'.Inside top p' as' →
        (∀ a ∈ p' :: as', a ∉ labelsAll children) →
          Realizes p' left' right' store' children
            (s.prepareAllTo (reachBelow top p' as') (store'.namesAbove p' as') (nodes children))
            (s.visitAll top store' (labelsAll children))) :
    Realizes p left right store [.element n name attributes children]
      (s.prepareNodeTo (reachBelow top p as) (store.namesAbove p as)
        (node (.element n name attributes children)))
      (s.visitAll top store (labels (.element n name attributes children))) := by
  have hn : n ∉ p :: as := fun hin => hout n hin (List.mem_cons_self ..)
  have hbelow : ∀ a ∈ p :: as, a ∉ labelsAll children := fun a ha hin =>
    hout a ha (List.mem_cons_of_mem _ hin)
  have hout' : ∀ a ∈ p :: as, a ∉ labelsAll [.element n name attributes children] :=
    fun a ha hin => hout a ha (by simpa [labelsAll] using hin)
  have hattached : store.isAttached top n = true := (h.isAttached_iff hrow.held.1 hn).mpr hreach
  have habove := h.ancestors_eq hrow.held.1
  rw [Labelled.node, labels]
  cases hresolved : s.resolveUrl (lowerName name) attributes with
  | error e =>
    have hpayload : store.payload n = .element name attributes := by
      have hrecord : store.record n = _ := hrow.held.1.1
      rw [Store.payload, hrecord]
    have hvisit : s.visit top store n = .error e := by
      simp only [visit, hattached, hpayload, visitElement, hresolved]
      rfl
    rw [prepareNodeTo_element_error hreach _ hresolved, visitAll, hvisit]
    exact rfl
  | ok resolved =>
    obtain ⟨store', hvisit, hcases⟩ := visit_element hrow hattached habove hresolved
    rw [prepareNodeTo_element hreach _ hresolved, visitAll, hvisit]
    simp only
    split at hcases
    · -- an anchor: its children are visited below its parent
      rename_i hanchor
      rw [if_pos hanchor]
      obtain ⟨h', hnames⟩ := h.rewrites hcases hout'
      refine Realizes.after hcases ?_
      rw [← hnames]
      exact hchildren hcases.row h' hbelow
    · rename_i hanchor
      rw [if_neg hanchor]
      split at hcases
      · -- furniture: what was below it is passed over
        rename_i hfurniture
        rw [if_pos hfurniture, visitAll_of_not_isAttached fun m hm => by
          rw [isAttached, hcases.2 m hm]; rfl]
        exact ⟨rfl, [], rfl, hcases.1⟩
      · -- any other element: its children are a row of their own
        rename_i hfurniture
        rw [if_neg hfurniture]
        obtain ⟨h', hnames⟩ := h.rewrites hcases hout'
        obtain ⟨hdown, hreach', hnames'⟩ := h'.down hcases.row.held.1 hn
        have hnodup := List.nodup_cons.mp (by simpa [labelsAll] using hrow.nodup :
          (labels (.element n name attributes children)).Nodup)
        have hall := hchildren hcases.row.inner hdown fun a ha hin => by
          rcases List.mem_cons.mp ha with rfl | ha
          · exact hnodup.1 hin
          · exact hbelow a ha hin
        rw [hreach', hnames', hnames] at hall
        exact Realizes.after hcases (Realizes.nest hcases.row hall)

mutual
/-- The visits to the nodes of a listed tree make of it what the recursion makes of it. -/
theorem realizes_node : ∀ (t : Labelled) {store : Store} {p : NodeId} {as left right : List NodeId},
    store.Row p left [t] right → store.Inside top p as → (∀ a ∈ p :: as, a ∉ t.labels) →
      Realizes p left right store [t]
        (s.prepareNodeTo (reachBelow top p as) (store.namesAbove p as) t.node)
        (s.visitAll top store t.labels)
  | .text n content guarded, store, p, as, left, right, hrow, h, hout => by
    by_cases hreach : reachBelow top p as = 0
    · exact realizes_out_of_reach hrow h hout hreach
    · have hn : n ∉ p :: as := fun hin => hout n hin (List.mem_cons_self ..)
      rw [Labelled.node, prepareNodeTo, if_neg hreach]
      exact realizes_text hrow h hn hreach
  | .special n kind content, store, p, as, left, right, hrow, h, hout => by
    by_cases hreach : reachBelow top p as = 0
    · exact realizes_out_of_reach hrow h hout hreach
    · have hn : n ∉ p :: as := fun hin => hout n hin (List.mem_cons_self ..)
      rw [Labelled.node, prepareNodeTo, if_neg hreach]
      exact realizes_special hrow h hn hreach _
  | .element n name attributes children, store, p, as, left, right, hrow, h, hout => by
    by_cases hreach : reachBelow top p as = 0
    · exact realizes_out_of_reach hrow h hout hreach
    · exact realizes_element hrow h hout hreach fun hrow' h' hout' =>
        realizes_all children hrow' h' hout'

/-- The visits to the nodes of listed siblings make of them what the recursion makes of
them. -/
theorem realizes_all : ∀ (ts : List Labelled) {store : Store} {p : NodeId}
    {as left right : List NodeId},
    store.Row p left ts right → store.Inside top p as → (∀ a ∈ p :: as, a ∉ labelsAll ts) →
      Realizes p left right store ts
        (s.prepareAllTo (reachBelow top p as) (store.namesAbove p as) (nodes ts))
        (s.visitAll top store (labelsAll ts))
  | [], store, p, as, left, right, hrow, _, _ => ⟨rfl, [], rfl, Rewrites.refl hrow⟩
  | t :: ts, store, p, as, left, right, hrow, h, hout => by
    have hout₁ : ∀ a ∈ p :: as, a ∉ t.labels := fun a ha hin =>
      hout a ha (List.mem_append_left _ hin)
    have hout₂ : ∀ a ∈ p :: as, a ∉ labelsAll ts := fun a ha hin =>
      hout a ha (List.mem_append_right _ hin)
    have hboth : store.Row p left ([t] ++ ts) right := hrow
    have hrow₁ : store.Row p left [t] (ts.map label ++ right) := hboth.first
    have hfirst := realizes_node t hrow₁ h hout₁
    rw [Labelled.nodes, prepareAllTo, labelsAll, visitAll_append]
    generalize s.prepareNodeTo (reachBelow top p as) (store.namesAbove p as) t.node = expected
      at hfirst
    generalize s.visitAll top store t.labels = walk at hfirst
    obtain ⟨store₁, stopped⟩ := walk
    cases expected with
    | error e =>
      have hstopped : stopped = some e := hfirst
      rw [hstopped]
      exact rfl
    | ok result =>
      obtain ⟨hnone, us, hnodes, hrewrites⟩ := hfirst
      have hstopped : stopped = none := hnone
      rw [hstopped]
      have hout' : ∀ a ∈ p :: as, a ∉ labelsAll [t] := fun a ha hin =>
        hout₁ a ha (by simpa [labelsAll] using hin)
      obtain ⟨h₁, hnames⟩ := h.rewrites hrewrites hout'
      have hrow₂ : store₁.Row p (left ++ us.map label) ts right :=
        hboth.second hrewrites
      have hrest := realizes_all ts hrow₂ h₁ hout₂
      rw [hnames] at hrest
      generalize s.prepareAllTo (reachBelow top p as) (store.namesAbove p as) (nodes ts) =
        expected' at hrest
      cases expected' with
      | error e => exact hrest
      | ok result' =>
        obtain ⟨hnone', vs, hnodes', hrewrites'⟩ := hrest
        refine ⟨hnone', us ++ vs, ?_, Rewrites.append hboth hrewrites hrewrites'⟩
        rw [nodes_append, hnodes, hnodes']
end

/-! ### The whole document -/

/-- A store whose document is held as the row `ts` of the root. -/
structure Settled (store : Store) (ts : List Labelled) : Prop where
  row : store.Row root [] ts []
  document : store.payload root = .document []
  parent : store.parent root = none

theorem settled_ofDocument (document : List Node) :
    ∃ ts, Labelled.nodes ts = document ∧ Settled (ofDocument document) ts := by
  obtain ⟨ts, hnodes, hrow, hpayload, hparent⟩ := row_ofDocument document
  exact ⟨ts, hnodes, hrow, hpayload, hparent⟩

/-- The walk over a whole document makes of it what the recursion does to the levels that are
within reach. -/
theorem realizes_prepareBelow (h : Settled store ts) :
    Realizes root [] [] store ts (s.prepareAllTo maxHeight [documentTag] (Labelled.nodes ts))
      (s.prepareBelow store root) := by
  have hinside : store.Inside root root [] := by
    refine ⟨h.parent, by simp, List.mem_cons_self .., fun a ha => ?_⟩
    rw [List.mem_singleton.mp ha]
    exact h.row.present
  have hreach : reachBelow root root [] = maxHeight := by simp [reachBelow]
  have hnames : store.namesAbove root [] = [documentTag] := by
    rw [namesAbove, List.map_cons, tag, h.document]; rfl
  have hapart : ∀ a ∈ [root], a ∉ labelsAll ts := fun a ha hin =>
    (h.row.apart a hin).1 (List.mem_singleton.mp ha)
  have hall := realizes_all (s := s) ts h.row hinside hapart
  rwa [hreach, hnames, ← descendants_of_row h.row] at hall

/-- The walk over a document leaves a document. -/
theorem Settled.rewrites (h : Settled store ts) (hr : Rewrites root [] [] store ts store' us) :
    Settled store' us :=
  ⟨hr.row, by rw [hr.payload, h.document], by rw [hr.parent, h.parent]⟩

/-- The prepared document, by edits of a store of the document. -/
def prepareInPlace (s : Session) (document : List Node) : Except UrlError (List Node) :=
  match s.prepareBelow (ofDocument document) root with
  | (store, none) => .ok store.document
  | (_, some e) => .error e

/-- The edits leave the document that the recursion from the top down gives, and fail as it
fails. -/
theorem prepareInPlace_eq (s : Session) (document : List Node)
    (hheight : Node.heightAll document ≤ maxHeight) :
    s.prepareInPlace document = s.prepare document := by
  obtain ⟨ts, hnodes, hsettled⟩ := settled_ofDocument document
  have hwalk := realizes_prepareBelow (s := s) hsettled
  rw [hnodes, prepareAllTo_eq hheight (by rw [List.length_singleton]; omega)] at hwalk
  rw [prepareInPlace, prepare]
  generalize s.prepareBelow (ofDocument document) root = walk at hwalk
  obtain ⟨store, stopped⟩ := walk
  cases hresult : s.prepareAll [documentTag] document with
  | error e =>
    rw [hresult] at hwalk
    have hstopped : stopped = some e := hwalk
    rw [hstopped]
  | ok result =>
    rw [hresult] at hwalk
    obtain ⟨hnone, us, hus, hrewrites⟩ := hwalk
    have hstopped : stopped = none := hnone
    rw [hstopped]
    exact congrArg Except.ok (by rw [document_of_row hrewrites.row, hus])

/-- Noise, white space and URLs of all sorts. -/
def mixture : List Node :=
  [.element "TABLE" []
    [.text " \n".toList false,
      .element "a" [⟨"name", .single "top".toList⟩]
        [.text "\n ".toList false, .text "x  <y".toList false, .element "Caption" [] []]],
    .element "caption" [] [.text "two\n''words".toList false],
    .element "div" [⟨"class", .list ["mw-editsection".toList]⟩]
      [.element "a" [] [.text "edit".toList false]],
    .element "pre" [] [.element "b" [] [.text " a\n".toList false]],
    .special .doctype "html".toList,
    .special .comment "kept".toList,
    .text "&amp;  ''".toList true,
    .element "img" [⟨"src", .single "a.png".toList⟩] []]

theorem prepareInPlace_mixture : Node.heightAll mixture ≤ maxHeight ∧
    (mediaWiki { stripComments := false, baseUri := some (.address "http://h.org/".toList) }
      ).prepareInPlace mixture =
        .ok [.element "TABLE" [] [.text "x &lt;y".toList true, .element "Caption" [] []],
          .element "p" [] [.text "<nowiki>two ''words</nowiki>".toList true],
          .element "pre" [] [.element "b" [] [.text " a\n".toList true]],
          .special .comment "kept".toList,
          .text "&amp;  ''".toList true,
          .element "img" [⟨"src", .single "http://h.org/a.png".toList⟩] []] := by
  have hheight : Node.heightAll mixture ≤ maxHeight := by decide +kernel
  refine ⟨hheight, ?_⟩
  rw [prepareInPlace_eq _ _ hheight]
  rfl

end Wikitext.Session

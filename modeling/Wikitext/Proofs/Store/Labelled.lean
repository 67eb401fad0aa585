/-
  Wikitext/Proofs/Store/Labelled.lean
  ===================================
  **Trees held by a store.**  A labelled tree is a document tree whose nodes carry their
  identities.  `Store.Holds` says that the records of a store spell out such a tree, children
  and parents in agreement; then everything that the store says about the tree can be read
  off it: the view as a plain tree (`treeTo_of_holds`) and the list of descendants
  (`preorderTo_of_holds`).  The bounds of both walks are never met, since the nodes of a tree
  are distinct members of the store.
-/
import Mathlib.Data.List.Perm.Subperm
import Wikitext.Proofs.Store.Lineage

namespace Wikitext

/-- A tree whose nodes carry their identities in a store. -/
inductive Labelled where
  | text (label : NodeId) (content : Text) (guarded : Bool)
  | special (label : NodeId) (kind : SpecialKind) (content : Text)
  | element (label : NodeId) (name : String) (attributes : Attributes) (children : List Labelled)

namespace Labelled

/-- The identity of the root. -/
def label : Labelled → NodeId
  | text n _ _ => n
  | special n _ _ => n
  | element n _ _ _ => n

mutual
/-- The identities of all nodes, in document order. -/
def labels : Labelled → List NodeId
  | text n _ _ => [n]
  | special n _ _ => [n]
  | element n _ _ children => n :: labelsAll children

/-- The identities of all nodes of siblings, in document order. -/
def labelsAll : List Labelled → List NodeId
  | [] => []
  | t :: ts => labels t ++ labelsAll ts
end

mutual
/-- The tree without its labels. -/
def node : Labelled → Node
  | text _ content guarded => .text content guarded
  | special _ kind content => .special kind content
  | element _ name attributes children => .element name attributes (nodes children)

/-- Siblings without their labels. -/
def nodes : List Labelled → List Node
  | [] => []
  | t :: ts => node t :: nodes ts
end

/-- The label of a tree comes first. -/
theorem head?_labels (t : Labelled) : t.labels.head? = some t.label := by
  cases t <;> rfl

theorem label_mem_labels (t : Labelled) : t.label ∈ t.labels :=
  List.mem_of_mem_head? (head?_labels t)

@[simp] theorem labelsAll_append (ts us : List Labelled) :
    labelsAll (ts ++ us) = labelsAll ts ++ labelsAll us := by
  induction ts with
  | nil => rfl
  | cons t ts ih => simp [labelsAll, ih]

@[simp] theorem nodes_append (ts us : List Labelled) :
    nodes (ts ++ us) = nodes ts ++ nodes us := by
  induction ts with
  | nil => rfl
  | cons t ts ih => simp [nodes, ih]

theorem mem_labelsAll_of_mem_map {n : NodeId} {ts : List Labelled} (h : n ∈ ts.map label) :
    n ∈ labelsAll ts := by
  induction ts with
  | nil => cases h
  | cons t ts ih =>
    rw [labelsAll, List.mem_append]
    rcases List.mem_cons.mp h with rfl | h
    · exact Or.inl (label_mem_labels t)
    · exact Or.inr (ih h)

theorem nodup_map_label {ts : List Labelled} (h : (labelsAll ts).Nodup) :
    (ts.map label).Nodup := by
  induction ts with
  | nil => exact List.nodup_nil
  | cons t ts ih =>
    obtain ⟨_, hrest, hdisjoint⟩ := List.nodup_append.mp h
    refine List.nodup_cons.mpr ⟨fun hin => ?_, ih hrest⟩
    exact hdisjoint _ (label_mem_labels t) _ (mem_labelsAll_of_mem_map hin) rfl

end Labelled

namespace Store

open Labelled

/-! ### Holding a tree -/

mutual
/-- The records of a store spell out a tree below `parent`. -/
def Holds (s : Store) (parent : NodeId) : Labelled → Prop
  | .text n content guarded => s.record n = ⟨.text content guarded, some parent, [], false⟩
  | .special n kind content => s.record n = ⟨.special kind content, some parent, [], false⟩
  | .element n name attributes children =>
    s.record n = ⟨.element name attributes, some parent, children.map label, false⟩ ∧
      HoldsAll s n children

/-- The records of a store spell out siblings below `parent`. -/
def HoldsAll (s : Store) (parent : NodeId) : List Labelled → Prop
  | [] => True
  | t :: ts => Holds s parent t ∧ HoldsAll s parent ts
end

theorem holdsAll_append {s : Store} {p : NodeId} {ts us : List Labelled} :
    s.HoldsAll p (ts ++ us) ↔ s.HoldsAll p ts ∧ s.HoldsAll p us := by
  induction ts with
  | nil => simp [HoldsAll]
  | cons t ts ih => simp only [List.cons_append, HoldsAll, ih, and_assoc]

theorem parent_of_holds {s : Store} {p : NodeId} {t : Labelled} (h : s.Holds p t) :
    s.parent t.label = some p ∧ s.isDestroyed t.label = false := by
  cases t with
  | text n content guarded =>
    have hn : s.record n = _ := h
    simp [label, parent, isDestroyed, hn]
  | special n kind content =>
    have hn : s.record n = _ := h
    simp [label, parent, isDestroyed, hn]
  | element n name attributes children =>
    have hn : s.record n = _ := h.1
    simp [label, parent, isDestroyed, hn]

mutual
/-- What a store holds depends on the records of the tree only. -/
theorem Holds.congr {s s' : Store} : ∀ {t : Labelled} {p : NodeId}, s.Holds p t →
    (∀ m ∈ t.labels, s'.record m = s.record m) → s'.Holds p t
  | .text n _ _, _, h, same => (same n (by simp [labels])).trans h
  | .special n _ _, _, h, same => (same n (by simp [labels])).trans h
  | .element n _ _ _, _, h, same =>
    ⟨(same n (by simp [labels])).trans h.1,
      HoldsAll.congr h.2 fun m hm => same m (by rw [labels]; exact List.mem_cons_of_mem _ hm)⟩

theorem HoldsAll.congr {s s' : Store} : ∀ {ts : List Labelled} {p : NodeId}, s.HoldsAll p ts →
    (∀ m ∈ labelsAll ts, s'.record m = s.record m) → s'.HoldsAll p ts
  | [], _, _, _ => trivial
  | t :: ts, _, h, same =>
    ⟨Holds.congr h.1 fun m hm => same m (by rw [labelsAll]; exact List.mem_append_left _ hm),
      HoldsAll.congr h.2 fun m hm => same m (by rw [labelsAll]; exact List.mem_append_right _ hm)⟩
end

mutual
theorem lt_size_of_holds {s : Store} : ∀ {t : Labelled} {p : NodeId}, s.Holds p t →
    ∀ m ∈ t.labels, m < s.size
  | .text n _ _, _, h, m, hm => by
    rw [List.mem_singleton.mp hm]
    exact lt_size_of_not_destroyed (parent_of_holds h).2
  | .special n _ _, _, h, m, hm => by
    rw [List.mem_singleton.mp hm]
    exact lt_size_of_not_destroyed (parent_of_holds h).2
  | .element n _ _ children, _, h, m, hm => by
    rcases List.mem_cons.mp hm with rfl | hm
    · exact lt_size_of_not_destroyed (parent_of_holds h).2
    · exact lt_size_of_holdsAll h.2 m hm

theorem lt_size_of_holdsAll {s : Store} : ∀ {ts : List Labelled} {p : NodeId},
    s.HoldsAll p ts → ∀ m ∈ labelsAll ts, m < s.size
  | t :: ts, _, h, m, hm => by
    rcases List.mem_append.mp hm with hm | hm
    · exact lt_size_of_holds h.1 m hm
    · exact lt_size_of_holdsAll h.2 m hm
end

/-- Distinct nodes of a store are no more than it has. -/
theorem length_le_size {s : Store} {ns : List NodeId} (hnodup : ns.Nodup)
    (h : ∀ n ∈ ns, n < s.size) : ns.length ≤ s.size := by
  have hsub : ns ⊆ List.range s.size := fun n hn => List.mem_range.mpr (h n hn)
  have := (hnodup.subperm hsub).length_le
  rwa [List.length_range] at this

/-! ### Reading a tree off its records -/

mutual
theorem treeTo_of_holds {s : Store} : ∀ {t : Labelled} {p fuel : NodeId}, s.Holds p t →
    t.labels.length ≤ fuel → s.treeTo fuel t.label = t.node
  | t, _, 0, _, hfuel => by
    have : t.labels ≠ [] := List.ne_nil_of_mem (label_mem_labels t)
    exact absurd (List.length_eq_zero_iff.mp (Nat.le_zero.mp hfuel)) this
  | .text n _ _, _, fuel + 1, h, _ => by
    have hn : s.record n = _ := h
    simp [treeTo, payload, label, hn, Labelled.node]
  | .special n _ _, _, fuel + 1, h, _ => by
    have hn : s.record n = _ := h
    simp [treeTo, payload, label, hn, Labelled.node]
  | .element n _ _ children, _, fuel + 1, h, hfuel => by
    have hn : s.record n = _ := h.1
    have hlen : (labelsAll children).length ≤ fuel := by
      simpa [labels] using hfuel
    simp [treeTo, payload, Store.children, label, hn, Labelled.node,
      ← treeTo_of_holdsAll h.2 hlen]

theorem treeTo_of_holdsAll {s : Store} : ∀ {ts : List Labelled} {p fuel : NodeId},
    s.HoldsAll p ts → (labelsAll ts).length ≤ fuel → (ts.map label).map (s.treeTo fuel) = nodes ts
  | [], _, _, _, _ => rfl
  | t :: ts, _, fuel, h, hfuel => by
    rw [labelsAll, List.length_append] at hfuel
    rw [List.map_cons, List.map_cons, nodes, treeTo_of_holds h.1 (by omega),
      treeTo_of_holdsAll h.2 (by omega)]
end

mutual
theorem preorderTo_of_holds {s : Store} : ∀ {t : Labelled} {p fuel : NodeId}, s.Holds p t →
    t.labels.length ≤ fuel → s.preorderTo fuel t.label = t.labels
  | t, _, 0, _, hfuel => by
    have : t.labels ≠ [] := List.ne_nil_of_mem (label_mem_labels t)
    exact absurd (List.length_eq_zero_iff.mp (Nat.le_zero.mp hfuel)) this
  | .text n _ _, _, fuel + 1, h, _ => by
    have hn : s.record n = _ := h
    simp [preorderTo, Store.children, label, hn, labels]
  | .special n _ _, _, fuel + 1, h, _ => by
    have hn : s.record n = _ := h
    simp [preorderTo, Store.children, label, hn, labels]
  | .element n _ _ children, _, fuel + 1, h, hfuel => by
    have hn : s.record n = _ := h.1
    have hlen : (labelsAll children).length ≤ fuel := by
      simpa [labels] using hfuel
    simp [preorderTo, Store.children, label, hn, labels, preorderTo_of_holdsAll h.2 hlen]

theorem preorderTo_of_holdsAll {s : Store} : ∀ {ts : List Labelled} {p fuel : NodeId},
    s.HoldsAll p ts → (labelsAll ts).length ≤ fuel →
      (ts.map label).flatMap (s.preorderTo fuel) = labelsAll ts
  | [], _, _, _, _ => rfl
  | t :: ts, _, fuel, h, hfuel => by
    rw [labelsAll, List.length_append] at hfuel
    rw [List.map_cons, List.flatMap_cons, labelsAll, preorderTo_of_holds h.1 (by omega),
      preorderTo_of_holdsAll h.2 (by omega)]
end

end Store

end Wikitext

/-
  Wikitext/Proofs/Store/Nesting.lean
  ==================================
  **How deep a document nests.**  The levels of a document can be counted on the way down, by the
  height of its trees, and on the way up, by the parents that a walk passes; in a sound store the
  two agree (`Sound.nestsWithin_iff`).  An edit that only cuts links leaves no node further down
  than it was, and neither does one that lets a node give way (`GivesWay.nestsWithin`).
-/
import Wikitext.Proofs.Conversion.Reach
import Wikitext.Proofs.Store.GivingWay

namespace Wikitext

namespace Node

theorem height_le_heightAll {node : Node} {nodes : List Node} (h : node ∈ nodes) :
    node.height ≤ heightAll nodes := by
  induction nodes with
  | nil => cases h
  | cons first nodes ih =>
    rw [heightAll]
    rcases List.mem_cons.mp h with rfl | h
    · exact Nat.le_max_left _ _
    · exact Nat.le_trans (ih h) (Nat.le_max_right _ _)

theorem heightAll_le {nodes : List Node} {k : Nat} (h : ∀ node ∈ nodes, node.height ≤ k) :
    heightAll nodes ≤ k := by
  induction nodes with
  | nil => exact Nat.zero_le k
  | cons first nodes ih =>
    rw [heightAll]
    exact Nat.max_le.mpr ⟨h first (List.mem_cons_self ..),
      ih fun node hnode => h node (List.mem_cons_of_mem _ hnode)⟩

end Node

namespace Store

variable {s s' : Store} {top n m p : NodeId} {ms : List NodeId} {k fuel fuel' : Nat}

/-- From every node below the root a walk up passes at most `k` parents. -/
def NestsWithin (s : Store) (k : Nat) : Prop :=
  ∀ m, s.Below root m → s.reaches root (k + 1) (some m) = true

theorem reaches_mono (hle : fuel ≤ fuel') {n : Option NodeId}
    (h : s.reaches top fuel n = true) : s.reaches top fuel' n = true := by
  induction fuel generalizing fuel' n with
  | zero => cases h
  | succ fuel ih =>
    cases n with
    | none => cases h
    | some n =>
      obtain ⟨j, rfl⟩ := Nat.exists_eq_add_of_le' (Nat.le_trans (Nat.succ_pos fuel) hle)
      rw [reaches_succ] at h ⊢
      exact h.imp_right (ih (Nat.le_of_succ_le_succ hle))

/-! ### Levels and heights -/

namespace Sound

theorem mem_preorderTo_mono (h : s.Sound) (hle : fuel ≤ fuel') (hm : m ∈ s.preorderTo fuel n) :
    m ∈ s.preorderTo fuel' n :=
  h.mem_preorderTo_iff.mpr (reaches_mono hle (h.mem_preorderTo_iff.mp hm))

/-- A node is no more than `k + 1` levels below `n` if it is no more than `k` levels below a
child. -/
theorem levels_succ_iff (h : s.Sound) :
    (∀ m, s.Below n m → m ∈ s.preorderTo (k + 1) n) ↔
      ∀ c ∈ s.children n, ∀ m, s.Below c m → m ∈ s.preorderTo k c := by
  constructor
  · intro hlevels c hc m hm
    rw [h.mem_children_iff] at hc
    rcases List.mem_cons.mp (hlevels m (hm.tail hc)) with rfl | hin
    · exact absurd hm (h.not_below_child hc)
    · obtain ⟨d, hd, hmd⟩ := List.mem_flatMap.mp hin
      rw [h.mem_children_iff] at hd
      rwa [h.child_unique hc hd hm (h.below_of_mem_preorderTo hmd)]
  · intro hlevels m hm
    rw [preorderTo]
    rcases Relation.ReflTransGen.cases_tail hm with rfl | ⟨c, hup, hlink⟩
    · exact List.mem_cons_self ..
    · have hc : c ∈ s.children n := h.mem_children_iff.mpr hlink
      exact List.mem_cons_of_mem _ (List.mem_flatMap.mpr ⟨c, hc, hlevels c hc m hup⟩)

/-- The tree below a node is an element with the trees below its children, or has no
children. -/
theorem height_treeTo_succ (h : s.Sound) :
    (s.treeTo (fuel + 1) n).height = Node.heightAll ((s.children n).map (s.treeTo fuel)) + 1 := by
  rw [treeTo]
  cases hpayload : s.payload n with
  | text content guarded =>
    rw [h.leaf n (by rw [hpayload]; rfl)]
    rfl
  | special kind content =>
    rw [h.leaf n (by rw [hpayload]; rfl)]
    rfl
  | document attributes => rfl
  | element name attributes => rfl
  | lostElement => rfl
  | lostDocument => rfl

theorem height_treeTo_le (h : s.Sound) (hlevels : ∀ m, s.Below n m → m ∈ s.preorderTo k n) :
    (s.treeTo fuel n).height ≤ k := by
  obtain ⟨k, rfl⟩ : ∃ j, k = j + 1 := by
    cases k with
    | zero => exact absurd (hlevels n .refl) List.not_mem_nil
    | succ k => exact ⟨k, rfl⟩
  induction fuel generalizing n k with
  | zero => exact Nat.succ_le_succ (Nat.zero_le k)
  | succ fuel ih =>
    rw [h.height_treeTo_succ]
    refine Nat.succ_le_succ (Node.heightAll_le fun node hnode => ?_)
    obtain ⟨c, hc, rfl⟩ := List.mem_map.mp hnode
    have hbelow := h.levels_succ_iff.mp hlevels c hc
    cases k with
    | zero => exact absurd (hbelow c .refl) List.not_mem_nil
    | succ k => exact ih k hbelow

theorem mem_preorderTo_height (h : s.Sound) (hm : m ∈ s.preorderTo fuel n) :
    m ∈ s.preorderTo (s.treeTo fuel n).height n := by
  induction fuel generalizing n with
  | zero => cases hm
  | succ fuel ih =>
    rw [h.height_treeTo_succ, preorderTo]
    rcases List.mem_cons.mp hm with rfl | hin
    · exact List.mem_cons_self ..
    · obtain ⟨c, hc, hmc⟩ := List.mem_flatMap.mp hin
      have hle := Node.height_le_heightAll (List.mem_map_of_mem (f := s.treeTo fuel) hc)
      exact List.mem_cons_of_mem _ (List.mem_flatMap.mpr
        ⟨c, hc, h.mem_preorderTo_mono hle (ih hmc)⟩)

/-- The levels on the way up are those of the document. -/
theorem nestsWithin_iff (h : s.Sound) : s.NestsWithin k ↔ Node.heightAll s.document ≤ k := by
  have hlevels : s.NestsWithin k ↔ ∀ m, s.Below root m → m ∈ s.preorderTo (k + 1) root :=
    forall₂_congr fun m _ => h.mem_preorderTo_iff.symm
  rw [hlevels, h.levels_succ_iff, document]
  constructor
  · intro hbelow
    refine Node.heightAll_le fun node hnode => ?_
    obtain ⟨c, hc, rfl⟩ := List.mem_map.mp hnode
    exact h.height_treeTo_le (hbelow c hc)
  · intro hheight c hc m hm
    refine h.mem_preorderTo_mono ?_ (h.mem_preorderTo_height (h.mem_preorderTo_size_iff.mpr hm))
    exact Nat.le_trans (Node.height_le_heightAll (List.mem_map_of_mem (f := s.tree) hc)) hheight

end Sound

/-! ### Edits -/

/-- Cutting links leaves no node further down. -/
theorem NestsWithin.of_links (h : s.NestsWithin k)
    (hlinks : ∀ c p, s'.parent c = some p → s.parent c = some p) : s'.NestsWithin k := by
  intro m hm
  have hway : s.Below root m ∧ ∀ fuel, s.reaches root fuel (some m) = true →
      s'.reaches root fuel (some m) = true := by
    induction hm using Relation.ReflTransGen.head_induction_on with
    | refl =>
      refine ⟨.refl, fun fuel hreaches => ?_⟩
      cases fuel with
      | zero => cases hreaches
      | succ fuel => exact reaches_succ.mpr (Or.inl rfl)
    | @head c p hlink _ ih =>
      have hold := hlinks c p hlink
      refine ⟨.head hold ih.1, fun fuel hreaches => ?_⟩
      cases fuel with
      | zero => cases hreaches
      | succ fuel =>
        rw [reaches_succ, hold] at hreaches
        rw [reaches_succ, hlink]
        exact hreaches.imp_right (ih.2 fuel)
  exact hway.2 _ (h m hway.1)

namespace GivesWay

/-- A node that was there is still below the root only if it was, and its way up is no longer. -/
theorem reaches_of_below (h : s.Sound) (g : s.GivesWay n p ms s') (hm : s'.Below root m)
    (hlt : m < s.size) : s.Below root m ∧ ∀ fuel, s.reaches root fuel (some m) = true →
      s'.reaches root fuel (some m) = true := by
  induction hm using Relation.ReflTransGen.head_induction_on with
  | refl =>
    refine ⟨.refl, fun fuel hreaches => ?_⟩
    cases fuel with
    | zero => cases hreaches
    | succ fuel => exact reaches_succ.mpr (Or.inl rfl)
  | @head m q hlink _ ih =>
    have hlink' := hlink
    rw [g.parent_eq h] at hlink
    split at hlink
    · -- the way up led through `n`, and now it does not
      next hmem =>
      obtain rfl := Option.some.inj hlink
      have hparent := g.parent_of_mem hmem hlt
      obtain ⟨hbelow, hshort⟩ := ih (h.lt_size g.place).2
      refine ⟨.head hparent (.head g.place hbelow), fun fuel hreaches => ?_⟩
      cases fuel with
      | zero => cases hreaches
      | succ fuel =>
        rw [reaches_succ, hparent] at hreaches
        rw [reaches_succ, hlink']
        refine hreaches.imp_right fun hn => ?_
        cases fuel with
        | zero => cases hn
        | succ fuel =>
          rw [reaches_succ, g.place] at hn
          rcases hn with rfl | hp
          · have hnone := g.place
            rw [h.top] at hnone
            cases hnone
          · exact reaches_mono (Nat.le_succ fuel) (hshort fuel hp)
    · split at hlink
      · cases hlink
      · obtain ⟨hbelow, hshort⟩ := ih (h.lt_size hlink).2
        refine ⟨.head hlink hbelow, fun fuel hreaches => ?_⟩
        cases fuel with
        | zero => cases hreaches
        | succ fuel =>
          rw [reaches_succ, hlink] at hreaches
          rw [reaches_succ, hlink']
          exact hreaches.imp_right (hshort fuel)

theorem nestsWithin (h : s.Sound) (g : s.GivesWay n p ms s') (hnests : s.NestsWithin k) :
    s'.NestsWithin k := by
  intro m hm
  rcases Nat.lt_or_ge m s.size with hlt | hge
  · obtain ⟨hbelow, hshort⟩ := g.reaches_of_below h hm hlt
    exact hshort _ (hnests m hbelow)
  · -- a new node stands where `n` stood
    have hroot : m ≠ root := by
      rintro rfl
      exact Nat.not_lt.mpr hge (lt_size_of_not_destroyed h.stays)
    rcases Relation.ReflTransGen.cases_head hm with heq | ⟨q, hlink, hup⟩
    · exact absurd heq hroot
    · have hlink' := hlink
      rw [g.parent_eq h] at hlink
      split at hlink
      · obtain rfl := Option.some.inj hlink
        obtain ⟨hbelow, hshort⟩ := g.reaches_of_below h hup (h.lt_size g.place).2
        have hn := hnests n (.head g.place hbelow)
        rw [reaches_succ, g.place] at hn
        rw [reaches_succ, hlink']
        rcases hn with rfl | hp
        · have hnone := g.place
          rw [h.top] at hnone
          cases hnone
        · exact Or.inr (hshort k hp)
      · split at hlink
        · cases hlink
        · exact absurd (h.lt_size hlink).1 (Nat.not_lt.mpr hge)

end GivesWay

end Store

end Wikitext

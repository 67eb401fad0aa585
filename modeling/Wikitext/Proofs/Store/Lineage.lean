/-
  Wikitext/Proofs/Store/Lineage.lean
  ==================================
  **What a walk upwards sees.**  The parents above a node form its lineage, a finite list that
  ends at a node without a parent.  `Store.ancestors` and `Store.isAttached` walk along parents
  with a bound, and stop at a node that comes back; along a lineage without repetitions
  both are plain statements about the list: the ancestors are its first `maxHeight` members
  (`ancestors_eq_take`), and a node is attached to `top` when `top` is among the node and these
  (`isAttached_iff`).
-/
import Wikitext.Store.Edit

namespace Wikitext.Store

/-! ### Records after an edit -/

theorem record_push (s : Store) (r : Record) (m : NodeId) :
    (s.push r).record m = if m = s.size then r else s.record m := by
  simp only [record, push, size, Array.getD_eq_getD_getElem?, Array.getElem?_push]
  by_cases h : m = s.records.size
  · rw [if_pos h, if_pos h]; rfl
  · rw [if_neg h, if_neg h]

theorem record_modify (s : Store) (n m : NodeId) (f : Record → Record) :
    (s.modify n f).record m =
      if m = n ∧ n < s.size then f (s.record n) else s.record m := by
  simp only [record, modify, size, Array.getD_eq_getD_getElem?, Array.getElem?_modify]
  by_cases hmn : m = n
  · subst hmn
    by_cases hlt : m < s.records.size
    · simp [hlt]
    · simp [hlt]
  · simp [hmn, Ne.symm hmn]

@[simp] theorem size_push (s : Store) (r : Record) : (s.push r).size = s.size + 1 := by
  simp [size, push]

@[simp] theorem size_modify (s : Store) (n : NodeId) (f : Record → Record) :
    (s.modify n f).size = s.size := by
  simp [size, modify]

theorem record_of_size_le {s : Store} {n : NodeId} (h : s.size ≤ n) : s.record n = .absent := by
  simp only [size] at h
  simp [record, h]

/-- A node that is not destroyed is in the store. -/
theorem lt_size_of_not_destroyed {s : Store} {n : NodeId} (h : s.isDestroyed n = false) :
    n < s.size := by
  rcases Nat.lt_or_ge n s.size with hlt | hge
  · exact hlt
  · rw [isDestroyed, record_of_size_le hge] at h
    cases h

/-! ### Lineages -/

/-- The parents above a node, innermost first, up to a node without a parent. -/
def Lineage (s : Store) : NodeId → List NodeId → Prop
  | n, [] => s.parent n = none
  | n, p :: ps => s.parent n = some p ∧ Lineage s p ps

theorem Lineage.congr {s t : Store} {n : NodeId} {ps : List NodeId} (h : s.Lineage n ps)
    (same : ∀ m ∈ n :: ps, t.parent m = s.parent m) : t.Lineage n ps := by
  induction ps generalizing n with
  | nil =>
    have hn : t.parent n = s.parent n := same n (List.mem_singleton.mpr rfl)
    exact hn.trans h
  | cons p ps ih =>
    have hn : t.parent n = s.parent n := same n (List.mem_cons_self ..)
    refine ⟨hn.trans h.1, ih h.2 fun m hm => same m (List.mem_cons_of_mem _ hm)⟩

/-- A climb that does not come back to a node sees the lineage, as far as it goes. -/
theorem climb_eq_take {s : Store} {n : NodeId} {ps : List NodeId} (h : s.Lineage n ps) :
    ∀ (fuel : Nat) (seen : List NodeId), (n :: ps).Nodup → (∀ m ∈ n :: ps, m ∉ seen) →
      s.climb fuel seen (some n) = (n :: ps).take fuel := by
  induction ps generalizing n with
  | nil =>
    intro fuel seen _ hseen
    cases fuel with
    | zero => rfl
    | succ fuel =>
      have hn : n ∉ seen := hseen n (List.mem_singleton.mpr rfl)
      have hp : s.parent n = none := h
      rw [climb, if_neg hn, hp]
      cases fuel <;> rfl
  | cons p ps ih =>
    intro fuel seen hnodup hseen
    cases fuel with
    | zero => rfl
    | succ fuel =>
      have hn : n ∉ seen := hseen n (List.mem_cons_self ..)
      obtain ⟨hnotin, hrest⟩ := List.nodup_cons.mp hnodup
      have hfresh : ∀ m ∈ p :: ps, m ∉ n :: seen := by
        intro m hm hmem
        rcases List.mem_cons.mp hmem with rfl | hmem
        · exact hnotin hm
        · exact hseen m (List.mem_cons_of_mem _ hm) hmem
      rw [climb, if_neg hn, h.1, ih h.2 fuel (n :: seen) hrest hfresh, List.take_succ_cons]

theorem reaches_iff {s : Store} {top n : NodeId} {ps : List NodeId} (h : s.Lineage n ps)
    (fuel : Nat) : s.reaches top fuel (some n) = true ↔ top ∈ (n :: ps).take fuel := by
  induction ps generalizing n fuel with
  | nil =>
    have hp : s.parent n = none := h
    cases fuel with
    | zero => simp [reaches]
    | succ fuel =>
      have hend : s.reaches top fuel none = false := by cases fuel <;> rfl
      rw [reaches, hp, hend, Bool.or_false, beq_iff_eq, List.take_succ_cons, List.take_nil,
        List.mem_singleton, eq_comm]
  | cons p ps ih =>
    cases fuel with
    | zero => simp [reaches]
    | succ fuel =>
      rw [reaches, h.1, Bool.or_eq_true, ih h.2 fuel, List.take_succ_cons, List.mem_cons,
        beq_iff_eq, eq_comm]

/-- The ancestors of a child of `p` are `p` and the lineage of `p`, cut at the height that a
walk is bounded by. -/
theorem ancestors_eq_take {s : Store} {n p : NodeId} {ps : List NodeId}
    (hparent : s.parent n = some p) (h : s.Lineage p ps) (hnodup : (p :: ps).Nodup) :
    s.ancestors n = (p :: ps).take maxHeight := by
  rw [ancestors, hparent]
  exact climb_eq_take h maxHeight [] hnodup fun _ _ => List.not_mem_nil

/-- A node is attached when it is not destroyed and `top` is near enough above it. -/
theorem isAttached_iff {s : Store} {top n p : NodeId} {ps : List NodeId}
    (hparent : s.parent n = some p) (h : s.Lineage p ps) :
    s.isAttached top n = true ↔
      s.isDestroyed n = false ∧ (top = n ∨ top ∈ (p :: ps).take maxHeight) := by
  have hline : s.Lineage n (p :: ps) := ⟨hparent, h⟩
  rw [isAttached, Bool.and_eq_true, Bool.not_eq_true', reaches_iff hline, List.take_succ_cons,
    List.mem_cons]

end Wikitext.Store

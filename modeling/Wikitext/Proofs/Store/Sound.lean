/-
  Wikitext/Proofs/Store/Sound.lean
  ================================
  **Sound stores.**  Every node of a store says who its parent is, and every node lists its
  children.  In a sound store the two agree, no node stands in two places or above itself, and
  what is destroyed neither has a parent nor is one (`Store.Sound`).  Then the walk up from a node
  and the walk down to it see the same nodes, level by level (`mem_preorderTo_iff`), and a walk
  down meets no node twice (`nodup_preorderTo`).  So a node is attached to the document exactly
  if it is found among the levels of the document that a walk up looks at
  (`isAttached_root_iff`).
-/
import Mathlib.Data.List.Nodup
import Mathlib.Logic.Relation
import Wikitext.Proofs.Store.Lineage

namespace Wikitext.Store

/-- Parents and children agree, but for the nodes in `waiting`: these know their parent and are
not yet among its children. -/
structure AgreesBut (s : Store) (waiting : List NodeId) : Prop where
  stays : s.isDestroyed root = false
  top : s.parent root = none
  child : ∀ p c, c ∈ s.children p ↔ s.parent c = some p ∧ c ∉ waiting
  nodup : ∀ p, (s.children p).Nodup
  alive : ∀ c p, s.parent c = some p → s.isDestroyed c = false ∧ s.isDestroyed p = false
  /-- Only elements have children. -/
  leaf : ∀ n, (s.payload n).isElement = false → s.children n = []
  /-- No node is above itself, and no way up is longer than the store. -/
  ranked : ∃ rank : NodeId → Nat,
    (∀ c p, s.parent c = some p → rank p < rank c) ∧ ∀ n, rank n ≤ s.size

/-- Parents and children agree. -/
def Sound (s : Store) : Prop := s.AgreesBut []

/-- The node is `top` or below it. -/
def Below (s : Store) (top n : NodeId) : Prop :=
  Relation.ReflTransGen (fun a b => s.parent a = some b) n top

variable {s s' : Store} {top n m p c : NodeId} {fuel : Nat}

theorem AgreesBut.lt_size {waiting : List NodeId} (h : s.AgreesBut waiting)
    (hparent : s.parent c = some p) : c < s.size ∧ p < s.size :=
  (h.alive c p hparent).imp lt_size_of_not_destroyed lt_size_of_not_destroyed

/-- A ranking is extended to a store that has grown: what is new stands right below `p`, and
nothing stands below what is new. -/
theorem ranked_of_grown {rank : NodeId → Nat} (hbound : ∀ n, rank n ≤ s.size) (hp : p < s.size)
    (hgrows : s.size ≤ s'.size)
    (hlinks : ∀ c q, s'.parent c = some q →
      (c < s.size ∧ q < s.size ∧ rank q < rank c) ∨ (s.size ≤ c ∧ c < s'.size ∧ q = p)) :
    ∃ rank : NodeId → Nat,
      (∀ c q, s'.parent c = some q → rank q < rank c) ∧ ∀ n, rank n ≤ s'.size := by
  refine ⟨fun m => if m < s.size then rank m else if m < s'.size then rank p + 1 else 0,
    fun c q hlink => ?_, fun m => ?_⟩
  · rcases hlinks c q hlink with ⟨hc, hq, hlt⟩ | ⟨hc, hc', rfl⟩
    · simpa only [hc, hq, if_true] using hlt
    · simp only [Nat.not_lt.mpr hc, hc', hp, if_true, if_false]
      exact Nat.lt_succ_self _
  · by_cases hm : m < s.size
    · simp only [hm, if_true]
      exact Nat.le_trans (hbound m) hgrows
    · by_cases hm' : m < s'.size
      · have hmore : s.size < s'.size := Nat.lt_of_le_of_lt (Nat.le_of_not_lt hm) hm'
        simp only [hm, hm', if_true, if_false]
        exact Nat.succ_le_of_lt (Nat.lt_of_le_of_lt (hbound p) hmore)
      · simp only [hm, hm', if_false]
        exact Nat.zero_le _

/-! ### The way up -/

theorem reaches_none (s : Store) (top : NodeId) (fuel : Nat) :
    s.reaches top fuel none = false := by
  cases fuel <;> rfl

theorem reaches_succ : s.reaches top (fuel + 1) (some n) = true ↔
    n = top ∨ s.reaches top fuel (s.parent n) = true := by
  rw [reaches, Bool.or_eq_true, beq_iff_eq]

/-- A way from the parent of a node to `n` is a way from the node to a child of `n`. -/
theorem reaches_parent_iff : s.reaches n fuel (s.parent m) = true ↔
    ∃ c, s.parent c = some n ∧ s.reaches c fuel (some m) = true := by
  induction fuel generalizing m with
  | zero => simp [reaches]
  | succ fuel ih =>
    cases hparent : s.parent m with
    | none =>
      simp only [reaches_none, Bool.false_eq_true, false_iff, not_exists, not_and]
      intro c hc hreaches
      rcases reaches_succ.mp hreaches with rfl | hup
      · rw [hparent] at hc
        cases hc
      · rw [hparent, reaches_none] at hup
        cases hup
    | some q =>
      rw [reaches_succ, ih]
      constructor
      · rintro (rfl | ⟨c, hc, hup⟩)
        · exact ⟨m, hparent, reaches_succ.mpr (Or.inl rfl)⟩
        · exact ⟨c, hc, reaches_succ.mpr (Or.inr (by rwa [hparent]))⟩
      · rintro ⟨c, hc, hreaches⟩
        rcases reaches_succ.mp hreaches with rfl | hup
        · rw [hparent, Option.some.injEq] at hc
          exact Or.inl hc
        · rw [hparent] at hup
          exact Or.inr ⟨c, hc, hup⟩

theorem below_of_reaches (h : s.reaches top fuel (some n) = true) : s.Below top n := by
  induction fuel generalizing n with
  | zero => cases h
  | succ fuel ih =>
    rcases reaches_succ.mp h with rfl | hup
    · exact .refl
    · cases hparent : s.parent n with
      | none =>
        rw [hparent, reaches_none] at hup
        cases hup
      | some q =>
        rw [hparent] at hup
        exact .head hparent (ih hup)

theorem reaches_of_below {rank : NodeId → Nat} (hrank : ∀ c p, s.parent c = some p → rank p < rank c)
    (h : s.Below top n) (hfuel : rank n < fuel) : s.reaches top fuel (some n) = true := by
  induction h using Relation.ReflTransGen.head_induction_on generalizing fuel with
  | refl =>
    obtain ⟨k, rfl⟩ := Nat.exists_eq_add_of_lt hfuel
    exact reaches_succ.mpr (Or.inl rfl)
  | head hparent _ ih =>
    obtain ⟨k, rfl⟩ := Nat.exists_eq_add_of_lt hfuel
    refine reaches_succ.mpr (Or.inr ?_)
    rw [hparent]
    exact ih (Nat.lt_of_lt_of_le (hrank _ _ hparent) (Nat.le_add_right _ _))

/-- Of two nodes above a third one is above the other. -/
theorem Below.total (h : s.Below n m) (h' : s.Below p m) : s.Below p n ∨ s.Below n p :=
  Relation.ReflTransGen.total_of_right_unique
    (fun _ _ _ hb hc => Option.some.inj (hb.symm.trans hc)) h h'

namespace Sound

theorem mem_children_iff (h : s.Sound) : c ∈ s.children p ↔ s.parent c = some p := by
  rw [h.child p c]
  exact and_iff_left List.not_mem_nil

theorem rank_le {rank : NodeId → Nat} (hrank : ∀ c p, s.parent c = some p → rank p < rank c)
    (hbelow : s.Below top n) : rank top ≤ rank n := by
  induction hbelow using Relation.ReflTransGen.head_induction_on with
  | refl => exact Nat.le_refl _
  | head hparent _ ih => exact Nat.le_trans ih (Nat.le_of_lt (hrank _ _ hparent))

theorem below_antisymm (h : s.Sound) (hdown : s.Below top n) (hup : s.Below n top) : n = top := by
  obtain ⟨rank, hrank, -⟩ := h.ranked
  rcases Relation.ReflTransGen.cases_head hdown with heq | ⟨p, hparent, hp⟩
  · exact heq
  · have hlt := Nat.lt_of_le_of_lt (rank_le hrank hp) (hrank n p hparent)
    exact absurd (rank_le hrank hup) (Nat.not_le.mpr hlt)

/-- A node is not below its children. -/
theorem not_below_child (h : s.Sound) (hparent : s.parent c = some p) : ¬ s.Below c p := by
  obtain ⟨rank, hrank, -⟩ := h.ranked
  intro hbelow
  exact absurd (hrank c p hparent) (Nat.not_lt.mpr (rank_le hrank hbelow))

theorem parent_eq_none (h : s.Sound) (hdestroyed : s.isDestroyed n = true) :
    s.parent n = none := by
  cases hparent : s.parent n with
  | none => rfl
  | some p =>
    rw [(h.alive n p hparent).1] at hdestroyed
    cases hdestroyed

/-- What is destroyed is below nothing but itself. -/
theorem eq_of_below (h : s.Sound) (hdestroyed : s.isDestroyed n = true)
    (hbelow : s.Below top n) : n = top := by
  rcases Relation.ReflTransGen.cases_head hbelow with heq | ⟨q, hq, -⟩
  · exact heq
  · rw [h.parent_eq_none hdestroyed] at hq
    cases hq

/-! ### The way down -/

/-- The nodes on the first levels below `n` are those whose way up reaches `n` in as many
steps. -/
theorem mem_preorderTo_iff (h : s.Sound) :
    m ∈ s.preorderTo fuel n ↔ s.reaches n fuel (some m) = true := by
  induction fuel generalizing n with
  | zero => simp [preorderTo, reaches]
  | succ fuel ih =>
    rw [preorderTo, List.mem_cons, List.mem_flatMap, reaches_succ, reaches_parent_iff]
    refine or_congr_right (exists_congr fun c => ?_)
    rw [h.mem_children_iff, ih]

theorem mem_preorderTo_size_iff (h : s.Sound) :
    m ∈ s.preorderTo (s.size + 1) n ↔ s.Below n m := by
  obtain ⟨rank, hrank, hsize⟩ := h.ranked
  rw [h.mem_preorderTo_iff]
  exact ⟨below_of_reaches, fun hbelow =>
    reaches_of_below hrank hbelow (Nat.lt_succ_of_le (hsize m))⟩

theorem below_of_mem_preorderTo (h : s.Sound) (hm : m ∈ s.preorderTo fuel n) : s.Below n m :=
  below_of_reaches (h.mem_preorderTo_iff.mp hm)

/-- A node is below one child only. -/
theorem child_unique {d : NodeId} (h : s.Sound) (hc : s.parent c = some n)
    (hd : s.parent d = some n) (hcm : s.Below c m) (hdm : s.Below d m) : c = d := by
  -- of the two one would be below the other, so below `n`
  have happart : ∀ c d, s.parent c = some n → s.parent d = some n → s.Below c d → d = c := by
    intro c d hc hd hbelow
    rcases Relation.ReflTransGen.cases_head hbelow with heq | ⟨q, hq, hup⟩
    · exact heq
    · obtain rfl := Option.some.inj (hq.symm.trans hd)
      exact absurd hup (h.not_below_child hc)
  rcases hcm.total hdm with hdc | hcd
  · exact happart d c hd hc hdc
  · exact (happart c d hc hd hcd).symm

theorem nodup_preorderTo (h : s.Sound) : (s.preorderTo fuel n).Nodup := by
  induction fuel generalizing n with
  | zero => exact List.nodup_nil
  | succ fuel ih =>
    rw [preorderTo, List.nodup_cons, List.nodup_flatMap]
    refine ⟨?_, fun _ _ => ih, (h.nodup n).pairwise_of_forall_ne ?_⟩
    · intro hmem
      obtain ⟨c, hc, hn⟩ := List.mem_flatMap.mp hmem
      exact h.not_below_child (h.mem_children_iff.mp hc) (h.below_of_mem_preorderTo hn)
    · intro c hc d hd hne m hmc hmd
      rw [h.mem_children_iff] at hc hd
      exact hne (h.child_unique hc hd (h.below_of_mem_preorderTo hmc)
        (h.below_of_mem_preorderTo hmd))

/-- No node stands twice below another, or below itself. -/
theorem nodup_cons_descendants (h : s.Sound) (n : NodeId) : (n :: s.descendants n).Nodup := by
  have hwalk : (s.preorderTo (s.size + 1) n).Nodup := h.nodup_preorderTo
  exact hwalk

theorem mem_descendants_iff (h : s.Sound) : m ∈ s.descendants n ↔ s.Below n m ∧ m ≠ n := by
  have hwalk : s.preorderTo (s.size + 1) n = n :: s.descendants n := rfl
  have hself : n ∉ s.descendants n := (List.nodup_cons.mp (h.nodup_cons_descendants n)).1
  rw [← h.mem_preorderTo_size_iff, hwalk, List.mem_cons]
  constructor
  · intro hm
    refine ⟨Or.inr hm, ?_⟩
    rintro rfl
    exact hself hm
  · rintro ⟨heq | hm, hne⟩
    · exact absurd heq hne
    · exact hm

/-- What stands below a node stands there once. -/
theorem count_descendants_iff (h : s.Sound) :
    (s.descendants n).count m = 1 ↔ s.Below n m ∧ m ≠ n := by
  rw [← h.mem_descendants_iff]
  constructor
  · intro hone
    exact List.count_pos_iff.mp (hone ▸ Nat.one_pos)
  · exact List.count_eq_one_of_mem (List.nodup_cons.mp (h.nodup_cons_descendants n)).2

/-- A node is attached to the document exactly if it is found on one of the levels of the
document that a walk up looks at. -/
theorem isAttached_root_iff (h : s.Sound) :
    s.isAttached root n = true ↔ n ∈ s.preorderTo (maxHeight + 1) root := by
  rw [isAttached, Bool.and_eq_true, Bool.not_eq_true', h.mem_preorderTo_iff]
  refine and_iff_right_of_imp fun hreaches => ?_
  cases hdestroyed : s.isDestroyed n with
  | false => rfl
  | true =>
    obtain rfl := h.eq_of_below hdestroyed (below_of_reaches hreaches)
    rw [h.stays] at hdestroyed
    cases hdestroyed

end Sound

end Wikitext.Store

/-
  Wikitext/Proofs/Store/GivingWay.lean
  ====================================
  **Giving way.**  Taking a node out, replacing it by its children and replacing it by a new text
  are one kind of edit: the node gives way to others, which were its children or are new
  (`Store.GivesWay`).  Links between parents and children are only cut or made shorter by it
  (`GivesWay.link_cases`), so a sound store stays sound (`GivesWay.sound`).
-/
import Wikitext.Proofs.Store.Edit
import Wikitext.Proofs.Store.Sound

namespace Wikitext.Store

variable {s s' : Store} {n m p c : NodeId} {ms cs : List NodeId}

/-! ### Lists of children -/

theorem mem_spliceChild_iff :
    c ∈ spliceChild n ms cs ↔ c ∈ cs ∧ c ≠ n ∨ n ∈ cs ∧ c ∈ ms := by
  rw [spliceChild, List.mem_flatMap]
  constructor
  · rintro ⟨d, hd, hc⟩
    split at hc
    · next heq => exact Or.inr ⟨heq ▸ hd, hc⟩
    · next hne =>
      rw [List.mem_singleton] at hc
      subst hc
      exact Or.inl ⟨hd, hne⟩
  · rintro (⟨hc, hne⟩ | ⟨hn, hc⟩)
    · exact ⟨c, hc, by rw [if_neg hne]; exact List.mem_singleton_self c⟩
    · exact ⟨n, hn, by rw [if_pos rfl]; exact hc⟩

theorem nodup_spliceChild (hcs : cs.Nodup) (hms : ms.Nodup) (hdisjoint : ∀ m ∈ ms, m ∉ cs) :
    (spliceChild n ms cs).Nodup := by
  rw [spliceChild, List.nodup_flatMap]
  refine ⟨fun d _ => ?_, hcs.pairwise_of_forall_ne ?_⟩
  · split
    · exact hms
    · exact List.nodup_singleton d
  · intro c hc d hd hne m hmc hmd
    simp only at hmc hmd
    split at hmc <;> split at hmd
    · next hcn hdn => exact hne (hcn.trans hdn.symm)
    · exact hdisjoint m hmc (List.mem_singleton.mp hmd ▸ hd)
    · exact hdisjoint m hmd (List.mem_singleton.mp hmc ▸ hc)
    · exact hne ((List.mem_singleton.mp hmc).symm.trans (List.mem_singleton.mp hmd))

theorem spliceChild_nil (hcs : cs.Nodup) : spliceChild n [] cs = cs.erase n := by
  rw [hcs.erase_eq_filter]
  induction cs with
  | nil => rfl
  | cons c cs ih =>
    rw [spliceChild, List.flatMap_cons, List.filter_cons]
    have hrest := ih (List.nodup_cons.mp hcs).2
    rw [spliceChild] at hrest
    by_cases hc : c = n
    · simp [hc, hrest]
    · simp [hc, hrest]

/-! ### Giving way -/

/-- The node `n` has given its place below `p` to the nodes `ms`, each of which was a child of
its or is new. -/
structure GivesWay (s : Store) (n p : NodeId) (ms : List NodeId) (s' : Store) : Prop where
  place : s.parent n = some p
  takers : ∀ m ∈ ms, s.parent m = some n ∨ s.size ≤ m
  nodup : ms.Nodup
  self : s'.record n =
    { s.record n with parent := none, children := (s.children n).filter (· ∉ ms) }
  owner : s'.record p = { s.record p with children := spliceChild n ms (s.children p) }
  taken : ∀ m ∈ ms, s'.parent m = some p ∧ s'.children m = s.children m ∧
    s'.isDestroyed m = false ∧ (m < s.size → s'.payload m = s.payload m)
  frame : ∀ m, m ≠ n → m ≠ p → m ∉ ms → s'.record m = s.record m
  grows : s.size ≤ s'.size
  present : ∀ m ∈ ms, m < s'.size

namespace GivesWay

theorem parent_of_mem (g : s.GivesWay n p ms s') (hm : m ∈ ms) (hlt : m < s.size) :
    s.parent m = some n :=
  (g.takers m hm).resolve_right (Nat.not_le.mpr hlt)

/-- None of the nodes involved is another. -/
theorem distinct (h : s.Sound) (g : s.GivesWay n p ms s') : p ≠ n ∧ n ∉ ms ∧ p ∉ ms := by
  obtain ⟨hn, hp⟩ := h.lt_size g.place
  have hnot := h.not_below_child g.place
  refine ⟨?_, fun hmem => ?_, fun hmem => ?_⟩
  · rintro rfl
    exact hnot .refl
  · have hself := g.parent_of_mem hmem hn
    rw [g.place, Option.some.injEq] at hself
    exact hnot (hself ▸ .refl)
  · exact hnot (.single (g.parent_of_mem hmem hp))

theorem parent_eq (h : s.Sound) (g : s.GivesWay n p ms s') (m : NodeId) :
    s'.parent m = if m ∈ ms then some p else if m = n then none else s.parent m := by
  obtain ⟨hpn, -, -⟩ := g.distinct h
  by_cases hm : m ∈ ms
  · rw [if_pos hm, (g.taken m hm).1]
  · rw [if_neg hm]
    by_cases hmn : m = n
    · rw [if_pos hmn, hmn, parent, g.self]
    · rw [if_neg hmn]
      by_cases hmp : m = p
      · rw [hmp, parent, g.owner]
        rfl
      · rw [parent, g.frame m hmn hmp hm]
        rfl

/-- Nodes that are not involved keep their children, and so do those that take the place. -/
theorem children_eq (g : s.GivesWay n p ms s') (hmn : m ≠ n) (hmp : m ≠ p) :
    s'.children m = s.children m := by
  by_cases hm : m ∈ ms
  · exact (g.taken m hm).2.1
  · rw [children, g.frame m hmn hmp hm]
    rfl

theorem isDestroyed_eq (g : s.GivesWay n p ms s') (hm : m ∉ ms) :
    s'.isDestroyed m = s.isDestroyed m := by
  by_cases hmn : m = n
  · rw [hmn, isDestroyed, g.self]
    rfl
  · by_cases hmp : m = p
    · rw [hmp, isDestroyed, g.owner]
      rfl
    · rw [isDestroyed, g.frame m hmn hmp hm]
      rfl

theorem payload_eq (g : s.GivesWay n p ms s') (hm : m < s.size) :
    s'.payload m = s.payload m := by
  by_cases htaken : m ∈ ms
  · exact (g.taken m htaken).2.2.2 hm
  · by_cases hmn : m = n
    · rw [hmn, payload, g.self]
      rfl
    · by_cases hmp : m = p
      · rw [hmp, payload, g.owner]
        rfl
      · rw [payload, g.frame m hmn hmp htaken]
        rfl

/-- A link of a node that takes the place, or is new, leads to the place and nowhere else. -/
theorem ne_of_mem (g : s.GivesWay n p ms s') (hm : m ∈ ms) (hc : c ≠ n) :
    s.parent m ≠ some c := by
  rcases g.takers m hm with hn | hge
  · rw [hn]
    exact fun heq => hc (Option.some.inj heq).symm
  · rw [parent, record_of_size_le hge]
    exact fun heq => by cases heq

theorem mem_children_iff (h : s.Sound) (g : s.GivesWay n p ms s') (q : NodeId) :
    c ∈ s'.children q ↔ s'.parent c = some q := by
  obtain ⟨hpn, hn, hp⟩ := g.distinct h
  rw [g.parent_eq h c]
  by_cases hqn : q = n
  · subst hqn
    rw [children, g.self, List.mem_filter, h.mem_children_iff]
    by_cases hc : c ∈ ms
    · simp [hc, hpn]
    · by_cases hcn : c = q
      · subst hcn
        simp [hc, g.place, hpn]
      · simp [hc, hcn]
  · by_cases hqp : q = p
    · subst hqp
      rw [children, g.owner, mem_spliceChild_iff, h.mem_children_iff, h.mem_children_iff]
      by_cases hc : c ∈ ms
      · simp [hc, g.place]
      · by_cases hcn : c = n
        · simp [hcn, hn]
        · simp [hc, hcn]
    · rw [g.children_eq hqn hqp, h.mem_children_iff]
      by_cases hc : c ∈ ms
      · simp [hc, g.ne_of_mem hc hqn, Ne.symm hqp]
      · by_cases hcn : c = n
        · simp [hcn, hn, g.place, Ne.symm hqp]
        · simp [hc, hcn]

/-- The root stays where it is. -/
theorem root_apart (h : s.Sound) (g : s.GivesWay n p ms s') : root ∉ ms ∧ root ≠ n := by
  constructor
  · intro hmem
    have hparent := g.parent_of_mem hmem (lt_size_of_not_destroyed h.stays)
    rw [h.top] at hparent
    cases hparent
  · rintro rfl
    have hplace := g.place
    rw [h.top] at hplace
    cases hplace

theorem stays_alive (g : s.GivesWay n p ms s') (hm : s.isDestroyed m = false) :
    s'.isDestroyed m = false := by
  by_cases htaken : m ∈ ms
  · exact (g.taken m htaken).2.2.1
  · rw [g.isDestroyed_eq htaken, hm]

theorem alive_of_parent (h : s.Sound) (g : s.GivesWay n p ms s')
    (hlink : s'.parent c = some m) : s'.isDestroyed c = false ∧ s'.isDestroyed m = false := by
  rw [g.parent_eq h] at hlink
  split at hlink
  · next hc =>
    obtain rfl := Option.some.inj hlink
    exact ⟨(g.taken c hc).2.2.1, g.stays_alive (h.alive n p g.place).2⟩
  · split at hlink
    · cases hlink
    · exact (h.alive c m hlink).imp g.stays_alive g.stays_alive

theorem nodup_children (h : s.Sound) (g : s.GivesWay n p ms s') (q : NodeId) :
    (s'.children q).Nodup := by
  by_cases hqn : q = n
  · rw [hqn, children, g.self]
    exact (h.nodup n).filter _
  · by_cases hqp : q = p
    · rw [hqp, children, g.owner]
      refine nodup_spliceChild (h.nodup p) g.nodup fun m hm hmem => ?_
      exact g.ne_of_mem hm (g.distinct h).1 (h.mem_children_iff.mp hmem)
    · rw [g.children_eq hqn hqp]
      exact h.nodup q

theorem children_eq_nil (h : s.Sound) (g : s.GivesWay n p ms s')
    (hleaf : (s'.payload m).isElement = false) : s'.children m = [] := by
  obtain ⟨hn, hp⟩ := h.lt_size g.place
  rcases Nat.lt_or_ge m s.size with hlt | hge
  · rw [g.payload_eq hlt] at hleaf
    have hnone := h.leaf m hleaf
    by_cases hmn : m = n
    · rw [hmn, children, g.self, ← hmn, hnone]
      rfl
    · by_cases hmp : m = p
      · have hmem : n ∈ s.children m := h.mem_children_iff.mpr (hmp ▸ g.place)
        rw [hnone] at hmem
        cases hmem
      · rw [g.children_eq hmn hmp, hnone]
  · have hmn : m ≠ n := Nat.ne_of_gt (Nat.lt_of_lt_of_le hn hge)
    have hmp : m ≠ p := Nat.ne_of_gt (Nat.lt_of_lt_of_le hp hge)
    rw [g.children_eq hmn hmp, children, record_of_size_le hge]
    rfl

/-- A link is as it was, is made shorter or leads to something new. -/
theorem link_cases (h : s.Sound) (g : s.GivesWay n p ms s') (hlink : s'.parent c = some m) :
    s.parent c = some m ∨ (s.parent c = some n ∧ m = p) ∨
      (s.size ≤ c ∧ c < s'.size ∧ m = p) := by
  rw [g.parent_eq h] at hlink
  split at hlink
  · next hc =>
    obtain rfl := Option.some.inj hlink
    rcases g.takers c hc with hold | hnew
    · exact Or.inr (Or.inl ⟨hold, rfl⟩)
    · exact Or.inr (Or.inr ⟨hnew, g.present c hc, rfl⟩)
  · split at hlink
    · cases hlink
    · exact Or.inl hlink

/-- Giving way keeps a store sound. -/
theorem sound (h : s.Sound) (g : s.GivesWay n p ms s') : s'.Sound := by
  constructor
  · exact g.stays_alive h.stays
  · obtain ⟨hroot, hne⟩ := g.root_apart h
    rw [g.parent_eq h, if_neg hroot, if_neg hne, h.top]
  · intro q c
    rw [g.mem_children_iff h]
    exact (and_iff_left List.not_mem_nil).symm
  · exact g.nodup_children h
  · exact fun c q hlink => g.alive_of_parent h hlink
  · exact fun q hleaf => g.children_eq_nil h hleaf
  · obtain ⟨rank, hrank, hbound⟩ := h.ranked
    obtain ⟨hn, hp⟩ := h.lt_size g.place
    refine ranked_of_grown hbound hp g.grows fun c q hlink => ?_
    rcases g.link_cases h hlink with hold | ⟨hold, rfl⟩ | hnew
    · exact Or.inl ⟨(h.lt_size hold).1, (h.lt_size hold).2, hrank c q hold⟩
    · -- the way up from `c` led over `n`
      exact Or.inl ⟨(h.lt_size hold).1, hp, Nat.lt_trans (hrank n q g.place) (hrank c n hold)⟩
    · exact Or.inr hnew

end GivesWay

/-! ### The edits that give way -/

/-- A node that is taken out gives way to nothing. -/
theorem Sound.givesWay_detach (h : s.Sound) (hparent : s.parent n = some p) :
    s.GivesWay n p [] (s.detach n) := by
  obtain ⟨hn, hp⟩ := h.lt_size hparent
  have hne : n ≠ p := by
    rintro rfl
    exact h.not_below_child hparent .refl
  have hrecord := record_detach hparent hn hp hne
  constructor
  · exact hparent
  · simp
  · exact List.nodup_nil
  · rw [hrecord n, if_pos rfl]
    simp [children]
  · rw [hrecord p, if_neg (Ne.symm hne), if_pos rfl, spliceChild_nil (h.nodup p)]
  · simp
  · intro m hmn hmp _
    rw [hrecord m, if_neg hmn, if_neg hmp]
  · exact Nat.le_of_eq (size_detach s n).symm
  · simp

/-- A node that is unwrapped gives way to its children. -/
theorem Sound.givesWay_unwrap (h : s.Sound) (hparent : s.parent n = some p) :
    ∃ s', s.unwrap n = .ok s' ∧ s.GivesWay n p (s.children n) s' := by
  obtain ⟨hn, hp⟩ := h.lt_size hparent
  have hbelow := h.not_below_child hparent
  have hne : n ≠ p := by
    rintro rfl
    exact hbelow .refl
  have hkids : ∀ m ∈ s.children n, m ≠ n ∧ m ≠ p ∧ m < s.size := by
    intro m hm
    rw [h.mem_children_iff] at hm
    refine ⟨?_, ?_, (h.lt_size hm).1⟩
    · rintro rfl
      exact h.not_below_child hm .refl
    · rintro rfl
      exact hbelow (.single hm)
  obtain ⟨s', heq, hsize, hrecord⟩ := record_unwrap hparent hn hp hne (h.nodup n) hkids
  refine ⟨s', heq, ?_⟩
  constructor
  · exact hparent
  · exact fun m hm => Or.inl (h.mem_children_iff.mp hm)
  · exact h.nodup n
  · rw [hrecord n, if_pos rfl]
    simp
  · rw [hrecord p, if_neg (Ne.symm hne), if_pos rfl]
  · intro m hm
    obtain ⟨hmn, hmp, -⟩ := hkids m hm
    have hm' := hrecord m
    rw [if_neg hmn, if_neg hmp, if_pos hm] at hm'
    refine ⟨by rw [parent, hm'], by rw [children, hm']; rfl, ?_, fun _ => by rw [payload, hm']; rfl⟩
    rw [isDestroyed, hm']
    exact (h.alive m n (h.mem_children_iff.mp hm)).1
  · intro m hmn hmp hm
    rw [hrecord m, if_neg hmn, if_neg hmp, if_neg hm]
  · exact Nat.le_of_eq hsize.symm
  · exact fun m hm => hsize ▸ (hkids m hm).2.2

/-- A node that is replaced by a text gives way to a new node. -/
theorem Sound.givesWay_replaceByText (h : s.Sound) (hparent : s.parent n = some p)
    (content : Text) (guarded : Bool) :
    ∃ s', s.replaceByText n content guarded = .ok (s', s.size) ∧
      s.GivesWay n p [s.size] s' ∧ s'.payload s.size = .text content guarded := by
  obtain ⟨hn, hp⟩ := h.lt_size hparent
  have hne : n ≠ p := by
    rintro rfl
    exact h.not_below_child hparent .refl
  obtain ⟨s', heq, hsize, hrecord⟩ := record_replaceByText hparent hn hp hne content guarded
  have hnew := hrecord s.size
  rw [if_pos rfl] at hnew
  refine ⟨s', heq, ?_, by rw [payload, hnew]⟩
  constructor
  · exact hparent
  · exact fun m hm => Or.inr (Nat.le_of_eq (List.mem_singleton.mp hm).symm)
  · exact List.nodup_singleton _
  · have hold : s.size ∉ s.children n := fun hmem =>
      Nat.lt_irrefl _ (h.lt_size (h.mem_children_iff.mp hmem)).1
    have hall : (s.children n).filter (· ∉ [s.size]) = s.children n := by
      refine List.filter_eq_self.mpr fun c hc => decide_eq_true fun heq => ?_
      exact hold (List.mem_singleton.mp heq ▸ hc)
    rw [hrecord n, if_neg (Nat.ne_of_lt hn), if_pos rfl, hall]
    rfl
  · rw [hrecord p, if_neg (Nat.ne_of_lt hp), if_neg (Ne.symm hne), if_pos rfl]
  · intro m hm
    obtain rfl := List.mem_singleton.mp hm
    have hnone : s.children s.size = [] := by
      rw [children, record_of_size_le (Nat.le_refl _)]
      rfl
    exact ⟨by rw [parent, hnew], by rw [hnone, children, hnew], by rw [isDestroyed, hnew],
      fun hlt => absurd hlt (Nat.lt_irrefl _)⟩
  · intro m hmn hmp hm
    rw [hrecord m, if_neg fun heq => hm (List.mem_singleton.mpr heq), if_neg hmn, if_neg hmp]
  · exact hsize ▸ Nat.le_succ _
  · intro m hm
    obtain rfl := List.mem_singleton.mp hm
    exact hsize ▸ Nat.lt_succ_self _

theorem Sound.detach (h : s.Sound) (n : NodeId) : (s.detach n).Sound := by
  cases hparent : s.parent n with
  | none => rwa [Store.detach, hparent]
  | some p => exact (h.givesWay_detach hparent).sound h

theorem Sound.parent_detach (h : s.Sound) (n m : NodeId) :
    (s.detach n).parent m = if m = n then none else s.parent m := by
  cases hparent : s.parent n with
  | none =>
    have hsame : s.detach n = s := by rw [Store.detach, hparent]
    rw [hsame]
    split
    · next hm => rw [hm, hparent]
    · rfl
  | some p => rw [(h.givesWay_detach hparent).parent_eq h, if_neg List.not_mem_nil]

end Wikitext.Store

/-
  Wikitext/Proofs/Store/Growth.lean
  =================================
  **Stores that grow.**  A tree is added to a store node by node: each new node knows its parent
  at once, and is put among its children when all of these are there.  Until then it is waiting
  (`Store.AgreesBut`).  When a tree has been added its root alone is waiting (`agrees_insert`), so
  the store of a document is sound (`sound_ofDocument`), and so is a sound store to which a tree is
  added (`Sound.append`).  The way up from the added tree is that of its parent and one step more
  (`Sound.reaches_append_size`).
-/
import Wikitext.Proofs.Store.Document
import Wikitext.Proofs.Store.Sound

namespace Wikitext.Store

open Labelled

variable {s s' : Store} {n p : NodeId} {ids waiting : List NodeId}

/-! ### A new node -/

theorem parent_push (s : Store) (r : Record) (m : NodeId) :
    (s.push r).parent m = if m = s.size then r.parent else s.parent m := by
  rw [parent, record_push]
  split <;> rfl

theorem children_push (s : Store) (r : Record) (m : NodeId) :
    (s.push r).children m = if m = s.size then r.children else s.children m := by
  rw [children, record_push]
  split <;> rfl

theorem payload_push (s : Store) (r : Record) (m : NodeId) :
    (s.push r).payload m = if m = s.size then r.payload else s.payload m := by
  rw [payload, record_push]
  split <;> rfl

theorem isDestroyed_push (s : Store) (r : Record) (m : NodeId) :
    (s.push r).isDestroyed m = if m = s.size then r.destroyed else s.isDestroyed m := by
  rw [isDestroyed, record_push]
  split <;> rfl

theorem isDestroyed_push_of_alive {m : NodeId} (r : Record) (hm : s.isDestroyed m = false) :
    (s.push r).isDestroyed m = false := by
  rw [isDestroyed_push, if_neg (Nat.ne_of_lt (lt_size_of_not_destroyed hm)), hm]

namespace AgreesBut

/-- Only which nodes are waiting matters. -/
theorem congr {waiting' : List NodeId} (h : s.AgreesBut waiting)
    (hsame : ∀ c, c ∈ waiting' ↔ c ∈ waiting) : s.AgreesBut waiting' where
  stays := h.stays
  top := h.top
  child := fun p c => by rw [h.child p c, hsame c]
  nodup := h.nodup
  alive := h.alive
  leaf := h.leaf
  ranked := h.ranked

/-- A new node is waiting. -/
theorem push (h : s.AgreesBut waiting) (hp : s.isDestroyed p = false) (content : Payload) :
    (s.push ⟨content, some p, [], false⟩).AgreesBut (s.size :: waiting) := by
  have hplt := lt_size_of_not_destroyed hp
  constructor
  · exact isDestroyed_push_of_alive _ h.stays
  · rw [parent_push, if_neg (Nat.ne_of_lt (lt_size_of_not_destroyed h.stays)), h.top]
  · intro q c
    have hchildren : (s.push ⟨content, some p, [], false⟩).children q = s.children q := by
      rw [children_push]
      split
      · next hq =>
        rw [hq, children, record_of_size_le (Nat.le_refl _)]
        rfl
      · rfl
    rw [hchildren, h.child q c, parent_push]
    by_cases hc : c = s.size
    · have hnone : s.parent s.size ≠ some q := fun hlink =>
        Nat.lt_irrefl _ (h.lt_size hlink).1
      simp [hc, hnone]
    · simp [hc]
  · intro q
    rw [children_push]
    split
    · exact List.nodup_nil
    · exact h.nodup q
  · intro c q hlink
    rw [parent_push] at hlink
    rw [isDestroyed_push]
    split at hlink
    · next hc =>
      obtain rfl := Option.some.inj hlink
      exact ⟨if_pos hc, isDestroyed_push_of_alive _ hp⟩
    · next hc =>
      rw [if_neg hc]
      exact (h.alive c q hlink).imp_right (isDestroyed_push_of_alive _)
  · intro m hleaf
    rw [payload_push] at hleaf
    rw [children_push]
    by_cases hm : m = s.size
    · rw [if_pos hm]
    · rw [if_neg hm] at hleaf ⊢
      exact h.leaf m hleaf
  · obtain ⟨rank, hrank, hbound⟩ := h.ranked
    have hgrows : s.size < (s.push ⟨content, some p, [], false⟩).size := by
      rw [size_push]
      exact Nat.lt_succ_self _
    refine ranked_of_grown hbound hplt (Nat.le_of_lt hgrows) fun c q hlink => ?_
    rw [parent_push] at hlink
    split at hlink
    · next hc =>
      exact Or.inr ⟨Nat.le_of_eq hc.symm, hc ▸ hgrows, (Option.some.inj hlink).symm⟩
    · exact Or.inl ⟨(h.lt_size hlink).1, (h.lt_size hlink).2, hrank c q hlink⟩

/-- Nodes that are put among the children of their parent no longer wait. -/
theorem hang (h : s.AgreesBut (ids ++ waiting)) (hnodup : ids.Nodup)
    (hids : ∀ c ∈ ids, s.parent c = some p ∧ c ∉ waiting)
    (helement : (s.payload p).isElement = true)
    (howner : s'.record p = { s.record p with children := s.children p ++ ids })
    (hframe : ∀ m, m ≠ p → s'.record m = s.record m) (hsize : s'.size = s.size) :
    s'.AgreesBut waiting := by
  have hparent : ∀ m, s'.parent m = s.parent m := by
    intro m
    by_cases hm : m = p
    · rw [hm, parent, howner]
      rfl
    · rw [parent, hframe m hm]
      rfl
  have hdestroyed : ∀ m, s'.isDestroyed m = s.isDestroyed m := by
    intro m
    by_cases hm : m = p
    · rw [hm, isDestroyed, howner]
      rfl
    · rw [isDestroyed, hframe m hm]
      rfl
  have hchildren : ∀ m, m ≠ p → s'.children m = s.children m := fun m hm => by
    rw [children, hframe m hm]
    rfl
  have hown : s'.children p = s.children p ++ ids := by rw [children, howner]
  constructor
  · rw [hdestroyed]
    exact h.stays
  · rw [hparent]
    exact h.top
  · intro q c
    rw [hparent]
    by_cases hq : q = p
    · rw [hq, hown, List.mem_append, h.child p c, List.mem_append, not_or]
      constructor
      · rintro (⟨hlink, -, hc⟩ | hc)
        · exact ⟨hlink, hc⟩
        · exact hids c hc
      · rintro ⟨hlink, hc⟩
        by_cases hin : c ∈ ids
        · exact Or.inr hin
        · exact Or.inl ⟨hlink, hin, hc⟩
    · rw [hchildren q hq, h.child q c, List.mem_append, not_or]
      refine and_congr_right fun hlink => and_iff_right fun hc => hq ?_
      exact Option.some.inj (hlink.symm.trans (hids c hc).1)
  · intro q
    by_cases hq : q = p
    · rw [hq, hown]
      refine List.nodup_append.mpr ⟨h.nodup p, hnodup, ?_⟩
      rintro c hc d hd rfl
      exact ((h.child p c).mp hc).2 (List.mem_append_left _ hd)
    · rw [hchildren q hq]
      exact h.nodup q
  · intro c q
    rw [hparent, hdestroyed, hdestroyed]
    exact h.alive c q
  · intro m hleaf
    by_cases hm : m = p
    · rw [hm, payload, howner] at hleaf
      exact absurd hleaf (ne_false_of_eq_true helement)
    · rw [payload, hframe m hm] at hleaf
      rw [hchildren m hm]
      exact h.leaf m hleaf
  · obtain ⟨rank, hrank, hbound⟩ := h.ranked
    refine ⟨rank, fun c q => ?_, hsize ▸ hbound⟩
    rw [hparent]
    exact hrank c q

/-- New nodes among the children of a node that had none. -/
theorem modify_children (h : s.AgreesBut (ids ++ waiting)) (hnodup : ids.Nodup)
    (hids : ∀ c ∈ ids, s.parent c = some p ∧ c ∉ waiting)
    (helement : (s.payload p).isElement = true) (hp : p < s.size) {f : Record → Record}
    (hf : f (s.record p) = { s.record p with children := s.children p ++ ids }) :
    (s.modify p f).AgreesBut waiting := by
  refine h.hang hnodup hids helement ?_ (fun m hm => ?_) (size_modify ..)
  · rw [record_modify, if_pos ⟨rfl, hp⟩, hf]
  · rw [record_modify, if_neg fun heq => hm heq.1]

end AgreesBut

/-! ### Adding trees -/

/-- The nodes that were added are new children of their parent. -/
theorem Added.of_mem_map {ts : List Labelled} (h : Added s p ts s') {c : NodeId}
    (hc : c ∈ ts.map label) : s'.parent c = some p ∧ s.size ≤ c := by
  refine ⟨?_, h.fresh c (mem_labelsAll_of_mem_map hc)⟩
  obtain ⟨t, ht, rfl⟩ := List.mem_map.mp hc
  have hheld : ∀ {us : List Labelled}, s'.HoldsAll p us → t ∈ us → s'.Holds p t := by
    intro us hus hmem
    induction us with
    | nil => cases hmem
    | cons u us ih =>
      rcases List.mem_cons.mp hmem with rfl | hmem
      · exact hus.1
      · exact ih hus.2 hmem
  exact (parent_of_holds (hheld h.held ht)).1

theorem Added.isDestroyed {ts : List Labelled} (h : Added s p ts s')
    (hn : s.isDestroyed n = false) : s'.isDestroyed n = false := by
  rw [Store.isDestroyed, h.frame n (lt_size_of_not_destroyed hn)]
  exact hn

mutual
/-- When a tree has been added its root alone is waiting. -/
theorem agrees_insert : ∀ (node : Node) {s : Store} {p : NodeId} {waiting : List NodeId},
    s.AgreesBut waiting → s.isDestroyed p = false → (∀ c ∈ waiting, c < s.size) →
      (s.insert (some p) node).1.AgreesBut (s.size :: waiting)
  | .text content guarded, s, p, waiting, h, hp, _ => h.push hp _
  | .special kind content, s, p, waiting, h, hp, _ => h.push hp _
  | .element name attributes children, s, p, waiting, h, hp, hwaiting => by
    let before := s.push ⟨.element name attributes, some p, [], false⟩
    have hsize : before.size = s.size + 1 := size_push ..
    have hself : before.record s.size = ⟨.element name attributes, some p, [], false⟩ := by
      rw [record_push, if_pos rfl]
    have hlt : ∀ c ∈ s.size :: waiting, c < before.size := by
      intro c hc
      rw [hsize]
      rcases List.mem_cons.mp hc with rfl | hc
      · exact Nat.lt_succ_self _
      · exact Nat.lt_succ_of_lt (hwaiting c hc)
    have hall := agrees_insertAll children (h.push hp (.element name attributes))
      (p := s.size) (by rw [Store.isDestroyed, hself]) hlt
    obtain ⟨ts, -, hids, hadded⟩ := added_insertAll children before s.size
    have hrecord : (before.insertAll s.size children).1.record s.size =
        ⟨.element name attributes, some p, [], false⟩ := by
      rw [hadded.frame s.size (hlt _ (List.mem_cons_self ..)), hself]
    refine hall.modify_children ?_ ?_ ?_ ?_ ?_
    · rw [hids]
      exact nodup_map_label hadded.nodup
    · intro c hc
      rw [hids] at hc
      obtain ⟨hlink, hge⟩ := hadded.of_mem_map hc
      exact ⟨hlink, fun hin => absurd (hlt c hin) (Nat.not_lt.mpr hge)⟩
    · rw [payload, hrecord]
      rfl
    · exact Nat.lt_of_lt_of_le (hlt _ (List.mem_cons_self ..)) hadded.grows
    · rw [Store.children, hrecord]
      rfl

theorem agrees_insertAll : ∀ (nodes : List Node) {s : Store} {p : NodeId}
    {waiting : List NodeId}, s.AgreesBut waiting → s.isDestroyed p = false →
      (∀ c ∈ waiting, c < s.size) →
        (s.insertAll p nodes).1.AgreesBut ((s.insertAll p nodes).2 ++ waiting)
  | [], s, p, waiting, h, _, _ => h
  | node :: nodes, s, p, waiting, h, hp, hwaiting => by
    obtain ⟨t, -, hid, hadded⟩ := added_insert node s p
    have hnew : (s.insert (some p) node).2 = s.size := by cases node <;> rfl
    have hlt : ∀ c ∈ s.size :: waiting, c < (s.insert (some p) node).1.size := by
      intro c hc
      rcases List.mem_cons.mp hc with rfl | hc
      · rw [← hnew, hid]
        exact lt_size_of_holds hadded.held.1 _ (label_mem_labels t)
      · exact Nat.lt_of_lt_of_le (hwaiting c hc) hadded.grows
    have hrest := agrees_insertAll nodes (agrees_insert node h hp hwaiting)
      (hadded.isDestroyed hp) hlt
    have hall : (s.insertAll p (node :: nodes)).2 =
        s.size :: ((s.insert (some p) node).1.insertAll p nodes).2 := by
      rw [← hnew]
      rfl
    refine hrest.congr fun c => ?_
    rw [hall]
    simp only [List.cons_append, List.mem_cons, List.mem_append]
    exact or_left_comm
end

/-- The store of a document is sound. -/
theorem sound_ofDocument (document : List Node) : (ofDocument document).Sound := by
  let before : Store := ⟨#[⟨.document [], none, [], false⟩]⟩
  have hrecord : ∀ m, before.record m =
      if m = root then ⟨.document [], none, [], false⟩ else .absent := by
    intro m
    by_cases hm : m = root
    · rw [if_pos hm, hm]
      rfl
    · rw [if_neg hm]
      exact record_of_size_le (Nat.pos_of_ne_zero hm)
  have hchildren : ∀ m, before.children m = [] := fun m => by
    rw [children, hrecord]
    split <;> rfl
  have hparent : ∀ m, before.parent m = none := fun m => by
    rw [parent, hrecord]
    split <;> rfl
  have hempty : before.AgreesBut [] := by
    constructor
    · rfl
    · exact hparent root
    · simp [hchildren, hparent]
    · simp [hchildren]
    · simp [hparent]
    · simp [hchildren]
    · exact ⟨fun _ => 0, by simp [hparent], fun _ => Nat.zero_le _⟩
  obtain ⟨ts, -, hids, hadded⟩ := added_insertAll document before root
  have hroot : (before.insertAll root document).1.record root = before.record root :=
    hadded.frame root Nat.zero_lt_one
  refine (agrees_insertAll document hempty rfl (by simp)).modify_children ?_ ?_ ?_ ?_ ?_
  · rw [hids]
    exact nodup_map_label hadded.nodup
  · intro c hc
    rw [hids] at hc
    exact ⟨(hadded.of_mem_map hc).1, List.not_mem_nil⟩
  · rw [payload, hroot]
    rfl
  · exact Nat.lt_of_lt_of_le Nat.zero_lt_one hadded.grows
  · rw [children, hroot]
    rfl

theorem parent_modifyChildren (s : Store) (n m : NodeId) (f : List NodeId → List NodeId) :
    (s.modifyChildren n f).parent m = s.parent m := by
  rw [parent, modifyChildren, record_modify]
  split
  · next h => rw [h.1, parent]
  · rfl

theorem insert_snd (s : Store) (parent : Option NodeId) (node : Node) :
    (s.insert parent node).2 = s.size := by
  cases node <;> rfl

/-- Adding a tree to an element keeps a store sound. -/
theorem Sound.append (h : s.Sound) (hn : s.isDestroyed n = false)
    (helement : (s.payload n).isElement = true) (node : Node) : (s.append n node).Sound := by
  have hlt := lt_size_of_not_destroyed hn
  obtain ⟨t, -, hid, hadded⟩ := added_insert node s n
  have hnew := insert_snd s (some n) node
  have hagrees : (s.insert (some n) node).1.AgreesBut ([s.size] ++ []) :=
    agrees_insert node h hn (by simp)
  refine hagrees.modify_children (List.nodup_singleton _) ?_ ?_ ?_ ?_
  · intro c hc
    rw [List.mem_singleton.mp hc, ← hnew, hid]
    exact ⟨(parent_of_holds hadded.held.1).1, List.not_mem_nil⟩
  · rw [payload, hadded.frame n hlt]
    exact helement
  · exact Nat.lt_of_lt_of_le hlt hadded.grows
  · rw [hnew]
    rfl

/-! ### The way up from what was added -/

variable {top m : NodeId} {fuel : Nat}

theorem parent_append (n : NodeId) (node : Node) (hm : m < s.size) :
    (s.append n node).parent m = s.parent m := by
  obtain ⟨t, -, -, hadded⟩ := added_insert node s n
  have hold : (s.insert (some n) node).1.parent m = s.parent m := by
    rw [parent, hadded.frame m hm]
    rfl
  rw [← hold, append, parent_modifyChildren]

theorem parent_append_size (s : Store) (n : NodeId) (node : Node) :
    (s.append n node).parent s.size = some n := by
  obtain ⟨t, -, hid, hadded⟩ := added_insert node s n
  rw [append, parent_modifyChildren, ← insert_snd s (some n) node, hid]
  exact (parent_of_holds hadded.held.1).1

/-- The ways up from nodes that were there stay as they were. -/
theorem Sound.reaches_append (h : s.Sound) (n : NodeId) (node : Node) (hm : m < s.size) :
    (s.append n node).reaches top fuel (some m) = s.reaches top fuel (some m) := by
  induction fuel generalizing m with
  | zero => rfl
  | succ fuel ih =>
    rw [reaches, reaches, parent_append n node hm]
    cases hparent : s.parent m with
    | none => rw [reaches_none, reaches_none]
    | some q => rw [ih (h.lt_size hparent).2]

/-- The way up from a tree that was added goes through its parent. -/
theorem Sound.reaches_append_size (h : s.Sound) (hn : n < s.size) (node : Node)
    (htop : top < s.size) : (s.append n node).reaches top (fuel + 1) (some s.size) =
      s.reaches top fuel (some n) := by
  have hne : (s.size == top) = false := beq_eq_false_iff_ne.mpr (Nat.ne_of_gt htop)
  rw [reaches, parent_append_size, h.reaches_append n node hn, hne, Bool.false_or]

end Wikitext.Store

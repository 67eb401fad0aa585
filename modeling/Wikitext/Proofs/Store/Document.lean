/-
  Wikitext/Proofs/Store/Document.lean
  ===================================
  **The store of a document.**  Adding a tree to a store gives its nodes new identities and
  touches no record that was there; so the store of a document holds the document as one row
  below the root (`row_ofDocument`), and of any store with such a row the view as a document and
  the nodes below the root can be read off it.
-/
import Wikitext.Proofs.Store.Row

namespace Wikitext.Store

open Labelled

/-! ### Adding trees -/

/-- The store `s'` has the trees `ts` below `p` beyond what `s` has: their nodes are distinct
and new, and the records of `s` are as they were. -/
structure Added (s : Store) (p : NodeId) (ts : List Labelled) (s' : Store) : Prop where
  held : s'.HoldsAll p ts
  nodup : (labelsAll ts).Nodup
  fresh : ∀ n ∈ labelsAll ts, s.size ≤ n
  frame : ∀ m, m < s.size → s'.record m = s.record m
  grows : s.size ≤ s'.size

variable {s s' s'' : Store} {p : NodeId} {ts us : List Labelled}

theorem Added.append (h : Added s p ts s') (h' : Added s' p us s'') :
    Added s p (ts ++ us) s'' := by
  have hlt : ∀ n ∈ labelsAll ts, n < s'.size := lt_size_of_holdsAll h.held
  constructor
  · exact holdsAll_append.mpr ⟨h.held.congr fun m hm => h'.frame m (hlt m hm), h'.held⟩
  · rw [labelsAll_append]
    refine List.nodup_append.mpr ⟨h.nodup, h'.nodup, ?_⟩
    rintro n hn m hm rfl
    exact absurd (hlt n hn) (Nat.not_lt.mpr (h'.fresh n hm))
  · intro n hn
    rw [labelsAll_append] at hn
    rcases List.mem_append.mp hn with hn | hn
    · exact h.fresh n hn
    · exact Nat.le_trans h.grows (h'.fresh n hn)
  · intro m hm
    rw [h'.frame m (Nat.lt_of_lt_of_le hm h.grows), h.frame m hm]
  · exact Nat.le_trans h.grows h'.grows

theorem added_leaf {payload : Payload} {t : Labelled} (hlabels : labelsAll [t] = [s.size])
    (hheld : ∀ s' : Store, s'.record s.size = ⟨payload, some p, [], false⟩ → s'.Holds p t) :
    Added s p [t] (s.push ⟨payload, some p, [], false⟩) where
  held := ⟨hheld _ (by rw [record_push, if_pos rfl]), trivial⟩
  nodup := by rw [hlabels]; simp
  fresh := by
    intro n hn
    rw [hlabels, List.mem_singleton] at hn
    exact Nat.le_of_eq hn.symm
  frame := fun m hm => by rw [record_push, if_neg (Nat.ne_of_lt hm)]
  grows := by simp

mutual
theorem added_insert : ∀ (node : Node) (s : Store) (p : NodeId), ∃ t : Labelled,
    t.node = node ∧ (s.insert (some p) node).2 = t.label ∧
      Added s p [t] (s.insert (some p) node).1
  | .text content guarded, s, p =>
    ⟨.text s.size content guarded, rfl, rfl, added_leaf rfl fun _ h => h⟩
  | .special kind content, s, p =>
    ⟨.special s.size kind content, rfl, rfl, added_leaf rfl fun _ h => h⟩
  | .element name attributes children, s, p => by
    let before := s.push ⟨.element name attributes, some p, [], false⟩
    obtain ⟨ts, hnodes, hids, hadded⟩ := added_insertAll children before s.size
    refine ⟨.element s.size name attributes ts, by rw [Labelled.node, hnodes], rfl, ?_⟩
    have hinsert : (s.insert (some p) (.element name attributes children)).1 =
        (before.insertAll s.size children).1.modify s.size fun r =>
          { r with children := (before.insertAll s.size children).2 } := rfl
    have hsize : before.size = s.size + 1 := size_push s _
    have hrecord : ∀ m, ((s.insert (some p) (.element name attributes children)).1).record m =
        if m = s.size then ⟨.element name attributes, some p, ts.map label, false⟩
        else (before.insertAll s.size children).1.record m := by
      intro m
      have hself : (before.insertAll s.size children).1.record s.size =
          ⟨.element name attributes, some p, [], false⟩ := by
        rw [hadded.frame s.size (by omega), record_push, if_pos rfl]
      have hlt : s.size < (before.insertAll s.size children).1.size :=
        Nat.lt_of_lt_of_le (by omega) hadded.grows
      rw [hinsert, record_modify]
      by_cases hm : m = s.size
      · simp [hm, hlt, hself, hids]
      · simp [hm]
    have hnew : ∀ m ∈ labelsAll ts, m ≠ s.size := fun m hm =>
      Nat.ne_of_gt (Nat.lt_of_lt_of_le (by omega) (hadded.fresh m hm))
    constructor
    · refine ⟨⟨by rw [hrecord, if_pos rfl], hadded.held.congr fun m hm => ?_⟩, trivial⟩
      rw [hrecord m, if_neg (hnew m hm)]
    · simp only [labelsAll, labels, List.append_nil, List.nodup_cons]
      exact ⟨fun hin => hnew _ hin rfl, hadded.nodup⟩
    · intro n hn
      rcases (by simpa [labelsAll, labels] using hn : n = s.size ∨ n ∈ labelsAll ts) with hn | hn
      · exact Nat.le_of_eq hn.symm
      · exact Nat.le_trans (by omega) (hadded.fresh n hn)
    · intro m hm
      rw [hrecord m, if_neg (Nat.ne_of_lt hm), hadded.frame m (by omega), record_push,
        if_neg (Nat.ne_of_lt hm)]
    · rw [hinsert, size_modify]
      exact Nat.le_trans (by omega) hadded.grows

theorem added_insertAll : ∀ (nodes : List Node) (s : Store) (p : NodeId), ∃ ts : List Labelled,
    Labelled.nodes ts = nodes ∧ (s.insertAll p nodes).2 = ts.map label ∧
      Added s p ts (s.insertAll p nodes).1
  | [], s, p => ⟨[], rfl, rfl, trivial, List.nodup_nil, by simp [labelsAll], fun _ _ => rfl,
      Nat.le_refl _⟩
  | node :: nodes, s, p => by
    obtain ⟨t, hnode, hid, hadded⟩ := added_insert node s p
    obtain ⟨ts, hnodes, hids, hadded'⟩ := added_insertAll nodes (s.insert (some p) node).1 p
    refine ⟨t :: ts, by rw [Labelled.nodes, hnode, hnodes], ?_, hadded.append hadded'⟩
    have hinsert : (s.insertAll p (node :: nodes)).2 =
        (s.insert (some p) node).2 :: ((s.insert (some p) node).1.insertAll p nodes).2 := rfl
    rw [hinsert, hid, hids, List.map_cons]
end

/-! ### The root -/

/-- The store of a document holds the document as the children of the root. -/
theorem row_ofDocument (nodes : List Node) : ∃ ts : List Labelled, Labelled.nodes ts = nodes ∧
    (ofDocument nodes).Row root [] ts [] ∧ (ofDocument nodes).payload root = .document [] ∧
      (ofDocument nodes).parent root = none := by
  let before : Store := ⟨#[⟨.document [], none, [], false⟩]⟩
  obtain ⟨ts, hnodes, hids, hadded⟩ := added_insertAll nodes before root
  have hstore : ofDocument nodes = (before.insertAll root nodes).1.modify root fun r =>
      { r with children := (before.insertAll root nodes).2 } := rfl
  have hsize : before.size = 1 := rfl
  have hroot : (ofDocument nodes).record root = ⟨.document [], none, ts.map label, false⟩ := by
    have hself : (before.insertAll root nodes).1.record root = before.record root :=
      hadded.frame root Nat.zero_lt_one
    have hlt : root < (before.insertAll root nodes).1.size :=
      Nat.lt_of_lt_of_le Nat.zero_lt_one hadded.grows
    rw [hstore, record_modify, if_pos ⟨rfl, hlt⟩, hself, hids]
    rfl
  have hother : ∀ m ∈ labelsAll ts, m ≠ root := fun m hm =>
    Nat.ne_of_gt (Nat.lt_of_lt_of_le Nat.zero_lt_one (hadded.fresh m hm))
  refine ⟨ts, hnodes, ?_, by rw [payload, hroot], by rw [parent, hroot]⟩
  constructor
  · rw [hstore, size_modify]
    exact Nat.lt_of_lt_of_le Nat.zero_lt_one hadded.grows
  · simp
  · rw [children, hroot]; simp
  · refine hadded.held.congr fun m hm => ?_
    rw [hstore, record_modify, if_neg fun h => hother m hm h.1]
  · exact hadded.nodup
  · exact fun m hm => ⟨hother m hm, List.not_mem_nil, List.not_mem_nil⟩

/-! ### Reading a whole row -/

theorem Row.children_eq (h : s.Row p [] ts []) : s.children p = ts.map label := by
  simpa using h.children

theorem Row.length_le (h : s.Row p [] ts []) : (labelsAll ts).length ≤ s.size :=
  length_le_size h.nodup fun _ hn => h.lt_size hn

/-- The nodes below the owner of a row that has all its children. -/
theorem descendants_of_row (h : s.Row p [] ts []) : s.descendants p = labelsAll ts := by
  rw [descendants, preorderTo, List.tail_cons, h.children_eq]
  exact preorderTo_of_holdsAll h.held h.length_le

/-- The trees below the owner of a row that has all its children. -/
theorem trees_of_row (h : s.Row p [] ts []) {fuel : Nat} (hfuel : s.size ≤ fuel) :
    (s.children p).map (s.treeTo fuel) = Labelled.nodes ts := by
  rw [h.children_eq]
  exact treeTo_of_holdsAll h.held (Nat.le_trans h.length_le hfuel)

theorem document_of_row (h : s.Row root [] ts []) : s.document = Labelled.nodes ts :=
  trees_of_row h (Nat.le_succ _)

end Wikitext.Store

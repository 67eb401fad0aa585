/-
  Wikitext/Proofs/Store/Row.lean
  ==============================
  **Edits of a row of siblings.**  A row is a stretch of the children of a node, together with
  the trees that the store holds there.  Each edit of a child turns one row into another and
  leaves every record outside the row alone, except that the owner of the row gets new
  children; `Store.Rewrites` says so.  Rewritings follow one another (`Rewrites.trans`), stand
  side by side (`Rewrites.append`) and go on below an element (`Rewrites.nest`), so
  what a whole walk does is put together from what single edits do.
-/
import Wikitext.Proofs.Store.Labelled

namespace Wikitext.Store

open Labelled

/-- The trees `ts` are children of `p`, next to each other, with `left` before them and
`right` after them; all are in the store, the nodes of `ts` are distinct, and none of these
is `p` or one of the others. -/
structure Row (s : Store) (p : NodeId) (left : List NodeId) (ts : List Labelled)
    (right : List NodeId) : Prop where
  present : p < s.size
  beside : ∀ n, n ∈ left ∨ n ∈ right → n < s.size
  children : s.children p = left ++ ts.map label ++ right
  held : s.HoldsAll p ts
  nodup : (labelsAll ts).Nodup
  apart : ∀ n ∈ labelsAll ts, n ≠ p ∧ n ∉ left ∧ n ∉ right

/-- The row `ts` of `s` has become the row `us` of `s'`.  Nodes of `us` are those of `ts` or
new ones, and nothing outside the row has changed but the children of its owner. -/
structure Rewrites (p : NodeId) (left right : List NodeId) (s : Store) (ts : List Labelled)
    (s' : Store) (us : List Labelled) : Prop where
  row : s'.Row p left us right
  fresh : ∀ n ∈ labelsAll us, n ∈ labelsAll ts ∨ s.size ≤ n
  frame : ∀ m, m < s.size → m ≠ p → m ∉ labelsAll ts → s'.record m = s.record m
  owner : s'.record p = { s.record p with children := s'.children p }
  grows : s.size ≤ s'.size

variable {s s' s'' : Store} {p n : NodeId} {left right : List NodeId} {ts us vs : List Labelled}

/-! ### Putting rewritings together -/

theorem Rewrites.refl (h : s.Row p left ts right) : Rewrites p left right s ts s ts where
  row := h
  fresh := fun _ hn => Or.inl hn
  frame := fun _ _ _ _ => rfl
  owner := rfl
  grows := Nat.le_refl _

theorem Rewrites.trans (h : Rewrites p left right s ts s' us)
    (h' : Rewrites p left right s' us s'' vs) : Rewrites p left right s ts s'' vs where
  row := h'.row
  fresh := by
    intro n hn
    rcases h'.fresh n hn with hn | hn
    · exact h.fresh n hn
    · exact Or.inr (Nat.le_trans h.grows hn)
  frame := by
    intro m hm hp hts
    have hus : m ∉ labelsAll us := by
      intro hmem
      rcases h.fresh m hmem with hin | hge
      · exact hts hin
      · exact absurd hm (Nat.not_lt.mpr hge)
    rw [h'.frame m (Nat.lt_of_lt_of_le hm h.grows) hp hus, h.frame m hm hp hts]
  owner := by rw [h'.owner, h.owner]
  grows := Nat.le_trans h.grows h'.grows

theorem Rewrites.payload (h : Rewrites p left right s ts s' us) :
    s'.payload p = s.payload p := by
  rw [Store.payload, h.owner]; rfl

theorem Rewrites.parent (h : Rewrites p left right s ts s' us) :
    s'.parent p = s.parent p := by
  rw [Store.parent, h.owner]; rfl

theorem Row.lt_size (h : s.Row p left ts right) {n : NodeId} (hn : n ∈ labelsAll ts) :
    n < s.size :=
  lt_size_of_holdsAll h.held n hn

/-- A row is rewritten by a change of records when its owner has the new children, the new
trees are held, and all other records are as before. -/
theorem Row.rewrites (h : s.Row p left ts right)
    (howner : s'.record p = { s.record p with children := left ++ us.map label ++ right })
    (hheld : s'.HoldsAll p us) (hnodup : (labelsAll us).Nodup)
    (hfresh : ∀ n ∈ labelsAll us, n ∈ labelsAll ts ∨ s.size ≤ n)
    (hframe : ∀ m, m < s.size → m ≠ p → m ∉ labelsAll ts → s'.record m = s.record m)
    (hgrows : s.size ≤ s'.size) : Rewrites p left right s ts s' us where
  row := by
    have hchildren : s'.children p = left ++ us.map label ++ right := by
      rw [Store.children, howner]
    refine ⟨Nat.lt_of_lt_of_le h.present hgrows, ?_, hchildren, hheld, hnodup, ?_⟩
    · exact fun m hm => Nat.lt_of_lt_of_le (h.beside m hm) hgrows
    · intro m hm
      rcases hfresh m hm with hts | hge
      · exact h.apart m hts
      · have hnew : ∀ k, k < s.size → m ≠ k := fun k hk hmk =>
          absurd (hmk ▸ hk) (Nat.not_lt.mpr hge)
        exact ⟨hnew p h.present, fun hin => hnew m (h.beside m (Or.inl hin)) rfl,
          fun hin => hnew m (h.beside m (Or.inr hin)) rfl⟩
  fresh := hfresh
  frame := hframe
  owner := by rw [Store.children, howner]
  grows := hgrows

/-- The first part of a row is a row; the labels of the second part stand to its right. -/
theorem Row.first (h : s.Row p left (ts ++ us) right) :
    s.Row p left ts (us.map label ++ right) where
  present := h.present
  beside := by
    intro n hn
    rcases hn with hn | hn
    · exact h.beside n (Or.inl hn)
    · rcases List.mem_append.mp hn with hn | hn
      · exact h.lt_size (by simp [mem_labelsAll_of_mem_map hn])
      · exact h.beside n (Or.inr hn)
  children := by rw [h.children]; simp
  held := (holdsAll_append.mp h.held).1
  nodup := (List.nodup_append.mp (labelsAll_append ts us ▸ h.nodup)).1
  apart := by
    have hnodup := List.nodup_append.mp (labelsAll_append ts us ▸ h.nodup)
    intro n hn
    have hmem : n ∈ labelsAll (ts ++ us) := by simp [hn]
    obtain ⟨hp, hleft, hright⟩ := h.apart n hmem
    refine ⟨hp, hleft, ?_⟩
    intro hin
    rcases List.mem_append.mp hin with hin | hin
    · exact hnodup.2.2 n hn n (mem_labelsAll_of_mem_map hin) rfl
    · exact hright hin

/-- When the first part of a row has been rewritten, the second part is a row still. -/
theorem Row.second (h : s.Row p left (ts ++ us) right)
    (h' : Rewrites p left (us.map label ++ right) s ts s' vs) :
    s'.Row p (left ++ vs.map label) us right where
  present := h'.row.present
  beside := by
    intro n hn
    rcases hn with hn | hn
    · rcases List.mem_append.mp hn with hn | hn
      · exact h'.row.beside n (Or.inl hn)
      · exact h'.row.lt_size (mem_labelsAll_of_mem_map hn)
    · exact h'.row.beside n (Or.inr (List.mem_append_right _ hn))
  children := by rw [h'.row.children]; simp
  held := by
    have hnodup := List.nodup_append.mp (labelsAll_append ts us ▸ h.nodup)
    refine (holdsAll_append.mp h.held).2.congr fun m hm => ?_
    have hmem : m ∈ labelsAll (ts ++ us) := by simp [hm]
    exact h'.frame m (h.lt_size hmem) (h.apart m hmem).1
      fun hin => hnodup.2.2 m hin m hm rfl
  nodup := (List.nodup_append.mp (labelsAll_append ts us ▸ h.nodup)).2.1
  apart := by
    have hnodup := List.nodup_append.mp (labelsAll_append ts us ▸ h.nodup)
    intro n hn
    have hmem : n ∈ labelsAll (ts ++ us) := by simp [hn]
    obtain ⟨hp, hleft, hright⟩ := h.apart n hmem
    refine ⟨hp, ?_, hright⟩
    intro hin
    rcases List.mem_append.mp hin with hin | hin
    · exact hleft hin
    · rcases h'.fresh n (mem_labelsAll_of_mem_map hin) with hts | hge
      · exact hnodup.2.2 n hts n hn rfl
      · exact absurd (h.lt_size hmem) (Nat.not_lt.mpr hge)

/-- Two rewritings side by side, one after the other. -/
theorem Rewrites.append {us' : List Labelled} (h : s.Row p left (ts ++ us) right)
    (first : Rewrites p left (us.map label ++ right) s ts s' vs)
    (second : Rewrites p (left ++ vs.map label) right s' us s'' us') :
    Rewrites p left right s (ts ++ us) s'' (vs ++ us') := by
  have hnodup := List.nodup_append.mp (labelsAll_append ts us ▸ h.nodup)
  -- a node of the first part belongs neither to the second part nor to what is new after it
  have hfirst : ∀ n ∈ labelsAll vs, n < s'.size ∧ n ∉ labelsAll us := by
    intro n hn
    refine ⟨first.row.lt_size hn, fun hin => ?_⟩
    rcases first.fresh n hn with hts | hge
    · exact hnodup.2.2 n hts n hin rfl
    · have hmem : n ∈ labelsAll (ts ++ us) := by simp [hin]
      exact absurd (h.lt_size hmem) (Nat.not_lt.mpr hge)
  constructor
  · refine ⟨second.row.present, ?_, ?_, ?_, ?_, ?_⟩
    · intro n hn
      refine second.row.beside n (hn.imp (fun hn => List.mem_append_left _ hn) fun hn => hn)
    · rw [second.row.children]; simp
    · refine holdsAll_append.mpr ⟨first.row.held.congr fun m hm => ?_, second.row.held⟩
      exact second.frame m (hfirst m hm).1 (first.row.apart m hm).1 (hfirst m hm).2
    · rw [labelsAll_append]
      refine List.nodup_append.mpr ⟨first.row.nodup, second.row.nodup, ?_⟩
      rintro n hn m hm rfl
      rcases second.fresh n hm with hus | hge
      · exact (hfirst n hn).2 hus
      · exact absurd (hfirst n hn).1 (Nat.not_lt.mpr hge)
    · intro n hn
      rw [labelsAll_append] at hn
      rcases List.mem_append.mp hn with hn | hn
      · obtain ⟨hp, hleft, hright⟩ := first.row.apart n hn
        exact ⟨hp, hleft, fun hin => hright (List.mem_append_right _ hin)⟩
      · obtain ⟨hp, hleft, hright⟩ := second.row.apart n hn
        exact ⟨hp, fun hin => hleft (List.mem_append_left _ hin), hright⟩
  · intro n hn
    rw [labelsAll_append] at hn ⊢
    rcases List.mem_append.mp hn with hn | hn
    · rcases first.fresh n hn with hts | hge
      · exact Or.inl (List.mem_append_left _ hts)
      · exact Or.inr hge
    · rcases second.fresh n hn with hus | hge
      · exact Or.inl (List.mem_append_right _ hus)
      · exact Or.inr (Nat.le_trans first.grows hge)
  · intro m hm hp hmem
    rw [labelsAll_append, List.mem_append, not_or] at hmem
    rw [second.frame m (Nat.lt_of_lt_of_le hm first.grows) hp hmem.2,
      first.frame m hm hp hmem.1]
  · rw [second.owner, first.owner]
  · exact Nat.le_trans first.grows second.grows

/-! ### Going down -/

variable {name : String} {attributes : Attributes} {children : List Labelled}

/-- The children of an element are a row of its own. -/
theorem Row.inner (h : s.Row p left [.element n name attributes children] right) :
    s.Row n [] children [] where
  present := h.lt_size (by simp [labelsAll, labels])
  beside := by simp
  children := by
    have hn := h.held.1.1
    simp [Store.children, hn]
  held := h.held.1.2
  nodup := by
    have hnodup := h.nodup
    simp only [labelsAll, labels, List.append_nil, List.nodup_cons] at hnodup
    exact hnodup.2
  apart := by
    have hnodup := h.nodup
    simp only [labelsAll, labels, List.append_nil, List.nodup_cons] at hnodup
    intro m hm
    refine ⟨?_, List.not_mem_nil, List.not_mem_nil⟩
    rintro rfl
    exact hnodup.1 hm

/-- Rewriting the children of an element rewrites the element. -/
theorem Rewrites.nest (h : s.Row p left [.element n name attributes ts] right)
    (below : Rewrites n [] [] s ts s' us) :
    Rewrites p left right s [.element n name attributes ts] s'
      [.element n name attributes us] := by
  have hn : s.record n = _ := h.held.1.1
  have hchildren : s'.children n = us.map label := by simpa using below.row.children
  have hlabels : ∀ {m : NodeId} {cs : List Labelled},
      m ∈ labelsAll [.element n name attributes cs] ↔ m = n ∨ m ∈ labelsAll cs := by
    intro m cs; simp [labelsAll, labels]
  have hrecord : s'.record p = s.record p := by
    refine below.frame p h.present ?_ ?_
    · exact fun hp => (h.apart n (hlabels.mpr (Or.inl rfl))).1 hp.symm
    · exact fun hp => (h.apart p (hlabels.mpr (Or.inr hp))).1 rfl
  refine h.rewrites ?_ ⟨⟨?_, below.row.held⟩, trivial⟩ ?_ ?_ ?_ below.grows
  · have hp : s.children p = left ++ [n] ++ right := h.children
    rw [hrecord, List.map_singleton, label, ← hp]; rfl
  · rw [below.owner, hn, hchildren]
  · simp only [labelsAll, labels, List.append_nil, List.nodup_cons]
    exact ⟨fun hin => (below.row.apart n hin).1 rfl, below.row.nodup⟩
  · intro m hm
    rw [hlabels] at hm ⊢
    rcases hm with hm | hm
    · exact Or.inl (Or.inl hm)
    · exact (below.fresh m hm).imp Or.inr fun hge => hge
  · intro m hm hp hmem
    rw [hlabels, not_or] at hmem
    exact below.frame m hm hmem.1 hmem.2

end Wikitext.Store

/-
  Wikitext/Proofs/Store/Edit.lean
  ===============================
  **What single edits do.**  For every edit that preparation uses there are two statements.  One
  says what becomes of each record (`record_detach`, `record_unwrap`, `record_replaceByText`,
  `record_setPayload`), and nothing else unfolds an edit.  The other says it of a row, in the
  language of `Store.Rewrites`: a node that is taken out or destroyed leaves nothing
  (`rewrites_detach`, `rewrites_delete`), an element that gives way leaves its children
  (`rewrites_unwrap`), a text leaves the new text, in its own node or in a new one
  (`rewrites_replaceText`).
-/
import Wikitext.Proofs.Store.Row
import Wikitext.Store.Edit

namespace Wikitext.Store

open Labelled

variable {s : Store} {p n : NodeId} {left right : List NodeId}

/-! ### Lists of children -/

theorem erase_between (hn : n ∉ left) : (left ++ [n] ++ right).erase n = left ++ right := by
  rw [List.append_assoc, List.erase_append_right _ hn]
  simp

theorem spliceChild_of_not_mem {new cs : List NodeId} (h : n ∉ cs) :
    spliceChild n new cs = cs := by
  induction cs with
  | nil => rfl
  | cons c cs ih =>
    rw [List.mem_cons, not_or] at h
    rw [spliceChild, List.flatMap_cons, if_neg (Ne.symm h.1)]
    exact congrArg (c :: ·) (ih h.2)

theorem spliceChild_between {new : List NodeId} (hl : n ∉ left) (hr : n ∉ right) :
    spliceChild n new (left ++ [n] ++ right) = left ++ new ++ right := by
  have hsplit : spliceChild n new (left ++ [n] ++ right) =
      spliceChild n new left ++ new ++ spliceChild n new right := by
    simp [spliceChild]
  rw [hsplit, spliceChild_of_not_mem hl, spliceChild_of_not_mem hr]

/-! ### Records after runs of edits -/

@[simp] theorem size_foldl_modify (f : Record → Record) (ns : List NodeId) :
    (ns.foldl (fun s m => s.modify m f) s).size = s.size := by
  induction ns generalizing s with
  | nil => rfl
  | cons n ns ih => rw [List.foldl_cons, ih, size_modify]

theorem record_foldl_modify (f : Record → Record) {ns : List NodeId} (hnodup : ns.Nodup)
    (hsize : ∀ n ∈ ns, n < s.size) (m : NodeId) :
    (ns.foldl (fun s m => s.modify m f) s).record m =
      if m ∈ ns then f (s.record m) else s.record m := by
  induction ns generalizing s with
  | nil => simp
  | cons n ns ih =>
    obtain ⟨hn, hnodup⟩ := List.nodup_cons.mp hnodup
    have hlt : n < s.size := hsize n (List.mem_cons_self ..)
    rw [List.foldl_cons, ih hnodup fun k hk => by
      rw [size_modify]; exact hsize k (List.mem_cons_of_mem _ hk)]
    rw [record_modify]
    by_cases hmn : m = n
    · subst hmn
      simp [hn, hlt]
    · simp [hmn]

/-! ### What single edits do to records -/

/-- Taking a node out changes its own record and that of its parent. -/
theorem record_detach (hparent : s.parent n = some p) (hn : n < s.size) (hp : p < s.size)
    (hne : n ≠ p) (m : NodeId) : (s.detach n).record m =
      if m = n then { s.record m with parent := none }
      else if m = p then { s.record m with children := (s.children p).erase n }
      else s.record m := by
  by_cases hm : m = n
  · simp [detach, hparent, setParent, modifyChildren, record_modify, hm, hn, hne]
  · by_cases hmp : m = p
    · simp [detach, hparent, setParent, modifyChildren, record_modify, hmp, Ne.symm hne, hp,
        children]
    · simp [detach, hparent, setParent, modifyChildren, record_modify, hm, hmp]

@[simp] theorem size_detach (s : Store) (n : NodeId) : (s.detach n).size = s.size := by
  rw [detach]
  split <;> simp [setParent, modifyChildren]

/-- A node that gives way to its children loses them, and they are its parent's. -/
theorem record_unwrap (hparent : s.parent n = some p) (hn : n < s.size) (hp : p < s.size)
    (hne : n ≠ p) (hnodup : (s.children n).Nodup)
    (hkids : ∀ m ∈ s.children n, m ≠ n ∧ m ≠ p ∧ m < s.size) :
    ∃ s', s.unwrap n = .ok s' ∧ s'.size = s.size ∧ ∀ m, s'.record m =
      if m = n then { s.record m with parent := none, children := [] }
      else if m = p then
        { s.record m with children := spliceChild n (s.children n) (s.children p) }
      else if m ∈ s.children n then { s.record m with parent := some p }
      else s.record m := by
  -- the store before the children get their new parent
  let t := (s.modifyChildren p (spliceChild n (s.children n))).modify n fun r =>
    { r with parent := none, children := [] }
  let u := (s.children n).foldl (fun s m => s.modify m fun r => { r with parent := some p }) t
  have hsize : t.size = s.size := by simp [t, modifyChildren]
  have hrecord : ∀ m, u.record m =
      if m ∈ s.children n then { t.record m with parent := some p } else t.record m :=
    record_foldl_modify _ hnodup fun m hm => by rw [hsize]; exact (hkids m hm).2.2
  refine ⟨u, by rw [unwrap, hparent]; rfl, by simp [u, hsize], fun m => ?_⟩
  rw [hrecord m]
  by_cases hm : m = n
  · have hnot : n ∉ s.children n := fun hmem => (hkids n hmem).1 rfl
    subst hm
    rw [if_neg hnot, if_pos rfl]
    simp [t, modifyChildren, record_modify, hne, hn]
  · by_cases hmp : m = p
    · have hnot : p ∉ s.children n := fun hmem => (hkids p hmem).2.1 rfl
      subst hmp
      rw [if_neg hnot, if_neg hm, if_pos rfl]
      simp [t, modifyChildren, record_modify, hm, hp, children]
    · simp [t, modifyChildren, record_modify, hm, hmp]

/-- A node that gives way to a new text: the text is the youngest node. -/
theorem record_replaceByText (hparent : s.parent n = some p) (hn : n < s.size) (hp : p < s.size)
    (hne : n ≠ p) (content : Text) (guarded : Bool) :
    ∃ s', s.replaceByText n content guarded = .ok (s', s.size) ∧ s'.size = s.size + 1 ∧
      ∀ m, s'.record m =
        if m = s.size then ⟨.text content guarded, some p, [], false⟩
        else if m = n then { s.record m with parent := none }
        else if m = p then { s.record m with children := spliceChild n [s.size] (s.children p) }
        else s.record m := by
  let new : Record := ⟨.text content guarded, some p, [], false⟩
  let s' := ((s.push new).modifyChildren p (spliceChild n [s.size])).setParent n none
  refine ⟨s', by rw [replaceByText, hparent], by simp [s', setParent, modifyChildren],
    fun m => ?_⟩
  by_cases hnew : m = s.size
  · simp [s', setParent, modifyChildren, record_modify, record_push, hnew, new,
      Ne.symm (Nat.ne_of_lt hn), Ne.symm (Nat.ne_of_lt hp)]
  · by_cases hm : m = n
    · subst hm
      simp [s', setParent, modifyChildren, record_modify, record_push, hnew, hne,
        Nat.lt_succ_of_lt hn]
    · by_cases hmp : m = p
      · subst hmp
        simp [s', setParent, modifyChildren, record_modify, record_push, hnew, hm, children,
          Nat.lt_succ_of_lt hp]
      · simp [s', setParent, modifyChildren, record_modify, record_push, hnew, hm, hmp]

theorem record_setPayload (hsize : n < s.size) (content : Payload) (m : NodeId) :
    (s.setPayload n content).record m =
      if m = n then { s.record m with payload := content } else s.record m := by
  by_cases hm : m = n
  · simp [setPayload, record_modify, hm, hsize]
  · simp [setPayload, record_modify, hm]

/-! ### Rows of one node -/

/-- A row of one node: the node is in the store, below `p`, and stands nowhere else. -/
theorem Row.single {t : Labelled} (h : s.Row p left [t] right) (hn : t.label = n) :
    s.parent n = some p ∧ n < s.size ∧ n ≠ p ∧ n ∉ left ∧ n ∉ right ∧
      s.children p = left ++ [n] ++ right := by
  subst hn
  have hmem : t.label ∈ labelsAll [t] := by simp [labelsAll, label_mem_labels]
  obtain ⟨hp, hl, hr⟩ := h.apart _ hmem
  exact ⟨(parent_of_holds h.held.1).1, h.lt_size hmem, hp, hl, hr, h.children⟩

/-- The record of the owner of a row, apart from its children. -/
theorem record_owner_eq {cs : List NodeId} (h : s.children p = cs) :
    s.record p = { s.record p with children := cs } := by
  rw [← h]; rfl

/-- A node that is taken out leaves nothing. -/
theorem rewrites_detach {t : Labelled} (h : s.Row p left [t] right) (hn : t.label = n) :
    Rewrites p left right s [t] (s.detach n) [] := by
  obtain ⟨hparent, hsize, hne, hl, _, hchildren⟩ := h.single hn
  have hrecord := record_detach hparent hsize h.present hne
  rw [hchildren, erase_between hl] at hrecord
  refine h.rewrites ?_ trivial List.nodup_nil (by simp [labelsAll]) ?_ ?_
  · rw [hrecord p, if_neg (Ne.symm hne), if_pos rfl]
    simp
  · intro m _ hmp hmem
    have hm : m ≠ n := by
      rintro rfl
      exact hmem (by simp [labelsAll, ← hn, label_mem_labels])
    rw [hrecord m, if_neg hm, if_neg hmp]
  · exact Nat.le_of_eq (size_detach s n).symm

/-- An element that is destroyed leaves nothing, and its nodes are destroyed. -/
theorem rewrites_delete {name : String} {attributes : Attributes} {children : List Labelled}
    (h : s.Row p left [.element n name attributes children] right) :
    Rewrites p left right s [.element n name attributes children] (s.delete n) [] ∧
      ∀ m ∈ labels (.element n name attributes children), (s.delete n).isDestroyed m = true := by
  have hout := rewrites_detach h (n := n) rfl
  have hnodup : (labels (.element n name attributes children)).Nodup := by
    simpa [labelsAll] using h.nodup
  have hmem : ∀ {m}, m ∈ labelsAll [.element n name attributes children] ↔
      m ∈ labels (.element n name attributes children) := by
    intro m; simp [labelsAll]
  have hn : s.record n = _ := h.held.1.1
  have hlen : (labels (.element n name attributes children)).length ≤ s.size + 1 :=
    Nat.le_succ_of_le (length_le_size hnodup fun m hm => h.lt_size (hmem.mpr hm))
  have hbelow : n :: s.descendants n = labels (.element n name attributes children) := by
    have := preorderTo_of_holds h.held.1 hlen
    rw [descendants, show n = label (.element n name attributes children) from rfl, this]
    rfl
  have hdelete : s.delete n = (labels (.element n name attributes children)).foldl
      (fun s m => s.modify m ruin) (s.detach n) := by
    rw [delete, ← hbelow, if_pos (by simp [payload, hn, Payload.isElement])]
  have hrecord : ∀ m, (s.delete n).record m =
      if m ∈ labels (.element n name attributes children) then ruin ((s.detach n).record m)
      else (s.detach n).record m := by
    intro m
    rw [hdelete]
    refine record_foldl_modify ruin hnodup (fun k hk => ?_) m
    exact Nat.lt_of_lt_of_le (h.lt_size (hmem.mpr hk)) hout.grows
  constructor
  · refine h.rewrites ?_ trivial List.nodup_nil (by simp [labelsAll]) ?_ ?_
    · have hp : p ∉ labels (.element n name attributes children) :=
        fun hp => (h.apart p (hmem.mpr hp)).1 rfl
      rw [hrecord p, if_neg hp, hout.owner, hout.row.children]
    · intro m hm hmp hnot
      rw [hrecord m, if_neg (mt hmem.mpr hnot)]
      exact hout.frame m hm hmp hnot
    · rw [hdelete, size_foldl_modify]
      exact hout.grows
  · intro m hm
    rw [isDestroyed, hrecord m, if_pos hm]; rfl

/-- A tree whose root is given another parent is held below that parent. -/
theorem Holds.adopt {s' : Store} {q : NodeId} {t : Labelled} (h : s.Holds q t)
    (hnodup : t.labels.Nodup)
    (hroot : s'.record t.label = { s.record t.label with parent := some p })
    (hrest : ∀ m ∈ t.labels, m ≠ t.label → s'.record m = s.record m) : s'.Holds p t := by
  cases t with
  | text n content guarded =>
    have hn : s.record n = _ := h
    exact hroot.trans (by rw [label, hn])
  | special n kind content =>
    have hn : s.record n = _ := h
    exact hroot.trans (by rw [label, hn])
  | element n name attributes children =>
    have hn : s.record n = _ := h.1
    refine ⟨hroot.trans (by rw [label, hn]), h.2.congr fun m hm => ?_⟩
    refine hrest m (List.mem_cons_of_mem _ hm) ?_
    rintro rfl
    exact (List.nodup_cons.mp hnodup).1 hm

theorem HoldsAll.adopt {s' : Store} {q : NodeId} {ts : List Labelled} (h : s.HoldsAll q ts)
    (hnodup : (labelsAll ts).Nodup)
    (hroots : ∀ m ∈ ts.map label, s'.record m = { s.record m with parent := some p })
    (hrest : ∀ m ∈ labelsAll ts, m ∉ ts.map label → s'.record m = s.record m) :
    s'.HoldsAll p ts := by
  induction ts with
  | nil => trivial
  | cons t ts ih =>
    obtain ⟨hfirst, hothers, hdisjoint⟩ := List.nodup_append.mp hnodup
    refine ⟨h.1.adopt hfirst (hroots _ (List.mem_cons_self ..)) ?_, ih h.2 hothers ?_ ?_⟩
    · intro m hm hne
      refine hrest m (List.mem_append_left _ hm) fun hin => ?_
      rcases List.mem_cons.mp hin with heq | hin
      · exact hne heq
      · exact hdisjoint m hm m (mem_labelsAll_of_mem_map hin) rfl
    · exact fun m hm => hroots m (List.mem_cons_of_mem _ hm)
    · intro m hm hnot
      refine hrest m (List.mem_append_right _ hm) fun hin => ?_
      rcases List.mem_cons.mp hin with heq | hin
      · exact hdisjoint m (heq ▸ label_mem_labels t) m hm rfl
      · exact hnot hin

/-- An element that gives way to its content leaves its children. -/
theorem rewrites_unwrap {name : String} {attributes : Attributes} {children : List Labelled}
    (h : s.Row p left [.element n name attributes children] right) :
    ∃ s', s.unwrap n = .ok s' ∧
      Rewrites p left right s [.element n name attributes children] s' children := by
  obtain ⟨hparent, hsize, hne, hl, hr, hchildren⟩ := h.single (n := n) rfl
  have hn : s.record n = _ := h.held.1.1
  have hmoved : s.children n = children.map label := by simp [Store.children, hn]
  have hinner := h.inner
  have hmem : ∀ {m}, m ∈ labelsAll [.element n name attributes children] ↔
      m = n ∨ m ∈ labelsAll children := by
    intro m; simp [labelsAll, labels]
  have hkids : ∀ m ∈ children.map label, m ≠ n ∧ m ≠ p ∧ m < s.size := by
    intro m hm
    have hm' := mem_labelsAll_of_mem_map hm
    exact ⟨(hinner.apart m hm').1, (h.apart m (hmem.mpr (Or.inr hm'))).1, hinner.lt_size hm'⟩
  have hnodup : (s.children n).Nodup := hmoved ▸ nodup_map_label hinner.nodup
  obtain ⟨s', heq, hsize', hrecord⟩ :=
    record_unwrap hparent hsize h.present hne hnodup (hmoved ▸ hkids)
  rw [hmoved, hchildren, spliceChild_between hl hr] at hrecord
  refine ⟨s', heq, h.rewrites ?_ ?_ hinner.nodup ?_ ?_ (Nat.le_of_eq hsize'.symm)⟩
  · rw [hrecord p, if_neg (Ne.symm hne), if_pos rfl]
  · refine hinner.held.adopt hinner.nodup ?_ ?_
    · intro m hm
      obtain ⟨hmn, hmp, _⟩ := hkids m hm
      rw [hrecord m, if_neg hmn, if_neg hmp, if_pos hm]
    · intro m hm hnot
      have hmn : m ≠ n := (hinner.apart m hm).1
      have hmp : m ≠ p := (h.apart m (hmem.mpr (Or.inr hm))).1
      rw [hrecord m, if_neg hmn, if_neg hmp, if_neg hnot]
  · exact fun m hm => Or.inl (hmem.mpr (Or.inr hm))
  · intro m _ hmp hnot
    rw [hmem, not_or] at hnot
    have hm : m ∉ children.map label := fun hm => hnot.2 (mem_labelsAll_of_mem_map hm)
    rw [hrecord m, if_neg hnot.1, if_neg hmp, if_neg hm]

/-- A node whose content changes stays where it is, and so does what is below it. -/
theorem Row.rewrites_setPayload {t t' : Labelled} {content : Payload}
    (h : s.Row p left [t] right) (hn : t.label = n) (hlabels : t'.labels = t.labels)
    (hheld : (s.setPayload n content).Holds p t') :
    Rewrites p left right s [t] (s.setPayload n content) [t'] := by
  obtain ⟨_, hsize, hne, _, _, hchildren⟩ := h.single hn
  have hall : labelsAll [t'] = labelsAll [t] := by simp [labelsAll, hlabels]
  have hroot : t'.label = n := by
    have hhead : t'.labels.head? = t.labels.head? := congrArg List.head? hlabels
    rw [head?_labels, head?_labels, hn] at hhead
    exact Option.some.inj hhead
  refine h.rewrites ?_ ⟨hheld, trivial⟩ (hall ▸ h.nodup) ?_ ?_ ?_
  · rw [record_setPayload hsize, if_neg (Ne.symm hne), List.map_singleton, hroot]
    exact record_owner_eq hchildren
  · exact fun m hm => Or.inl (hall ▸ hm)
  · intro m _ _ hnot
    have hm : m ≠ n := by
      rintro rfl
      exact hnot (by simp [labelsAll, ← hn, label_mem_labels])
    rw [record_setPayload hsize, if_neg hm]
  · simp [setPayload]

/-- An element that is given another name and other attributes keeps its children. -/
theorem rewrites_setPayload {name name' : String} {attributes attributes' : Attributes}
    {children : List Labelled} (h : s.Row p left [.element n name attributes children] right) :
    Rewrites p left right s [.element n name attributes children]
      (s.setPayload n (.element name' attributes')) [.element n name' attributes' children] := by
  obtain ⟨_, hsize, _⟩ := h.single (n := n) rfl
  have hn : s.record n = _ := h.held.1.1
  have hinner := h.inner
  refine h.rewrites_setPayload rfl rfl ⟨?_, ?_⟩
  · rw [record_setPayload hsize, if_pos rfl, hn]
  · refine hinner.held.congr fun m hm => ?_
    rw [record_setPayload hsize, if_neg (hinner.apart m hm).1]

/-- A text that is flagged keeps its node. -/
theorem rewrites_markGuarded {content : Text} {guarded : Bool}
    (h : s.Row p left [.text n content guarded] right) :
    Rewrites p left right s [.text n content guarded] (s.markGuarded n)
      [.text n content true] := by
  obtain ⟨_, hsize, _⟩ := h.single (n := n) rfl
  have hn : s.record n = _ := h.held.1
  have hmark : s.markGuarded n = s.setPayload n (.text content true) := by
    simp [markGuarded, payload, hn]
  rw [hmark]
  refine h.rewrites_setPayload rfl rfl ?_
  rw [Holds, record_setPayload hsize, if_pos rfl, hn]

/-- A new text in the place of a node. -/
theorem rewrites_replaceByText {t : Labelled} (h : s.Row p left [t] right) (hn : t.label = n)
    (content : Text) (guarded : Bool) :
    ∃ s', s.replaceByText n content guarded = .ok (s', s.size) ∧
      Rewrites p left right s [t] s' [.text s.size content guarded] := by
  obtain ⟨hparent, hsize, hne, hl, hr, hchildren⟩ := h.single hn
  obtain ⟨s', heq, hsize', hrecord⟩ :=
    record_replaceByText hparent hsize h.present hne content guarded
  rw [hchildren, spliceChild_between hl hr] at hrecord
  refine ⟨s', heq, h.rewrites ?_ ⟨?_, trivial⟩ ?_ ?_ ?_ (by rw [hsize']; exact Nat.le_succ _)⟩
  · rw [hrecord p, if_neg (Nat.ne_of_lt h.present), if_neg (Ne.symm hne), if_pos rfl]
    rfl
  · rw [Holds, hrecord s.size, if_pos rfl]
  · simp [labelsAll, labels]
  · intro m hm
    have hm' : m = s.size := by simpa [labelsAll, labels] using hm
    exact Or.inr (Nat.le_of_eq hm'.symm)
  · intro m hlt hmp hnot
    have hm : m ≠ n := by
      rintro rfl
      exact hnot (by simp [labelsAll, ← hn, label_mem_labels])
    rw [hrecord m, if_neg (Nat.ne_of_lt hlt), if_neg hm, if_neg hmp]

/-- A text that is given its final content: in its own node if it has that content already,
else in a new node. -/
theorem rewrites_replaceText {old : Text} {guarded : Bool}
    (h : s.Row p left [.text n old guarded] right) (content : Text) :
    ∃ s' m, s.replaceText n content = .ok (s', m) ∧
      Rewrites p left right s [.text n old guarded] s' [.text m content true] := by
  have hn : s.record n = _ := h.held.1
  have hpayload : s.payload n = .text old guarded := by simp [payload, hn]
  by_cases hold : old = content
  · subst hold
    exact ⟨s.markGuarded n, n, by simp [replaceText, hpayload], rewrites_markGuarded h⟩
  · obtain ⟨s', heq, hrewrites⟩ := rewrites_replaceByText h (n := n) rfl content true
    exact ⟨s', s.size, by simp [replaceText, hpayload, hold, heq], hrewrites⟩

end Wikitext.Store

/-
  Wikitext/Proofs/Store/Attachment.lean
  =====================================
  **Attachment along runs of edits.**  From the store of a document on, nodes are taken out,
  destroyed, unwrapped, replaced, added and prepared in any order, in the document and in what has
  been taken out of it.  Each of these edits keeps a store sound (`Edit.sound_apply`), so every
  store of a run is sound (`Reachable.sound`).  Hence walking up from a node and walking down from
  the document always agree on what is part of the document (`Reachable.attached_iff_found`).

  A walk up is bounded.  Only an edit that adds a tree lets a document nest deeper than it did
  (`Edit.nestsWithin_apply`).
-/
import Wikitext.Proofs.Store.Growth
import Wikitext.Proofs.Store.Keeping

namespace Wikitext.Store

open Session (afterEdit)

/-- An operation on a node. -/
inductive Edit where
  | detach
  | delete
  | unwrap
  | replaceText (content : Text)
  | append (node : Node)
  | stripNamedAnchor
  | stripFurniture
  | prepare (session : Session)

namespace Edit

/-- The store after an operation.  An operation that fails leaves what it did before it
failed. -/
def apply (s : Store) (n : NodeId) : Edit → Store
  | detach => s.detach n
  | delete => s.delete n
  | unwrap => afterEdit s (s.unwrap n)
  | replaceText content => afterEdit s ((s.replaceText n content).map Prod.fst)
  | append node => s.append n node
  | stripNamedAnchor => afterEdit s ((s.stripNamedAnchor n).map Prod.fst)
  | stripFurniture => (s.stripFurniture n).1
  | prepare session => (session.prepareBelow s n).1

/-- What an operation may be used on: the document is added to and prepared and nothing else, and
only elements are added to. -/
def Suits (s : Store) (n : NodeId) : Edit → Prop
  | append _ => (s.payload n).isElement = true
  | prepare _ => True
  | _ => n ≠ root

instance decidableSuits (s : Store) (n : NodeId) : (edit : Edit) → Decidable (edit.Suits s n)
  | append _ => inferInstanceAs (Decidable ((s.payload n).isElement = true))
  | prepare _ => inferInstanceAs (Decidable True)
  | detach => inferInstanceAs (Decidable (n ≠ root))
  | delete => inferInstanceAs (Decidable (n ≠ root))
  | unwrap => inferInstanceAs (Decidable (n ≠ root))
  | replaceText _ => inferInstanceAs (Decidable (n ≠ root))
  | stripNamedAnchor => inferInstanceAs (Decidable (n ≠ root))
  | stripFurniture => inferInstanceAs (Decidable (n ≠ root))

/-- Whether an operation adds a tree. -/
def Grows : Edit → Prop
  | append _ => True
  | _ => False

end Edit

/-- The stores that operations lead to from the store of a document.  Each is used on a node that
is not destroyed.  What is refused, and what does nothing, is no step. -/
inductive Reachable (document : List Node) : Store → Prop
  | start : Reachable document (ofDocument document)
  | step {s : Store} (h : Reachable document s) (edit : Edit) (n : NodeId)
      (alive : s.isDestroyed n = false) (suits : edit.Suits s n) :
      Reachable document (edit.apply s n)

variable {document : List Node} {s s' : Store} {n : NodeId} {k fuel : Nat}

/-! ### Single edits -/

/-- The store stays sound, and nothing stands further down than before. -/
structure Settles (s s' : Store) : Prop where
  sound : s'.Sound
  nests : ∀ k, s.NestsWithin k → s'.NestsWithin k

theorem Settles.refl (h : s.Sound) : Settles s s :=
  ⟨h, fun _ hnests => hnests⟩

theorem GivesWay.settles {p : NodeId} {ms : List NodeId} (h : s.Sound)
    (g : s.GivesWay n p ms s') : Settles s s' :=
  ⟨g.sound h, fun _ => g.nestsWithin h⟩

namespace Sound

theorem settles_delete (h : s.Sound) (hn : n < s.size) (hroot : n ≠ root) :
    Settles s (s.delete n) :=
  ⟨h.delete hn hroot, fun _ hnests => hnests.of_links fun _ _ => h.parent_of_delete hn⟩

theorem settles_unwrap (h : s.Sound) (n : NodeId) : Settles s (afterEdit s (s.unwrap n)) := by
  cases hunwrap : s.unwrap n with
  | error e => exact .refl h
  | ok s' =>
    obtain ⟨p, g⟩ := h.of_unwrap hunwrap
    exact g.settles h

theorem settles_replaceText (h : s.Sound) (n : NodeId) (content : Text) :
    Settles s (afterEdit s ((s.replaceText n content).map Prod.fst)) := by
  cases hreplace : s.replaceText n content with
  | error e => exact .refl h
  | ok edited =>
    change Settles s edited.1
    rcases h.of_replaceText hreplace with heq | heq | ⟨p, g⟩
    · rw [heq]
      exact .refl h
    · rw [heq]
      refine ⟨h.markGuarded n, fun _ hnests => hnests.of_links fun c p => ?_⟩
      exact fun hlink => (parent_markGuarded s n c).symm.trans hlink
    · exact g.settles h

theorem settles_stripNamedAnchor (h : s.Sound) (n : NodeId) :
    Settles s (afterEdit s ((s.stripNamedAnchor n).map Prod.fst)) := by
  rw [stripNamedAnchor]
  split
  · have hunwrap := h.settles_unwrap n
    cases hs : s.unwrap n with
    | error e => exact .refl h
    | ok s' =>
      rw [hs] at hunwrap
      exact hunwrap
  · exact .refl h

end Sound

namespace Edit

variable {edit : Edit}

/-- An operation that adds nothing settles a sound store. -/
theorem settles_apply (h : s.Sound) (halive : s.isDestroyed n = false) (hsuits : edit.Suits s n)
    (hgrows : ¬ edit.Grows) : Settles s (edit.apply s n) := by
  have hn := lt_size_of_not_destroyed halive
  cases edit with
  | detach =>
    exact ⟨h.detach n, fun _ hnests => hnests.of_links fun _ _ => h.parent_of_detach⟩
  | delete => exact h.settles_delete hn hsuits
  | unwrap => exact h.settles_unwrap n
  | replaceText content => exact h.settles_replaceText n content
  | append node => exact absurd trivial hgrows
  | stripNamedAnchor => exact h.settles_stripNamedAnchor n
  | stripFurniture =>
    change Settles s (s.stripFurniture n).1
    rw [Store.stripFurniture]
    split
    · exact h.settles_delete hn hsuits
    · exact .refl h
  | prepare session =>
    have hkeeps := Session.keeps_prepareBelow h session n
    exact ⟨hkeeps.sound, hkeeps.nests⟩

/-- Every operation keeps a store sound. -/
theorem sound_apply (h : s.Sound) (halive : s.isDestroyed n = false)
    (hsuits : edit.Suits s n) : (edit.apply s n).Sound := by
  by_cases hgrows : edit.Grows
  · cases edit with
    | append node => exact h.append halive hsuits node
    | _ => exact absurd hgrows id
  · exact (settles_apply h halive hsuits hgrows).sound

end Edit

/-! ### Runs -/

theorem Reachable.sound (h : Reachable document s) : s.Sound := by
  induction h with
  | start => exact sound_ofDocument document
  | step _ edit n halive hsuits ih => exact edit.sound_apply ih halive hsuits

/-- At any time a node is attached to the document exactly if it is found on one of the levels of
the document that a walk up looks at; so as long as the document nests no deeper than that, it is
attached exactly if it is the document or found below it, once.  No destroyed node is attached, and
only adding a tree makes the document nest deeper. -/
theorem Reachable.attached_iff_found (h : Reachable document s) :
    (∀ n, s.isAttached root n = true ↔ n ∈ s.preorderTo (maxHeight + 1) root) ∧
    (Node.heightAll s.document ≤ maxHeight → ∀ n,
      s.isAttached root n = true ↔ n = root ∨ (s.descendants root).count n = 1) ∧
    (root :: s.descendants root).Nodup ∧
    (∀ n, s.isDestroyed n = true → s.isAttached root n = false) ∧
    ∀ (edit : Edit) (n : NodeId), s.isDestroyed n = false → edit.Suits s n → ¬ edit.Grows →
      Node.heightAll (edit.apply s n).document ≤ Node.heightAll s.document := by
  have hs := h.sound
  refine ⟨fun n => hs.isAttached_root_iff, fun hheight n => ?_, hs.nodup_cons_descendants root,
    fun n hdestroyed => ?_, fun edit n halive hsuits hgrows => ?_⟩
  · have hmem : n ∈ s.preorderTo (maxHeight + 1) root ↔ s.Below root n :=
      ⟨hs.below_of_mem_preorderTo, fun hbelow =>
        hs.mem_preorderTo_iff.mpr (hs.nestsWithin_iff.mpr hheight n hbelow)⟩
    rw [hs.isAttached_root_iff, hmem, hs.count_descendants_iff]
    by_cases hn : n = root
    · simp [hn, Below, Relation.ReflTransGen.refl]
    · simp [hn]
  · rw [isAttached, hdestroyed]
    rfl
  · have hsettles := edit.settles_apply hs halive hsuits hgrows
    rw [← hsettles.sound.nestsWithin_iff]
    exact hsettles.nests _ (hs.nestsWithin_iff.mpr (Nat.le_refl _))

/-- A list with a named anchor, and a footer. -/
def page : List Node :=
  [.element "ul" [] [.element "li" [] [.text "a  a".toList false],
    .element "li" [] [.element "a" [⟨"name", .single "x".toList⟩] [.text "b".toList false]]],
    .element "div" [⟨"class", .list ["printfooter".toList]⟩] [.text "c".toList false]]

/-- The anchor gives way, its item is taken out and added to, its text is taken out of that, the
footer is destroyed, and the rest is prepared. -/
def edited : Store :=
  let s := Edit.apply (ofDocument page) 5 .stripNamedAnchor
  let s := Edit.apply s 4 .detach
  let s := Edit.apply s 6 .detach
  let s := Edit.apply s 4 (.append (.text "new".toList false))
  let s := Edit.apply s 7 .stripFurniture
  Edit.apply s root (.prepare (Session.mediaWiki {}))

theorem reachable_edited : Reachable page edited := by
  refine .step (.step (.step (.step (.step (.step .start .stripNamedAnchor 5 ?_ ?_)
    .detach 4 ?_ ?_) .detach 6 ?_ ?_) (.append (.text "new".toList false)) 4 ?_ ?_)
    .stripFurniture 7 ?_ ?_) (.prepare (Session.mediaWiki {})) root ?_ ?_
  all_goals decide +kernel

theorem attached_edited : Reachable page edited ∧ edited.descendants root = [1, 2, 10] ∧
    (∀ n, edited.isAttached root n = true ↔ n = root ∨ (edited.descendants root).count n = 1) ∧
    edited.isDestroyed 8 = true ∧ edited.isAttached root 8 = false := by
  have hheight : Node.heightAll edited.document ≤ maxHeight := by decide +kernel
  have hdestroyed : edited.isDestroyed 8 = true := by decide +kernel
  obtain ⟨-, hattached, -, hremoved, -⟩ := Reachable.attached_iff_found reachable_edited
  exact ⟨reachable_edited, by decide +kernel, hattached hheight, hdestroyed,
    hremoved 8 hdestroyed⟩

/-! ### Deep documents -/

/-- Below the empty document, `k` elements one in the other, each added to the one before. -/
def nested : Nat → Store
  | 0 => ofDocument []
  | k + 1 => Edit.apply (nested k) k (.append (.element "div" [] []))

theorem append_element (s : Store) (n : NodeId) (name : String) (attributes : Attributes) :
    s.append n (.element name attributes []) =
      ((s.push ⟨.element name attributes, some n, [], false⟩).modify s.size
        fun r => { r with children := [] }).modifyChildren n (· ++ [s.size]) :=
  rfl

theorem size_nested (k : Nat) : (nested k).size = k + 1 := by
  induction k with
  | zero => rfl
  | succ k ih => rw [nested, Edit.apply, append_element, modifyChildren, size_modify, size_modify,
      size_push, ih]

/-- The element that was added last can be added to. -/
theorem alive_nested (k : Nat) :
    ((nested k).payload k).isElement = true ∧ (nested k).isDestroyed k = false := by
  cases k with
  | zero => exact ⟨rfl, rfl⟩
  | succ k =>
    have hsize := size_nested k
    have hrecord : (nested (k + 1)).record (k + 1) = ⟨.element "div" [], some k, [], false⟩ := by
      rw [nested, Edit.apply, append_element, modifyChildren, record_modify,
        if_neg fun h => Nat.succ_ne_self k h.1, record_modify, size_push, hsize, record_push, hsize,
        if_pos rfl]
      simp
    rw [payload, isDestroyed, hrecord]
    exact ⟨rfl, rfl⟩

theorem reachable_nested (k : Nat) : Reachable [] (nested k) := by
  induction k with
  | zero => exact .start
  | succ k ih => exact ih.step _ k (alive_nested k).2 (alive_nested k).1

theorem reaches_nested_iff : (nested k).reaches root fuel (some k) = true ↔ k < fuel := by
  induction k generalizing fuel with
  | zero =>
    cases fuel with
    | zero => simp [reaches]
    | succ fuel => exact iff_of_true (reaches_succ.mpr (Or.inl rfl)) (Nat.succ_pos fuel)
  | succ k ih =>
    cases fuel with
    | zero => simp [reaches]
    | succ fuel =>
      have hsize := size_nested k
      have hk : k < (nested k).size := by rw [hsize]; exact Nat.lt_succ_self k
      have hroot : root < (nested k).size := Nat.lt_of_le_of_lt (Nat.zero_le k) hk
      have hstep : ((nested k).append k (.element "div" [] [])).reaches root (fuel + 1)
          (some (nested k).size) = (nested k).reaches root fuel (some k) :=
        (reachable_nested k).sound.reaches_append_size hk _ hroot
      rw [hsize] at hstep
      rw [nested, Edit.apply, hstep, ih, Nat.succ_lt_succ_iff]

/-- The innermost element is found below the document, however deep. -/
theorem count_nested (hk : k ≠ 0) : ((nested k).descendants root).count k = 1 :=
  (reachable_nested k).sound.count_descendants_iff.mpr
    ⟨below_of_reaches (reaches_nested_iff.mpr (Nat.lt_succ_self k)), hk⟩

/-- It is attached down to the depth that a walk up looks at. -/
theorem attached_nested_iff (k : Nat) : (nested k).isAttached root k = true ↔ k ≤ maxHeight := by
  rw [isAttached, (alive_nested k).2, Bool.not_false, Bool.true_and, reaches_nested_iff,
    Nat.lt_succ_iff]

/-- A document that does not nest deep at first can come to hold nodes that are not attached. -/
theorem not_forall_attached_iff_found : ¬ ∀ (document : List Node) (s : Store),
    Node.heightAll document < maxHeight → Reachable document s →
      ∀ n, s.isAttached root n = true ↔ n = root ∨ (s.descendants root).count n = 1 := by
  intro h
  have hfound := (h [] (nested (maxHeight + 1)) (Nat.succ_pos _) (reachable_nested _)
    (maxHeight + 1)).mpr (Or.inr (count_nested (Nat.succ_ne_zero _)))
  exact absurd ((attached_nested_iff _).mp hfound) (Nat.not_succ_le_self _)

end Wikitext.Store

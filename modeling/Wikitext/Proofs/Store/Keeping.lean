/-
  Wikitext/Proofs/Store/Keeping.lean
  ==================================
  **Edits below a node.**  Besides giving way a node may be destroyed with all that is below it,
  and it may change what it is; both keep a store sound (`Sound.delete`, `Sound.setPayload`).

  An edit of a node below `top` concerns what is below `top` and nothing else.
  `Store.KeepsOutside` says so, and such edits follow one another (`KeepsOutside.trans`), so what
  holds of each single edit holds of preparation, which is a sequence of them
  (`Session.keeps_prepareBelow`).
-/
import Wikitext.Proofs.Store.Nesting
import Wikitext.Proofs.Store.Preparation

namespace Wikitext

namespace Store

variable {s s' s'' : Store} {top n m p c : NodeId} {ms : List NodeId}

/-! ### Destroying -/

/-- A store stays sound when nodes are destroyed that are linked among themselves only. -/
theorem Sound.of_ruin (h : s.Sound) (lost : NodeId → Prop) (hroot : ¬ lost root)
    (hlinked : ∀ c p, s.parent c = some p → (lost c ↔ lost p))
    (hruin : ∀ m, lost m → s'.record m = ruin (s.record m))
    (hframe : ∀ m, ¬ lost m → s'.record m = s.record m) (hsize : s'.size = s.size) :
    s'.Sound := by
  have hparent : ∀ c p, s'.parent c = some p ↔ ¬ lost c ∧ s.parent c = some p := by
    intro c p
    by_cases hc : lost c
    · rw [parent, hruin c hc]
      simp [ruin, hc]
    · rw [parent, hframe c hc]
      simp [parent, hc]
  constructor
  · rw [isDestroyed, hframe root hroot]
    exact h.stays
  · rw [parent, hframe root hroot]
    exact h.top
  · intro p c
    rw [hparent, and_iff_left List.not_mem_nil]
    by_cases hp : lost p
    · rw [children, hruin p hp]
      simp only [ruin, List.not_mem_nil, false_iff, not_and]
      exact fun hc hlink => hc ((hlinked c p hlink).mpr hp)
    · rw [children, hframe p hp]
      refine h.mem_children_iff.trans (iff_and_self.mpr fun hlink hc => ?_)
      exact hp ((hlinked c p hlink).mp hc)
  · intro p
    by_cases hp : lost p
    · rw [children, hruin p hp]
      exact List.nodup_nil
    · rw [children, hframe p hp]
      exact h.nodup p
  · intro c p hlink
    obtain ⟨hc, hlink⟩ := (hparent c p).mp hlink
    rw [isDestroyed, isDestroyed, hframe c hc, hframe p (mt (hlinked c p hlink).mpr hc)]
    exact h.alive c p hlink
  · intro m hleaf
    by_cases hm : lost m
    · rw [children, hruin m hm]
      rfl
    · rw [payload, hframe m hm] at hleaf
      rw [children, hframe m hm]
      exact h.leaf m hleaf
  · obtain ⟨rank, hrank, hbound⟩ := h.ranked
    exact ⟨rank, fun c p hlink => hrank c p ((hparent c p).mp hlink).2, hsize ▸ hbound⟩

/-- Destroying an element destroys what is below it; otherwise it is taken out. -/
theorem Sound.record_delete (h : s.Sound) (hn : n < s.size)
    (helement : (s.payload n).isElement = true) (m : NodeId) :
    (s.Below n m → (s.delete n).record m = ruin ((s.detach n).record m)) ∧
      (¬ s.Below n m → (s.delete n).record m = (s.detach n).record m) := by
  have hdelete : s.delete n =
      (s.preorderTo (s.size + 1) n).foldl (fun s m => s.modify m ruin) (s.detach n) := by
    rw [delete, if_pos helement]
    rfl
  have hmem : ∀ {m}, m ∈ s.preorderTo (s.size + 1) n ↔ s.Below n m := h.mem_preorderTo_size_iff
  have hlt : ∀ m ∈ s.preorderTo (s.size + 1) n, m < (s.detach n).size := by
    intro m hm
    rw [size_detach]
    rcases Relation.ReflTransGen.cases_head (hmem.mp hm) with rfl | ⟨q, hq, -⟩
    · exact hn
    · exact (h.lt_size hq).1
  have hrecord := record_foldl_modify ruin h.nodup_preorderTo hlt m
  rw [← hdelete] at hrecord
  constructor
  · intro hbelow
    rw [hrecord, if_pos (hmem.mpr hbelow)]
  · intro hbelow
    rw [hrecord, if_neg (mt hmem.mp hbelow)]

theorem delete_of_not_isElement (hleaf : (s.payload n).isElement = false) :
    s.delete n = s.detach n := by
  rw [delete, hleaf]
  rfl

@[simp] theorem size_delete (s : Store) (n : NodeId) : (s.delete n).size = s.size := by
  rw [delete]
  split
  · rw [size_foldl_modify, size_detach]
  · rw [size_detach]

/-- Nothing that is below a node is linked to what is not, once the node is taken out. -/
theorem Sound.below_iff_of_parent_detach (h : s.Sound)
    (hlink : (s.detach n).parent c = some p) : s.Below n c ↔ s.Below n p := by
  rw [h.parent_detach] at hlink
  split at hlink
  · cases hlink
  · next hne =>
    constructor
    · intro hbelow
      rcases Relation.ReflTransGen.cases_head hbelow with heq | ⟨q, hq, hup⟩
      · exact absurd heq hne
      · exact Option.some.inj (hq.symm.trans hlink) ▸ hup
    · exact .head hlink

/-- Taking a node out cuts one link. -/
theorem Sound.parent_of_detach (h : s.Sound) (hlink : (s.detach n).parent c = some p) :
    s.parent c = some p := by
  rw [h.parent_detach] at hlink
  split at hlink
  · cases hlink
  · exact hlink

/-- Destroying cuts links and makes none. -/
theorem Sound.parent_of_delete (h : s.Sound) (hn : n < s.size)
    (hlink : (s.delete n).parent c = some p) : s.parent c = some p := by
  cases helement : (s.payload n).isElement with
  | false =>
    rw [delete_of_not_isElement helement] at hlink
    exact h.parent_of_detach hlink
  | true =>
    have hrecord := h.record_delete hn helement c
    rw [parent] at hlink
    by_cases hc : s.Below n c
    · rw [hrecord.1 hc] at hlink
      cases hlink
    · rw [hrecord.2 hc] at hlink
      exact h.parent_of_detach hlink

theorem Sound.delete (h : s.Sound) (hn : n < s.size) (hroot : n ≠ root) :
    (s.delete n).Sound := by
  cases helement : (s.payload n).isElement with
  | false =>
    rw [delete_of_not_isElement helement]
    exact h.detach n
  | true =>
    refine (h.detach n).of_ruin (s.Below n) ?_
      (fun c p => h.below_iff_of_parent_detach)
      (fun m => (h.record_delete hn helement m).1) (fun m => (h.record_delete hn helement m).2)
      (by rw [size_delete, size_detach])
    intro hbelow
    rcases Relation.ReflTransGen.cases_head hbelow with heq | ⟨q, hq, -⟩
    · exact hroot heq.symm
    · rw [h.top] at hq
      cases hq

/-! ### Changing what a node is -/

theorem below_congr (hparent : ∀ m, s'.parent m = s.parent m) :
    s'.Below top n ↔ s.Below top n := by
  simp only [Below, hparent]

theorem parent_setPayload (s : Store) (n : NodeId) (content : Payload) (m : NodeId) :
    (s.setPayload n content).parent m = s.parent m := by
  rw [parent, setPayload, record_modify]
  split
  · next hm => rw [hm.1]; rfl
  · rfl

/-- An element that becomes another element, or a text another text. -/
theorem Sound.setPayload (h : s.Sound) (hn : n < s.size) {content : Payload}
    (hkind : content.isElement = (s.payload n).isElement) : (s.setPayload n content).Sound := by
  have hrecord := record_setPayload hn content
  have hparent := parent_setPayload s n content
  have hchildren : ∀ m, (s.setPayload n content).children m = s.children m := by
    intro m
    rw [children, hrecord]
    split <;> rfl
  have hdestroyed : ∀ m, (s.setPayload n content).isDestroyed m = s.isDestroyed m := by
    intro m
    rw [isDestroyed, hrecord]
    split <;> rfl
  constructor
  · rw [hdestroyed]
    exact h.stays
  · rw [hparent]
    exact h.top
  · intro p c
    rw [hchildren, hparent]
    exact h.child p c
  · intro p
    rw [hchildren]
    exact h.nodup p
  · intro c p
    rw [hparent, hdestroyed, hdestroyed]
    exact h.alive c p
  · intro m hleaf
    rw [hchildren]
    refine h.leaf m ?_
    rw [payload, hrecord] at hleaf
    split at hleaf
    · next hm => exact hm ▸ hkind ▸ hleaf
    · exact hleaf
  · obtain ⟨rank, hrank, hbound⟩ := h.ranked
    refine ⟨rank, fun c p => ?_, ?_⟩
    · rw [hparent]
      exact hrank c p
    · rw [Store.setPayload, size_modify]
      exact hbound

/-! ### Edits below a node -/

/-- What is not below `top` is as it was, and so is `top` but for its children; nothing has come
from elsewhere, and nothing stands further down than before. -/
structure KeepsOutside (top : NodeId) (s s' : Store) : Prop where
  sound : s'.Sound
  frame : ∀ m, m < s.size → ¬ s.Below top m → s'.record m = s.record m
  owner : s'.record top = { s.record top with children := s'.children top }
  inside : ∀ m, m < s.size → s'.Below top m → s.Below top m
  nests : ∀ k, s.NestsWithin k → s'.NestsWithin k
  grows : s.size ≤ s'.size

namespace KeepsOutside

theorem refl (h : s.Sound) : KeepsOutside top s s :=
  ⟨h, fun _ _ _ => rfl, rfl, fun _ _ hbelow => hbelow, fun _ hnests => hnests, Nat.le_refl _⟩

theorem trans (k : KeepsOutside top s s') (k' : KeepsOutside top s' s'') :
    KeepsOutside top s s'' where
  sound := k'.sound
  frame := by
    intro m hm hbelow
    rw [k'.frame m (Nat.lt_of_lt_of_le hm k.grows) (mt (k.inside m hm) hbelow), k.frame m hm hbelow]
  owner := by rw [k'.owner, k.owner]
  inside := fun m hm hbelow =>
    k.inside m hm (k'.inside m (Nat.lt_of_lt_of_le hm k.grows) hbelow)
  nests := fun j hnests => k'.nests j (k.nests j hnests)
  grows := Nat.le_trans k.grows k'.grows

end KeepsOutside

/-- A node below `top` other than `top` has a parent there. -/
theorem Below.exists_parent (hbelow : s.Below top n) (hne : n ≠ top) :
    ∃ p, s.parent n = some p ∧ s.Below top p := by
  rcases Relation.ReflTransGen.cases_head hbelow with heq | ⟨p, hp, hup⟩
  · exact absurd heq hne
  · exact ⟨p, hp, hup⟩

namespace GivesWay

/-- Giving way changes nothing on the way up from the place. -/
theorem below_owner (h : s.Sound) (g : s.GivesWay n p ms s') (hbelow : s.Below top p) :
    s'.Below top p := by
  suffices hup : ∀ {q}, s.Below q p → s.Below top q → s'.Below top q from hup .refl hbelow
  intro q hq hbelow
  induction hbelow using Relation.ReflTransGen.head_induction_on with
  | refl => exact .refl
  | @head q r hlink _ ih =>
    have hr : s.Below r p := hq.tail hlink
    have hnot := h.not_below_child g.place
    have hqn : q ≠ n := by
      rintro rfl
      exact hnot hq
    have hms : q ∉ ms := by
      intro hmem
      have hparent := g.parent_of_mem hmem (h.lt_size hlink).1
      rw [hlink, Option.some.injEq] at hparent
      exact hnot (hparent ▸ hr)
    exact .head (by rw [g.parent_eq h, if_neg hms, if_neg hqn, hlink]) (ih hr)

theorem keeps (h : s.Sound) (g : s.GivesWay n p ms s') (hbelow : s.Below top n)
    (hne : n ≠ top) : KeepsOutside top s s' := by
  obtain ⟨hpn, hn, hp⟩ := g.distinct h
  obtain ⟨q, hq, hplace⟩ := hbelow.exists_parent hne
  obtain rfl : q = p := Option.some.inj (hq.symm.trans g.place)
  -- whoever takes the place was below `top`, or is new
  have htakers : ∀ m ∈ ms, m < s.size → s.Below top m := fun m hm hlt =>
    .head (g.parent_of_mem hm hlt) hbelow
  constructor
  · exact g.sound h
  · intro m hm hout
    refine g.frame m ?_ ?_ fun hmem => hout (htakers m hmem hm)
    · rintro rfl
      exact hout hbelow
    · rintro rfl
      exact hout hplace
  · by_cases htop : top = q
    · rw [htop, children, g.owner]
    · have hms : top ∉ ms := by
        intro hmem
        have htopn : s.parent top = some n :=
          g.parent_of_mem hmem ((Relation.ReflTransGen.cases_tail hbelow).elim
            (fun heq => absurd heq.symm hne) fun ⟨_, _, hlink⟩ => (h.lt_size hlink).2)
        exact h.not_below_child htopn hbelow
      rw [children, g.frame top (Ne.symm hne) htop hms]
  · intro m hm hbelow'
    induction hbelow' using Relation.ReflTransGen.head_induction_on with
    | refl => exact .refl
    | @head m r hlink _ ih =>
      rw [g.parent_eq h] at hlink
      split at hlink
      · next hmem => exact htakers m hmem hm
      · split at hlink
        · cases hlink
        · exact .head hlink (ih (h.lt_size hlink).2)
  · exact fun _ => g.nestsWithin h
  · exact g.grows

end GivesWay

namespace Sound

theorem keeps_detach (h : s.Sound) (hbelow : s.Below top n) (hne : n ≠ top) :
    KeepsOutside top s (s.detach n) := by
  obtain ⟨p, hparent, -⟩ := hbelow.exists_parent hne
  exact (h.givesWay_detach hparent).keeps h hbelow hne

theorem keeps_delete (h : s.Sound) (hbelow : s.Below top n) (hne : n ≠ top) :
    KeepsOutside top s (s.delete n) := by
  have k := h.keeps_detach hbelow hne
  cases helement : (s.payload n).isElement with
  | false => rwa [delete_of_not_isElement helement]
  | true =>
    obtain ⟨p, hparent, -⟩ := hbelow.exists_parent hne
    have hn := (h.lt_size hparent).1
    have hroot : n ≠ root := by
      rintro rfl
      rw [h.top] at hparent
      cases hparent
    have hrecord := h.record_delete hn helement
    constructor
    · exact h.delete hn hroot
    · intro m hm hout
      rw [(hrecord m).2 fun hup => hout (hup.trans hbelow), k.frame m hm hout]
    · rw [children, (hrecord top).2 fun hup => hne (h.below_antisymm hbelow hup)]
      exact k.owner
    · exact fun m _ => Relation.ReflTransGen.mono (fun _ _ => h.parent_of_delete hn) _ _
    · exact fun _ hnests => hnests.of_links fun _ _ => h.parent_of_delete hn
    · exact Nat.le_of_eq (size_delete s n).symm

theorem keeps_setPayload (h : s.Sound) (hbelow : s.Below top n) (hne : n ≠ top)
    {content : Payload} (hkind : content.isElement = (s.payload n).isElement) :
    KeepsOutside top s (s.setPayload n content) := by
  obtain ⟨p, hparent, -⟩ := hbelow.exists_parent hne
  have hn := (h.lt_size hparent).1
  have hrecord := record_setPayload hn content
  constructor
  · exact h.setPayload hn hkind
  · intro m _ hout
    rw [hrecord, if_neg]
    rintro rfl
    exact hout hbelow
  · rw [children, hrecord, if_neg (Ne.symm hne)]
  · exact fun m _ => (below_congr (parent_setPayload s n content)).mp
  · exact fun _ hnests => hnests.of_links fun c q => by rw [parent_setPayload]; exact id
  · exact Nat.le_of_eq (size_modify ..).symm

end Sound

/-! ### Edits that may fail -/

/-- A node is unwrapped only if it has a place, and then it gives way to its children. -/
theorem Sound.of_unwrap (h : s.Sound) (hs : s.unwrap n = .ok s') :
    ∃ p, s.GivesWay n p (s.children n) s' := by
  cases hparent : s.parent n with
  | none =>
    rw [unwrap, hparent] at hs
    cases hs
  | some p =>
    obtain ⟨s'', heq, g⟩ := h.givesWay_unwrap hparent
    obtain rfl := Except.ok.inj (heq.symm.trans hs)
    exact ⟨p, g⟩

/-- A node is replaced only if it has a place. -/
theorem Sound.of_replaceByText (h : s.Sound) {content : Text} {guarded : Bool}
    (hs : s.replaceByText n content guarded = .ok (s', m)) :
    m = s.size ∧ ∃ p, s.GivesWay n p [s.size] s' := by
  cases hparent : s.parent n with
  | none =>
    rw [replaceByText, hparent] at hs
    cases hs
  | some p =>
    obtain ⟨s'', heq, g, -⟩ := h.givesWay_replaceByText hparent content guarded
    obtain ⟨rfl, rfl⟩ := Prod.mk.inj (Except.ok.inj (heq.symm.trans hs))
    exact ⟨rfl, p, g⟩

/-- A text that is given its content stays as it is, is flagged, or gives way to a new text. -/
theorem Sound.of_replaceText (h : s.Sound) {content : Text}
    (hs : s.replaceText n content = .ok (s', m)) :
    s' = s ∨ s' = s.markGuarded n ∨ ∃ p, s.GivesWay n p [s.size] s' := by
  rw [replaceText] at hs
  split at hs
  · split at hs
    · obtain ⟨rfl, -⟩ := Prod.mk.inj (Except.ok.inj hs)
      exact Or.inr (Or.inl rfl)
    · exact Or.inr (Or.inr (h.of_replaceByText hs).2)
  · split at hs
    · obtain ⟨rfl, -⟩ := Prod.mk.inj (Except.ok.inj hs)
      exact Or.inl rfl
    · exact Or.inr (Or.inr (h.of_replaceByText hs).2)
  · exact Or.inr (Or.inr (h.of_replaceByText hs).2)

/-- Flagging a node changes a text into a text. -/
theorem markGuarded_cases (s : Store) (n : NodeId) : s.markGuarded n = s ∨
    ∃ content guarded, s.payload n = .text content guarded ∧
      s.markGuarded n = s.setPayload n (.text content true) := by
  rw [markGuarded]
  split
  · next content guarded hpayload => exact Or.inr ⟨content, guarded, hpayload, rfl⟩
  · exact Or.inl rfl

theorem parent_markGuarded (s : Store) (n m : NodeId) :
    (s.markGuarded n).parent m = s.parent m := by
  rcases markGuarded_cases s n with heq | ⟨content, guarded, -, heq⟩
  · rw [heq]
  · rw [heq, parent_setPayload]

theorem lt_size_of_payload_eq {content : Payload} (hpayload : s.payload n = content)
    (hlost : content ≠ .lostElement) : n < s.size := by
  rcases Nat.lt_or_ge n s.size with hlt | hge
  · exact hlt
  · rw [payload, record_of_size_le hge] at hpayload
    exact absurd hpayload.symm hlost

theorem Sound.markGuarded (h : s.Sound) (n : NodeId) : (s.markGuarded n).Sound := by
  rcases markGuarded_cases s n with heq | ⟨content, guarded, hpayload, heq⟩
  · rwa [heq]
  · rw [heq]
    exact h.setPayload (lt_size_of_payload_eq hpayload (by simp)) (by rw [hpayload]; rfl)

namespace Sound

theorem keeps_markGuarded (h : s.Sound) (hbelow : s.Below top n) (hne : n ≠ top) :
    KeepsOutside top s (s.markGuarded n) := by
  rcases markGuarded_cases s n with heq | ⟨content, guarded, hpayload, heq⟩
  · rw [heq]
    exact .refl h
  · rw [heq]
    exact h.keeps_setPayload hbelow hne (by rw [hpayload]; rfl)

theorem keeps_replaceText (h : s.Sound) (hbelow : s.Below top n) (hne : n ≠ top) {content : Text}
    (hs : s.replaceText n content = .ok (s', m)) : KeepsOutside top s s' := by
  rcases h.of_replaceText hs with rfl | rfl | ⟨p, g⟩
  · exact .refl h
  · exact h.keeps_markGuarded hbelow hne
  · exact g.keeps h hbelow hne

/-- The new text stands below `top` as the replaced node did. -/
theorem keeps_replaceByText (h : s.Sound) (hbelow : s.Below top n) (hne : n ≠ top)
    {content : Text} {guarded : Bool} (hs : s.replaceByText n content guarded = .ok (s', m)) :
    KeepsOutside top s s' ∧ s'.Below top m ∧ m ≠ top := by
  obtain ⟨rfl, p, g⟩ := h.of_replaceByText hs
  obtain ⟨q, hq, hplace⟩ := hbelow.exists_parent hne
  obtain rfl : q = p := Option.some.inj (hq.symm.trans g.place)
  have hnew : s'.parent s.size = some q := (g.taken _ (List.mem_singleton_self _)).1
  refine ⟨g.keeps h hbelow hne, .head hnew (g.below_owner h hplace), ?_⟩
  rintro rfl
  rcases Relation.ReflTransGen.cases_tail hplace with heq | ⟨_, -, hlink⟩
  · exact absurd (h.lt_size hq).2 (heq ▸ Nat.lt_irrefl _)
  · exact Nat.lt_irrefl _ (h.lt_size hlink).2

end Sound

end Store

namespace Session

open Store

variable {s : Session} {store store' : Store} {top n : NodeId}

theorem keeps_visitText (h : store.Sound) (hbelow : store.Below top n) (hne : n ≠ top)
    {raw : Text} (hvisit : s.visitText store n raw = .ok store') :
    KeepsOutside top store store' := by
  -- what becomes of the text, or of the new text in its place, when it gets its content
  have hlast : ∀ {first : Store} {m : NodeId} {content : Text}, first.Sound → first.Below top m →
      m ≠ top → (first.replaceText m content).map Prod.fst = .ok store' →
        KeepsOutside top first store' := by
    intro first m content hfirst hbelow hne hlast
    cases hedit : first.replaceText m content with
    | error e =>
      rw [hedit] at hlast
      cases hlast
    | ok edited =>
      rw [hedit] at hlast
      obtain rfl := Except.ok.inj hlast
      exact hfirst.keeps_replaceText hbelow hne hedit
  rw [visitText] at hvisit
  split at hvisit
  · obtain rfl := Except.ok.inj hvisit
    exact h.keeps_detach hbelow hne
  · simp only [bind, Except.bind] at hvisit
    split at hvisit
    · exact hlast h hbelow hne hvisit
    · split at hvisit
      · cases hvisit
      · next first hfirst =>
        obtain ⟨hkeeps, hbelow', hne'⟩ := h.keeps_replaceByText hbelow hne hfirst
        exact hkeeps.trans (hlast hkeeps.sound hbelow' hne' hvisit)

theorem keeps_visitElement (h : store.Sound) (hbelow : store.Below top n) (hne : n ≠ top)
    {name : String} {attributes : Attributes}
    (hpayload : store.payload n = .element name attributes)
    (hvisit : s.visitElement store n name attributes = .ok (.ok store')) :
    KeepsOutside top store store' := by
  rw [visitElement] at hvisit
  cases hresolved : s.resolveUrl (lowerName name) attributes with
  | error e =>
    rw [hresolved] at hvisit
    cases hvisit
  | ok resolved =>
    rw [hresolved] at hvisit
    simp only [bind, Except.bind, pure, Except.pure] at hvisit
    generalize hproper : properName ((store.ancestors n).map store.tag) name = proper at hvisit
    have hnamed : KeepsOutside top store (store.setPayload n (.element proper resolved)) :=
      h.keeps_setPayload hbelow hne (by rw [hpayload]; rfl)
    have hbelow' : (store.setPayload n (.element proper resolved)).Below top n :=
      (below_congr (parent_setPayload _ _ _)).mpr hbelow
    generalize store.setPayload n (.element proper resolved) = named at hvisit hnamed hbelow'
    split at hvisit
    · replace hvisit := Except.ok.inj hvisit
      rw [stripNamedAnchor] at hvisit
      split at hvisit
      · cases hunwrap : named.unwrap n with
        | error e =>
          rw [hunwrap] at hvisit
          cases hvisit
        | ok unwrapped =>
          rw [hunwrap] at hvisit
          obtain rfl := Except.ok.inj hvisit
          obtain ⟨p, g⟩ := hnamed.sound.of_unwrap hunwrap
          exact hnamed.trans (g.keeps hnamed.sound hbelow' hne)
      · obtain rfl := Except.ok.inj hvisit
        simp only [Bool.false_eq_true, if_false, stripFurniture]
        split
        · exact hnamed.trans (hnamed.sound.keeps_delete hbelow' hne)
        · exact hnamed
    · obtain rfl := Except.ok.inj (Except.ok.inj hvisit)
      exact hnamed

/-- A visit below `top` changes nothing elsewhere. -/
theorem keeps_visit (h : store.Sound) (hne : n ≠ top)
    (hvisit : s.visit top store n = .ok store') : KeepsOutside top store store' := by
  rw [visit] at hvisit
  split at hvisit
  · obtain rfl := Except.ok.inj hvisit
    exact .refl h
  · next hattached =>
    have hbelow : store.Below top n := by
      rw [Bool.not_eq_true', Bool.not_eq_false, isAttached, Bool.and_eq_true] at hattached
      exact below_of_reaches hattached.2
    split at hvisit
    · obtain rfl := Except.ok.inj hvisit
      split
      · exact .refl h
      · exact h.keeps_detach hbelow hne
    · next raw guarded hpayload =>
      obtain rfl := Except.ok.inj hvisit
      split
      · exact .refl h
      · cases hedit : s.visitText store n raw with
        | error e => exact .refl h
        | ok edited => exact keeps_visitText h hbelow hne hedit
    · next name attributes hpayload =>
      cases hedit : s.visitElement store n name attributes with
      | error e =>
        rw [hedit] at hvisit
        cases hvisit
      | ok edit =>
        rw [hedit] at hvisit
        obtain rfl := Except.ok.inj hvisit
        cases edit with
        | error e => exact .refl h
        | ok edited => exact keeps_visitElement h hbelow hne hpayload hedit
    · obtain rfl := Except.ok.inj hvisit
      exact .refl h

/-- A walk keeps what each of its visits keeps, also when a visit ends it. -/
theorem keeps_visitAll (h : store.Sound) {ns : List NodeId} (htop : top ∉ ns) :
    KeepsOutside top store (s.visitAll top store ns).1 := by
  induction ns generalizing store with
  | nil => exact .refl h
  | cons n ns ih =>
    rw [List.mem_cons, not_or] at htop
    obtain ⟨hne, htop⟩ := htop
    rw [visitAll]
    cases hvisit : s.visit top store n with
    | error e => exact .refl h
    | ok store' =>
      have hkeeps := keeps_visit h (Ne.symm hne) hvisit
      exact hkeeps.trans (ih hkeeps.sound htop)

/-- Preparing what is below a node changes nothing elsewhere. -/
theorem keeps_prepareBelow (h : store.Sound) (s : Session) (top : NodeId) :
    KeepsOutside top store (s.prepareBelow store top).1 :=
  keeps_visitAll h fun hmem => (h.mem_descendants_iff.mp hmem).2 rfl

end Session

end Wikitext

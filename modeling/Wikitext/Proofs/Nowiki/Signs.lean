/-
  Wikitext/Proofs/Nowiki/Signs.lean
  =================================
  **Characters that count as markup.**  A character is markup only where it stands outside of
  `<nowiki>` and `</nowiki>`.  `signs` keeps all characters of a text, and says of each whether
  it is open to be read as markup; so what a wiki cuts at its marks can still be put down as text
  (`written_signs`).

  Sealed texts are put together sign by sign (`Sealed.signs_append`).  A guarded text has no two
  open marks of emphasis side by side (`pairCount_signs_guard`), and replacing the placeholder
  neither makes nor joins runs of other marks (`Sealed.runLengths_signs_replace`).
-/
import Wikitext.Proofs.Nowiki.Hollow
import Wikitext.Proofs.Text.Runs

namespace Wikitext

open Text

namespace Nowiki

variable {c d : Char} {p t u v old new : Text}

/-! ### Signs -/

/-- A character, and whether it is open to be read as markup. -/
abbrev Sign := Char × Bool

/-- The signs of a text; `skip` characters of the last span are still to be passed over. -/
def signsFrom : (skip : Nat) → Text → List Sign
  | _, [] => []
  | skip + 1, c :: t => (c, false) :: signsFrom skip t
  | 0, c :: t =>
    match span? (c :: t) with
    | some (n + 1, _) => (c, false) :: signsFrom n t
    | _ => (c, true) :: signsFrom 0 t

/-- The characters of a text, each with whether it stands outside of the spans. -/
def signs (t : Text) : List Sign :=
  signsFrom 0 t

/-- The text that signs write. -/
def written (signs : List Sign) : Text :=
  signs.map Prod.fst

/-- A character that is open to be read as markup. -/
def isMark (c : Char) (sign : Sign) : Bool :=
  sign == (c, true)

@[simp] theorem signs_nil : signs [] = [] := rfl

theorem written_signs (t : Text) : written (signs t) = t := by
  suffices h : ∀ skip, written (signsFrom skip t) = t from h 0
  induction t with
  | nil => exact fun _ => rfl
  | cons c t ih =>
    intro skip
    cases skip with
    | succ skip => exact congrArg (c :: ·) (ih skip)
    | zero =>
      rw [signsFrom]
      split
      · exact congrArg (c :: ·) (ih _)
      · exact congrArg (c :: ·) (ih 0)

theorem signs_ne_nil (ht : t ≠ []) : signs t ≠ [] := fun h => by
  rw [← written_signs t, h] at ht
  exact ht rfl

theorem written_append (a b : List Sign) : written (a ++ b) = written a ++ written b :=
  List.map_append

theorem signs_cons (hc : c ≠ '<') (t : Text) : signs (c :: t) = (c, true) :: signs t := by
  have hnot : ¬ opening.isPrefixOf (c :: t) = true := by
    rw [List.isPrefixOf_iff_prefix]
    exact fun h => hc (List.cons_prefix_cons.mp h).1.symm
  rw [signs, signsFrom, span?, if_neg hnot]
  rfl

theorem signs_append_of_notMem (ht : '<' ∉ t) (u : Text) :
    signs (t ++ u) = t.map (·, true) ++ signs u := by
  induction t with
  | nil => rfl
  | cons c t ih =>
    rw [List.mem_cons, not_or] at ht
    rw [List.cons_append, signs_cons (Ne.symm ht.1), ih ht.2, List.map_cons, List.cons_append]

theorem signs_of_notMem (ht : '<' ∉ t) : signs t = t.map (·, true) := by
  have h := signs_append_of_notMem ht []
  rwa [List.append_nil, signs_nil, List.append_nil] at h

theorem signsFrom_append (t u : Text) :
    signsFrom t.length (t ++ u) = t.map (·, false) ++ signs u := by
  induction t with
  | nil => rfl
  | cons c t ih => exact congrArg ((c, false) :: ·) ih

theorem signs_wrap_append (hv : '<' ∉ v) (u : Text) :
    signs (wrap v ++ u) = (wrap v).map (·, false) ++ signs u := by
  have hcons : wrap v = '<' :: (wrap v).tail := rfl
  have hspan := span?_wrap_append hv u
  rw [hcons, List.cons_append] at hspan ⊢
  rw [signs, signsFrom, hspan]
  exact congrArg (('<', false) :: ·) (signsFrom_append _ u)

theorem Sealed.signs_append (ht : Sealed t) (u : Text) :
    signs (t ++ u) = signs t ++ signs u := by
  induction ht with
  | nil => rfl
  | cons hc _ ih => rw [List.cons_append, signs_cons hc, signs_cons hc, ih, List.cons_append]
  | span hv _ ih =>
    rw [List.append_assoc, signs_wrap_append hv, signs_wrap_append hv, ih, List.append_assoc]

theorem Sealed.flatten {ts : List Text} (h : ∀ t ∈ ts, Sealed t) : Sealed ts.flatten := by
  induction ts with
  | nil => exact Sealed.nil
  | cons t ts ih =>
    obtain ⟨ht, hts⟩ := List.forall_mem_cons.mp h
    exact ht.append (ih hts)

theorem signs_flatten {ts : List Text} (h : ∀ t ∈ ts, Sealed t) :
    signs ts.flatten = (ts.map signs).flatten := by
  induction ts with
  | nil => rfl
  | cons t ts ih =>
    obtain ⟨ht, hts⟩ := List.forall_mem_cons.mp h
    rw [List.flatten_cons, ht.signs_append, ih hts, List.map_cons, List.flatten_cons]

/-! ### Marks -/

theorem isMark_open (c d : Char) : isMark c (d, true) = (d == c) := by
  simp [isMark]

theorem isMark_shut (c d : Char) : isMark c (d, false) = false := by
  simp [isMark]

theorem not_isMark_of_mem {sign : Sign} (h : sign ∈ t.map (·, false)) : isMark c sign = false := by
  obtain ⟨d, -, rfl⟩ := List.mem_map.mp h
  exact isMark_shut c d

theorem not_isMark_of_notMem (hc : c ∉ t) {sign : Sign} (h : sign ∈ t.map (·, true)) :
    isMark c sign = false := by
  obtain ⟨d, hd, rfl⟩ := List.mem_map.mp h
  rw [isMark_open, beq_eq_false_iff_ne]
  exact fun heq => hc (heq ▸ hd)

/-- What a sealed text starts with is open, unless it is a tag. -/
theorem Sealed.any_head?_signs (ht : Sealed t) (hc : c ≠ '<') :
    (signs t).head?.any (isMark c) = t.head?.any (· == c) := by
  cases ht with
  | nil => rfl
  | @cons d t hd ht =>
    rw [signs_cons hd]
    exact isMark_open c d
  | @span v t hv ht =>
    rw [signs_wrap_append hv]
    have hangle : ('<' == c) = false := by simpa using Ne.symm hc
    exact (isMark_shut c '<').trans hangle.symm

/-- What a sealed text ends with is open, unless it is a tag. -/
theorem Sealed.any_getLast?_signs (ht : Sealed t) (hc : c ≠ '>') :
    (signs t).getLast?.any (isMark c) = t.getLast?.any (· == c) := by
  induction ht with
  | nil => rfl
  | @cons d t hd ht ih =>
    rw [signs_cons hd]
    by_cases hnil : t = []
    · rw [hnil]
      exact isMark_open c d
    · obtain ⟨e, t, rfl⟩ := List.exists_cons_of_ne_nil hnil
      rw [List.getLast?_cons_of_ne_nil (signs_ne_nil hnil), List.getLast?_cons_cons, ih]
  | @span v t hv ht ih =>
    rw [signs_wrap_append hv]
    by_cases hnil : t = []
    · have hlast : wrap v = (opening ++ v ++ closing.dropLast) ++ ['>'] := by
        simp [wrap, closing]
      have hangle : ('>' == c) = false := by simpa using Ne.symm hc
      rw [hnil, signs_nil, List.append_nil, List.append_nil, hlast, List.map_append,
        List.map_singleton, List.getLast?_concat, List.getLast?_concat]
      exact (isMark_shut c '>').trans hangle.symm
    · rw [List.getLast?_append_of_ne_nil _ (signs_ne_nil hnil),
        List.getLast?_append_of_ne_nil _ hnil, ih]

theorem Sealed.meets_signs (ht : Sealed t) (hu : Sealed u) (hleft : c ≠ '<') (hright : c ≠ '>') :
    meets (isMark c) (signs t) (signs u) = meets (· == c) t u := by
  rw [meets, meets, ht.any_getLast?_signs hright, hu.any_head?_signs hleft]

theorem separate_signs {ts : List Text} (h : ∀ t ∈ ts, Sealed t) (hleft : c ≠ '<')
    (hright : c ≠ '>') : Separate (isMark c) (ts.map signs) ↔ Separate (· == c) ts := by
  induction ts with
  | nil => exact iff_of_true List.isChain_nil List.isChain_nil
  | cons t ts ih =>
    obtain ⟨ht, hts⟩ := List.forall_mem_cons.mp h
    cases ts with
    | nil => exact iff_of_true (List.isChain_singleton _) (List.isChain_singleton _)
    | cons u us =>
      have hu := (List.forall_mem_cons.mp hts).1
      have hstep := ih hts
      simp only [Separate, List.map_cons, List.isChain_cons_cons] at hstep ⊢
      rw [ht.meets_signs hu hleft hright, hstep]

/-! ### Pairs in guarded texts -/

/-- Wrapping links makes no pair of open marks that was not in the text. -/
theorem pairCount_signs_wrapLinks (hc : c ≠ '<') (ht : '<' ∉ t) (hpair : ¬ [c, c] <:+: t) :
    pairCount (isMark c) (signs (wrapLinks t)) = 0 := by
  induction t using links_induction with
  | nil => rfl
  | link l t hl ih =>
    rw [List.mem_append, not_or] at ht
    rw [wrapLinks_append hl, signs_wrap_append ht.1,
      pairCount_append_of_none fun _ => not_isMark_of_mem,
      ih ht.2 fun h => hpair (h.trans (List.suffix_append ..).isInfix)]
  | cons d t hnone ih =>
    rw [List.mem_cons, not_or] at ht
    have hrest := ih ht.2 fun h => hpair (h.trans (List.suffix_cons ..).isInfix)
    rw [wrapLinks_cons_of_none hnone, signs_cons (Ne.symm ht.1), pairCount_cons, hrest, isMark_open,
      (sealed_wrapLinks ht.2).any_head?_signs hc, if_neg]
    intro hboth
    rw [Bool.and_eq_true, beq_iff_eq] at hboth
    obtain ⟨rfl, hhead⟩ := hboth
    have hprefix : [d] <+: wrapLinks t := by
      cases hw : wrapLinks t with
      | nil => rw [hw] at hhead; cases hhead
      | cons e w =>
        rw [hw] at hhead
        obtain rfl : e = d := beq_iff_eq.mp hhead
        exact ⟨w, rfl⟩
    have hin := prefix_of_prefix_wrapLinks (by simpa using hc.symm) hprefix
    exact hpair (List.cons_prefix_cons.mpr ⟨rfl, hin⟩).isInfix

/-- No two marks of emphasis stand side by side in a guarded text. -/
theorem pairCount_signs_guard (ht : '<' ∉ t) (raw : Text) :
    pairCount (isMark '\'') (signs (guard t raw)) = 0 := by
  rcases guard_cases t raw with ⟨h, -⟩ | ⟨h, hcollides⟩
  · have hwrap := signs_wrap_append ht []
    rw [List.append_nil, signs_nil, List.append_nil] at hwrap
    rw [h, hwrap, pairCount_of_none fun _ => not_isMark_of_mem]
  · rw [h]
    refine pairCount_signs_wrapLinks (by decide) ht fun hpair => ?_
    rw [collides_iff.mpr (Or.inl ⟨_, by simp [Collision.pairs], hpair⟩)] at hcollides
    cases hcollides

/-! ### Runs after trimming and replacing -/

/-- Text without the mark is put around a sealed text. -/
theorem Sealed.signs_between (ht : Sealed t) (hleft : '<' ∉ u) (hright : '<' ∉ v) :
    signs (u ++ t ++ v) = u.map (·, true) ++ signs t ++ v.map (·, true) := by
  rw [((sealed_of_notMem hleft).append ht).signs_append, signs_append_of_notMem hleft,
    signs_of_notMem hright]

/-- The white space at the ends has no runs. -/
theorem Sealed.runLengths_signs_trim (ht : Sealed t) (hc : isSpace c = false) :
    runLengths (isMark c) (signs (Text.trim isSpace t)) = runLengths (isMark c) (signs t) := by
  obtain ⟨left, right, hleft, hright, heq⟩ := exists_trim isSpace t
  conv_rhs => rw [heq]
  rw [ht.trim.signs_between (notMem_of_isSpace hleft (by decide))
      (notMem_of_isSpace hright (by decide)),
    runLengths_between (fun _ => not_isMark_of_notMem (notMem_of_isSpace hleft hc))
      fun _ => not_isMark_of_notMem (notMem_of_isSpace hright hc)]

/-- Replacing what has no marks by what has none leaves the runs of a stretch without tags. -/
theorem runLengths_replace (hd : c ∉ d :: p) (hnew : c ∉ new) (hne : new ≠ []) (t : Text) :
    runLengths (· == c) (Text.replace (d :: p) new t) = runLengths (· == c) t := by
  have hnone : ∀ {x : Text}, c ∉ x → ∀ e ∈ x, (e == c) = false := fun hx e he => by
    rw [beq_eq_false_iff_ne]
    exact fun heq => hx (heq ▸ he)
  have hold : d :: p ≠ [] := List.cons_ne_nil d p
  -- `w` is the run that is read last
  suffices h : ∀ w, runLengths (· == c) (w ++ Text.replace (d :: p) new t) =
      runLengths (· == c) (w ++ t) from h []
  induction t using replace_induction hold with
  | nil => exact fun _ => rfl
  | found t ih =>
    intro w
    rw [replace_append_self hold, runLengths_append_gap hne (hnone hnew),
      runLengths_append_gap hold (hnone hd), ← List.nil_append (Text.replace ..), ih]
    rfl
  | cons e t hnot ih =>
    intro w
    have hcons : ∀ u : Text, w ++ e :: u = (w ++ [e]) ++ u := fun u => by simp
    have hkept : Text.replace (d :: p) new (e :: t) = e :: Text.replace (d :: p) new t :=
      replace_cons_of_not_prefix hnot new
    rw [hkept, hcons, ih, ← hcons]

/-- Replacing the text leaves the runs of other marks outside of the tags. -/
theorem Sealed.runLengths_signs_replace (ht : Sealed t) (hopening : d ∉ opening)
    (hclosing : d ∉ closing) (hold : '<' ∉ d :: p) (hnew : '<' ∉ new) (hne : new ≠ [])
    (hd : c ∉ d :: p) (hc : c ∉ new) :
    runLengths (isMark c) (signs (Text.replace (d :: p) new t)) =
      runLengths (isMark c) (signs t) := by
  have hstretch : ∀ {x : Text}, '<' ∉ x →
      runLengths (isMark c) (signs x) = runLengths (· == c) x := by
    intro x hx
    rw [signs_of_notMem hx, runLengths_map]
    exact congrArg (runLengths · x) (funext (isMark_open c))
  have hspan : ∀ {x v : Text} (u : Text), '<' ∉ x → '<' ∉ v →
      runLengths (isMark c) (signs (x ++ (wrap v ++ u))) =
        runLengths (· == c) x ++ runLengths (isMark c) (signs u) := by
    intro x v u hx hv
    have hwrap : (wrap v).map (·, false) ≠ [] := by simp [wrap, opening]
    rw [(sealed_of_notMem hx).signs_append, signs_wrap_append hv,
      runLengths_append_gap hwrap fun _ => not_isMark_of_mem, hstretch hx]
  refine ht.stretch_induction (motive := fun t =>
    runLengths (isMark c) (signs (Text.replace (d :: p) new t)) = runLengths (isMark c) (signs t))
    (fun x hx => ?_) fun x v t hx hv ih => ?_
  · rw [hstretch (notMem_replace hnew hx _), hstretch hx, runLengths_replace hd hc hne]
  · rw [replace_append_wrap_append hopening hold hclosing,
      hspan _ (notMem_replace hnew hx _) (notMem_replace hnew hv _), hspan _ hx hv,
      runLengths_replace hd hc hne, ih]

end Nowiki

end Wikitext

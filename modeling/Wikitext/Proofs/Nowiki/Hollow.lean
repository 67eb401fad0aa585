/-
  Wikitext/Proofs/Nowiki/Hollow.lean
  ==================================
  **What stands outside of the tags.**  A wiki takes what stands between `<nowiki>` and
  `</nowiki>` as plain text.  `hollow` empties these spans, so what collides in a hollow text is
  what a wiki reads as markup.

  In markup that texts have been guarded for every tag is one of a pair around text without tags
  (`Sealed`).  Such texts can be put together, trimmed and searched for a placeholder, and their
  spans stay what they are; so a hollow text collides only where a line of it does
  (`collides_hollow_iff`), and nothing collides in it that did not before (`Sealed.collides_hollow`).
-/
import Wikitext.Proofs.Nowiki.Markers

namespace Wikitext

open Text

variable {c d : Char} {p l t u v old new : Text}

namespace Nowiki

/-! ### Spans -/

/-- The number of characters up to and with the first tag that closes a span. -/
def spanEnd? : Text → Option Nat
  | [] => none
  | c :: cs =>
    if closing.isPrefixOf (c :: cs) then some closing.length else (spanEnd? cs).map (· + 1)

/-- The span at the start of a text, and what it is without its content. -/
def span? (t : Text) : Option (Nat × Text) :=
  if opening.isPrefixOf t then
    (spanEnd? (t.drop opening.length)).map fun n => (opening.length + n, opening ++ closing)
  else none

/-- Takes the content out of every span. -/
def hollow (t : Text) : Text :=
  t.substitute span?

@[simp] theorem hollow_nil : hollow [] = [] := rfl

theorem hollow_cons (hc : c ≠ '<') (t : Text) : hollow (c :: t) = c :: hollow t := by
  have hnot : ¬ opening.isPrefixOf (c :: t) = true := by
    rw [List.isPrefixOf_iff_prefix]
    exact fun h => hc (List.cons_prefix_cons.mp h).1.symm
  unfold hollow substitute
  rw [substituteFrom_zero, span?, if_neg hnot]

theorem spanEnd?_append (hv : '<' ∉ v) (u : Text) :
    spanEnd? (v ++ (closing ++ u)) = some (v.length + closing.length) := by
  induction v with
  | nil =>
    have hfound : closing.isPrefixOf (closing ++ u) = true :=
      List.isPrefixOf_iff_prefix.mpr (List.prefix_append ..)
    rw [List.nil_append, closing, List.cons_append, spanEnd?, ← List.cons_append, ← closing,
      if_pos hfound, List.length_nil, Nat.zero_add]
  | cons c v ih =>
    rw [List.mem_cons, not_or] at hv
    have hnot : ¬ closing.isPrefixOf (c :: (v ++ (closing ++ u))) = true := by
      rw [List.isPrefixOf_iff_prefix]
      exact fun h => hv.1 (List.cons_prefix_cons.mp h).1
    rw [List.cons_append, spanEnd?, if_neg hnot, ih hv.2, Option.map_some, List.length_cons,
      Nat.add_right_comm]

theorem span?_wrap_append (hv : '<' ∉ v) (u : Text) :
    span? (wrap v ++ u) = some ((wrap v).length, opening ++ closing) := by
  have hwrap : wrap v ++ u = opening ++ (v ++ (closing ++ u)) := by
    simp [wrap]
  rw [hwrap, span?, if_pos (List.isPrefixOf_iff_prefix.mpr (List.prefix_append ..)), List.drop_left,
    spanEnd?_append hv, Option.map_some, wrap, List.length_append, List.length_append,
    Nat.add_assoc]

theorem hollow_wrap_append (hv : '<' ∉ v) (u : Text) :
    hollow (wrap v ++ u) = opening ++ closing ++ hollow u := by
  have hcons : wrap v = '<' :: (wrap v).tail := rfl
  have hspan := span?_wrap_append hv u
  rw [hcons, List.cons_append] at hspan ⊢
  unfold hollow substitute
  rw [substituteFrom_zero, hspan]
  simp only [List.length_cons]
  rw [substituteFrom_eq_drop, List.drop_left]
  rfl

/-! ### Sealed texts -/

/-- Every tag is one of a pair around text without tags. -/
inductive Sealed : Text → Prop
  | nil : Sealed []
  | cons {c : Char} {t : Text} (hc : c ≠ '<') (ht : Sealed t) : Sealed (c :: t)
  | span {v t : Text} (hv : '<' ∉ v) (ht : Sealed t) : Sealed (wrap v ++ t)

theorem Sealed.append (ht : Sealed t) (hu : Sealed u) : Sealed (t ++ u) := by
  induction ht with
  | nil => exact hu
  | cons hc _ ih => exact Sealed.cons hc ih
  | span hv _ ih =>
    rw [List.append_assoc]
    exact Sealed.span hv ih

theorem sealed_of_notMem (ht : '<' ∉ t) : Sealed t := by
  induction t with
  | nil => exact Sealed.nil
  | cons c t ih =>
    rw [List.mem_cons, not_or] at ht
    exact Sealed.cons (Ne.symm ht.1) (ih ht.2)

theorem sealed_wrap (hv : '<' ∉ v) : Sealed (wrap v) := by
  rw [← List.append_nil (wrap v)]
  exact Sealed.span hv Sealed.nil

theorem sealed_wrapLinks (ht : '<' ∉ t) : Sealed (wrapLinks t) := by
  induction t using links_induction with
  | nil => exact Sealed.nil
  | link l t hl ih =>
    rw [List.mem_append, not_or] at ht
    rw [wrapLinks_append hl]
    exact Sealed.span ht.1 (ih ht.2)
  | cons c t hnone ih =>
    rw [List.mem_cons, not_or] at ht
    rw [wrapLinks_cons_of_none hnone]
    exact Sealed.cons (Ne.symm ht.1) (ih ht.2)

theorem sealed_guard (ht : '<' ∉ t) (raw : Text) : Sealed (guard t raw) := by
  rcases guard_cases t raw with ⟨h, -⟩ | ⟨h, -⟩
  · rw [h]
    exact sealed_wrap ht
  · rw [h]
    exact sealed_wrapLinks ht

theorem Sealed.hollow_append (ht : Sealed t) (u : Text) :
    hollow (t ++ u) = hollow t ++ hollow u := by
  induction ht with
  | nil => rfl
  | cons hc _ ih => rw [List.cons_append, hollow_cons hc, hollow_cons hc, ih, List.cons_append]
  | span hv _ ih =>
    rw [List.append_assoc, hollow_wrap_append hv, hollow_wrap_append hv, ih]
    simp

/-! ### Trimming and replacing -/

theorem Sealed.trimStart (ht : Sealed t) (p : Char → Bool) (hp : p '<' = false) :
    Sealed (Text.trimStart p t) := by
  induction ht with
  | nil => exact Sealed.nil
  | @cons c t hc ht ih =>
    rw [trimStart_cons]
    split
    · exact ih
    · exact Sealed.cons hc ht
  | @span v t hv ht ih =>
    have hcons : wrap v ++ t = '<' :: ((wrap v).tail ++ t) := rfl
    have hstart : Text.trimStart p (wrap v ++ t) = wrap v ++ t := by
      rw [hcons, trimStart_cons, if_neg (by simp [hp])]
    rw [hstart]
    exact Sealed.span hv ht

theorem Sealed.trimEnd (ht : Sealed t) (p : Char → Bool) (hp : p '>' = false) :
    Sealed (Text.trimEnd p t) := by
  induction ht with
  | nil => exact Sealed.nil
  | @cons c t hc ht ih =>
    by_cases hend : Text.trimEnd p t = []
    · rw [← List.singleton_append, trimEnd_append_of_all (trimEnd_eq_nil.mp hend)]
      by_cases hpc : p c = true
      · have hnil : Text.trimEnd p [c] = [] := trimEnd_eq_nil.mpr (by simpa using hpc)
        rw [hnil]
        exact Sealed.nil
      · rw [trimEnd_cons_of_neg (by simpa using hpc)]
        exact Sealed.cons hc Sealed.nil
    · rw [← List.singleton_append, trimEnd_append hend]
      exact Sealed.cons hc ih
  | @span v t hv ht ih =>
    have hwrap : wrap v = (opening ++ v ++ closing.dropLast) ++ ['>'] := by
      simp [wrap, closing]
    have hlast : ∀ c ∈ (wrap v).getLast?, p c = false := by
      rw [hwrap, List.getLast?_concat]
      simpa using hp
    rw [trimEnd_append_of_last hlast]
    exact Sealed.span hv ih

theorem Sealed.trim (ht : Sealed t) : Sealed (Text.trim isSpace t) :=
  (ht.trimStart isSpace (by decide)).trimEnd isSpace (by decide)

/-- A sealed text is a stretch without tags, or one before a span and another sealed text. -/
theorem Sealed.stretch_induction {motive : Text → Prop} (stretch : ∀ x, '<' ∉ x → motive x)
    (span : ∀ x v t, '<' ∉ x → '<' ∉ v → motive t → motive (x ++ (wrap v ++ t)))
    (ht : Sealed t) : motive t := by
  -- `x` is what has been passed over since the last tag
  suffices h : ∀ x, '<' ∉ x → motive (x ++ t) from h [] List.not_mem_nil
  induction ht with
  | nil =>
    intro x hx
    rw [List.append_nil]
    exact stretch x hx
  | @cons c t hc _ ih =>
    intro x hx
    have hcons : x ++ c :: t = (x ++ [c]) ++ t := by simp
    rw [hcons]
    exact ih (x ++ [c]) (by simp [hx, Ne.symm hc])
  | @span v t hv _ ih =>
    intro x hx
    exact span x v t hx hv (ih [] List.not_mem_nil)

/-- What is no part of a tag is replaced before a span, in it and after it. -/
theorem replace_append_wrap_append (hd : d ∉ opening) (hold : '<' ∉ d :: p) (hclosing : d ∉ closing)
    (x v t : Text) : Text.replace (d :: p) new (x ++ (wrap v ++ t)) =
      Text.replace (d :: p) new x ++ (wrap (Text.replace (d :: p) new v) ++
        Text.replace (d :: p) new t) := by
  have hspan : x ++ (wrap v ++ t) =
      x ++ '<' :: (opening.tail ++ (v ++ '<' :: (closing.tail ++ t))) := by
    simp [wrap, opening, closing]
  have htails : d ∉ opening.tail ∧ d ∉ closing.tail :=
    ⟨fun hin => hd (List.mem_of_mem_tail hin), fun hin => hclosing (List.mem_of_mem_tail hin)⟩
  rw [hspan, replace_append_cons hold (by simp), replace_append_of_notMem htails.1,
    replace_append_cons hold (by simp), replace_append_of_notMem htails.2]
  simp [wrap, opening, closing]

theorem notMem_replace (hnew : '<' ∉ new) (ht : '<' ∉ t) (old : Text) :
    '<' ∉ Text.replace old new t := fun hin => (mem_of_mem_replace hin).elim hnew ht

/-- Replacing a text that is no part of a tag leaves the tags alone. -/
theorem Sealed.replace (ht : Sealed t) (hd : d ∉ opening) (hold : '<' ∉ d :: p)
    (hclosing : d ∉ closing) (hnew : '<' ∉ new) : Sealed (Text.replace (d :: p) new t) := by
  refine ht.stretch_induction (motive := fun t => Sealed (Text.replace (d :: p) new t))
    (fun x hx => ?_) fun x v t hx hv ih => ?_
  · exact sealed_of_notMem (notMem_replace hnew hx _)
  · rw [replace_append_wrap_append hd hold hclosing]
    exact (sealed_of_notMem (notMem_replace hnew hx _)).append
      (Sealed.span (notMem_replace hnew hv _) ih)

/-! ### Collisions outside of the spans -/

theorem Sealed.prefix_of_prefix_hollow (ht : Sealed t) (hp : '<' ∉ p) (h : p <+: hollow t) :
    p <+: t := by
  induction ht generalizing p with
  | nil => exact h
  | cons hc _ ih =>
    cases p with
    | nil => exact List.nil_prefix
    | cons d p =>
      rw [hollow_cons hc] at h
      obtain ⟨rfl, htail⟩ := List.cons_prefix_cons.mp h
      rw [List.mem_cons, not_or] at hp
      exact List.cons_prefix_cons.mpr ⟨rfl, ih hp.2 htail⟩
  | span hv _ _ =>
    cases p with
    | nil => exact List.nil_prefix
    | cons d p =>
      rw [hollow_wrap_append hv] at h
      obtain ⟨rfl, -⟩ := List.cons_prefix_cons.mp h
      exact absurd (List.mem_cons_self ..) hp

theorem Sealed.infix_of_infix_hollow (ht : Sealed t) (hd : d ∉ opening ++ closing)
    (hp : '<' ∉ d :: p) (h : d :: p <:+: hollow t) : d :: p <:+: t := by
  induction ht with
  | nil => exact h
  | @cons c t hc ht ih =>
    rw [List.infix_cons_iff]
    have hcons := hollow_cons hc t
    rw [hcons, List.infix_cons_iff, ← hcons] at h
    exact h.imp (fun h => (Sealed.cons hc ht).prefix_of_prefix_hollow hp h) ih
  | span hv _ ih =>
    rw [hollow_wrap_append hv] at h
    exact (ih (infix_append_of_notMem hd h)).trans (List.suffix_append ..).isInfix

theorem Sealed.trimStart_hollow (ht : Sealed t) :
    Text.trimStart isBlank (hollow t) = hollow (Text.trimStart isBlank t) := by
  induction ht with
  | nil => rfl
  | @cons c t hc _ ih =>
    rw [hollow_cons hc, trimStart_cons, trimStart_cons, ih]
    split
    · rfl
    · rw [hollow_cons hc]
  | @span v t hv _ _ =>
    have hcons : wrap v ++ t = '<' :: ((wrap v).tail ++ t) := rfl
    have hstart : Text.trimStart isBlank (wrap v ++ t) = wrap v ++ t := by
      rw [hcons, trimStart_cons, if_neg (by decide)]
    rw [hstart, hollow_wrap_append hv, opening, List.append_assoc, List.cons_append, trimStart_cons,
      if_neg (by decide)]

theorem Sealed.newline_notMem_hollow (ht : Sealed t) (hline : '\n' ∉ t) : '\n' ∉ hollow t := by
  induction ht with
  | nil => exact hline
  | cons hc _ ih =>
    rw [List.mem_cons, not_or] at hline
    rw [hollow_cons hc, List.mem_cons, not_or]
    exact ⟨hline.1, ih hline.2⟩
  | span hv _ ih =>
    rw [List.mem_append, not_or] at hline
    rw [hollow_wrap_append hv, List.mem_append, not_or]
    exact ⟨by decide, ih hline.2⟩

/-- On a line nothing collides outside of the spans that does not collide anyway. -/
theorem Sealed.collides_hollow (ht : Sealed t) (hline : '\n' ∉ t)
    (h : (hollow t).collides = true) : t.collides = true := by
  rw [collides_iff, lines_of_notMem (ht.newline_notMem_hollow hline)] at h
  rw [collides_iff, lines_of_notMem hline]
  rcases h with ⟨p, hp, hin⟩ | ⟨l, hl, p, hp, hbegin⟩
  · obtain ⟨d, q, rfl, -, hangle, hd⟩ := Collision.exists_of_mem_pairs hp
    exact Or.inl ⟨_, hp, ht.infix_of_infix_hollow hd hangle hin⟩
  · obtain rfl := List.mem_singleton.mp hl
    obtain ⟨d, q, rfl, -, hangle⟩ := Collision.exists_of_mem_lineStarts hp
    rw [ht.trimStart_hollow] at hbegin
    have hstart := (ht.trimStart isBlank (by decide)).prefix_of_prefix_hollow hangle hbegin
    exact Or.inr ⟨t, List.mem_singleton_self t, _, hp, hstart⟩

theorem lines_hollow (h : ∀ l ∈ t.lines, Sealed l) : lines (hollow t) = t.lines.map hollow := by
  refine lines_of_respects (fun l hl => ?_) fun l hl u => ?_
  · exact (h l hl).newline_notMem_hollow (notMem_newline_of_mem_lines hl)
  · rw [(h l hl).hollow_append, hollow_cons (by decide)]

theorem collides_hollow_iff (h : ∀ l ∈ t.lines, Sealed l) :
    (hollow t).collides = true ↔ ∃ l ∈ t.lines, (hollow l).collides = true := by
  rw [collides_iff_lines, lines_hollow h]
  simp

/-- The guard leaves nothing outside of the spans that collides. -/
theorem collides_hollow_guard (hplain : Plain t) (hangle : '<' ∉ t) (raw : Text) :
    (hollow (Text.trim isSpace (guard t raw))).collides = false := by
  rcases guard_cases t raw with ⟨h, -⟩ | ⟨h, hcollides⟩
  · have htrim : Text.trim isSpace (wrap t) = wrap t := by
      refine trim_eq_self (fun c hc => ?_) fun c hc => ?_
      · obtain rfl : '<' = c := Option.some.inj hc
        rfl
      · have hlast : (wrap t).getLast? = some '>' := by simp [wrap, closing]
        rw [hlast] at hc
        obtain rfl : '>' = c := Option.some.inj hc
        rfl
    have hhollow : hollow (wrap t) = opening ++ closing := by
      have happend := hollow_wrap_append hangle []
      simpa using happend
    rw [h, htrim, hhollow]
    decide
  · have hwrapped := collides_wrapLinks hcollides
    have hplain' : Plain (wrapLinks t) := plain_wrapLinksFrom hplain 0
    rw [Bool.eq_false_iff] at hwrapped ⊢
    intro hin
    refine hwrapped (collides_of_collides_trim hplain' ?_)
    rw [h] at hin
    refine (sealed_wrapLinks hangle).trim.collides_hollow ?_ hin
    exact fun hnewline => hplain'.notMem_newline (mem_of_mem_trim hnewline)

end Nowiki

end Wikitext

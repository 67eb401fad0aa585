/-
  Wikitext/Proofs/Text/Search.lean
  ================================
  **Search and replacement.**  A text that is searched for, such as a placeholder, has no white
  space and none of the characters that passes over text put in; so these passes neither make an
  occurrence nor hide the end of one.  Replacing a text that is on one line by another is done
  line by line (`lines_replace`).
-/
import Mathlib.Data.List.Infix
import Wikitext.Proofs.Text.Lines
import Wikitext.Text.Entity

namespace Wikitext.Text

variable {c : Char} {p t u old new l : Text} {ls : List Text}

/-! ### Occurrences -/

theorem occurs_iff : occurs p t = true ↔ p <:+: t := by
  induction t with
  | nil => simp [occurs, List.infix_nil]
  | cons c t ih =>
    rw [occurs, Bool.or_eq_true, List.isPrefixOf_iff_prefix, ih, List.infix_cons_iff]

/-- What starts with `c` does not start in a text without `c`. -/
theorem infix_append_of_notMem (hc : c ∉ t) (h : c :: p <:+: t ++ u) : c :: p <:+: u := by
  induction t with
  | nil => exact h
  | cons d t ih =>
    rw [List.cons_append, List.infix_cons_iff] at h
    rcases h with ⟨rest, hrest⟩ | h
    · exact absurd (List.cons.inj hrest).1 fun heq => hc (heq ▸ List.mem_cons_self ..)
    · exact ih (fun hin => hc (List.mem_cons_of_mem _ hin)) h

/-- What does not contain `c` stands on one side of it. -/
theorem prefix_append_cons (hc : c ∉ p) (h : p <+: t ++ c :: u) : p <+: t := by
  induction t generalizing p with
  | nil =>
    cases p with
    | nil => exact List.nil_prefix
    | cons d p =>
      obtain ⟨rest, hrest⟩ := h
      exact absurd (List.cons.inj hrest).1 fun heq => hc (heq ▸ List.mem_cons_self ..)
  | cons d t ih =>
    cases p with
    | nil => exact List.nil_prefix
    | cons e p =>
      obtain ⟨heq, h⟩ := List.cons_prefix_cons.mp h
      exact List.cons_prefix_cons.mpr ⟨heq, ih (fun hin => hc (List.mem_cons_of_mem _ hin)) h⟩

/-- What ends with the only `c` in it does not go on past a `c`. -/
theorem prefix_of_prefix_append_cons (hc : c ∉ p) (h : p ++ [c] <+: t ++ c :: u) :
    p ++ [c] <+: t ++ [c] := by
  induction p generalizing t with
  | nil =>
    cases t with
    | nil => exact List.prefix_refl _
    | cons d t =>
      rw [List.nil_append, List.cons_append, List.cons_prefix_cons] at h
      exact List.cons_prefix_cons.mpr ⟨h.1, List.nil_prefix⟩
  | cons d p ih =>
    rw [List.mem_cons, not_or] at hc
    cases t with
    | nil =>
      rw [List.cons_append, List.nil_append, List.cons_prefix_cons] at h
      exact absurd h.1.symm hc.1
    | cons e t =>
      rw [List.cons_append, List.cons_append, List.cons_prefix_cons] at h
      exact List.cons_prefix_cons.mpr ⟨h.1, ih hc.2 h.2⟩

theorem infix_append_cons (hp : p ≠ []) (hc : c ∉ p) (h : p <:+: t ++ c :: u) :
    p <:+: t ∨ p <:+: u := by
  induction t with
  | nil =>
    rw [List.nil_append, List.infix_cons_iff] at h
    exact h.elim (fun h => absurd (List.prefix_nil.mp (prefix_append_cons (t := []) hc h)) hp)
      Or.inr
  | cons d t ih =>
    rw [List.cons_append, List.infix_cons_iff] at h
    rcases h with h | h
    · exact Or.inl (prefix_append_cons (t := d :: t) hc h).isInfix
    · exact (ih h).imp_left fun h => List.infix_cons_iff.mpr (Or.inr h)

theorem infix_append_cons_iff (hp : p ≠ []) (hc : c ∉ p) :
    p <:+: t ++ c :: u ↔ p <:+: t ∨ p <:+: u := by
  constructor
  · exact infix_append_cons hp hc
  · rintro (h | h)
    · exact h.trans (List.prefix_append ..).isInfix
    · exact h.trans (List.suffix_append_of_suffix (List.suffix_cons ..)).isInfix

theorem infix_unlines_iff (hne : p ≠ []) (hp : '\n' ∉ p) :
    p <:+: unlines ls ↔ ∃ l ∈ ls, p <:+: l := by
  induction ls with
  | nil => simp [hne]
  | cons l ls ih =>
    by_cases hls : ls = []
    · simp [hls]
    · rw [unlines_cons l hls, infix_append_cons_iff hne hp, ih]
      simp

/-- What is on one line occurs in a text if it does in a line of it. -/
theorem infix_iff_lines (hne : p ≠ []) (hp : '\n' ∉ p) :
    p <:+: t ↔ ∃ l ∈ t.lines, p <:+: l := by
  conv_lhs => rw [← unlines_lines t]
  exact infix_unlines_iff hne hp

/-! ### White space and entities -/

theorem prefix_of_prefix_collapse (hp : ∀ c ∈ p, isSpace c = false)
    (h : p <+: collapseFrom false t) : p <+: t := by
  induction p generalizing t with
  | nil => exact List.nil_prefix
  | cons c p ih =>
    have hc : isSpace c = false := hp c (List.mem_cons_self ..)
    cases t with
    | nil => exact h
    | cons d t =>
      rw [collapseFrom] at h
      by_cases hd : isSpace d = true
      · rw [if_pos hd, if_neg (by simp)] at h
        obtain ⟨rfl, -⟩ := List.cons_prefix_cons.mp h
        cases hc
      · rw [if_neg hd] at h
        obtain ⟨rfl, hrest⟩ := List.cons_prefix_cons.mp h
        exact List.cons_prefix_cons.mpr
          ⟨rfl, ih (fun e he => hp e (List.mem_cons_of_mem _ he)) hrest⟩

/-- Collapsing makes no occurrence of a text without white space. -/
theorem infix_of_infix_collapse (hne : p ≠ []) (hp : ∀ c ∈ p, isSpace c = false) (after : Bool)
    (h : p <:+: collapseFrom after t) : p <:+: t := by
  induction t generalizing after with
  | nil => exact h
  | cons c t ih =>
    rw [List.infix_cons_iff, collapseFrom] at *
    by_cases hc : isSpace c = true
    · rw [if_pos hc] at h
      cases after with
      | true => exact Or.inr (ih true (by simpa using h))
      | false =>
        rw [if_neg (by simp), List.infix_cons_iff] at h
        rcases h with h | h
        · obtain ⟨d, p, rfl⟩ := List.exists_cons_of_ne_nil hne
          obtain ⟨rfl, -⟩ := List.cons_prefix_cons.mp h
          exact absurd (hp _ (List.mem_cons_self ..)) (by decide)
        · exact Or.inr (ih true h)
    · rw [if_neg hc] at h
      rw [List.infix_cons_iff] at h
      refine h.imp (fun h => ?_) (ih false)
      refine prefix_of_prefix_collapse hp ?_
      rwa [collapseFrom, if_neg hc]

/-- An entity begins where it stands for one of three characters, and nowhere else. -/
theorem escapeChar_eq (c : Char) : escapeChar c = [c] ∨ ∃ name : Text,
    escapeChar c = '&' :: name ∧ '[' ∉ name := by
  by_cases h : c = '&' ∨ c = '<' ∨ c = '>'
  · rcases h with rfl | rfl | rfl
    · exact Or.inr ⟨"amp;".toList, rfl, by decide⟩
    · exact Or.inr ⟨"lt;".toList, rfl, by decide⟩
    · exact Or.inr ⟨"gt;".toList, rfl, by decide⟩
  · simp only [not_or] at h
    left
    rw [escapeChar]
    · exact h.1
    · exact h.2.1
    · exact h.2.2

theorem escape_cons (c : Char) (t : Text) : escape (c :: t) = escapeChar c ++ escape t :=
  List.flatMap_cons ..

theorem prefix_of_prefix_escape (hp : '&' ∉ p) (h : p <+: escape t) : p <+: t := by
  induction p generalizing t with
  | nil => exact List.nil_prefix
  | cons d p ih =>
    have hd : d ≠ '&' := fun heq => hp (heq ▸ List.mem_cons_self ..)
    cases t with
    | nil => exact h
    | cons c t =>
      rw [escape_cons] at h
      rcases escapeChar_eq c with hc | ⟨name, hc, -⟩
      · rw [hc] at h
        obtain ⟨rfl, hrest⟩ := List.cons_prefix_cons.mp h
        exact List.cons_prefix_cons.mpr
          ⟨rfl, ih (fun hin => hp (List.mem_cons_of_mem _ hin)) hrest⟩
      · rw [hc] at h
        exact absurd (List.cons_prefix_cons.mp h).1 hd

/-- Writing entities makes no occurrence of a text that starts with a bracket. -/
theorem infix_of_infix_escape (hp : '&' ∉ '[' :: p) (h : '[' :: p <:+: escape t) :
    '[' :: p <:+: t := by
  induction t with
  | nil => exact h
  | cons c t ih =>
    rw [List.infix_cons_iff]
    rcases escapeChar_eq c with hc | ⟨name, hc, hname⟩
    · have hcons : escape (c :: t) = c :: escape t := by rw [escape_cons, hc]; rfl
      rw [hcons, List.infix_cons_iff] at h
      exact h.imp (fun h => prefix_of_prefix_escape hp (hcons ▸ h)) ih
    · rw [escape_cons, hc] at h
      refine Or.inr (ih (infix_append_of_notMem ?_ h))
      simpa using hname

/-! ### Replacement -/

theorem substituteFrom_zero (find : Text → Option (Nat × Text)) (c : Char) (t : Text) :
    substituteFrom find 0 (c :: t) =
      match find (c :: t) with
      | some (n + 1, new) => new ++ substituteFrom find n t
      | _ => c :: substituteFrom find 0 t := rfl

/-- Where a text is not found, nothing is replaced. -/
theorem replace_eq_self (h : occurs old t = false) (new : Text) : replace old new t = t := by
  induction t with
  | nil => rfl
  | cons c t ih =>
    rw [occurs, Bool.or_eq_false_iff] at h
    rw [replace, substitute, substituteFrom_zero, if_neg (by simp [h.1])]
    exact congrArg _ (ih h.2)

theorem replaceFrom_append_cons (hc : c ∉ old) (hne : old ≠ []) {skip : Nat}
    (hskip : skip ≤ t.length) (u : Text) :
    substituteFrom (fun rest => if old.isPrefixOf rest then some (old.length, new) else none) skip
        (t ++ c :: u) =
      substituteFrom (fun rest => if old.isPrefixOf rest then some (old.length, new) else none) skip
        t ++ c :: replace old new u := by
  obtain ⟨d, old', rfl⟩ := List.exists_cons_of_ne_nil hne
  induction t generalizing skip with
  | nil =>
    obtain rfl : skip = 0 := by simpa using hskip
    have hnot : ¬ (d :: old').isPrefixOf (c :: u) = true := by
      rw [List.isPrefixOf_iff_prefix, List.cons_prefix_cons]
      exact fun hd => hc (hd.1 ▸ List.mem_cons_self ..)
    rw [List.nil_append, substituteFrom_zero, if_neg hnot]
    rfl
  | cons e t ih =>
    cases skip with
    | succ skip => exact ih (by simpa using hskip)
    | zero =>
      -- what is found goes over no `c`
      have hsame : (d :: old').isPrefixOf (e :: (t ++ c :: u)) =
          (d :: old').isPrefixOf (e :: t) := by
        rw [Bool.eq_iff_iff, List.isPrefixOf_iff_prefix, List.isPrefixOf_iff_prefix,
          ← List.cons_append]
        exact ⟨prefix_append_cons hc, fun h => h.trans (List.prefix_append ..)⟩
      rw [List.cons_append, substituteFrom_zero, substituteFrom_zero, hsame]
      by_cases hfound : (d :: old').isPrefixOf (e :: t) = true
      · have hlength : old'.length ≤ t.length := by
          simpa using (List.isPrefixOf_iff_prefix.mp hfound).length_le
        rw [if_pos hfound]
        simp only [List.length_cons]
        rw [List.append_assoc]
        exact congrArg (new ++ ·) (ih hlength)
      · rw [if_neg hfound]
        simp only
        rw [ih (Nat.zero_le _), List.cons_append]

/-- What does not contain `c` is replaced on both sides of it. -/
theorem replace_append_cons (hc : c ∉ old) (hne : old ≠ []) (t u : Text) :
    replace old new (t ++ c :: u) = replace old new t ++ c :: replace old new u :=
  replaceFrom_append_cons hc hne (Nat.zero_le _) u

theorem mem_of_mem_replaceFrom {skip : Nat} (h : c ∈ substituteFrom
    (fun rest => if old.isPrefixOf rest then some (old.length, new) else none) skip t) :
    c ∈ new ∨ c ∈ t := by
  induction t generalizing skip with
  | nil => cases skip <;> cases h
  | cons d t ih =>
    cases skip with
    | succ skip => exact (ih h).imp_right (List.mem_cons_of_mem _)
    | zero =>
      rw [substituteFrom_zero] at h
      split at h
      · next heq =>
        split at heq
        · obtain ⟨-, rfl⟩ := Prod.mk.inj (Option.some.inj heq)
          rcases List.mem_append.mp h with h | h
          · exact Or.inl h
          · exact (ih h).imp_right (List.mem_cons_of_mem _)
        · cases heq
      · rcases List.mem_cons.mp h with rfl | h
        · exact Or.inr (List.mem_cons_self ..)
        · exact (ih h).imp_right (List.mem_cons_of_mem _)

theorem mem_of_mem_replace (h : c ∈ replace old new t) : c ∈ new ∨ c ∈ t :=
  mem_of_mem_replaceFrom h

/-- What is on one line is replaced line by line. -/
theorem lines_replace (hold : '\n' ∉ old) (hnew : '\n' ∉ new) (hne : old ≠ []) (t : Text) :
    lines (replace old new t) = t.lines.map (replace old new) := by
  refine lines_of_respects (fun l hl hin => ?_) fun l _ u => replace_append_cons hold hne l u
  exact (mem_of_mem_replace hin).elim hnew (notMem_newline_of_mem_lines hl)

end Wikitext.Text

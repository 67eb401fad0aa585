/-
  Wikitext/Proofs/Nowiki/Markers.lean
  ===================================
  **The tags of guarded text.**  An escaped text has no `<`, so every `<` of a guarded text is
  that of a tag the guard has put in, and the tags come in pairs around text without one.  Hence
  they can be told from the text and taken out again (`erase_guard`), and no text closes the pair
  it stands in.

  `Protects u t` says what the guard is for: `u` still says `t`, it is wrapped as a whole or
  does not collide, and whatever reads as a bracketed link once the tags are gone stands between
  a pair of tags.  The guard of a text protects it (`protects_guard`).
-/
import Wikitext.Proofs.Nowiki.Links

namespace Wikitext

open Text

namespace Text

variable {c d : Char} {p t u new old : Text}

/-! ### Replacement piece by piece -/

theorem replace_cons_of_not_prefix (h : ¬ old <+: c :: t) (new : Text) :
    replace old new (c :: t) = c :: replace old new t := by
  have hfalse : ¬ old.isPrefixOf (c :: t) = true := by simpa using h
  rw [replace, substitute, substituteFrom_zero, if_neg hfalse]
  rfl

theorem replace_append_of_notMem (hd : d ∉ t) (p new u : Text) :
    replace (d :: p) new (t ++ u) = t ++ replace (d :: p) new u := by
  induction t with
  | nil => rfl
  | cons c t ih =>
    rw [List.mem_cons, not_or] at hd
    have hnot : ¬ d :: p <+: c :: (t ++ u) := fun h => hd.1 (List.cons_prefix_cons.mp h).1
    rw [List.cons_append, replace_cons_of_not_prefix hnot, ih hd.2]
    rfl

theorem replace_append_self (hold : old ≠ []) (new u : Text) :
    replace old new (old ++ u) = new ++ replace old new u := by
  obtain ⟨d, p, rfl⟩ := List.exists_cons_of_ne_nil hold
  have hfound : (d :: p).isPrefixOf (d :: (p ++ u)) = true := by
    rw [List.isPrefixOf_iff_prefix]
    exact List.prefix_append (d :: p) u
  rw [replace, substitute, List.cons_append, substituteFrom_zero, if_pos hfound]
  simp only [List.length_cons]
  rw [Nowiki.substituteFrom_eq_drop, List.drop_left]
  rfl

/-- A text is taken apart by what is replaced in it. -/
theorem replace_induction {motive : Text → Prop} (hold : old ≠ []) (nil : motive [])
    (found : ∀ t, motive t → motive (old ++ t))
    (cons : ∀ c t, ¬ old <+: c :: t → motive t → motive (c :: t)) (t : Text) : motive t := by
  induction hn : t.length using Nat.strong_induction_on generalizing t with
  | h n ih =>
    by_cases hprefix : old <+: t
    · obtain ⟨u, rfl⟩ := hprefix
      have hpos : 0 < old.length := List.length_pos_of_ne_nil hold
      rw [List.length_append] at hn
      exact found u (ih u.length (by omega) u rfl)
    · cases t with
      | nil => exact nil
      | cons c u =>
        rw [List.length_cons] at hn
        exact cons c u hprefix (ih u.length (by omega) u rfl)

/-! ### Entities -/

/-- Reads the entities of `&`, `<` and `>` back, in one pass. -/
def unescape : Text → Text
  | '&' :: 'a' :: 'm' :: 'p' :: ';' :: rest => '&' :: unescape rest
  | '&' :: 'l' :: 't' :: ';' :: rest => '<' :: unescape rest
  | '&' :: 'g' :: 't' :: ';' :: rest => '>' :: unescape rest
  | c :: rest => c :: unescape rest
  | [] => []

theorem unescape_cons (hc : c ≠ '&') (t : Text) : unescape (c :: t) = c :: unescape t := by
  conv_lhs => unfold unescape
  split <;> simp_all

theorem escapeChar_of_ne (hamp : c ≠ '&') (hlt : c ≠ '<') (hgt : c ≠ '>') :
    escapeChar c = [c] := by
  unfold escapeChar
  split <;> simp_all

theorem unescape_escape (t : Text) : unescape (escape t) = t := by
  induction t with
  | nil => rfl
  | cons c t ih =>
    rw [escape_cons]
    by_cases hamp : c = '&'
    · subst hamp
      simp [escapeChar, unescape, ih]
    · by_cases hlt : c = '<'
      · subst hlt
        simp [escapeChar, unescape, ih]
      · by_cases hgt : c = '>'
        · subst hgt
          simp [escapeChar, unescape, ih]
        · rw [escapeChar_of_ne hamp hlt hgt, List.singleton_append, unescape_cons hamp, ih]

/-- An escaped text opens no tag. -/
theorem notMem_escape (t : Text) : '<' ∉ escape t := by
  intro h
  obtain ⟨c, -, hc⟩ := List.mem_flatMap.mp h
  by_cases hamp : c = '&'
  · subst hamp
    exact absurd hc (by decide)
  · by_cases hlt : c = '<'
    · subst hlt
      exact absurd hc (by decide)
    · by_cases hgt : c = '>'
      · subst hgt
        exact absurd hc (by decide)
      · rw [escapeChar_of_ne hamp hlt hgt, List.mem_singleton] at hc
        exact hlt hc.symm

end Text

namespace Nowiki

open BracketedLink

variable {c : Char} {l t u v : Text}

/-! ### Taking the tags out -/

/-- Deletes every tag that opens or closes protected text. -/
def erase (t : Text) : Text :=
  replace closing [] (replace opening [] t)

theorem erase_append (ht : '<' ∉ t) (u : Text) : erase (t ++ u) = t ++ erase u := by
  have hopen : replace opening [] (t ++ u) = t ++ replace opening [] u :=
    replace_append_of_notMem ht _ _ _
  rw [erase, hopen]
  exact replace_append_of_notMem ht _ _ _

theorem erase_cons (hc : c ≠ '<') (t : Text) : erase (c :: t) = c :: erase t :=
  erase_append (t := [c]) (by simpa using hc.symm) t

theorem erase_wrap_append (ht : '<' ∉ t) (u : Text) : erase (wrap t ++ u) = t ++ erase u := by
  have hclosing : replace opening [] (closing ++ u) = closing ++ replace opening [] u := by
    have hnot : ¬ opening <+: '<' :: (closing.tail ++ u) := fun h => by
      obtain ⟨-, h⟩ := List.cons_prefix_cons.mp h
      exact absurd (List.cons_prefix_cons.mp h).1 (by decide)
    -- only the first character of the closing tag could start an opening one
    have hcopy : replace opening [] (closing.tail ++ u) = closing.tail ++ replace opening [] u :=
      replace_append_of_notMem (by decide) _ _ _
    have hcons := replace_cons_of_not_prefix hnot []
    rwa [hcopy] at hcons
  have hopening : replace opening [] (wrap t ++ u) = t ++ (closing ++ replace opening [] u) := by
    rw [wrap, List.append_assoc, List.append_assoc, replace_append_self (by decide),
      List.nil_append]
    rw [← hclosing]
    exact replace_append_of_notMem ht _ _ _
  have hcopy : replace closing [] (t ++ (closing ++ replace opening [] u)) =
      t ++ replace closing [] (closing ++ replace opening [] u) :=
    replace_append_of_notMem ht _ _ _
  rw [erase, hopening, hcopy, replace_append_self (by decide), List.nil_append]
  rfl

theorem erase_wrap (ht : '<' ∉ t) : erase (wrap t) = t := by
  have h := erase_wrap_append ht []
  rwa [List.append_nil, show erase [] = [] from rfl, List.append_nil] at h

theorem erase_wrapLinks (ht : '<' ∉ t) : erase (wrapLinks t) = t := by
  induction t using links_induction with
  | nil => rfl
  | link l t hl ih =>
    rw [List.mem_append, not_or] at ht
    rw [wrapLinks_append hl, erase_wrap_append ht.1, ih ht.2]
  | cons c t hnone ih =>
    rw [List.mem_cons, not_or] at ht
    rw [wrapLinks_cons_of_none hnone, erase_cons (Ne.symm ht.1), ih ht.2]

theorem erase_guard (ht : '<' ∉ t) (raw : Text) : erase (guard t raw) = t := by
  rcases guard_cases t raw with ⟨h, -⟩ | ⟨h, -⟩
  · rw [h, erase_wrap ht]
  · rw [h, erase_wrapLinks ht]

/-! ### Links between tags -/

end Nowiki

end Wikitext

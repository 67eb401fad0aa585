/-
  Wikitext/Proofs/Nowiki/Links.lean
  =================================
  **Bracketed links and their wrapping.**  A bracketed link ends at the first closing bracket, so
  two links that overlap end at the same place (`length?_overlap`), and whether a text starts with
  a link is decided by the characters of the link (`length?_append`).  The links of a text are
  therefore wrapped line by line (`lines_wrapLinks`), and wrapping them makes no collision
  (`collides_wrapLinks`).
-/
import Mathlib.Data.List.Basic
import Wikitext.Proofs.Nowiki.Guard

namespace Wikitext

open Text

namespace BracketedLink

variable {l t u x : Text} {n k : Nat}

/-! ### The form of a link -/

/-- A bracket, a scheme, a colon and a character of an address, and after these everything up to
the first closing bracket. -/
def IsLink (l : Text) : Prop :=
  ∃ s ∈ schemes, ∃ a b, l = '[' :: (s ++ ':' :: a :: (b ++ [']'])) ∧ isAddressChar a = true ∧
    ∀ c ∈ b, c ≠ ']' ∧ isControl c = false

theorem closing?_append {b : Text} (hb : ∀ c ∈ b, c ≠ ']' ∧ isControl c = false) (t : Text) :
    closing? (b ++ ']' :: t) = some (b.length + 1) := by
  induction b with
  | nil => rfl
  | cons c b ih =>
    obtain ⟨hc, hcontrol⟩ := hb c (List.mem_cons_self ..)
    rw [List.cons_append, closing?, if_neg hc, if_neg (by simp [hcontrol]),
      ih fun d hd => hb d (List.mem_cons_of_mem _ hd)]
    rfl

theorem exists_of_closing? (h : closing? t = some n) : ∃ b u, t = b ++ ']' :: u ∧
    b.length + 1 = n ∧ ∀ c ∈ b, c ≠ ']' ∧ isControl c = false := by
  induction t generalizing n with
  | nil => cases h
  | cons c t ih =>
    rw [closing?] at h
    split at h
    · next hc =>
      obtain rfl : 1 = n := Option.some.inj h
      exact ⟨[], t, by rw [hc]; rfl, rfl, by simp⟩
    · next hc =>
      split at h
      · cases h
      · next hcontrol =>
        obtain ⟨m, hm, rfl⟩ := Option.map_eq_some_iff.mp h
        obtain ⟨b, u, rfl, rfl, hb⟩ := ih hm
        refine ⟨c :: b, u, rfl, rfl, fun d hd => ?_⟩
        rcases List.mem_cons.mp hd with rfl | hd
        · exact ⟨hc, by simpa using hcontrol⟩
        · exact hb d hd

theorem body?_append {a : Char} {b : Text} (ha : isAddressChar a = true)
    (hb : ∀ c ∈ b, c ≠ ']' ∧ isControl c = false) (t : Text) :
    body? (a :: (b ++ ']' :: t)) = some (b.length + 2) := by
  rw [body?, if_pos ha, closing?_append hb]
  rfl

theorem exists_of_body? (h : body? t = some n) : ∃ a b u, t = a :: (b ++ ']' :: u) ∧
    b.length + 2 = n ∧ isAddressChar a = true ∧ ∀ c ∈ b, c ≠ ']' ∧ isControl c = false := by
  cases t with
  | nil => cases h
  | cons a t =>
    rw [body?] at h
    split at h
    · next ha =>
      obtain ⟨m, hm, rfl⟩ := Option.map_eq_some_iff.mp h
      obtain ⟨b, u, rfl, rfl, hb⟩ := exists_of_closing? hm
      exact ⟨a, b, u, rfl, rfl, ha, hb⟩
    · cases h

/-- What the text after the bracket is as a link of one scheme. -/
def ofScheme? (rest s : Text) : Option Nat :=
  if (s ++ [':']).isPrefixOf rest then
    (body? (rest.drop (s.length + 1))).map (· + (s.length + 2))
  else none

theorem length?_cons (rest : Text) :
    length? ('[' :: rest) = schemes.findSome? (ofScheme? rest) := rfl

theorem exists_of_ofScheme? {rest s : Text} (hs : s ∈ schemes) (h : ofScheme? rest s = some n) :
    ∃ l u, '[' :: rest = l ++ u ∧ IsLink l ∧ l.length = n := by
  rw [ofScheme?] at h
  split at h
  · next hbegin =>
    obtain ⟨tail, htail⟩ := List.isPrefixOf_iff_prefix.mp hbegin
    have hdrop : rest.drop (s.length + 1) = tail := by
      rw [← htail, List.drop_left' (by simp)]
    obtain ⟨m, hm, rfl⟩ := Option.map_eq_some_iff.mp h
    obtain ⟨a, b, u, hbody, rfl, ha, hb⟩ := exists_of_body? (hdrop ▸ hm)
    refine ⟨'[' :: (s ++ ':' :: a :: (b ++ [']'])), u, ?_, ⟨s, hs, a, b, rfl, ha, hb⟩, ?_⟩
    · rw [← htail, hbody]
      simp
    · simp only [List.length_cons, List.length_append, List.length_nil]
      omega
  · cases h

/-- What starts with a link is found to. -/
theorem exists_of_length? (h : length? t = some n) :
    ∃ l u, t = l ++ u ∧ IsLink l ∧ l.length = n := by
  rw [length?.eq_def] at h
  split at h
  · obtain ⟨s, hs, hfound⟩ := List.exists_of_findSome?_eq_some h
    exact exists_of_ofScheme? hs hfound
  · cases h

/-- The closing bracket of a link is the first. -/
theorem IsLink.closed (h : IsLink l) : ∃ u, l = u ++ [']'] ∧ ']' ∉ u := by
  obtain ⟨s, hs, a, b, rfl, ha, hb⟩ := h
  refine ⟨'[' :: (s ++ ':' :: a :: b), by simp, ?_⟩
  have hscheme : ∀ s ∈ schemes, ']' ∉ s := by decide
  have haddress : a ≠ ']' := by
    rintro rfl
    exact absurd ha (by decide)
  simp only [List.mem_cons, List.mem_append, not_or]
  exact ⟨by decide, hscheme s hs, by decide, haddress.symm, fun hin => (hb _ hin).1 rfl⟩

theorem IsLink.notMem_newline (h : IsLink l) : '\n' ∉ l := by
  obtain ⟨s, hs, a, b, rfl, ha, hb⟩ := h
  have hscheme : ∀ s ∈ schemes, '\n' ∉ s := by decide
  have haddress : a ≠ '\n' := by
    rintro rfl
    exact absurd ha (by decide)
  simp only [List.mem_cons, List.mem_append, List.not_mem_nil, or_false, not_or]
  refine ⟨by decide, hscheme s hs, by decide, haddress.symm, fun hin => ?_, by decide⟩
  exact absurd (hb _ hin).2 (by decide)

theorem IsLink.length_pos (h : IsLink l) : 0 < l.length := by
  obtain ⟨s, -, a, b, rfl, -, -⟩ := h
  exact Nat.succ_pos _

/-- A text is cut at the first closing bracket in one way only. -/
theorem eq_of_append_closing {x y v w : Text} (hx : ']' ∉ x) (hy : ']' ∉ y)
    (h : x ++ ']' :: v = y ++ ']' :: w) : x = y := by
  have hxy : x <+: y := prefix_append_cons hx ⟨_, h⟩
  have hyx : y <+: x := prefix_append_cons hy ⟨_, h.symm⟩
  exact hxy.eq_of_length (Nat.le_antisymm hxy.length_le hyx.length_le)

/-- Links that one text starts with are one link. -/
theorem IsLink.length_eq (h : IsLink l) (h' : IsLink t) {v w : Text} (heq : l ++ v = t ++ w) :
    l.length = t.length := by
  obtain ⟨x, rfl, hx⟩ := h.closed
  obtain ⟨y, rfl, hy⟩ := h'.closed
  rw [List.append_assoc, List.append_assoc, List.singleton_append, List.singleton_append] at heq
  rw [eq_of_append_closing hx hy heq]

/-- A link is found, whatever follows it. -/
theorem length?_append (h : IsLink l) (u : Text) : length? (l ++ u) = some l.length := by
  obtain ⟨s, hs, a, b, rfl, ha, hb⟩ := id h
  have hrest : s ++ ':' :: a :: (b ++ [']']) ++ u = (s ++ [':']) ++ a :: (b ++ ']' :: u) := by
    simp
  have hsome : ofScheme? (s ++ ':' :: a :: (b ++ [']']) ++ u) s ≠ none := by
    rw [hrest, ofScheme?, if_pos (List.isPrefixOf_iff_prefix.mpr (List.prefix_append ..)),
      List.drop_left' (by simp), body?_append ha hb]
    simp
  rw [List.cons_append, length?_cons]
  -- some scheme is found, and whichever it is, it gives the same length
  cases hfound : schemes.findSome? (ofScheme? (s ++ ':' :: a :: (b ++ [']']) ++ u)) with
  | none => exact absurd (List.findSome?_eq_none_iff.mp hfound s hs) hsome
  | some n =>
    obtain ⟨s', hs', hn⟩ := List.exists_of_findSome?_eq_some hfound
    obtain ⟨l', u', heq, hlink, rfl⟩ := exists_of_ofScheme? hs' hn
    rw [← List.cons_append] at heq
    rw [h.length_eq hlink heq]

theorem length?_eq_some_iff :
    length? t = some n ↔ ∃ l u, t = l ++ u ∧ IsLink l ∧ l.length = n := by
  constructor
  · exact exists_of_length?
  · rintro ⟨l, u, rfl, hl, rfl⟩
    exact length?_append hl u

/-- A link that starts within a link ends with it. -/
theorem length?_overlap (h : length? (x ++ t) = some n) (hx : x.length < n)
    (h' : length? t = some k) : x.length + k = n := by
  obtain ⟨l, v, hl, hlink, rfl⟩ := exists_of_length? h
  obtain ⟨m, w, rfl, hlink', rfl⟩ := exists_of_length? h'
  obtain ⟨y, rfl, hy⟩ := hlink.closed
  obtain ⟨z, rfl, hz⟩ := hlink'.closed
  have hle : x.length ≤ y.length := by
    rw [List.length_append] at hx
    exact Nat.le_of_lt_succ hx
  have heq : x ++ z ++ ']' :: w = y ++ ']' :: v := by
    simpa using hl
  have hxy : x <+: y := by
    refine List.prefix_of_prefix_length_le ?_ (List.prefix_append y (']' :: v)) hle
    rw [← heq, List.append_assoc]
    exact List.prefix_append ..
  have hxz : ']' ∉ x ++ z := fun hin =>
    (List.mem_append.mp hin).elim (fun hin => hy (hxy.subset hin)) hz
  rw [← eq_of_append_closing hxz hy heq]
  simp only [List.length_append]
  omega

end BracketedLink

namespace Nowiki

open BracketedLink

variable {c : Char} {l t : Text}

/-! ### Wrapping from left to right -/

/-- A span that has been found is passed over. -/
theorem substituteFrom_eq_drop (find : Text → Option (Nat × Text)) (skip : Nat) (t : Text) :
    substituteFrom find skip t = substitute find (t.drop skip) := by
  induction t generalizing skip with
  | nil => cases skip <;> rfl
  | cons c t ih =>
    cases skip with
    | zero => rfl
    | succ skip => exact ih skip

@[simp] theorem wrapLinks_nil : wrapLinks [] = [] := rfl

theorem wrapLinks_cons_of_none (h : length? (c :: t) = none) :
    wrapLinks (c :: t) = c :: wrapLinks t := by
  rw [wrapLinks, substitute, substituteFrom_zero, wrappedLink?, h]
  rfl

theorem wrapLinks_append (h : IsLink l) (t : Text) :
    wrapLinks (l ++ t) = wrap l ++ wrapLinks t := by
  obtain ⟨c, m, rfl⟩ := List.exists_cons_of_ne_nil (List.ne_nil_of_length_pos h.length_pos)
  have hfound : wrappedLink? (c :: m ++ t) = some (m.length + 1, wrap (c :: m)) := by
    rw [wrappedLink?, length?_append h]
    simp
  rw [wrapLinks, substitute, List.cons_append, substituteFrom_zero, ← List.cons_append, hfound]
  simp only
  rw [substituteFrom_eq_drop, List.drop_left]
  rfl

/-- A text is empty, or starts with a link, or with a character that starts none. -/
theorem links_induction {motive : Text → Prop} (nil : motive [])
    (link : ∀ l t, IsLink l → motive t → motive (l ++ t))
    (cons : ∀ c t, length? (c :: t) = none → motive t → motive (c :: t)) (t : Text) :
    motive t := by
  induction hn : t.length using Nat.strong_induction_on generalizing t with
  | h n ih =>
    cases t with
    | nil => exact nil
    | cons c t =>
      cases hfound : length? (c :: t) with
      | none => exact cons c t hfound (ih _ (by rw [← hn]; exact Nat.lt_succ_self _) t rfl)
      | some k =>
        obtain ⟨l, u, heq, hl, rfl⟩ := exists_of_length? hfound
        rw [heq]
        refine link l u hl (ih _ ?_ u rfl)
        have hlength := congrArg List.length heq
        have hpos := hl.length_pos
        rw [List.length_append] at hlength
        omega

theorem mem_of_mem_wrapLinks (h : c ∈ wrapLinks t) : c ∈ opening ++ closing ∨ c ∈ t := by
  induction t using links_induction with
  | nil => exact Or.inr h
  | link l t hl ih =>
    rw [wrapLinks_append hl, wrap] at h
    simp only [List.mem_append] at h ih ⊢
    tauto
  | cons d t hnone ih =>
    rw [wrapLinks_cons_of_none hnone] at h
    rcases List.mem_cons.mp h with rfl | h
    · exact Or.inr (List.mem_cons_self ..)
    · exact (ih h).imp_right (List.mem_cons_of_mem _)

/-- The guard puts in no characters but those of its tags. -/
theorem mem_of_mem_guard {raw : Text} (h : c ∈ guard t raw) : c ∈ opening ++ closing ∨ c ∈ t := by
  rcases guard_cases t raw with ⟨heq, -⟩ | ⟨heq, -⟩
  · rw [heq, wrap] at h
    simp only [List.mem_append] at h ⊢
    tauto
  · rw [heq] at h
    exact mem_of_mem_wrapLinks h

/-! ### Lines -/

/-- No link goes over the end of a line. -/
theorem wrapLinks_append_newline (t u : Text) :
    wrapLinks (t ++ '\n' :: u) = wrapLinks t ++ '\n' :: wrapLinks u := by
  induction t using links_induction with
  | nil => exact wrapLinks_cons_of_none rfl
  | link l t hl ih =>
    rw [List.append_assoc, wrapLinks_append hl, wrapLinks_append hl, ih, List.append_assoc]
  | cons c t hnone ih =>
    have hnone' : length? (c :: (t ++ '\n' :: u)) = none := by
      -- a link that goes on would end before the line feed
      cases hfound : length? (c :: (t ++ '\n' :: u)) with
      | none => rfl
      | some n =>
        obtain ⟨l, v, heq, hl, rfl⟩ := exists_of_length? hfound
        have hbefore : l <+: c :: t := by
          refine prefix_append_cons (u := u) hl.notMem_newline ?_
          rw [List.cons_append, heq]
          exact List.prefix_append ..
        obtain ⟨w, hw⟩ := hbefore
        rw [← hw, length?_append hl] at hnone
        cases hnone
    rw [List.cons_append, wrapLinks_cons_of_none hnone', wrapLinks_cons_of_none hnone, ih,
      List.cons_append]

theorem lines_wrapLinks (t : Text) : lines (wrapLinks t) = t.lines.map wrapLinks := by
  refine lines_of_respects (fun l hl hin => ?_) fun l _ u => wrapLinks_append_newline l u
  rcases mem_of_mem_wrapLinks hin with hin | hin
  · exact absurd hin (by decide)
  · exact notMem_newline_of_mem_lines hl hin

/-! ### Collisions -/

/-- Wrapping the links of a text makes no collision. -/
theorem collides_wrapLinks (h : t.collides = false) : (wrapLinks t).collides = false := by
  rw [Bool.eq_false_iff] at h ⊢
  intro hin
  refine h (collides_iff.mpr ?_)
  rcases collides_iff.mp hin with ⟨p, hp, hin⟩ | ⟨l, hl, p, hp, hbegin⟩
  · left
    obtain ⟨d, q, rfl, -, hangle, hd⟩ := Collision.exists_of_mem_pairs hp
    exact ⟨_, hp, infix_of_infix_wrapLinksFrom hd hangle 0 hin⟩
  · right
    obtain ⟨d, q, rfl, -, hangle⟩ := Collision.exists_of_mem_lineStarts hp
    rw [lines_wrapLinks] at hl
    obtain ⟨m, hm, rfl⟩ := List.mem_map.mp hl
    rw [trimStart_wrapLinks (by decide) (by decide)] at hbegin
    exact ⟨m, hm, _, hp, prefix_of_prefix_wrapLinks hangle hbegin⟩

end Nowiki

end Wikitext

/-
  Wikitext/Proofs/Nowiki/Guard.lean
  =================================
  **Guarded text.**  A text of a document is collapsed, escaped and guarded.  What comes out is
  on one line, has no other white space than blanks, and is white only if the text is
  (`plain_guard`, `isWhite_guard`).  The guard keeps it from imitating markup: after the white
  space it starts with no markup (`guard_start`).

  What is markup is said in two lists of texts, those that are markup anywhere and those that are
  at the start of a line (`collides_iff`).
-/
import Wikitext.Nowiki
import Wikitext.Proofs.Text.Search

namespace Wikitext

open Text

variable {c : Char} {t u raw : Text}

namespace Text

/-! ### Collapsing and escaping -/

theorem plain_collapseFrom (after : Bool) (t : Text) : Plain (collapseFrom after t) := by
  induction t generalizing after with
  | nil => exact plain_nil
  | cons c t ih =>
    rw [collapseFrom]
    split
    · cases after with
      | true => exact ih true
      | false =>
        intro d hd hspace
        rcases List.mem_cons.mp hd with rfl | hd
        · rfl
        · exact ih true d hd hspace
    · next hc =>
      intro d hd hspace
      rcases List.mem_cons.mp hd with rfl | hd
      · exact absurd hspace hc
      · exact ih false d hd hspace

theorem isWhite_cons (c : Char) (t : Text) : isWhite (c :: t) = (isSpace c && isWhite t) := rfl

theorem isWhite_append (t u : Text) : isWhite (t ++ u) = (isWhite t && isWhite u) := by
  simp [isWhite]

theorem isWhite_collapseFrom (after : Bool) (t : Text) :
    (collapseFrom after t).isWhite = t.isWhite := by
  induction t generalizing after with
  | nil => rfl
  | cons c t ih =>
    rw [collapseFrom, isWhite_cons]
    by_cases hc : isSpace c = true
    · rw [if_pos hc, hc, Bool.true_and]
      cases after with
      | true => exact ih true
      | false => exact ih true
    · rw [if_neg hc, isWhite_cons, ih]

theorem eq_of_mem_escapeChar {d : Char} (hd : d ∈ escapeChar c) (hspace : isSpace d = true) :
    d = c := by
  have hnot : ∀ name : Text, (∀ e ∈ name, isSpace e = false) → d ∉ name := fun name hname hin => by
    rw [hname d hin] at hspace
    cases hspace
  rw [escapeChar.eq_def] at hd
  split at hd
  · exact absurd hd (hnot _ (not_isSpace_of_all (by decide)))
  · exact absurd hd (hnot _ (not_isSpace_of_all (by decide)))
  · exact absurd hd (hnot _ (not_isSpace_of_all (by decide)))
  · exact List.mem_singleton.mp hd

theorem plain_escape (h : Plain t) : Plain t.escape := by
  intro d hd hspace
  obtain ⟨c, hc, hd⟩ := List.mem_flatMap.mp hd
  obtain rfl := eq_of_mem_escapeChar hd hspace
  exact h d hc hspace

theorem isWhite_escapeChar (c : Char) : isWhite (escapeChar c) = isSpace c := by
  rw [escapeChar.eq_def]
  split
  · rfl
  · rfl
  · rfl
  · simp [isWhite]

theorem isWhite_escape (t : Text) : t.escape.isWhite = t.isWhite := by
  induction t with
  | nil => rfl
  | cons c t ih => rw [escape_cons, isWhite_append, isWhite_escapeChar, ih, isWhite_cons]

end Text

/-! ### Collisions -/

namespace Collision

/-- The texts that are markup wherever they stand. -/
def pairs : List Text := [['\'', '\''], ['[', '['], ['\x7b', '\x7b']]

/-- The texts that are markup at the start of a line. -/
def lineStarts : List Text :=
  lineMarks.map (fun c => [c]) ++ [['-', '-', '-', '-'], ['\x7b', '|']]

theorem lineMark_occursIn : lineMark.occursIn t = true ↔
    ∃ l ∈ t.lines, ∃ c ∈ lineMarks, [c] <+: trimStart isBlank l := by
  have hhead : ∀ l : Text, l.head?.any (· ∈ lineMarks) = true ↔
      ∃ c ∈ lineMarks, [c] <+: l := by
    intro l
    cases l with
    | nil => simp
    | cons d l => simp [List.cons_prefix_cons]
  have hline : lineMark.occursIn t = true ↔ ∃ l ∈ t.lines,
      (trimStart isBlank l).head?.any (· ∈ lineMarks) = true := List.any_eq_true
  simp only [hline, hhead]

/-- What is markup starts with no white space, and has nothing of a tag. -/
theorem exists_of_mem_pairs {p : Text} (hp : p ∈ pairs) : ∃ d q, p = d :: q ∧
    isSpace d = false ∧ '<' ∉ p ∧ d ∉ Nowiki.opening ++ Nowiki.closing := by
  simp only [pairs, List.mem_cons, List.not_mem_nil, or_false] at hp
  rcases hp with rfl | rfl | rfl <;> exact ⟨_, _, rfl, by decide, by decide, by decide⟩

theorem exists_of_mem_lineStarts {p : Text} (hp : p ∈ lineStarts) :
    ∃ d q, p = d :: q ∧ isSpace d = false ∧ '<' ∉ p := by
  simp only [lineStarts, lineMarks, List.map_cons, List.map_nil, List.cons_append, List.nil_append,
    List.mem_cons, List.not_mem_nil, or_false] at hp
  rcases hp with rfl | rfl | rfl | rfl | rfl | rfl | rfl | rfl | rfl <;>
    exact ⟨_, _, rfl, by decide, by decide⟩

end Collision

namespace Text

/-- A text collides if it has a pair, or a line that starts, after blanks, with markup. -/
theorem collides_iff : t.collides = true ↔ (∃ p ∈ Collision.pairs, p <:+: t) ∨
    ∃ l ∈ t.lines, ∃ p ∈ Collision.lineStarts, p <+: trimStart isBlank l := by
  have hstart : ∀ q : Text → Bool, Collision.atLineStart q t = true ↔
      ∃ l ∈ t.lines, q (trimStart isBlank l) = true := fun q => List.any_eq_true
  constructor
  · intro h
    obtain ⟨collision, -, h⟩ := List.any_eq_true.mp h
    cases collision with
    | emphasis => exact Or.inl ⟨_, by simp [Collision.pairs], occurs_iff.mp h⟩
    | link => exact Or.inl ⟨_, by simp [Collision.pairs], occurs_iff.mp h⟩
    | template => exact Or.inl ⟨_, by simp [Collision.pairs], occurs_iff.mp h⟩
    | lineMark =>
      obtain ⟨l, hl, c, hc, hbegin⟩ := Collision.lineMark_occursIn.mp h
      exact Or.inr ⟨l, hl, [c], List.mem_append_left _ (List.mem_map_of_mem hc), hbegin⟩
    | rule =>
      obtain ⟨l, hl, hbegin⟩ := (hstart _).mp h
      exact Or.inr ⟨l, hl, _, by simp [Collision.lineStarts], List.isPrefixOf_iff_prefix.mp hbegin⟩
    | table =>
      obtain ⟨l, hl, hbegin⟩ := (hstart _).mp h
      exact Or.inr ⟨l, hl, _, by simp [Collision.lineStarts], List.isPrefixOf_iff_prefix.mp hbegin⟩
  · have hall : ∀ collision : Collision, collision.occursIn t = true → t.collides = true := by
      intro collision h
      exact List.any_eq_true.mpr ⟨collision, by cases collision <;> decide, h⟩
    rintro (⟨p, hp, h⟩ | ⟨l, hl, p, hp, h⟩)
    · simp only [Collision.pairs, List.mem_cons, List.not_mem_nil, or_false] at hp
      rcases hp with rfl | rfl | rfl
      · exact hall .emphasis (occurs_iff.mpr h)
      · exact hall .link (occurs_iff.mpr h)
      · exact hall .template (occurs_iff.mpr h)
    · simp only [Collision.lineStarts, List.mem_append, List.mem_cons, List.not_mem_nil,
        or_false] at hp
      rcases hp with hp | rfl | rfl
      · obtain ⟨c, hc, rfl⟩ := List.mem_map.mp hp
        exact hall .lineMark (Collision.lineMark_occursIn.mpr ⟨l, hl, c, hc, h⟩)
      · exact hall .rule ((hstart _).mpr ⟨l, hl, List.isPrefixOf_iff_prefix.mpr h⟩)
      · exact hall .table ((hstart _).mpr ⟨l, hl, List.isPrefixOf_iff_prefix.mpr h⟩)

/-- A text collides if a line of it does. -/
theorem collides_iff_lines : t.collides = true ↔ ∃ l ∈ t.lines, l.collides = true := by
  have hline : ∀ l ∈ t.lines, l.collides = true ↔ (∃ p ∈ Collision.pairs, p <:+: l) ∨
      ∃ p ∈ Collision.lineStarts, p <+: trimStart isBlank l := by
    intro l hl
    rw [collides_iff, lines_of_notMem (notMem_newline_of_mem_lines hl)]
    simp
  have hpair : ∀ p ∈ Collision.pairs, p <:+: t ↔ ∃ l ∈ t.lines, p <:+: l := by
    intro p hp
    have hall : ∀ p ∈ Collision.pairs, p ≠ [] ∧ '\n' ∉ p := by decide
    exact infix_iff_lines (hall p hp).1 (hall p hp).2
  rw [collides_iff]
  constructor
  · rintro (⟨p, hp, h⟩ | ⟨l, hl, h⟩)
    · obtain ⟨l, hl, h⟩ := (hpair p hp).mp h
      exact ⟨l, hl, (hline l hl).mpr (Or.inl ⟨p, hp, h⟩)⟩
    · exact ⟨l, hl, (hline l hl).mpr (Or.inr h)⟩
  · rintro ⟨l, hl, h⟩
    rcases (hline l hl).mp h with ⟨p, hp, h⟩ | h
    · exact Or.inl ⟨p, hp, (hpair p hp).mpr ⟨l, hl, h⟩⟩
    · exact Or.inr ⟨l, hl, h⟩

/-- Trimming a text makes no collision. -/
theorem collides_of_collides_trim (hplain : Plain t) (h : (trim isSpace t).collides = true) :
    t.collides = true := by
  have hline : '\n' ∉ trim isSpace t := fun hin => hplain.notMem_newline (mem_of_mem_trim hin)
  rw [collides_iff, lines_of_notMem hline] at h
  rw [collides_iff, lines_of_notMem hplain.notMem_newline]
  rcases h with ⟨p, hp, hin⟩ | ⟨l, hl, p, hp, hbegin⟩
  · exact Or.inl ⟨p, hp, hin.trans (trim_infix_self isSpace t)⟩
  · right
    obtain rfl := List.mem_singleton.mp hl
    have hstart : trimStart isBlank (trim isSpace t) = trim isSpace t := by
      cases ht : trim isSpace t with
      | nil => rfl
      | cons c u =>
        have hc := trim_head isSpace t c (by rw [ht]; rfl)
        have hblank : ¬ isBlank c = true := fun hb => by
          rw [isSpace_of_isBlank hb] at hc
          cases hc
        rw [trimStart_cons, if_neg hblank]
    have hbefore := trim_prefix_trimStart isSpace t
    rw [hplain.trimStart_eq] at hbefore
    rw [hstart] at hbegin
    exact ⟨t, List.mem_singleton_self t, p, hp, hbegin.trans hbefore⟩

/-- A text that collides is not white. -/
theorem isWhite_of_collides (h : t.collides = true) : t.isWhite = false := by
  have hsolid : ∃ c ∈ t, isSpace c = false := by
    rcases collides_iff.mp h with ⟨p, hp, hin⟩ | ⟨l, hl, p, hp, hbegin⟩
    · obtain ⟨d, q, rfl, hd, -⟩ := Collision.exists_of_mem_pairs hp
      exact ⟨d, hin.subset (List.mem_cons_self ..), hd⟩
    · obtain ⟨d, q, rfl, hd, -⟩ := Collision.exists_of_mem_lineStarts hp
      have hmem : d ∈ l := (List.dropWhile_sublist _).subset (hbegin.subset (List.mem_cons_self ..))
      exact ⟨d, mem_of_mem_lines hl hmem, hd⟩
  obtain ⟨c, hc, hspace⟩ := hsolid
  by_contra hwhite
  rw [isWhite_iff.mp (by simpa using hwhite) c hc] at hspace
  cases hspace

end Text

namespace Nowiki

/-! ### Bracketed links -/

/-- A bracketed link starts with a bracket. -/
theorem exists_of_wrappedLink? {n : Nat} {new : Text} (h : wrappedLink? t = some (n, new)) :
    (∃ rest, t = '[' :: rest) ∧ new = wrap (t.take n) := by
  obtain ⟨m, hm, heq⟩ := Option.map_eq_some_iff.mp h
  obtain ⟨rfl, rfl⟩ := Prod.mk.inj heq
  refine ⟨?_, rfl⟩
  rw [BracketedLink.length?.eq_def] at hm
  split at hm
  · exact ⟨_, rfl⟩
  · cases hm

/-- Each character is copied, unless a link starts with it. -/
theorem wrapLinks_cons (c : Char) (t : Text) : wrapLinks (c :: t) = c :: wrapLinks t ∨
    c = '[' ∧ ∃ u, wrapLinks (c :: t) = '<' :: u := by
  rw [wrapLinks, substitute, substituteFrom_zero]
  split
  · next n new h =>
    obtain ⟨⟨rest, hrest⟩, rfl⟩ := exists_of_wrappedLink? h
    exact Or.inr ⟨(List.cons.inj hrest).1, _, rfl⟩
  · exact Or.inl rfl

theorem plain_wrap (h : Plain t) : Plain (wrap t) := by
  have hsolid : ∀ {u : Text}, u.all (fun c => !isSpace c) = true → Plain u :=
    fun hu c hc hspace => by
      rw [not_isSpace_of_all hu c hc] at hspace
      cases hspace
  have hopening : Plain opening := hsolid (by decide)
  have hclosing : Plain closing := hsolid (by decide)
  exact (hopening.append h).append hclosing

theorem plain_wrapLinksFrom (h : Plain t) (skip : Nat) :
    Plain (substituteFrom wrappedLink? skip t) := by
  induction t generalizing skip with
  | nil => cases skip <;> exact h
  | cons c t ih =>
    have ht : Plain t := fun d hd => h d (List.mem_cons_of_mem _ hd)
    cases skip with
    | succ skip => exact ih ht skip
    | zero =>
      rw [substituteFrom_zero]
      split
      · next n new hfound =>
        obtain ⟨-, rfl⟩ := exists_of_wrappedLink? hfound
        exact (plain_wrap fun d hd => h d (List.mem_of_mem_take hd)).append (ih ht n)
      · intro d hd hspace
        rcases List.mem_cons.mp hd with rfl | hd
        · exact h d (List.mem_cons_self ..) hspace
        · exact ih ht 0 d hd hspace

theorem isWhite_wrapLinks (t : Text) : (wrapLinks t).isWhite = t.isWhite := by
  induction t with
  | nil => rfl
  | cons c t ih =>
    rcases wrapLinks_cons c t with h | ⟨rfl, u, h⟩
    · rw [h, isWhite_cons, isWhite_cons, ih]
    · rw [h]; rfl

theorem trimStart_wrapLinks {p : Char → Bool} (hbracket : p '[' = false) (hangle : p '<' = false)
    (t : Text) : trimStart p (wrapLinks t) = wrapLinks (trimStart p t) := by
  induction t with
  | nil => rfl
  | cons c t ih =>
    rw [trimStart_cons]
    rcases wrapLinks_cons c t with h | ⟨rfl, u, h⟩
    · rw [h, trimStart_cons, ih]
      split
      · rfl
      · exact h.symm
    · rw [h, trimStart_cons, if_neg (by simp [hangle]), if_neg (by simp [hbracket]), h]

theorem prefix_of_prefix_wrapLinks {p : Text} (hp : '<' ∉ p) (h : p <+: wrapLinks t) : p <+: t := by
  induction p generalizing t with
  | nil => exact List.nil_prefix
  | cons d p ih =>
    have hd : d ≠ '<' := fun heq => hp (heq ▸ List.mem_cons_self ..)
    cases t with
    | nil => exact h
    | cons c t =>
      rcases wrapLinks_cons c t with hcons | ⟨-, u, hcons⟩
      · rw [hcons] at h
        obtain ⟨rfl, hrest⟩ := List.cons_prefix_cons.mp h
        exact List.cons_prefix_cons.mpr
          ⟨rfl, ih (fun hin => hp (List.mem_cons_of_mem _ hin)) hrest⟩
      · rw [hcons] at h
        exact absurd (List.cons_prefix_cons.mp h).1 hd

/-! ### The guard -/

theorem guard_cases (t raw : Text) : guard t raw = wrap t ∧ (raw.collides || t.collides) = true ∨
    guard t raw = wrapLinks t ∧ t.collides = false := by
  rw [guard, protect]
  cases raw.collides with
  | true => exact Or.inl ⟨rfl, rfl⟩
  | false =>
    cases t.collides with
    | true => exact Or.inl ⟨rfl, rfl⟩
    | false => exact Or.inr ⟨rfl, rfl⟩

theorem plain_guard (h : Plain t) (raw : Text) : Plain (guard t raw) := by
  rcases guard_cases t raw with ⟨heq, -⟩ | ⟨heq, -⟩
  · rw [heq]
    exact plain_wrap h
  · rw [heq]
    exact plain_wrapLinksFrom h 0

theorem isWhite_guard (h : t.isWhite = raw.isWhite) : (guard t raw).isWhite = raw.isWhite := by
  rcases guard_cases t raw with ⟨heq, hcollides⟩ | ⟨heq, -⟩
  · have hraw : raw.isWhite = false := by
      rcases Bool.or_eq_true _ _ ▸ hcollides with hcollides | hcollides
      · exact isWhite_of_collides hcollides
      · rw [← h]
        exact isWhite_of_collides hcollides
    rw [heq, hraw]; rfl
  · rw [heq, isWhite_wrapLinks, h]

/-- After white space, a guarded text on one line does not start with markup. -/
theorem guard_start (h : Plain t) (raw : Text) :
    ∀ p ∈ Collision.lineStarts, ¬ p <+: trimStart isSpace (guard t raw) := by
  intro p hp hbegin
  obtain ⟨d, q, rfl, -, hangle⟩ := Collision.exists_of_mem_lineStarts hp
  rcases guard_cases t raw with ⟨heq, -⟩ | ⟨heq, hcollides⟩
  · -- a wrapped text starts with its tag
    have hstart : trimStart isSpace (wrap t) = wrap t := by
      rw [wrap, opening, List.append_assoc, List.cons_append, trimStart_cons, if_neg (by decide)]
    rw [heq, hstart] at hbegin
    exact hangle ((List.cons_prefix_cons.mp hbegin).1 ▸ List.mem_cons_self ..)
  · rw [heq, trimStart_wrapLinks (by decide) (by decide)] at hbegin
    have hplain := prefix_of_prefix_wrapLinks hangle hbegin
    rw [h.trimStart_eq] at hplain
    have hlines : t.lines = [t] := lines_of_notMem h.notMem_newline
    refine Bool.eq_false_iff.mp hcollides (collides_iff.mpr (Or.inr ?_))
    exact ⟨t, by rw [hlines]; exact List.mem_singleton_self t, _, hp, hplain⟩

/-! ### Texts that are searched for -/

section Occurrences

variable {d : Char} {p : Text}

theorem infix_of_infix_wrap (hd : d ∉ opening ++ closing) (hp : '<' ∉ d :: p)
    (h : d :: p <:+: wrap t ++ u) : d :: p <:+: t ∨ d :: p <:+: u := by
  rw [List.mem_append, not_or] at hd
  rw [wrap, List.append_assoc, List.append_assoc] at h
  have hopen := infix_append_of_notMem hd.1 h
  rcases infix_append_cons (by simp) hp hopen with h | h
  · exact Or.inl h
  · exact Or.inr (infix_append_of_notMem (t := ['/', 'n', 'o', 'w', 'i', 'k', 'i', '>'])
      (fun hin => hd.2 (List.mem_cons_of_mem _ hin)) h)

theorem infix_of_infix_wrapLinksFrom (hd : d ∉ opening ++ closing) (hp : '<' ∉ d :: p) (skip : Nat)
    (h : d :: p <:+: substituteFrom wrappedLink? skip t) : d :: p <:+: t := by
  induction t generalizing skip with
  | nil => cases skip <;> exact h
  | cons c t ih =>
    rw [List.infix_cons_iff]
    cases skip with
    | succ skip => exact Or.inr (ih skip h)
    | zero =>
      rw [substituteFrom_zero] at h
      split at h
      · next n new hfound =>
        obtain ⟨-, rfl⟩ := exists_of_wrappedLink? hfound
        rcases infix_of_infix_wrap hd hp h with h | h
        · exact List.infix_cons_iff.mp (h.trans (List.take_prefix _ _).isInfix)
        · exact Or.inr (ih n h)
      · rename_i hnot
        rw [List.infix_cons_iff] at h
        refine h.imp (fun h => ?_) (ih 0)
        refine prefix_of_prefix_wrapLinks hp ?_
        rw [wrapLinks, substitute, substituteFrom_zero]
        split
        · next n new hfound => exact absurd hfound (hnot n new)
        · exact h

/-- A guarded text has no occurrence of a placeholder that the text has not. -/
theorem infix_of_infix_guard (hd : d ∉ opening ++ closing) (hp : '<' ∉ d :: p)
    (h : d :: p <:+: guard t raw) : d :: p <:+: t := by
  rcases guard_cases t raw with ⟨heq, -⟩ | ⟨heq, -⟩
  · rw [heq, ← List.append_nil (wrap t)] at h
    exact (infix_of_infix_wrap hd hp h).resolve_right (by simp)
  · rw [heq] at h
    exact infix_of_infix_wrapLinksFrom hd hp 0 h

end Occurrences

end Nowiki

end Wikitext

/-
  Wikitext/Proofs/Nowiki/LinkPattern.lean
  =======================================
  **Bracketed links as a pattern.**  Bracketed links are commonly found by a regular expression
  that backtracks: one scheme may be the start of another, the characters of an address are also
  characters of a label, and the spaces between the two can be taken by either.  It comes to the
  same as one pass that looks for the first closing bracket (`substitute_linkPattern`).

  The pass cuts a text into links and single characters (`Nowiki.Cuts`), in one way only.  What
  is wrapped can so be told from the lengths of the pieces, and no link of the text is missed:
  each lies in one that is wrapped (`wrapLinks_exact`).
-/
import Wikitext.Proofs.Nowiki.Links
import Wikitext.Proofs.Text.Regex

namespace Wikitext

open Text

namespace BracketedLink

variable {l t u : Text} {c : Char} {n : Nat}

/-! ### The pattern -/

/-- The characters of an address: no closing bracket, angle or double quote, and nothing up to
the space. -/
def addressClass : CharClass :=
  ⟨true, [(']', ']'), ('<', '<'), ('>', '>'), ('"', '"'), ('\x00', '\x20'), ('\x7f', '\x7f')]⟩

/-- The characters of a label: no closing bracket and no control character. -/
def labelClass : CharClass :=
  ⟨true, [(']', ']'), ('\x00', '\x1f'), ('\x7f', '\x7f')]⟩

/-- A label, as short as possible, up to the closing bracket. -/
def labelPattern : Regex :=
  .seq (.lazily labelClass) (.literal [']'])

/-- An address, as long as possible, as many spaces as possible, and a label. -/
def bodyPattern : Regex :=
  .seq (.seq (.one addressClass) (.greedy addressClass))
    (.seq (.greedy (.only ' ')) labelPattern)

def schemePattern : Regex :=
  .oneOf "http".toList (["https", "ftp", "irc", "gopher", "news", "mailto"].map String.toList)

/-- A bracketed link: an opening bracket, a scheme where a word starts, a colon and the rest. -/
def linkPattern : Regex :=
  .seq (.one (.only '[')) (.seq .wordEdge (.seq schemePattern (.seq (.literal [':']) bodyPattern)))

/-! ### What the pattern takes -/

theorem has_labelClass : labelClass.has c = true ↔ c ≠ ']' ∧ isControl c = false := by
  have hle : ∀ a b : Char, a ≤ b ↔ a.toNat ≤ b.toNat := fun a b => Iff.rfl
  have heq : ∀ a b : Char, a = b ↔ a.toNat = b.toNat :=
    fun a b => ⟨congrArg _, fun h => Char.toNat_inj.mp h⟩
  simp [CharClass.has, labelClass, isControl, hle, heq]
  omega

theorem has_addressClass : addressClass.has c = true ↔ isAddressChar c = true := by
  have hle : ∀ a b : Char, a ≤ b ↔ a.toNat ≤ b.toNat := fun a b => Iff.rfl
  have heq : ∀ a b : Char, a = b ↔ a.toNat = b.toNat :=
    fun a b => ⟨congrArg _, fun h => Char.toNat_inj.mp h⟩
  simp [CharClass.has, addressClass, isAddressChar, isControl, hle, heq]
  omega

theorem has_label_of_address (h : addressClass.has c = true) : labelClass.has c = true := by
  have haddress := has_addressClass.mp h
  simp only [isAddressChar, Bool.not_eq_true', Bool.or_eq_false_iff, beq_eq_false_iff_ne] at haddress
  exact has_labelClass.mpr ⟨haddress.1.1.1.2, haddress.1.1.1.1.1⟩

variable {w : WordClass}

/-- Whatever an address and spaces leave of a body is a label, and a body could be a label from
its second character on. -/
theorem takes_bodyPattern : bodyPattern.Takes w fun t => ∃ a b, t = a :: (b ++ [']']) ∧
    isAddressChar a = true ∧ ∀ c ∈ b, c ≠ ']' ∧ isControl c = false := by
  have haddress := (Regex.takes_one (w := w) (k := addressClass)).seq
    (Regex.takes_greedy (k := addressClass))
  have hlabel := (Regex.takes_lazily (w := w) (k := labelClass)).seq (Regex.takes_literal [']'])
  refine (haddress.seq (Regex.takes_greedy.seq hlabel)).congr fun t => ?_
  constructor
  · rintro ⟨-, -, rfl, ⟨-, more, rfl, ⟨a, rfl, ha⟩, hmore⟩, spaces, -, rfl, hspaces, label, -, rfl,
      hlabel, rfl⟩
    refine ⟨a, more ++ spaces ++ label, by simp, has_addressClass.mp ha, fun c hc => ?_⟩
    rw [← has_labelClass]
    simp only [List.mem_append] at hc
    rcases hc with (hc | hc) | hc
    · exact has_label_of_address (hmore c hc)
    · rw [Regex.has_only.mp (hspaces c hc)]
      decide
    · exact hlabel c hc
  · rintro ⟨a, b, rfl, ha, hb⟩
    exact ⟨[a], b ++ [']'], rfl, ⟨[a], [], rfl, ⟨a, rfl, has_addressClass.mpr ha⟩, by simp⟩,
      [], b ++ [']'], rfl, by simp, b, [']'], rfl, fun c hc => has_labelClass.mpr (hb c hc), rfl⟩

theorem takes_linkPattern : linkPattern.Takes w IsLink := by
  have hscheme : schemePattern.Takes w fun t => t ∈ schemes := Regex.takes_oneOf _ _
  have hrest := hscheme.seq ((Regex.takes_literal (w := w) [':']).seq takes_bodyPattern)
  have hbracket : w.has '[' = false := by
    rw [w.ascii '[' (by decide)]
    decide
  refine (hrest.afterEdge hbracket ?_).congr fun t => ?_
  · -- every scheme starts with a letter
    have hall : ∀ s ∈ schemes, (s.head?.any fun c => c.toNat < 0x80 && c.isAlphanum) = true := by
      decide
    rintro - ⟨s, v, rfl, hs, -⟩
    obtain ⟨c, hc, hstart⟩ := (Option.any_eq_true ..).mp (hall s hs)
    obtain ⟨hascii, halpha⟩ : c.toNat < 0x80 ∧ c.isAlphanum = true := by simpa using hstart
    have hhead : (s ++ v).head? = some c := by
      rw [List.head?_append, hc]
      rfl
    rw [hhead, Option.any_some, w.ascii c hascii, halpha]
    rfl
  · constructor
    · rintro ⟨-, rfl, s, -, rfl, hs, -, -, rfl, rfl, a, b, rfl, ha, hb⟩
      exact ⟨s, hs, a, b, rfl, ha, hb⟩
    · rintro ⟨s, hs, a, b, rfl, ha, hb⟩
      exact ⟨_, rfl, s, _, rfl, hs, [':'], _, rfl, rfl, a, b, rfl, ha, hb⟩

theorem matched?_linkPattern (p : Spot) : linkPattern.matched? w p = length? p.after :=
  Regex.matched?_eq takes_linkPattern fun _ => length?_eq_some_iff

end BracketedLink

namespace Nowiki

open BracketedLink

variable {c : Char} {l t : Text} {w : WordClass}

theorem substituteFrom_linkPattern (before : Text) (skip : Nat) (t : Text) :
    linkPattern.substituteFrom w wrap before skip t = substituteFrom wrappedLink? skip t := by
  induction t generalizing before skip with
  | nil => cases skip <;> rfl
  | cons c t ih =>
    cases skip with
    | succ skip => exact ih (c :: before) skip
    | zero =>
      rw [Regex.substituteFrom, matched?_linkPattern, substituteFrom_zero, wrappedLink?]
      cases length? (c :: t) with
      | none => exact congrArg (c :: ·) (ih (c :: before) 0)
      | some n =>
        cases n with
        | zero => exact congrArg (c :: ·) (ih (c :: before) 0)
        | succ n => exact congrArg (wrap ((c :: t).take (n + 1)) ++ ·) (ih (c :: before) n)

/-- Replacing the matches of the pattern wraps the links. -/
theorem substitute_linkPattern (w : WordClass) (t : Text) :
    linkPattern.substitute w wrap t = wrapLinks t :=
  substituteFrom_linkPattern [] 0 t

/-! ### Pieces -/

/-- A part of a text whose links are wrapped. -/
inductive Piece where
  /-- A character that is copied. -/
  | plain (c : Char)
  /-- A link that is wrapped. -/
  | link (l : Text)

namespace Piece

def text : Piece → Text
  | plain c => [c]
  | link l => l

def wrapped : Piece → Text
  | plain c => [c]
  | link l => wrap l

end Piece

/-- Cuts a text from left to right: a link, if one starts there, or else one character. -/
inductive Cuts : Text → List Piece → Prop where
  | done : Cuts [] []
  | link {l t : Text} {ps : List Piece} : IsLink l → Cuts t ps → Cuts (l ++ t) (.link l :: ps)
  | plain {c : Char} {t : Text} {ps : List Piece} :
      (∀ l, IsLink l → ¬ l <+: c :: t) → Cuts t ps → Cuts (c :: t) (.plain c :: ps)

/-- Takes the tags out of wrapped pieces, by their places alone. -/
def unwrap : List Piece → Text → Text
  | [], t => t
  | .plain _ :: ps, t => t.take 1 ++ unwrap ps (t.drop 1)
  | .link l :: ps, t =>
    ((t.drop opening.length).take l.length)
      ++ unwrap ps (t.drop (opening.length + l.length + closing.length))

variable {ps qs : List Piece}

theorem exists_cuts (t : Text) : ∃ ps, Cuts t ps := by
  induction t using links_induction with
  | nil => exact ⟨[], .done⟩
  | link l t hl ih =>
    obtain ⟨ps, hps⟩ := ih
    exact ⟨.link l :: ps, .link hl hps⟩
  | cons c t hnone ih =>
    obtain ⟨ps, hps⟩ := ih
    refine ⟨.plain c :: ps, .plain (fun l hl hbegin => ?_) hps⟩
    obtain ⟨u, hu⟩ := hbegin
    rw [← hu, length?_append hl] at hnone
    cases hnone

/-- There is one way to cut a text. -/
theorem Cuts.unique (h : Cuts t ps) (h' : Cuts t qs) : qs = ps := by
  induction h generalizing qs with
  | done =>
    generalize hu : ([] : Text) = u at h'
    cases h' with
    | done => rfl
    | link hl _ =>
      exact absurd (List.append_eq_nil_iff.mp hu.symm).1 (List.ne_nil_of_length_pos hl.length_pos)
    | plain _ _ => cases hu
  | @link l t ps hl _ ih =>
    generalize hu : l ++ t = u at h'
    cases h' with
    | done => exact absurd (List.append_eq_nil_iff.mp hu).1 (List.ne_nil_of_length_pos hl.length_pos)
    | @link m v qs hm hv =>
      obtain ⟨rfl, rfl⟩ := List.append_inj hu (hl.length_eq hm hu)
      rw [ih hv]
    | plain hnot _ => exact absurd ⟨t, hu⟩ (hnot l hl)
  | @plain c t ps hnot _ ih =>
    generalize hu : c :: t = u at h'
    cases h' with
    | done => cases hu
    | @link m v qs hm _ => exact absurd ⟨v, hu.symm⟩ (hnot m hm)
    | plain _ hv =>
      obtain ⟨rfl, rfl⟩ := List.cons.inj hu
      rw [ih hv]

theorem Cuts.text_eq (h : Cuts t ps) : ps.flatMap Piece.text = t := by
  induction h with
  | done => rfl
  | link _ _ ih => rw [List.flatMap_cons, ih, Piece.text]
  | plain _ _ ih => rw [List.flatMap_cons, ih, Piece.text, List.singleton_append]

theorem Cuts.wrapped_eq (h : Cuts t ps) : ps.flatMap Piece.wrapped = wrapLinks t := by
  induction h with
  | done => rfl
  | link hl _ ih => rw [List.flatMap_cons, ih, wrapLinks_append hl, Piece.wrapped]
  | @plain c t ps hnot _ ih =>
    have hnone : length? (c :: t) = none := by
      cases hfound : length? (c :: t) with
      | none => rfl
      | some n =>
        obtain ⟨l, u, heq, hl, -⟩ := length?_eq_some_iff.mp hfound
        exact absurd ⟨u, heq.symm⟩ (hnot l hl)
    rw [List.flatMap_cons, ih, wrapLinks_cons_of_none hnone, Piece.wrapped, List.singleton_append]

theorem unwrap_wrapped (ps : List Piece) :
    unwrap ps (ps.flatMap Piece.wrapped) = ps.flatMap Piece.text := by
  induction ps with
  | nil => rfl
  | cons p ps ih =>
    rw [List.flatMap_cons, List.flatMap_cons]
    cases p with
    | plain c => exact congrArg _ ih
    | link l =>
      have hlength : (wrap l).length = opening.length + l.length + closing.length := by
        simp [wrap, Nat.add_assoc]
      have hlink : ((wrap l ++ ps.flatMap Piece.wrapped).drop opening.length).take l.length = l := by
        rw [wrap, List.append_assoc, List.append_assoc, List.drop_left, List.take_left]
      rw [unwrap, Piece.wrapped, Piece.text, hlink, ← hlength, List.drop_left, ih]

/-- Every link of a text lies in one of the links that it is cut into. -/
theorem Cuts.covers (h : Cuts t ps) {x m y : Text} (heq : t = x ++ m ++ y) (hm : IsLink m) :
    ∃ before l after a b, ps = before ++ .link l :: after ∧ l = a ++ m ++ b ∧
      x = before.flatMap Piece.text ++ a ∧ y = b ++ after.flatMap Piece.text := by
  induction h generalizing x with
  | done =>
    have hpos := hm.length_pos
    have hlength := congrArg List.length heq
    simp only [List.length_nil, List.length_append] at hlength
    omega
  | @link l t ps hl hcuts ih =>
    rw [List.append_assoc] at heq
    rcases Nat.lt_or_ge x.length l.length with hlt | hge
    · -- a link that starts within another ends with it
      have hfound : length? (x ++ (m ++ y)) = some l.length := by
        rw [← heq]
        exact length?_append hl t
      have hend := length?_overlap hfound hlt (length?_append hm y)
      obtain ⟨rfl, rfl⟩ : l = x ++ m ∧ t = y := by
        rw [← List.append_assoc] at heq
        exact List.append_inj heq (by rw [List.length_append]; exact hend.symm)
      exact ⟨[], x ++ m, ps, x, [], rfl, by simp, rfl, hcuts.text_eq.symm⟩
    · obtain ⟨x', rfl⟩ : l <+: x :=
        List.prefix_of_prefix_length_le ⟨t, heq⟩ (List.prefix_append ..) hge
      rw [List.append_assoc, List.append_cancel_left_eq] at heq
      obtain ⟨before, k, after, a, b, rfl, hk, rfl, hy⟩ := ih (by rw [heq, List.append_assoc])
      exact ⟨.link l :: before, k, after, a, b, rfl, hk, by simp [Piece.text], hy⟩
  | @plain c t ps hnot _ ih =>
    cases x with
    | nil => exact absurd ⟨y, heq.symm⟩ (hnot m hm)
    | cons d x =>
      obtain ⟨rfl, rfl⟩ := List.cons.inj heq
      obtain ⟨before, k, after, a, b, rfl, hk, rfl, hy⟩ := ih rfl
      exact ⟨.plain c :: before, k, after, a, b, rfl, hk, rfl, hy⟩

/-- The pattern wraps the links that a text is cut into from left to right and copies all else:
by the places of the tags the text can be had back, and every link of it is within one that is
wrapped. -/
theorem wrapLinks_exact (w : WordClass) (t : Text) :
    linkPattern.substitute w wrap t = wrapLinks t ∧
    ∃ ps, (∀ qs, Cuts t qs ↔ qs = ps) ∧ wrapLinks t = ps.flatMap Piece.wrapped ∧
      unwrap ps (wrapLinks t) = t ∧
      ∀ x m y, t = x ++ m ++ y → IsLink m → ∃ before l after a b,
        ps = before ++ .link l :: after ∧ l = a ++ m ++ b ∧
          x = before.flatMap Piece.text ++ a ∧ y = b ++ after.flatMap Piece.text := by
  obtain ⟨ps, hps⟩ := exists_cuts t
  refine ⟨substitute_linkPattern w t, ps, fun qs => ⟨hps.unique, fun h => h ▸ hps⟩,
    hps.wrapped_eq.symm, ?_, fun x m y heq hm => hps.covers heq hm⟩
  rw [← hps.wrapped_eq, unwrap_wrapped, hps.text_eq]

/-- The second bracket starts a link and the others do not: the first has no scheme after it, and
nothing closes the last. -/
theorem wrapLinks_exact_brackets :
    linkPattern.substitute .basic wrap "[see [https://a b] or [ftp:c".toList =
      "[see <nowiki>[https://a b]</nowiki> or [ftp:c".toList := by
  obtain ⟨hpattern, -⟩ := wrapLinks_exact .basic "[see [https://a b] or [ftp:c".toList
  rw [hpattern]
  decide +kernel

end Nowiki

end Wikitext

/-
  Wikitext/Proofs/Conversion/Visible.lean
  =======================================
  **The layout loses nothing.**  Put the texts of a prepared document together with what its rules
  put around them, and do nothing else: no trimming, no line formats, no marks, no empty lines
  (`Session.bareMarkup`).  What is visible of this, white space aside, is what is visible of the
  finished markup, but for the placeholder (`convert_visible`).

  The proof reads the markup against the bare markup.  The reader has the visible characters
  still to come as its state and passes over placeholders (`MediaWiki.Matches`).  The last pass
  replaces placeholders wherever it finds them, and may find one that was not put there: the
  characters of one may come from texts that the document has apart, or appear when another one
  in their midst is replaced.  So the statement needs the visible markup to be free of it, and
  fails without (`convert_splitPlaceholder`).
-/
import Wikitext.Proofs.Conversion.Blocks
import Wikitext.Proofs.Conversion.Treatment
import Wikitext.Proofs.Nowiki.Markers
import Wikitext.Proofs.Text.Scan

namespace Wikitext

open Text

variable {c : Char} {m t u v w x z : Text}

/-! ### White space aside -/

namespace Text

@[simp] theorem visible_nil : visible [] = [] := rfl

@[simp] theorem visible_append (t u : Text) : visible (t ++ u) = visible t ++ visible u :=
  List.filter_append ..

theorem visible_cons_of_pos (hc : isSpace c = true) (t : Text) : visible (c :: t) = visible t := by
  simp [visible, hc]

theorem visible_cons_of_neg (hc : isSpace c = false) (t : Text) :
    visible (c :: t) = c :: visible t := by
  simp [visible, hc]

end Text

/-! ### Against the bare markup -/

namespace MediaWiki

def unmarked (t : Text) : Text :=
  replace placeholder [] t

/-- Reads a character that is to come, or a placeholder. -/
inductive Matches : Text → Text → Text → Prop where
  | char {c : Char} {w : Text} : isSpace c = false → Matches (c :: w) [c] w
  | mark {w : Text} : Matches w placeholder w

theorem placeholder_ne_nil : placeholder ≠ [] := by decide

theorem occurs_placeholder_append (t : Text) : occurs placeholder (placeholder ++ t) = true :=
  occurs_iff.mpr (List.prefix_append placeholder t).isInfix

theorem not_isSpace_placeholder : ∀ c ∈ placeholder, isSpace c = false :=
  not_isSpace_of_all (by decide)

/-- The placeholder starts with a bracket, and has no other. -/
theorem placeholder_eq : placeholder = '[' :: placeholder.tail ∧ '[' ∉ placeholder.tail := by
  decide

theorem compact_of_matches (v x w : Text) (h : Matches v x w) : Compact x := by
  cases h with
  | char hc => exact compact_singleton hc
  | mark =>
    have hplaceholder : placeholder = '[' :: (placeholder.tail.dropLast ++ [']']) := by decide
    rw [hplaceholder]
    exact compact_between (by decide) (by decide) (by decide)

theorem scans_placeholder (w : Text) : Scans Matches w placeholder w :=
  .token .mark

theorem scans_visible (t w : Text) : Scans Matches (visible t ++ w) t w := by
  induction t with
  | nil => exact .done
  | cons c t ih =>
    cases hc : isSpace c with
    | true =>
      rw [visible_cons_of_pos hc]
      exact .space hc ih
    | false =>
      rw [visible_cons_of_neg hc]
      exact .step (.char hc) ih

theorem scans_visible_unmarked (t w : Text) :
    Scans Matches (visible (unmarked t) ++ w) t w := by
  induction t using replace_induction placeholder_ne_nil with
  | nil => exact .done
  | found t ih =>
    rw [unmarked, replace_append_self placeholder_ne_nil, List.nil_append]
    exact .step .mark ih
  | cons c t hnot ih =>
    rw [unmarked, replace_cons_of_not_prefix hnot]
    cases hc : isSpace c with
    | true =>
      rw [visible_cons_of_pos hc]
      exact .space hc ih
    | false =>
      rw [visible_cons_of_neg hc]
      exact .step (.char hc) ih

/-! ### The last pass -/

/-- A character that is not white was to come, or starts a placeholder. -/
theorem scans_cons_cases (hc : isSpace c = false) (h : Scans Matches v (c :: t) z) :
    (∃ w, v = c :: w ∧ Scans Matches w t z) ∨
      ∃ u, c :: t = placeholder ++ u ∧ Scans Matches v u z := by
  obtain ⟨x, u, m, heq, hx, hrest⟩ := exists_of_scans_cons hc h
  cases hx with
  | char _ =>
    rw [List.singleton_append, List.cons.injEq] at heq
    left
    rw [heq.1, heq.2]
    exact ⟨_, rfl, hrest⟩
  | mark => exact Or.inr ⟨u, heq, hrest⟩

/-- Characters that no placeholder starts with were to come. -/
theorem exists_of_scans_append (hx : ∀ c ∈ x, isSpace c = false) (hbracket : '[' ∉ x)
    (h : Scans Matches v (x ++ t) z) : ∃ w, v = x ++ w ∧ Scans Matches w t z := by
  induction x generalizing v with
  | nil => exact ⟨v, rfl, h⟩
  | cons c x ih =>
    rw [List.forall_mem_cons] at hx
    rw [List.mem_cons, not_or] at hbracket
    rcases scans_cons_cases hx.1 h with ⟨y, rfl, hy⟩ | ⟨u, hu, -⟩
    · obtain ⟨w, rfl, hw⟩ := ih hx.2 hbracket.2 hy
      exact ⟨w, rfl, hw⟩
    · rw [placeholder_eq.1, List.cons_append, List.cons.injEq] at hu
      exact absurd hu.1.symm hbracket.1

/-- A placeholder is passed over, or was to come. -/
theorem scans_placeholder_cases (h : Scans Matches v (placeholder ++ t) z) :
    Scans Matches v t z ∨ ∃ w, v = placeholder ++ w ∧ Scans Matches w t z := by
  obtain ⟨hbracket, htail⟩ := placeholder_eq
  have hspace : ∀ c ∈ placeholder.tail, isSpace c = false := fun c hc =>
    not_isSpace_placeholder c (List.mem_of_mem_tail hc)
  rw [hbracket, List.cons_append] at h
  rcases scans_cons_cases rfl h with ⟨y, rfl, hy⟩ | ⟨u, hu, hu'⟩
  · obtain ⟨w, rfl, hw⟩ := exists_of_scans_append hspace htail hy
    right
    exact ⟨w, by rw [← List.cons_append, ← hbracket], hw⟩
  · rw [← List.cons_append, ← hbracket, List.append_cancel_left_eq] at hu
    left
    rw [hu]
    exact hu'

theorem finish_placeholder (t : Text) : finish (placeholder ++ t) = ' ' :: finish t :=
  replace_append_self placeholder_ne_nil [' '] t

theorem visible_finish_placeholder (t : Text) :
    visible (finish (placeholder ++ t)) = visible (finish t) := by
  rw [finish_placeholder]
  exact visible_cons_of_pos rfl _

/-- Where no placeholder was to come, the last pass leaves what was. -/
theorem visible_finish_of_notOccurs (h : Scans Matches v m [])
    (hv : occurs placeholder v = false) : visible (finish m) = v := by
  induction m using replace_induction placeholder_ne_nil generalizing v with
  | nil => exact ((scans_nil_iff compact_of_matches).mp h).symm
  | found m ih =>
    rw [visible_finish_placeholder]
    rcases scans_placeholder_cases h with hskip | ⟨w, rfl, -⟩
    · exact ih hskip hv
    · rw [occurs_placeholder_append] at hv
      cases hv
  | cons c m hprefix ih =>
    rw [finish, replace_cons_of_not_prefix hprefix]
    cases hc : isSpace c with
    | true =>
      rw [visible_cons_of_pos hc]
      exact ih ((scans_cons_iff compact_of_matches hc).mp h) hv
    | false =>
      rw [visible_cons_of_neg hc]
      rcases scans_cons_cases hc h with ⟨w, rfl, hw⟩ | ⟨u, hu, -⟩
      · rw [occurs, Bool.or_eq_false_iff] at hv
        exact congrArg _ (ih hw hv.2)
      · rw [hu] at hprefix
        exact absurd (List.prefix_append placeholder u) hprefix

theorem unmarked_tail_append (t : Text) :
    unmarked (placeholder.tail ++ t) = placeholder.tail ++ unmarked t := by
  have happend := replace_append_of_notMem placeholder_eq.2 placeholder.tail [] t
  rwa [← placeholder_eq.1] at happend

/-- Where no placeholder is left, the last pass leaves what was to come without the
placeholders. -/
theorem visible_finish_of_notOccurs_finish (h : Scans Matches v m [])
    (hfree : occurs placeholder (visible (finish m)) = false) :
    visible (finish m) = unmarked v := by
  induction m using replace_induction placeholder_ne_nil generalizing v with
  | nil =>
    obtain rfl := (scans_nil_iff compact_of_matches).mp h
    rfl
  | found m ih =>
    -- the reader may have taken the placeholder for characters that were to come
    rw [visible_finish_placeholder] at hfree ⊢
    rcases scans_placeholder_cases h with hskip | ⟨w, rfl, hw⟩
    · exact ih hskip hfree
    · rw [unmarked, replace_append_self placeholder_ne_nil]
      exact ih hw hfree
  | cons c m hprefix ih =>
    rw [finish, replace_cons_of_not_prefix hprefix] at hfree ⊢
    cases hc : isSpace c with
    | true =>
      rw [visible_cons_of_pos hc] at hfree ⊢
      exact ih ((scans_cons_iff compact_of_matches hc).mp h) hfree
    | false =>
      rw [visible_cons_of_neg hc] at hfree ⊢
      rcases scans_cons_cases hc h with ⟨w, rfl, hw⟩ | ⟨u, hu, -⟩
      · have hrest : visible (finish m) = unmarked w := by
          rw [occurs, Bool.or_eq_false_iff] at hfree
          exact ih hw hfree.2
        rw [← finish, hrest] at hfree ⊢
        by_cases hword : placeholder <+: c :: w
        · -- it would be left, since only its first character can start a placeholder
          exfalso
          obtain ⟨y, hy⟩ := hword
          rw [placeholder_eq.1, List.cons_append, List.cons.injEq] at hy
          rw [← hy.2, unmarked_tail_append, ← hy.1, ← List.cons_append, ← placeholder_eq.1,
            occurs_placeholder_append] at hfree
          cases hfree
        · exact Eq.symm <| replace_cons_of_not_prefix hword []
      · rw [hu] at hprefix
        exact absurd (List.prefix_append placeholder u) hprefix

end MediaWiki

/-! ### The bare markup -/

namespace Report

variable {ε : Type} {r : Report ε Text}

def text (r : Report ε Text) : Text :=
  match r.outcome with
  | .ok t => t
  | .error _ => []

theorem text_of_outcome (h : r.outcome = .ok t) : r.text = t := by
  rw [text, h]

end Report

namespace Session

/-- The markup of an element that is treated in some way, without any layout, when `inner` is that
of its children.  Of what replaces an element stays what `keep` leaves. -/
def treatBare (s : Session) (keep : Text → Text) (e : PlacedElement)
    (content : Report UrlError Text) (inner : Text) : Treatment → Text
  | .dropped => []
  | .unwrapped => inner
  | .replaced f => keep (s.expand e content f).text
  | .void rule => startTag e.name rule.attributes e.attributes true
  | .tagged rule => startTag e.name rule.attributes e.attributes false ++ inner ++ endTag e.name
  | .wrapped rule =>
    (s.expand e content rule.opening).text ++ inner ++ (s.expand e content rule.closing).text

mutual
/-- The markup of a node at a place without any layout. -/
def bareMarkup (s : Session) (keep : Text → Text) (around : Surroundings) : Node → Text
  | .text content _ => content
  | .special .comment content => commentMarkup content
  | .special _ _ => []
  | .element name attributes children =>
    s.treatBare keep ⟨around, name, attributes, children⟩
      (s.markupAll (around.enter (lowerName name)) false children)
      (bareMarkupAll s keep (around.enter (lowerName name)) false children)
      (s.treatment (lowerName name))

/-- The markup of siblings without any layout. -/
def bareMarkupAll (s : Session) (keep : Text → Text) (ancestors : List Frame) (preceded : Bool) :
    List Node → Text
  | [] => []
  | node :: nodes =>
    bareMarkup s keep ⟨preceded, ancestors⟩ node
      ++ bareMarkupAll s keep ancestors (preceded || node.carriesContent) nodes
end

/-- The markup of a document, prepared and without any layout. -/
def bareMarkupOf (s : Session) (keep : Text → Text) (document : List Node) : Text :=
  match s.prepare document with
  | .ok prepared => s.bareMarkupAll keep Surroundings.document false prepared
  | .error _ => []

open MediaWiki

variable {options : Options} {rule : Rule} {treatment : Treatment} {keep : Text → Text}
  {e : PlacedElement} {content : Report UrlError Text} {inner : Text}

theorem scans_laidOut {opening content closing : Text}
    (hrule : rule.linePrefix = [] ∨ rule.linePrefix = placeholder)
    (hcontent : ∀ w, Scans Matches (visible inner ++ w) content w) (w : Text) :
    Scans Matches (visible (opening ++ inner ++ closing) ++ w)
      (rule.layout opening content closing) w := by
  rw [visible_append, visible_append, List.append_assoc, List.append_assoc]
  apply (scans_visible opening _).layout compact_of_matches (hcontent _) (scans_visible closing w)
  intro hne m
  rw [hrule.resolve_left hne]
  exact scans_placeholder m

/-- Nothing visible is lost of a text but placeholders. -/
def Keeps (keep : Text → Text) : Prop :=
  ∀ t w, Scans Matches (visible (keep t) ++ w) t w

theorem scans_treat {s : Session} (hkeep : Keeps keep)
    (hmark : ∀ rule ∈ treatment.rule?, rule.linePrefix = [] ∨ rule.linePrefix = placeholder)
    (hinner : ∀ t w, content.outcome = .ok t → Scans Matches (visible inner ++ w) t w)
    (h : (s.treat e content treatment).outcome = .ok t) (w : Text) :
    Scans Matches (visible (s.treatBare keep e content inner treatment) ++ w) t w := by
  cases treatment with
  | dropped =>
    obtain rfl := Except.ok.inj h
    exact .done
  | unwrapped => exact hinner t w h
  | replaced f =>
    have htext : (s.expand e content f).text = t := Report.text_of_outcome h
    rw [treatBare, htext]
    exact hkeep t w
  | void rule =>
    obtain rfl := Except.ok.inj h
    have hlaid : Scans Matches
        (visible (startTag e.name rule.attributes e.attributes true ++ [] ++ []) ++ w)
        (rule.layout (startTag e.name rule.attributes e.attributes true) [] []) w :=
      scans_laidOut (hmark rule rfl) (fun _ => .done) w
    rwa [List.append_nil, List.append_nil] at hlaid
  | tagged rule =>
    obtain ⟨body, hbody, h⟩ := Report.andThen_outcome_ok_iff.mp h
    obtain rfl := Except.ok.inj h
    exact scans_laidOut (hmark rule rfl) (fun w => hinner body w hbody) w
  | wrapped rule =>
    obtain ⟨body, hbody, h⟩ := Report.andThen_outcome_ok_iff.mp h
    obtain ⟨opening, hopening, h⟩ := Report.andThen_outcome_ok_iff.mp h
    obtain ⟨closing, hclosing, h⟩ := Report.andThen_outcome_ok_iff.mp h
    obtain rfl := Except.ok.inj h
    rw [treatBare, Report.text_of_outcome hopening, Report.text_of_outcome hclosing]
    exact scans_laidOut (hmark rule rfl) (fun w => hinner body w hbody) w

mutual
theorem scans_markup (hkeep : Keeps keep) : ∀ (node : Node) (around : Surroundings) (t w : Text),
    ((mediaWiki options).markup around node).outcome = .ok t →
      Scans Matches (visible ((mediaWiki options).bareMarkup keep around node) ++ w) t w
  | .text content guarded, around, t, w, h => by
    obtain rfl := Except.ok.inj h
    exact scans_visible content w
  | .special kind content, around, t, w, h => by
    cases kind with
    | comment =>
      obtain rfl := Except.ok.inj h
      exact scans_visible _ w
    | _ =>
      obtain rfl := Except.ok.inj h
      exact .done
  | .element name attributes children, around, t, w, h => by
    rw [markup, elementMarkup_eq] at h
    exact scans_treat hkeep (linePrefix_of_treatment options (lowerName name))
      (scans_markupAll hkeep children (around.enter (lowerName name)) false) h w

theorem scans_markupAll (hkeep : Keeps keep) : ∀ (nodes : List Node) (ancestors : List Frame)
    (preceded : Bool) (t w : Text),
    ((mediaWiki options).markupAll ancestors preceded nodes).outcome = .ok t →
      Scans Matches
        (visible ((mediaWiki options).bareMarkupAll keep ancestors preceded nodes) ++ w) t w
  | [], _, _, t, w, h => by
    obtain rfl := Except.ok.inj h
    exact .done
  | node :: nodes, ancestors, preceded, t, w, h => by
    rw [markupAll] at h
    obtain ⟨first, hfirst, h⟩ := Report.andThen_outcome_ok_iff.mp h
    obtain ⟨rest, hrest, h⟩ := Report.andThen_outcome_ok_iff.mp h
    obtain rfl := Except.ok.inj h
    rw [bareMarkupAll, visible_append, List.append_assoc]
    exact (scans_markup hkeep node _ first _ hfirst).append
      (scans_markupAll hkeep nodes ancestors _ rest w hrest)
end

/-- Finished markup comes from markup that is read against the bare markup of the document. -/
theorem exists_scans_of_convert {document : List Node} (hkeep : Keeps keep)
    (h : ((mediaWiki options).convert document).outcome = .ok t) : ∃ m, t = finish m ∧
      Scans Matches (visible ((mediaWiki options).bareMarkupOf keep document)) m [] := by
  obtain ⟨prepared, u, hprepared, hu, rfl⟩ := convert_outcome_ok_iff.mp h
  have hscans := scans_markupAll hkeep prepared Surroundings.document false u [] hu
  rw [List.append_nil] at hscans
  rw [bareMarkupOf, hprepared]
  exact ⟨u.tidy, rfl, hscans.tidy compact_of_matches⟩

/-! ### What is visible -/

/-- Where the bare markup of a document is free of placeholders once they are taken out of it, it
and the finished markup have the same visible characters exactly when the finished markup is free
of placeholders too.  That is so when no placeholder is left in the bare markup after those are
taken out that stand in what replaces an element. -/
theorem convert_visible {options : Options} {document : List Node} {t : Text}
    (h : ((mediaWiki options).convert document).outcome = .ok t)
    (hbare : occurs placeholder
      (unmarked (visible ((mediaWiki options).bareMarkupOf id document))) = false) :
    (visible t = unmarked (visible ((mediaWiki options).bareMarkupOf id document)) ↔
      occurs placeholder (visible t) = false) ∧
    (occurs placeholder (visible ((mediaWiki options).bareMarkupOf unmarked document)) = false →
      visible t = unmarked (visible ((mediaWiki options).bareMarkupOf id document))) := by
  have hkeep : Keeps id := scans_visible
  obtain ⟨m, rfl, hm⟩ := exists_scans_of_convert hkeep h
  have hfree : occurs placeholder (visible (finish m)) = false →
      visible (finish m) = unmarked (visible ((mediaWiki options).bareMarkupOf id document)) :=
    visible_finish_of_notOccurs_finish hm
  refine ⟨⟨fun heq => heq ▸ hbare, hfree⟩, fun hkept => hfree ?_⟩
  obtain ⟨n, hn, hscans⟩ := exists_scans_of_convert scans_visible_unmarked h
  rw [hn, visible_finish_of_notOccurs hscans hkept]
  exact hkept

end Session

namespace Node

mutual
/-- The texts, special strings and values of attributes in a tree. -/
def strings : Node → List Text
  | .text content _ => [content]
  | .special _ content => [content]
  | .element _ attributes children => attributes.map (·.value.text) ++ stringsAll children

def stringsAll : List Node → List Text
  | [] => []
  | node :: nodes => strings node ++ stringsAll nodes
end

end Node

namespace Session

open MediaWiki

/-- Preformatted text in a link, and a comment. -/
def framedListing : List Node :=
  [.element "a" [⟨"href", .single "http://h/x".toList⟩]
      [.element "pre" [] [.text "a\n b".toList false]],
    .element "p" [] [.text " c <d> ".toList false, .special .comment "e".toList]]

theorem convert_framedListing : ∃ t,
    ((mediaWiki {}).convert framedListing).outcome = .ok t ∧
      visible t = "[http://h/xab]c&lt;d&gt;".toList := by
  have hrun : ((mediaWiki {}).convert framedListing).outcome =
        .ok "[http://h/x\n\n a\n  b\n\n]\n\nc &lt;d&gt;".toList ∧
      unmarked (visible ((mediaWiki {}).bareMarkupOf id framedListing)) =
        "[http://h/xab]c&lt;d&gt;".toList ∧
      occurs placeholder (visible ((mediaWiki {}).bareMarkupOf unmarked framedListing)) = false := by
    decide +kernel
  obtain ⟨ht, hbare, hkept⟩ := hrun
  refine ⟨_, ht, ((convert_visible ht ?_).2 hkept).trans hbare⟩
  rw [hbare]
  decide +kernel

/-- Two paragraphs that spell a placeholder together. -/
def splitPlaceholder : List Node :=
  [.element "p" [] [.text (placeholder.take 12) false],
    .element "p" [] [.text (placeholder.drop 12) false]]

/-- The two parts stay in the finished markup, and are none of the bare markup's. -/
theorem convert_splitPlaceholder :
    (∀ string ∈ Node.stringsAll splitPlaceholder, occurs placeholder string = false) ∧
    occurs placeholder
      (unmarked (visible ((mediaWiki {}).bareMarkupOf id splitPlaceholder))) = false ∧
    ∃ t, ((mediaWiki {}).convert splitPlaceholder).outcome = .ok t ∧
      visible t ≠ unmarked (visible ((mediaWiki {}).bareMarkupOf id splitPlaceholder)) ∧
      visible t ≠ visible (unmarked ((mediaWiki {}).bareMarkupOf id splitPlaceholder)) := by
  have hrun : ((mediaWiki {}).convert splitPlaceholder).outcome =
        .ok "[qzhvkwpxrjm\n\nbtnfgdlsycq]".toList ∧
      (mediaWiki {}).bareMarkupOf id splitPlaceholder = placeholder := by
    decide +kernel
  obtain ⟨ht, hbare⟩ := hrun
  rw [hbare]
  exact ⟨by decide +kernel, by decide +kernel, _, ht, by decide +kernel, by decide +kernel⟩

end Session

end Wikitext

/-
  Wikitext/Proofs/Conversion/Emphasis.lean
  ========================================
  **Emphasis in a line.**  A paragraph of texts and emphasized texts becomes one line, in which
  two apostrophes stand on both sides of what is emphasized.  A wiki reads apostrophes in runs,
  so the line says what is emphasized as long as no apostrophe of a text comes to stand beside
  those.

  The guard looks at one text at a time, and a single apostrophe is no collision.  So the runs of
  the line are right just if no two neighbouring parts meet in apostrophes, where the parts are
  the texts as they are guarded and the marks around them (`convert_phrases`).  Two emphasized
  texts side by side always meet, and a text meets the marks beside it if it has an apostrophe
  there.  Where nothing meets, the emphasized texts are read back from between the marks.
-/
import Wikitext.Proofs.Conversion.Fidelity
import Wikitext.Proofs.Nowiki.Signs

namespace Wikitext

open Text Nowiki

namespace Nowiki

variable {a b : List Sign} {inside : Option Text} {t : Text}

/-! ### Reading italics -/

/-- Every run of open quotes in the text has one or two, and those of two are a pair for each of
`n` emphasized texts. -/
def Emphasizes (t : Text) (n : Nat) : Prop :=
  (∀ k ∈ runLengths (isMark '\'') (signs t), k = 1 ∨ k = 2) ∧
    (runLengths (isMark '\'') (signs t)).count 2 = 2 * n

instance (t : Text) (n : Nat) : Decidable (Emphasizes t n) :=
  inferInstanceAs (Decidable (_ ∧ _))

/-- A single quote that is open to be read as markup. -/
def quote : Sign := ('\'', true)

/-- What is read behind a pair of quotes. -/
def turned (inside : Option Text) : Option Text :=
  if inside.isSome then none else some []

/-- What stands between two pairs of open quotes; `inside` is what has been read behind a pair
that is not closed yet. -/
def italicsFrom : (inside : Option Text) → List Sign → List Text
  | _, [] => []
  | _, [_] => []
  | inside, x :: y :: rest =>
    if isMark '\'' x && isMark '\'' y then inside.toList ++ italicsFrom (turned inside) rest
    else italicsFrom (inside.map (· ++ [x.1])) (y :: rest)

/-- The texts that a wiki sets in italics. -/
def italics (t : Text) : List Text :=
  italicsFrom none (signs t)

/-- What makes no pair with the next sign is passed over or read. -/
theorem italicsFrom_cons {x : Sign} (h : (isMark '\'' x && a.head?.any (isMark '\'')) = false)
    (inside : Option Text) :
    italicsFrom inside (x :: a) = italicsFrom (inside.map (· ++ [x.1])) a := by
  cases a with
  | nil => rfl
  | cons y a =>
    have hpair : (isMark '\'' x && isMark '\'' y) = false := h
    rw [italicsFrom, hpair, if_neg Bool.false_ne_true]

theorem of_pairCount_cons {x : Sign} (h : pairCount (isMark '\'') (x :: a) = 0) :
    (isMark '\'' x && a.head?.any (isMark '\'')) = false ∧ pairCount (isMark '\'') a = 0 := by
  rw [pairCount_cons] at h
  cases hpair : isMark '\'' x && a.head?.any (isMark '\'') with
  | true =>
    rw [hpair, if_pos rfl] at h
    omega
  | false => exact ⟨rfl, by omega⟩

theorem italicsFrom_of_pairCount (h : pairCount (isMark '\'') a = 0) (inside : Option Text) :
    italicsFrom inside a = [] := by
  induction a generalizing inside with
  | nil => rfl
  | cons x a ih =>
    obtain ⟨hpair, ha⟩ := of_pairCount_cons h
    rw [italicsFrom_cons hpair, ih ha]

/-- The first pair of quotes opens or closes italics. -/
theorem italicsFrom_append (h : pairCount (isMark '\'') (a ++ [quote]) = 0)
    (inside : Option Text) (b : List Sign) : italicsFrom inside (a ++ quote :: quote :: b) =
      (inside.map (· ++ written a)).toList ++ italicsFrom (turned inside) b := by
  induction a generalizing inside with
  | nil =>
    have hpair : (isMark '\'' quote && isMark '\'' quote) = true := rfl
    rw [List.nil_append, italicsFrom, hpair, if_pos rfl]
    cases inside <;> simp [written]
  | cons x a ih =>
    rw [List.cons_append] at h
    obtain ⟨hpair, ha⟩ := of_pairCount_cons h
    have hhead : (a ++ quote :: quote :: b).head? = (a ++ [quote]).head? := by
      cases a <;> rfl
    rw [← hhead] at hpair
    rw [List.cons_append, italicsFrom_cons hpair, ih ha]
    cases inside <;> simp [written, turned]

theorem italicsFrom_append_of_none (hb : ∀ x ∈ b, isMark '\'' x = false) (inside : Option Text)
    (a : List Sign) : italicsFrom inside (a ++ b) = italicsFrom inside a := by
  have hnil : ∀ inside, italicsFrom inside b = [] :=
    italicsFrom_of_pairCount (pairCount_of_none hb)
  have hhead : b.head?.any (isMark '\'') = false := by
    cases b with
    | nil => rfl
    | cons y b => exact hb y (List.mem_cons_self ..)
  fun_induction italicsFrom inside a with
  | case1 inside => exact hnil inside
  | case2 inside x =>
    rw [List.singleton_append, italicsFrom_cons (by rw [hhead, Bool.and_false]), hnil]
  | case3 inside x y rest hpair ih =>
    rw [List.cons_append, List.cons_append, italicsFrom, if_pos hpair, ih]
  | case4 inside x y rest hpair ih =>
    rw [List.cons_append] at ih
    rw [List.cons_append, List.cons_append, italicsFrom, if_neg hpair, ih]

/-- What has no quotes stands in no italics before them and after them. -/
theorem italicsFrom_between (ha : ∀ x ∈ a, isMark '\'' x = false)
    {c : List Sign} (hc : ∀ x ∈ c, isMark '\'' x = false) (b : List Sign) :
    italicsFrom none (a ++ b ++ c) = italicsFrom none b := by
  rw [italicsFrom_append_of_none hc]
  induction a with
  | nil => rfl
  | cons x a ih =>
    obtain ⟨hx, ha⟩ := List.forall_mem_cons.mp ha
    rw [List.cons_append, italicsFrom_cons (by rw [hx, Bool.false_and])]
    exact ih ha

end Nowiki

/-! ### Phrases -/

/-- A text, or an element around one text. -/
inductive Phrase where
  | text (raw : Text)
  | emphasis (name : String) (attributes : Attributes) (raw : Text)

namespace Phrase

def node : Phrase → Node
  | text raw => .text raw false
  | emphasis name attributes raw => .element name attributes [.text raw false]

/-- A text that is not blank, alone or in an `em` element. -/
def IsPlain : Phrase → Prop
  | text raw => raw.isWhite = false
  | emphasis name _ raw => lowerName name = "em" ∧ raw.isWhite = false

def raw : Phrase → Text
  | text raw => raw
  | emphasis _ _ raw => raw

def isEmphasis : Phrase → Bool
  | text _ => false
  | emphasis .. => true

instance : DecidablePred IsPlain
  | text raw => inferInstanceAs (Decidable (raw.isWhite = false))
  | emphasis name _ raw => inferInstanceAs (Decidable (lowerName name = "em" ∧ raw.isWhite = false))

/-- The marks around what is emphasized. -/
def marks : Text := ['\'', '\'']

/-- The parts of the markup of a phrase: guarded texts and marks. -/
def parts : Phrase → List Text
  | text raw => [(Session.mediaWiki {}).guardText false raw]
  | emphasis _ attributes raw =>
    if Element.isFurniture attributes then []
    else [marks, (Session.mediaWiki {}).guardText false raw, marks]

/-- The text that a phrase emphasizes. -/
def emphasized? : Phrase → Option Text
  | text _ => none
  | emphasis _ attributes raw => if Element.isFurniture attributes then none else some raw

end Phrase

namespace Session

variable {phrases : List Phrase} {phrase : Phrase} {name : String} {attributes : Attributes}
  {raw t u w : Text}

open Phrase

/-! ### The markup of phrases -/

theorem wraps_em :
    Wraps "em" (MediaWiki.emphasisRule marks) (fun _ => marks) (fun _ => marks) where
  notMem := by decide
  solid := by decide
  find := by decide +kernel
  kind := rfl
  opens := fun _ _ => rfl
  closes := fun _ _ => rfl

theorem guardText_ne_nil (h : raw.isWhite = false) : (mediaWiki {}).guardText false raw ≠ [] :=
  fun hnil => by
    rw [← isWhite_guardText, hnil] at h
    cases h

theorem produces_phrase (h : phrase.IsPlain) :
    Produces false [phrase.node] fun _ _ _ t => t = phrase.parts.flatten := by
  cases phrase with
  | text raw => exact produces_text fun _ _ => (List.append_nil _).symm
  | emphasis name attributes raw =>
    obtain ⟨hname, -⟩ := h
    rw [Phrase.parts]
    by_cases hfurniture : Element.isFurniture attributes = true
    · have hname' : lowerName name ≠ "a" := by
        rw [hname]
        decide
      rw [if_pos hfurniture]
      exact produces_dropped (fun above => prepareNode_furniture hname' hfurniture) fun _ _ => rfl
    · have htext : Produces false [.text raw false]
          fun _ _ _ t => t = (mediaWiki {}).guardText false raw := produces_text fun _ _ => rfl
      rw [if_neg hfurniture]
      refine (wraps_em.produces hname (by simpa using hfurniture) htext).mono ?_
      rintro _ _ _ _ ⟨_, t, rfl, rfl⟩
      have hlayout : ∀ t, (MediaWiki.emphasisRule marks).layout marks t marks =
          marks ++ LineFormat.single.apply t ++ marks := fun t => by
        simp [Rule.layout, MediaWiki.emphasisRule, Rule.wrap, Rule.bare, TrimPolicy.apply]
      rw [hlayout, apply_of_notMem .single (plain_guardText raw).notMem_newline]
      simp

/-- The parts of the markup of some phrases. -/
def partsOf (phrases : List Phrase) : List Text :=
  phrases.flatMap Phrase.parts

theorem partsOf_cons (phrase : Phrase) (phrases : List Phrase) :
    partsOf (phrase :: phrases) = phrase.parts ++ partsOf phrases := List.flatMap_cons

theorem produces_phrases (h : ∀ phrase ∈ phrases, phrase.IsPlain) :
    Produces false (phrases.map Phrase.node) fun _ _ _ t => t = (partsOf phrases).flatten := by
  induction phrases with
  | nil => exact produces_nil fun _ _ => rfl
  | cons phrase phrases ih =>
    obtain ⟨hphrase, hphrases⟩ := List.forall_mem_cons.mp h
    refine (produces_phrase hphrase).cons (ih hphrases) ?_
    rintro _ _ _ _ _ _ rfl rfl
    rw [partsOf_cons, List.flatten_append]

/-- A part is the marks of emphasis or a guarded text. -/
theorem exists_of_mem_parts (h : ∀ phrase ∈ phrases, phrase.IsPlain) (ht : t ∈ partsOf phrases) :
    t = marks ∨ ∃ raw, t = (mediaWiki {}).guardText false raw ∧ raw.isWhite = false := by
  obtain ⟨phrase, hphrase, ht⟩ := List.mem_flatMap.mp ht
  have hplain := h phrase hphrase
  cases phrase with
  | text raw => exact Or.inr ⟨raw, List.mem_singleton.mp ht, hplain⟩
  | emphasis name attributes raw =>
    rw [Phrase.parts] at ht
    split at ht
    · cases ht
    · simp only [List.mem_cons, List.not_mem_nil, or_false] at ht
      rcases ht with rfl | rfl | rfl
      · exact Or.inl rfl
      · exact Or.inr ⟨raw, rfl, hplain.2⟩
      · exact Or.inl rfl

theorem ne_nil_of_mem_parts (h : ∀ phrase ∈ phrases, phrase.IsPlain) (ht : t ∈ partsOf phrases) :
    t ≠ [] := by
  rcases exists_of_mem_parts h ht with rfl | ⟨raw, rfl, hraw⟩
  · exact List.cons_ne_nil _ _
  · exact guardText_ne_nil hraw

theorem plain_of_mem_parts (h : ∀ phrase ∈ phrases, phrase.IsPlain) (ht : t ∈ partsOf phrases) :
    Plain t := by
  rcases exists_of_mem_parts h ht with rfl | ⟨raw, rfl, -⟩
  · intro c hc hspace
    rw [not_isSpace_of_all (by decide) c hc] at hspace
    cases hspace
  · exact plain_guardText raw

theorem sealed_of_mem_parts (h : ∀ phrase ∈ phrases, phrase.IsPlain) (ht : t ∈ partsOf phrases) :
    Sealed t := by
  rcases exists_of_mem_parts h ht with rfl | ⟨raw, rfl, -⟩
  · exact sealed_of_notMem (by decide)
  · exact sealed_guardText raw

theorem pairCount_signs_guardText (raw : Text) :
    pairCount (isMark '\'') (signs ((mediaWiki {}).guardText false raw)) = 0 :=
  pairCount_signs_guard (notMem_escape _) raw

/-- The pairs within the parts are the marks of emphasis. -/
theorem sum_pairCount_parts (phrases : List Phrase) :
    (((partsOf phrases).map signs).map (pairCount (isMark '\''))).sum =
      2 * (phrases.filterMap emphasized?).length := by
  induction phrases with
  | nil => rfl
  | cons phrase phrases ih =>
    have hmarks : pairCount (isMark '\'') (signs marks) = 1 := rfl
    rw [partsOf_cons, List.map_append, List.map_append, List.sum_append, ih]
    cases phrase with
    | text raw => simp [Phrase.parts, List.filterMap_cons, emphasized?, pairCount_signs_guardText]
    | emphasis name attributes raw =>
      by_cases hfurniture : Element.isFurniture attributes = true
      · simp [Phrase.parts, emphasized?, hfurniture]
      · simp [Phrase.parts, emphasized?, hfurniture, pairCount_signs_guardText, hmarks]
        omega

theorem eq_one_or_two_of_mem_parts (h : ∀ phrase ∈ phrases, phrase.IsPlain)
    (ht : t ∈ partsOf phrases) : ∀ k ∈ runLengths (isMark '\'') (signs t), k = 1 ∨ k = 2 := by
  intro k hk
  rcases exists_of_mem_parts h ht with rfl | ⟨raw, rfl, -⟩
  · exact Or.inr (List.mem_singleton.mp hk)
  · exact Or.inl (eq_one_of_pairCount (pairCount_signs_guardText raw) k hk)

/-- The runs of the parts put together are those of emphasis and single quotes just if no two
parts meet in quotes. -/
theorem emphasizes_parts_iff (h : ∀ phrase ∈ phrases, phrase.IsPlain) :
    Emphasizes (partsOf phrases).flatten (phrases.filterMap emphasized?).length ↔
      Separate (· == '\'') (partsOf phrases) := by
  have hsealed : ∀ t ∈ partsOf phrases, Sealed t := fun t => sealed_of_mem_parts h
  have hne : ∀ a ∈ (partsOf phrases).map signs, a ≠ [] := by
    intro a ha
    obtain ⟨t, ht, rfl⟩ := List.mem_map.mp ha
    exact signs_ne_nil (ne_nil_of_mem_parts h ht)
  rw [Emphasizes, signs_flatten hsealed, ← separate_signs hsealed (by decide) (by decide),
    ← pairCount_flatten_eq_iff hne, sum_pairCount_parts]
  constructor
  · rintro ⟨hruns, hcount⟩
    rw [← hcount, count_two_eq_sum hruns, sum_runLengths]
  · intro hpairs
    have hseparate := (pairCount_flatten_eq_iff hne).mp (hpairs.trans (sum_pairCount_parts _).symm)
    have hruns : ∀ k ∈ runLengths (isMark '\'') ((partsOf phrases).map signs).flatten,
        k = 1 ∨ k = 2 := by
      intro k hk
      rw [runLengths_flatten hne hseparate, List.flatMap_map] at hk
      obtain ⟨t, ht, hk⟩ := List.mem_flatMap.mp hk
      exact eq_one_or_two_of_mem_parts h ht k hk
    exact ⟨hruns, by rw [count_two_eq_sum hruns, sum_runLengths, hpairs]⟩

/-! ### The finished line -/

theorem finish_between {left right : Text} (hleft : ∀ c ∈ left, isSpace c = true)
    (hright : ∀ c ∈ right, isSpace c = true) (t : Text) :
    MediaWiki.finish (left ++ t ++ right) = left ++ MediaWiki.finish t ++ right := by
  have hnot : ∀ c, isSpace c = true → c ∉ MediaWiki.placeholder := by
    intro c hc hin
    rw [not_isSpace_of_all (by decide) c hin] at hc
    cases hc
  have hstart : ∀ t, MediaWiki.finish (left ++ t) = left ++ MediaWiki.finish t :=
    fun t => replace_append_of_notMem (fun hin => hnot '[' (hleft _ hin) (by decide)) _ _ t
  have hend : ∀ t, MediaWiki.finish (t ++ right) = MediaWiki.finish t ++ right := by
    induction right with
    | nil => simp
    | cons c right ih =>
      intro t
      obtain ⟨hc, hright⟩ := List.forall_mem_cons.mp hright
      have hrest := ih hright []
      rw [finish_append_cons (hnot c hc)]
      exact congrArg (MediaWiki.finish t ++ c :: ·) hrest
  rw [hend, hstart]

theorem runLengths_signs_finish (ht : Sealed t) :
    runLengths (isMark '\'') (signs (MediaWiki.finish t)) = runLengths (isMark '\'') (signs t) := by
  have hcons : MediaWiki.placeholder = '[' :: MediaWiki.placeholder.tail := rfl
  unfold MediaWiki.finish
  rw [hcons]
  exact ht.runLengths_signs_replace (by decide) (by decide) (by decide) (by decide) (by decide)
    (by decide) (by decide)

theorem pairCount_signs_finish (ht : Sealed t) :
    pairCount (isMark '\'') (signs (MediaWiki.finish t)) = pairCount (isMark '\'') (signs t) := by
  rw [← sum_runLengths, runLengths_signs_finish ht, sum_runLengths]

/-- The marks of emphasis behind a text that does not meet them are read as such. -/
theorem italicsFrom_finish_marks (ht : Sealed t) (hpairs : pairCount (isMark '\'') (signs t) = 0)
    (hmeets : meets (· == '\'') t marks = false) (inside : Option Text) (u : Text) :
    italicsFrom inside (signs (MediaWiki.finish (t ++ (marks ++ u)))) =
      (inside.map (· ++ MediaWiki.finish t)).toList ++
        italicsFrom (turned inside) (signs (MediaWiki.finish u)) := by
  have hfinish : Sealed (MediaWiki.finish t) := sealed_finish ht
  have hquote : Sealed ['\''] := sealed_of_notMem (by decide)
  have hnone : pairCount (isMark '\'') (signs (MediaWiki.finish t) ++ [quote]) = 0 := by
    have hsigns : signs (MediaWiki.finish t) ++ [quote] =
        signs (MediaWiki.finish (t ++ ['\''])) := by
      rw [finish_append_cons (by decide), hfinish.signs_append]
      rfl
    have hhead : meets (· == '\'') t ['\''] = meets (· == '\'') t marks := rfl
    rw [hsigns, pairCount_signs_finish (ht.append hquote), ht.signs_append, pairCount_append,
      hpairs,
      ht.meets_signs hquote (by decide) (by decide), hhead, hmeets]
    rfl
  have hsigns : signs (MediaWiki.finish (t ++ (marks ++ u))) =
      signs (MediaWiki.finish t) ++ quote :: quote :: signs (MediaWiki.finish u) := by
    have hmarks : t ++ (marks ++ u) = t ++ '\'' :: ([] ++ '\'' :: u) := rfl
    rw [hmarks, finish_append_cons (by decide), finish_append_cons (by decide),
      hfinish.signs_append, signs_cons (by decide)]
    exact congrArg (_ ++ quote :: ·) (signs_cons (by decide) _)
  rw [hsigns, italicsFrom_append hnone, written_signs]

/-- The text `w` stands before the parts `ts`, and makes no pairs of quotes with them. -/
structure Leads (w : Text) (ts : List Text) : Prop where
  sealed : Sealed w
  pairs : pairCount (isMark '\'') (signs w) = 0
  separate : Separate (· == '\'') (w :: ts)

theorem leads_nil {ts : List Text} (h : Separate (· == '\'') ts) : Leads [] ts where
  sealed := Sealed.nil
  pairs := rfl
  separate := List.isChain_cons.mpr ⟨fun _ _ => rfl, h⟩

/-- A guarded text joins to what stands before it. -/
theorem Leads.text {ts : List Text} (h : Leads w ((mediaWiki {}).guardText false raw :: ts))
    (hraw : raw.isWhite = false) : Leads (w ++ (mediaWiki {}).guardText false raw) ts := by
  obtain ⟨hw, hpairs, hseparate⟩ := h
  obtain ⟨hmeets, hrest⟩ := List.isChain_cons_cons.mp hseparate
  have hguard := sealed_guardText raw
  refine ⟨hw.append hguard, ?_, ?_⟩
  · rw [hw.signs_append, pairCount_append, hpairs, pairCount_signs_guardText,
      hw.meets_signs hguard (by decide) (by decide), hmeets]
    rfl
  · obtain ⟨hhead, htail⟩ := List.isChain_cons.mp hrest
    refine List.isChain_cons.mpr ⟨fun u hu => ?_, htail⟩
    rw [meets, List.getLast?_append_of_ne_nil _ (guardText_ne_nil hraw)]
    exact hhead u hu

/-- What is emphasized is the first text in italics. -/
theorem Leads.italics_finish {ts : List Text}
    (h : Leads w (marks :: (mediaWiki {}).guardText false raw :: marks :: ts)) :
    italics (MediaWiki.finish
        (w ++ (marks :: (mediaWiki {}).guardText false raw :: marks :: ts).flatten)) =
      MediaWiki.finish ((mediaWiki {}).guardText false raw) ::
        italics (MediaWiki.finish ts.flatten) ∧
    Leads [] ts := by
  obtain ⟨hw, hpairs, hseparate⟩ := h
  obtain ⟨hopen, hinner⟩ := List.isChain_cons_cons.mp hseparate
  obtain ⟨-, hinner⟩ := List.isChain_cons_cons.mp hinner
  obtain ⟨hclose, hrest⟩ := List.isChain_cons_cons.mp hinner
  refine ⟨?_, leads_nil hrest.tail⟩
  rw [List.flatten_cons, List.flatten_cons, List.flatten_cons, italics,
    italicsFrom_finish_marks hw hpairs hopen,
    italicsFrom_finish_marks (sealed_guardText raw) (pairCount_signs_guardText raw) hclose]
  rfl

/-- What is emphasized is read back. -/
theorem italics_finish_parts (h : ∀ phrase ∈ phrases, phrase.IsPlain)
    (hw : Leads w (partsOf phrases)) :
    italics (MediaWiki.finish (w ++ (partsOf phrases).flatten)) =
      (phrases.filterMap emphasized?).map fun raw =>
        MediaWiki.finish ((mediaWiki {}).guardText false raw) := by
  -- `w` is the text since the last phrase that is emphasized
  induction phrases generalizing w with
  | nil =>
    have hend : w ++ (partsOf []).flatten = w := List.append_nil w
    have hpairs := (pairCount_signs_finish hw.sealed).trans hw.pairs
    rw [hend, italics, italicsFrom_of_pairCount hpairs]
    rfl
  | cons phrase phrases ih =>
    obtain ⟨hphrase, hphrases⟩ := List.forall_mem_cons.mp h
    rw [partsOf_cons] at hw ⊢
    cases phrase with
    | text raw =>
      rw [List.filterMap_cons_none rfl, ← ih hphrases (hw.text hphrase), List.append_assoc]
      rfl
    | emphasis name attributes raw =>
      rw [Phrase.parts] at hw ⊢
      by_cases hfurniture : Element.isFurniture attributes = true
      · have hnone : emphasized? (.emphasis name attributes raw) = none := if_pos hfurniture
        rw [if_pos hfurniture] at hw ⊢
        rw [List.filterMap_cons_none hnone]
        exact ih hphrases hw
      · have hsome : emphasized? (.emphasis name attributes raw) = some raw := if_neg hfurniture
        rw [if_neg hfurniture] at hw ⊢
        obtain ⟨hitalics, hrest⟩ := hw.italics_finish
        rw [List.filterMap_cons_some hsome, List.map_cons, ← ih hphrases hrest]
        exact hitalics

/-- The white space at the ends is not set in italics. -/
theorem italics_finish_trim {t : Text} (ht : Sealed t) :
    italics (MediaWiki.finish (trim isSpace t)) = italics (MediaWiki.finish t) := by
  obtain ⟨left, right, hleft, hright, heq⟩ := exists_trim isSpace t
  have hquote : isSpace '\'' = false := by decide
  conv_rhs => rw [heq, finish_between hleft hright]
  rw [italics, italics, (sealed_finish ht.trim).signs_between
      (notMem_of_isSpace hleft (by decide)) (notMem_of_isSpace hright (by decide)),
    italicsFrom_between (fun _ => not_isMark_of_notMem (notMem_of_isSpace hleft hquote))
      fun _ => not_isMark_of_notMem (notMem_of_isSpace hright hquote)]

/-- The phrases of a paragraph that is shown. -/
def shownIn (attributes : Attributes) (phrases : List Phrase) : List Phrase :=
  if Element.isFurniture attributes then [] else phrases

/-- Phrases in a paragraph become one line.  Its runs of apostrophes are those of emphasis and
single ones just if no two parts meet in apostrophes, and then what is set in italics are the
emphasized texts. -/
theorem convert_phrases (hname : lowerName name = "p") (attributes : Attributes)
    (h : ∀ phrase ∈ phrases, phrase.IsPlain) :
    ∃ t, (mediaWiki {}).convert [.element name attributes (phrases.map Phrase.node)] =
        Report.ok t ∧
      (Emphasizes t ((shownIn attributes phrases).filterMap emphasized?).length ↔
        Separate (· == '\'') (partsOf (shownIn attributes phrases))) ∧
      (Separate (· == '\'') (partsOf (shownIn attributes phrases)) →
        italics t = ((shownIn attributes phrases).filterMap emphasized?).map fun raw =>
          MediaWiki.finish ((mediaWiki {}).guardText false raw)) := by
  by_cases hfurniture : Element.isFurniture attributes = true
  · have hname' : lowerName name ≠ "a" := by
      rw [hname]
      decide
    have hdropped : Produces false [.element name attributes (phrases.map Phrase.node)]
        fun _ _ _ t => t = [] :=
      produces_dropped (fun above => prepareNode_furniture hname' hfurniture) fun _ _ => rfl
    obtain ⟨prepared, _, hconvert, rfl⟩ := hdropped.convert
    rw [shownIn, if_pos hfurniture]
    refine ⟨_, hconvert, iff_of_true ⟨fun k hk => ?_, rfl⟩ List.isChain_nil, fun _ => rfl⟩
    cases hk
  · rw [shownIn, if_neg hfurniture]
    have hsealed : Sealed (partsOf phrases).flatten :=
      Sealed.flatten fun t => sealed_of_mem_parts h
    have hplain : Plain (partsOf phrases).flatten := by
      intro c hc
      obtain ⟨t, ht, hc⟩ := List.mem_flatten.mp hc
      exact plain_of_mem_parts h ht c hc
    have hline := produces_line hname (by simpa using hfurniture) (produces_phrases h)
      fun t ht => by
        rw [ht]
        exact hplain.notMem_newline
    obtain ⟨prepared, _, hconvert, t, rfl, rfl⟩ := hline.convert
    refine ⟨_, hconvert, ?_, fun hseparate => ?_⟩
    · rw [Emphasizes, complete_line hplain, runLengths_signs_finish hsealed.trim,
        hsealed.runLengths_signs_trim (by decide)]
      exact emphasizes_parts_iff h
    · rw [complete_line hplain, italics_finish_trim hsealed]
      exact italics_finish_parts h (leads_nil hseparate)

/-- Apostrophes and a link in emphasized texts and beside them. -/
def remarks : List Phrase :=
  [.text " It's \n".toList, .emphasis "EM" [] "not 'so".toList,
    .emphasis "em" [⟨"class", .single "printfooter".toList⟩] "'gone'".toList,
    .text ", 'but' ".toList, .emphasis "em" [] "[news:'a' b] & more".toList]

theorem convert_remarks : lowerName "P" = "p" ∧ (∀ phrase ∈ remarks, phrase.IsPlain) ∧
    Separate (· == '\'') (partsOf (shownIn [] remarks)) ∧
    ∃ t, (mediaWiki {}).convert [.element "P" [] (remarks.map Phrase.node)] = Report.ok t ∧
      Emphasizes t 2 ∧ italics t =
        ["not 'so".toList, "<nowiki>[news:'a' b]</nowiki> &amp; more".toList] := by
  have hname : lowerName "P" = "p" := by decide +kernel
  have hplain : ∀ phrase ∈ remarks, phrase.IsPlain := by decide +kernel
  have hseparate : Separate (· == '\'') (partsOf (shownIn [] remarks)) := by decide +kernel
  refine ⟨hname, hplain, hseparate, ?_⟩
  obtain ⟨t, ht, hiff, hitalics⟩ := convert_phrases hname [] hplain
  refine ⟨t, ht, hiff.mpr hseparate, (hitalics hseparate).trans ?_⟩
  decide +kernel

/-- An apostrophe beside emphasis, emphasis beside emphasis, and emphasis that is not shown. -/
def spoiled : List (List Phrase) :=
  [[.text "a'".toList, .emphasis "em" [] "b".toList],
    [.emphasis "em" [] "a".toList, .emphasis "em" [] "b".toList],
    [.text "a".toList, .emphasis "em" [⟨"class", .single "printfooter".toList⟩] "b".toList]]

/-- No text collides, and the runs of apostrophes are not those of all the emphasis. -/
theorem not_emphasizes_spoiled :
    (∀ phrase ∈ spoiled.flatten, phrase.IsPlain ∧ phrase.raw.collides = false) ∧
    ∀ phrases ∈ spoiled,
      ∃ t ∈ ((mediaWiki {}).convert [.element "p" [] (phrases.map Phrase.node)]).outcome.toOption,
        ¬ Emphasizes t (phrases.countP Phrase.isEmphasis) := by
  decide +kernel

end Session

end Wikitext

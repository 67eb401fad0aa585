/-
  Wikitext/Proofs/Text/Tags.lean
  ==============================
  **The tags in a text.**  `Text.tags` finds what stands between angles and reads off it whether
  it is a start, an end or a void tag, and its name.

  Markup is laid out after its tags are written, and a tag with attributes may be edited within:
  a value may have line feeds, and lines that start in it may be marked.  So the tags of finished
  markup are found by a reader of compact tokens (`Tag.Step`) for which a tag with attributes is
  no token.  Its front is one, up to the first character of the first attribute, and so is its
  end, from the last quote on; in between the reader only waits.
-/
import Wikitext.Dialect.MediaWiki
import Wikitext.Proofs.Nowiki.Markers
import Wikitext.Proofs.Text.Scan

namespace Wikitext

open Text

/-! ### Tags -/

inductive TagKind where
  | start
  | stop
  /-- A tag that is all of its element. -/
  | void
deriving DecidableEq, Repr

structure Tag where
  kind : TagKind
  name : Text
deriving DecidableEq, Repr

namespace Tag

def isNameChar (c : Char) : Bool :=
  !isSpace c && c != '/'

/-- Reads what stands between angles. -/
def read : Text → Tag
  | '/' :: t => ⟨.stop, t.takeWhile isNameChar⟩
  | t => ⟨if t.getLast? = some '/' then .void else .start, t.takeWhile isNameChar⟩

/-- What ends a tag. -/
def ending : TagKind → Text
  | .void => [' ', '/', '>']
  | _ => ['>']

/-- A tag without attributes. -/
def write (tag : Tag) : Text :=
  if tag.kind = .stop then '<' :: '/' :: tag.name ++ ['>']
  else '<' :: tag.name ++ ending tag.kind

/-- What stands between the angles of a tag without attributes. -/
def content (tag : Tag) : Text :=
  match tag.kind with
  | .start => tag.name
  | .stop => '/' :: tag.name
  | .void => tag.name ++ [' ', '/']

theorem write_eq (tag : Tag) : tag.write = '<' :: (tag.content ++ ['>']) := by
  obtain ⟨kind, name⟩ := tag
  cases kind with
  | start => rfl
  | stop => rfl
  | void => simp [write, content, ending]

end Tag

namespace Text

/-- The tags of a text, in order; `opened` is what has been read of one. -/
def tagsFrom (opened : Option Text) : Text → List Tag
  | [] => []
  | c :: t =>
    if c = '<' then tagsFrom (some []) t
    else match opened with
      | none => tagsFrom none t
      | some content =>
        if c = '>' then Tag.read content :: tagsFrom none t
        else tagsFrom (some (content ++ [c])) t

def tags (t : Text) : List Tag :=
  tagsFrom none t

structure Unangled (t : Text) : Prop where
  opens : '<' ∉ t
  closes : '>' ∉ t

variable {c : Char} {content name t u x : Text}

instance (t : Text) : Decidable (Unangled t) :=
  decidable_of_iff ('<' ∉ t ∧ '>' ∉ t) ⟨fun h => ⟨h.1, h.2⟩, fun h => ⟨h.1, h.2⟩⟩

theorem unangled_nil : Unangled [] := by decide

theorem unangled_append_iff : Unangled (t ++ u) ↔ Unangled t ∧ Unangled u := by
  constructor
  · intro h
    have hopens := h.opens
    have hcloses := h.closes
    rw [List.mem_append, not_or] at hopens hcloses
    exact ⟨⟨hopens.1, hcloses.1⟩, ⟨hopens.2, hcloses.2⟩⟩
  · rintro ⟨ht, hu⟩
    constructor
    · rw [List.mem_append, not_or]
      exact ⟨ht.opens, hu.opens⟩
    · rw [List.mem_append, not_or]
      exact ⟨ht.closes, hu.closes⟩

theorem Unangled.append (ht : Unangled t) (hu : Unangled u) : Unangled (t ++ u) :=
  unangled_append_iff.mpr ⟨ht, hu⟩

theorem unangled_cons_iff : Unangled (c :: t) ↔ (c ≠ '<' ∧ c ≠ '>') ∧ Unangled t := by
  rw [← List.singleton_append, unangled_append_iff]
  refine and_congr_left fun _ => ?_
  constructor
  · intro h
    exact ⟨fun heq => h.opens (heq ▸ List.mem_singleton_self _),
      fun heq => h.closes (heq ▸ List.mem_singleton_self _)⟩
  · rintro ⟨hopens, hcloses⟩
    exact ⟨fun hin => hopens (List.mem_singleton.mp hin).symm,
      fun hin => hcloses (List.mem_singleton.mp hin).symm⟩

theorem unangled_flatMap {f : Char → Text} (h : ∀ c, Unangled (f c)) (t : Text) :
    Unangled (t.flatMap f) := by
  induction t with
  | nil => exact unangled_nil
  | cons c t ih => exact (h c).append ih

theorem unangled_escapeChar (c : Char) : Unangled (escapeChar c) := by
  rw [escapeChar.eq_def]
  split
  · decide
  · decide
  · decide
  · next _ hopens hcloses => exact unangled_cons_iff.mpr ⟨⟨hopens, hcloses⟩, unangled_nil⟩

theorem unangled_escape (t : Text) : Unangled t.escape :=
  unangled_flatMap unangled_escapeChar t

theorem unangled_escapeAttribute (t : Text) : Unangled t.escapeAttribute := by
  refine unangled_flatMap (fun c => ?_) t
  rw [escapeAttributeChar.eq_def]
  split
  · decide
  · exact unangled_escapeChar _

/-! ### Finding tags -/

theorem tagsFrom_none_append (ht : Unangled t) (u : Text) :
    tagsFrom none (t ++ u) = tagsFrom none u := by
  induction t with
  | nil => rfl
  | cons c t ih =>
    obtain ⟨⟨hopens, -⟩, ht⟩ := unangled_cons_iff.mp ht
    rw [List.cons_append, tagsFrom, if_neg hopens]
    exact ih ht

theorem tagsFrom_some_append (ht : Unangled t) (content u : Text) :
    tagsFrom (some content) (t ++ u) = tagsFrom (some (content ++ t)) u := by
  induction t generalizing content with
  | nil => rw [List.nil_append, List.append_nil]
  | cons c t ih =>
    obtain ⟨⟨hopens, hcloses⟩, ht⟩ := unangled_cons_iff.mp ht
    rw [List.cons_append, tagsFrom, if_neg hopens]
    simp only [if_neg hcloses]
    rw [ih ht, List.append_assoc, List.singleton_append]

theorem tagsFrom_close (content t : Text) :
    tagsFrom (some content) ('>' :: t) = Tag.read content :: tagsFrom none t := rfl

theorem tagsFrom_token (hx : Unangled x) (t : Text) :
    tagsFrom none ('<' :: (x ++ '>' :: t)) = Tag.read x :: tagsFrom none t := by
  have hopen : tagsFrom none ('<' :: (x ++ '>' :: t)) = tagsFrom (some []) (x ++ '>' :: t) := rfl
  rw [hopen, tagsFrom_some_append hx]
  rfl

end Text

/-! ### Reading tags -/

namespace Tag

variable {kind : TagKind} {name t : Text} {c : Char}

def IsWord (name : Text) : Prop :=
  ∀ c ∈ name, c.isAlphanum = true

theorem isWord_of_all (h : name.all Char.isAlphanum = true) : IsWord name :=
  List.all_eq_true.mp h

theorem not_of_isAlphanum (hc : c.isAlphanum = true) (d : Char) (hd : d.isAlphanum = false) :
    c ≠ d := by
  rintro rfl
  rw [hc] at hd
  cases hd

theorem isNameChar_of_isAlphanum (hc : c.isAlphanum = true) : isNameChar c = true := by
  have hne := not_of_isAlphanum hc
  simp [isNameChar, isSpace, hne ' ' rfl, hne '\t' rfl, hne '\n' rfl, hne '\r' rfl,
    hne '\x0c' rfl, hne '/' rfl]

theorem IsWord.unangled (h : IsWord name) : Unangled name :=
  ⟨fun hin => not_of_isAlphanum (h _ hin) '<' rfl rfl,
    fun hin => not_of_isAlphanum (h _ hin) '>' rfl rfl⟩

theorem IsWord.notMem (h : IsWord name) {d : Char} (hd : d.isAlphanum = false) : d ∉ name :=
  fun hin => not_of_isAlphanum (h d hin) d hd rfl

theorem IsWord.takeWhile_append (h : IsWord name) (ht : ∀ c ∈ t.head?, isNameChar c = false) :
    (name ++ t).takeWhile isNameChar = name := by
  rw [List.takeWhile_append_of_pos fun c hc => isNameChar_of_isAlphanum (h c hc)]
  cases t with
  | nil => exact List.append_nil name
  | cons c t => rw [List.takeWhile_cons, if_neg (by simp [ht c rfl]), List.append_nil]

theorem read_of_isWord (h : IsWord name) (ht : ∀ c ∈ t.head?, isSpace c = true) :
    read (name ++ t) = ⟨if (name ++ t).getLast? = some '/' then .void else .start, name⟩ := by
  have htake : (name ++ t).takeWhile isNameChar = name := by
    apply h.takeWhile_append
    intro c hc
    simp [isNameChar, ht c hc]
  have hslash : (name ++ t).head? ≠ some '/' := by
    cases name with
    | nil =>
      intro hhead
      have hspace := ht '/' (by simpa using hhead)
      cases hspace
    | cons d name =>
      intro hhead
      exact h.notMem rfl (by simpa using Or.inl hhead.symm)
  generalize name ++ t = w at *
  rw [read.eq_def]
  split
  · exact absurd rfl hslash
  · rw [htake]

/-- In a tag stand its name, a blank and a slash. -/
theorem notMem_content {tag : Tag} (h : IsWord tag.name) (hc : c.isAlphanum = false)
    (hblank : c ≠ ' ') (hslash : c ≠ '/') : c ∉ tag.content := by
  have hname : c ∉ tag.name := h.notMem hc
  rw [content]
  split
  · exact hname
  · simpa using ⟨hslash, hname⟩
  · simpa using ⟨hname, hblank, hslash⟩

theorem read_content {tag : Tag} (h : IsWord tag.name) : read tag.content = tag := by
  obtain ⟨kind, name⟩ := tag
  cases kind with
  | start =>
    have hlast : ¬ name.getLast? = some '/' := fun hlast =>
      h.notMem rfl (List.mem_of_mem_getLast? hlast)
    have hread := read_of_isWord (t := []) h (by simp)
    rwa [List.append_nil, if_neg hlast] at hread
  | stop =>
    have htake := h.takeWhile_append (t := []) (by simp)
    rw [List.append_nil] at htake
    rw [content, read, htake]
  | void =>
    have hread := read_of_isWord (t := [' ', '/']) h (by simp [isSpace])
    rwa [List.getLast?_append, List.getLast?_cons_cons] at hread

/-! ### A reader of tags -/

/-- Reads a tag without attributes, the front of one with attributes, or its end.  The state is
the tag whose end is waited for, and the tags that are to come after it. -/
inductive Step : Option Tag × List Tag → Text → Option Tag × List Tag → Prop where
  | other {pending : Option Tag} {ts : List Tag} {c : Char} :
      isSpace c = false → c ≠ '<' → c ≠ '>' → Step (pending, ts) [c] (pending, ts)
  | whole {tag : Tag} {ts : List Tag} : IsWord tag.name → Step (none, tag :: ts) tag.write (none, ts)
  | enter {tag : Tag} {ts : List Tag} {c : Char} : IsWord tag.name → c.isAlphanum = true →
      Step (none, tag :: ts) ('<' :: tag.name ++ [' ', c]) (some tag, ts)
  | leave {tag : Tag} {ts : List Tag} : IsWord tag.name → tag.kind ≠ .stop →
      Step (some tag, ts) ('"' :: ending tag.kind) (none, ts)

theorem compact_of_step (a : Option Tag × List Tag) (x : Text) (b : Option Tag × List Tag)
    (h : Step a x b) : Compact x := by
  cases h with
  | other hc _ _ => exact compact_singleton hc
  | whole hname =>
    rw [write_eq]
    exact compact_between rfl rfl (notMem_content hname rfl (by decide) (by decide))
  | @enter tag ts c hname hc =>
    have heq : '<' :: tag.name ++ [' ', c] = '<' :: ((tag.name ++ [' ']) ++ [c]) := by simp
    have hspace : isSpace c = false := by
      have hne := isNameChar_of_isAlphanum hc
      rw [isNameChar, Bool.and_eq_true, Bool.not_eq_true'] at hne
      exact hne.1
    have hnewline : '\n' ∉ tag.name := hname.notMem rfl
    rw [heq]
    exact compact_between rfl hspace (by simpa using hnewline)
  | @leave tag ts hname _ =>
    cases tag.kind with
    | void => exact compact_between (x := [' ', '/']) rfl rfl (by decide)
    | start => exact compact_between (x := []) rfl rfl (by decide)
    | stop => exact compact_between (x := []) rfl rfl (by decide)

/-- The tags that a reader in some state is still to find. -/
def Awaits : Option Tag × List Tag → Text → Prop
  | (none, ts), t => tagsFrom none t = ts
  | (some tag, ts), t => ∀ rest, tagsFrom (some (tag.name ++ ' ' :: rest)) t = tag :: ts

theorem Awaits.append {pending : Option Tag} {ts : List Tag} {x : Text} (hx : Unangled x)
    (h : Awaits (pending, ts) t) : Awaits (pending, ts) (x ++ t) := by
  cases pending with
  | none => exact (tagsFrom_none_append hx t).trans h
  | some tag =>
    intro rest
    rw [tagsFrom_some_append hx, List.append_assoc, List.cons_append]
    exact h (rest ++ x)

theorem tagsFrom_write {tag : Tag} (hname : IsWord tag.name) (t : Text) :
    tagsFrom none (tag.write ++ t) = tag :: tagsFrom none t := by
  have hcontent : Unangled tag.content :=
    ⟨notMem_content hname rfl (by decide) (by decide),
      notMem_content hname rfl (by decide) (by decide)⟩
  have htoken := tagsFrom_token hcontent t
  rwa [read_content hname, ← List.singleton_append (x := '>'), ← List.append_assoc,
    ← List.cons_append, ← write_eq] at htoken

theorem tagsFrom_ending {tag : Tag} (hname : IsWord tag.name) (hkind : tag.kind ≠ .stop)
    (rest t : Text) : tagsFrom (some (tag.name ++ ' ' :: rest)) ('"' :: ending tag.kind ++ t) =
      tag :: tagsFrom none t := by
  obtain ⟨kind, name⟩ := tag
  have hclose : ∀ (last : Text) (d : Char), Unangled (last ++ [d]) →
      tagsFrom (some (name ++ ' ' :: rest)) (last ++ [d] ++ '>' :: t) =
        ⟨if d = '/' then .void else .start, name⟩ :: tagsFrom none t := by
    intro last d hlast
    have hcontent : name ++ ' ' :: (rest ++ (last ++ [d])) =
        name ++ ' ' :: (rest ++ last) ++ [d] := by simp
    rw [tagsFrom_some_append hlast, tagsFrom_close, List.append_assoc, List.cons_append,
      read_of_isWord hname (by simp [isSpace]), hcontent, List.getLast?_concat]
    simp
  cases kind with
  | stop => exact absurd rfl hkind
  | start => simpa [ending] using hclose [] '"' (by decide)
  | void => simpa [ending] using hclose ['"', ' '] '/' (by decide)

theorem awaits_of_scans {a : Option Tag × List Tag} (h : Scans Step a t (none, [])) :
    Awaits a t := by
  generalize hb : ((none, []) : Option Tag × List Tag) = b at h
  induction h with
  | done =>
    rw [← hb]
    rfl
  | @space a b c t hc _ ih =>
    have hx : Unangled [c] := by
      refine unangled_cons_iff.mpr ⟨⟨?_, ?_⟩, unangled_nil⟩
      · rintro rfl
        cases hc
      · rintro rfl
        cases hc
    exact (ih hb).append hx
  | @step a m b x t hx _ ih =>
    have hrest := ih hb
    cases hx with
    | other _ hopens hcloses =>
      exact hrest.append (unangled_cons_iff.mpr ⟨⟨hopens, hcloses⟩, unangled_nil⟩)
    | whole hname =>
      rw [Awaits, tagsFrom_write hname, hrest]
    | @enter tag ts c hname hc =>
      have hne := not_of_isAlphanum hc
      have hx : Unangled (tag.name ++ [' ', c]) :=
        hname.unangled.append (unangled_cons_iff.mpr
          ⟨by decide, unangled_cons_iff.mpr ⟨⟨hne '<' rfl, hne '>' rfl⟩, unangled_nil⟩⟩)
      have hopen : tagsFrom none ('<' :: (tag.name ++ [' ', c] ++ t)) =
          tagsFrom (some []) (tag.name ++ [' ', c] ++ t) := rfl
      rw [Awaits, List.cons_append, List.cons_append, hopen, tagsFrom_some_append hx]
      -- the first letter of the attributes is all that has been read of them
      exact hrest [c]
    | leave hname hkind =>
      intro rest
      rw [tagsFrom_ending hname hkind, hrest]

theorem tags_of_scans {ts : List Tag} (h : Scans Step (none, ts) t (none, [])) : tags t = ts :=
  awaits_of_scans h

/-! ### What is passed over -/

variable {a b : Option Tag × List Tag} {u x : Text}

/-- A text without angles is passed over, in a tag or between tags. -/
theorem scans_of_unangled (ht : Unangled t) (a : Option Tag × List Tag) : Scans Step a t a := by
  induction t with
  | nil => exact .done
  | cons c t ih =>
    obtain ⟨⟨hopens, hcloses⟩, ht⟩ := unangled_cons_iff.mp ht
    cases hc : isSpace c with
    | true => exact .space hc (ih ht)
    | false => exact .step (.other hc hopens hcloses) (ih ht)

/-- A character that starts neither a tag nor the end of one. -/
theorem scans_of_scans_cons (hc : isSpace c = false) (hopens : c ≠ '<') (hquote : c ≠ '"')
    (h : Scans Step a (c :: t) b) : Scans Step a t b := by
  obtain ⟨x, u, m, heq, hx, hrest⟩ := exists_of_scans_cons hc h
  cases hx with
  | other _ _ _ =>
    rw [List.singleton_append, List.cons.injEq] at heq
    rw [heq.2]
    exact hrest
  | @whole tag _ _ =>
    rw [write_eq] at heq
    exact absurd (List.cons.inj heq).1 hopens
  | enter _ _ => exact absurd (List.cons.inj heq).1 hopens
  | leave _ _ => exact absurd (List.cons.inj heq).1 hquote

theorem scans_of_scans_append
    (hx : ∀ c ∈ x, isSpace c = false ∧ c ≠ '<' ∧ c ≠ '"')
    (h : Scans Step a (x ++ t) b) : Scans Step a t b := by
  induction x with
  | nil => exact h
  | cons c x ih =>
    rw [List.forall_mem_cons] at hx
    obtain ⟨⟨hspace, hopens, hquote⟩, hx⟩ := hx
    exact ih hx (scans_of_scans_cons hspace hopens hquote h)

/-- A bracket is a token that is passed over, and in no other. -/
theorem eq_or_notMem_of_step (h : Step a x b) : x = ['['] ∧ b = a ∨ '[' ∉ x := by
  have hending : ∀ kind, '[' ∉ ending kind := by
    intro kind
    cases kind <;> decide
  cases h with
  | @other pending ts c _ _ _ =>
    by_cases hc : c = '['
    · exact Or.inl ⟨congrArg (fun d => [d]) hc, rfl⟩
    · exact Or.inr fun hin => hc (List.mem_singleton.mp hin).symm
  | @whole tag ts hname =>
    right
    have hcontent : '[' ∉ tag.content := notMem_content hname rfl (by decide) (by decide)
    rw [write_eq]
    simpa using hcontent
  | @enter tag ts c hname hc =>
    right
    have hword : '[' ∉ tag.name := hname.notMem rfl
    simpa using ⟨hword, (not_of_isAlphanum hc '[' rfl).symm⟩
  | leave hname _ =>
    right
    simpa using hending _

/-- The last pass puts spaces in places that are passed over. -/
theorem scans_finish (h : Scans Step a t b) : Scans Step a (MediaWiki.finish t) b := by
  have hplaceholder : MediaWiki.placeholder = '[' :: MediaWiki.placeholder.tail := by decide
  have htail : ∀ c ∈ MediaWiki.placeholder.tail, isSpace c = false ∧ c ≠ '<' ∧ c ≠ '"' := by
    have hall : MediaWiki.placeholder.tail.all
        (fun c => !isSpace c && (c != '<' && c != '"')) = true := by decide
    intro c hc
    simpa using List.all_eq_true.mp hall c hc
  have hkeep : ∀ x u, '[' ∉ x → MediaWiki.finish (x ++ u) = x ++ MediaWiki.finish u := by
    intro x u hx
    have happend := replace_append_of_notMem hx MediaWiki.placeholder.tail [' '] u
    rwa [← hplaceholder] at happend
  induction h with
  | done => exact .done
  | @space a b c t hc _ ih =>
    have hbracket : '[' ∉ [c] := by
      intro hin
      rw [← List.mem_singleton.mp hin] at hc
      cases hc
    rw [← List.singleton_append, hkeep [c] t hbracket]
    exact .space hc ih
  | @step a m b x t hx h ih =>
    rcases eq_or_notMem_of_step hx with ⟨rfl, hstate⟩ | hbracket
    · by_cases hprefix : MediaWiki.placeholder <+: '[' :: t
      · -- a placeholder was passed over
        obtain ⟨u, hu⟩ := hprefix
        have hrest : t = MediaWiki.placeholder.tail ++ u := by
          rw [hplaceholder] at hu
          exact (List.cons.inj hu).2.symm
        rw [hrest, hkeep _ _ (by decide)] at ih
        have hfinish : MediaWiki.finish (['['] ++ t) = ' ' :: MediaWiki.finish u := by
          rw [List.singleton_append, ← hu]
          exact replace_append_self (by decide) [' '] u
        rw [hfinish]
        exact .space rfl (hstate ▸ scans_of_scans_append htail ih)
      · have hfinish : MediaWiki.finish (['['] ++ t) = ['['] ++ MediaWiki.finish t :=
          replace_cons_of_not_prefix hprefix [' ']
        rw [hfinish]
        exact .step hx ih
    · rw [hkeep x t hbracket]
      exact .step hx ih

end Tag

/-! ### Guarded text -/

namespace Nowiki

open Tag (Step scans_of_unangled)

variable {t u : Text} {ts : List Tag}

def openingTag : Tag := ⟨.start, "nowiki".toList⟩

def closingTag : Tag := ⟨.stop, "nowiki".toList⟩

/-- One pair of tags for each place where guarded text is opened. -/
def pairs : Text → List Tag
  | [] => []
  | c :: t => if opening.isPrefixOf (c :: t) then openingTag :: closingTag :: pairs t else pairs t

theorem pairs_append (ht : '<' ∉ t) (u : Text) : pairs (t ++ u) = pairs u := by
  induction t with
  | nil => rfl
  | cons c t ih =>
    rw [List.mem_cons, not_or] at ht
    have hnot : ¬ opening.isPrefixOf (c :: (t ++ u)) = true := by
      rw [List.isPrefixOf_iff_prefix, opening, List.cons_prefix_cons]
      exact fun h => ht.1 h.1
    rw [List.cons_append, pairs, if_neg hnot]
    exact ih ht.2

theorem pairs_wrap_append (ht : Unangled t) (u : Text) :
    pairs (wrap t ++ u) = openingTag :: closingTag :: pairs u := by
  have hopen : pairs (opening ++ (t ++ (closing ++ u))) =
      openingTag :: closingTag :: pairs (opening.tail ++ (t ++ (closing ++ u))) := rfl
  have hclose : pairs (closing ++ u) = pairs (closing.tail ++ u) := rfl
  rw [wrap, List.append_assoc, List.append_assoc, hopen, pairs_append (by decide),
    pairs_append ht.opens, hclose, pairs_append (by decide)]

theorem scans_wrap (ht : Unangled t) :
    Scans Step (none, openingTag :: closingTag :: ts) (wrap t) (none, ts) := by
  have hword : Tag.IsWord "nowiki".toList := Tag.isWord_of_all (by decide)
  have hopening : Scans Step (none, openingTag :: closingTag :: ts) opening
      (none, closingTag :: ts) := .token (.whole hword)
  have hclosing : Scans Step (none, closingTag :: ts) closing (none, ts) := .token (.whole hword)
  exact (hopening.append (scans_of_unangled ht _)).append hclosing

theorem scans_wrapLinks (ht : Unangled t) :
    Scans Step (none, pairs (wrapLinks t) ++ ts) (wrapLinks t) (none, ts) := by
  induction t using links_induction with
  | nil => exact .done
  | link l t hl ih =>
    obtain ⟨hlink, ht⟩ := unangled_append_iff.mp ht
    rw [wrapLinks_append hl, pairs_wrap_append hlink]
    exact (scans_wrap hlink).append (ih ht)
  | cons c t hnone ih =>
    rw [← List.singleton_append, unangled_append_iff] at ht
    rw [wrapLinks_cons_of_none hnone, ← List.singleton_append, pairs_append ht.1.opens]
    exact (scans_of_unangled ht.1 _).append (ih ht.2)

theorem scans_guard (ht : Unangled t) (raw : Text) (ts : List Tag) :
    Scans Step (none, pairs (guard t raw) ++ ts) (guard t raw) (none, ts) := by
  rcases guard_cases t raw with ⟨heq, -⟩ | ⟨heq, -⟩
  · have hpairs := pairs_wrap_append ht []
    rw [List.append_nil] at hpairs
    rw [heq, hpairs]
    exact scans_wrap ht
  · rw [heq]
    exact scans_wrapLinks ht

end Nowiki

end Wikitext

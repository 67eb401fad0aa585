/-
  Wikitext/Proofs/Conversion/Outline.lean
  =======================================
  **Items without a text of their own.**  An item may begin with a list.  What opens an item is a
  line feed, its marks and a space, and what opens its first inner item is the same; but the rule
  of items trims the start of their content, and with it the line feed of the inner item.  So the
  inner item does not begin a line: it stands behind the marks of the outer one, and a wiki shows
  its marks as text (`not_keeps_bareNesting`).

  That is all that happens.  The markup of a list is one line for each item that has a text, and
  one for each item with nothing in it; the marks of an item without a text stand before the line
  that follows (`OutlineLine.led`), and an item has the line that its marks and its text promise
  exactly if no such item begins there (`convert_outline`).
-/
import Wikitext.Proofs.Conversion.ListLines

namespace Wikitext

open Text

namespace Text

variable {c d : Char} {p : Char → Bool} {m t : Text} {ls : List Text}

/-! ### Marks before a line -/

/-- Puts marks before the first line, or on a line of their own. -/
def leadText (m : Text) : List Text → List Text
  | [] => [m]
  | l :: ls => (m ++ ' ' :: l) :: ls

/-- Behind a character that stays, a text that starts with another one is trimmed at its end. -/
theorem trim_behind (hd : p d = false) (hc : p c = false) (m t : Text) :
    trim p (d :: (m ++ c :: t)) = d :: (m ++ trim p (c :: t)) := by
  have hlast : ∀ e ∈ (m ++ [c]).getLast?, p e = false := by simpa using hc
  rw [trim_cons_of_neg hd, trim_cons_of_neg hc, List.append_cons, trimEnd_append_of_last hlast,
    ← List.append_cons]

/-- The first line of a text that does not start with white space is read. -/
theorem Reads.exists_first (hc : isSpace c = false) (h : Reads (c :: t) ls) :
    ∃ k ks, lines (c :: t) = (c :: k) :: ks ∧ ls = trim isSpace (c :: k) :: inked ks := by
  obtain ⟨k, ks, hlines⟩ := List.exists_cons_of_ne_nil (lines_ne_nil t)
  have hcons : lines (c :: t) = (c :: k) :: ks := lines_cons (ne_newline hc) hlines
  have hne : trim isSpace (c :: k) ≠ [] := by
    rw [trim_cons_of_neg hc]
    simp
  refine ⟨k, ks, hcons, ?_⟩
  rw [← h.inked_lines, hcons, inked_cons, inked_of_trim_ne_nil hne]
  rfl

/-- A text that does not start with white space is read behind marks as by itself. -/
theorem Reads.leadText (hm : ∀ d ∈ m, isSpace d = false) (hne : m ≠ []) (hc : isSpace c = false)
    (h : Reads (c :: t) ls) : Reads (m ++ ' ' :: c :: t) (Text.leadText m ls) := by
  obtain ⟨d, m, rfl⟩ := List.exists_cons_of_ne_nil hne
  have hd := hm d (List.mem_cons_self ..)
  obtain ⟨k, ks, hrest, rfl⟩ := h.exists_first hc
  have hfront : lines (d :: m ++ [' ']) = [] ++ [d :: m ++ [' ']] := by
    refine lines_of_notMem fun hin => ?_
    rcases List.mem_append.mp hin with hin | hin
    · exact ne_newline (hm _ hin) rfl
    · exact absurd hin (by decide)
  have hwhole : lines (d :: m ++ ' ' :: c :: t) = (d :: (m ++ [' '] ++ c :: k)) :: ks := by
    have happend := lines_append hfront hrest
    simpa using happend
  have htrim := trim_behind hd hc (m ++ [' ']) k
  constructor
  · rw [hwhole, inked_cons, inked_of_trim_ne_nil]
    · rw [htrim]
      simp [Text.leadText]
    · rw [htrim]
      simp
  · intro l hl
    rw [hwhole] at hl
    rcases List.mem_cons.mp hl with rfl | hl
    · have hblank := trim_behind (isBlank_eq_false hd) (isBlank_eq_false hc) (m ++ [' ']) k
      rw [Neat, htrim, hblank, h.neat (c :: k) (by simp [hrest])]
    · exact h.neat l (by simp [hrest, hl])

/-- What joins still joins behind marks, without the white space at its start. -/
theorem Joins.leadText (hm : ∀ d ∈ m, isSpace d = false) (hne : m ≠ []) (h : Joins t ls) :
    Joins ('\n' :: (m ++ ' ' :: trimStart isSpace t)) (Text.leadText m ls) := by
  have hplain : Plain (m ++ [' ']) := by
    refine Plain.append (fun d hd hspace => ?_) (by decide)
    rw [hm d hd] at hspace
    cases hspace
  have hcontent := h.follows.reads.trimmedStart
  intro u ms hu
  refine Reads.follows_newline ?_
  cases hstart : trimStart isSpace t with
  | nil =>
    -- nothing but the marks is left before what follows
    rw [hstart] at hcontent
    obtain rfl : ls = [] := hcontent.inked_lines.symm
    have htrim : trim isSpace (m ++ [' ']) = m := by
      rw [trim_concat_of_pos (by decide)]
      exact trim_eq_self (fun d hd => hm d (List.mem_of_mem_head? hd)) fun d hd =>
        hm d (List.mem_of_getLast? hd)
    have hreads := hu (m ++ [' ']) hplain
    rw [inked_of_trim_ne_nil (by rwa [htrim]), htrim] at hreads
    simpa [Text.leadText] using hreads
  | cons c v =>
    have hc : isSpace c = false := trimStart_head isSpace t c (by simp [hstart])
    rw [hstart] at hcontent
    obtain ⟨k, ks, -, rfl⟩ := hcontent.exists_first hc
    have hall := (h u ms hu).reads.trimmedStart
    rw [trimStart_append (by simp [hstart]), hstart] at hall
    have hreads := hall.leadText hm hne hc
    simpa [Text.leadText] using hreads

end Text

/-! ### Lines of an outline -/

/-- A line of the markup of a list. -/
inductive OutlineLine where
  /-- The line of an item with a text. -/
  | worded (marks words : Text)
  /-- The line of an item with nothing in it. -/
  | blank (marks : Text)
  /-- A line behind the marks of an item without a text. -/
  | led (marks : Text) (line : OutlineLine)
deriving DecidableEq, Repr

namespace OutlineLine

def text : OutlineLine → Text
  | worded marks words => marks ++ ' ' :: words
  | blank marks => marks
  | led marks line => marks ++ ' ' :: line.text

/-- What the item with a text promises, if there is one. -/
def own : OutlineLine → Option Text
  | worded marks words => some (marks ++ ' ' :: words)
  | blank _ => none
  | led _ line => line.own

def isLed : OutlineLine → Bool
  | led _ _ => true
  | _ => false

/-- The marks grow along the line, from more than `depth`. -/
def Deeper (depth : Nat) : OutlineLine → Prop
  | worded marks _ => depth < marks.length ∧ ' ' ∉ marks
  | blank marks => depth < marks.length
  | led marks line => depth < marks.length ∧ line.Deeper marks.length

/-- Puts the marks of an item without a text before the first line. -/
def lead (marks : Text) : List OutlineLine → List OutlineLine
  | [] => [.blank marks]
  | line :: lines => .led marks line :: lines

variable {line : OutlineLine} {lines : List OutlineLine} {marks p : Text} {depth : Nat}

theorem map_text_lead (marks : Text) (lines : List OutlineLine) :
    (lead marks lines).map text = leadText marks (lines.map text) := by
  cases lines <;> rfl

/-- What holds of the marks by themselves and before every line. -/
theorem forall_mem_lead {P : OutlineLine → Prop} (hblank : P (.blank marks))
    (hled : ∀ line ∈ lines, P (.led marks line)) (hrest : ∀ line ∈ lines, P line) :
    ∀ line ∈ lead marks lines, P line := by
  intro line hline
  cases lines with
  | nil => rwa [List.mem_singleton.mp hline]
  | cons first rest =>
    rcases List.mem_cons.mp hline with rfl | hline
    · exact hled first (List.mem_cons_self ..)
    · exact hrest line (List.mem_cons_of_mem _ hline)

theorem filterMap_own_lead (marks : Text) (lines : List OutlineLine) :
    (lead marks lines).filterMap own = lines.filterMap own := by
  cases lines <;> rfl

theorem Deeper.mono {less : Nat} (h : line.Deeper depth) (hle : less ≤ depth) :
    line.Deeper less := by
  cases line with
  | worded marks words => exact ⟨hle.trans_lt h.1, h.2⟩
  | blank marks => exact hle.trans_lt h
  | led marks line => exact ⟨hle.trans_lt h.1, h.2⟩

/-- The text of an item is behind more marks than those of the items before it. -/
theorem Deeper.exists_of_own (h : line.Deeper depth) (hp : line.own = some p) :
    ∃ marks words, p = marks ++ ' ' :: words ∧ depth < marks.length ∧ ' ' ∉ marks := by
  induction line generalizing depth with
  | worded marks words =>
    obtain rfl := Option.some.inj hp
    exact ⟨marks, words, rfl, h.1, h.2⟩
  | blank marks => cases hp
  | led marks line ih =>
    obtain ⟨inner, words, heq, hlt, hspace⟩ := ih h.2 hp
    exact ⟨inner, words, heq, h.1.trans hlt, hspace⟩

/-- A line is what its item promises unless other marks stand before it. -/
theorem Deeper.own_prefix_iff (h : line.Deeper depth) (hp : line.own = some p) :
    p <+: line.text ↔ line.isLed = false := by
  cases line with
  | worded marks words =>
    obtain rfl := Option.some.inj hp
    exact ⟨fun _ => rfl, fun _ => List.prefix_rfl⟩
  | blank marks => cases hp
  | led marks line =>
    refine ⟨fun hprefix => ?_, fun hled => by cases hled⟩
    -- the space behind the outer marks would be one of the inner marks
    obtain ⟨inner, words, rfl, hlt, hspace⟩ := h.2.exists_of_own hp
    have hinner : inner <+: text (led marks line) := (List.prefix_append ..).trans hprefix
    have hmarks : marks ++ [' '] <+: text (led marks line) := ⟨line.text, by simp [text]⟩
    have hin := List.prefix_of_prefix_length_le hmarks hinner
      (by rw [List.length_append]; exact hlt)
    exact absurd (hin.subset (by simp)) hspace

end OutlineLine

namespace Node

/-! ### Outlines as documents -/

mutual
/-- A list of items and white space, whose items may be without a text of their own. -/
def isOutline : Node → Bool
  | .element name attributes children =>
    Element.listTags.contains (lowerName name) && !Element.isFurniture attributes &&
      holdsPoints children
  | _ => false

def holdsPoints : List Node → Bool
  | [] => true
  | node :: nodes => (isWhiteText node || isPoint node) && holdsPoints nodes

/-- An item: a text or none, and further lists and white space. -/
def isPoint : Node → Bool
  | .element name attributes children =>
    itemTags.contains (lowerName name) && !Element.isFurniture attributes && holdsPoint children
  | _ => false

def holdsPoint : List Node → Bool
  | [] => true
  | node :: nodes => (isWording node || isWhiteText node || isOutline node) && holdsOutlines nodes

def holdsOutlines : List Node → Bool
  | [] => true
  | node :: nodes => (isWhiteText node || isOutline node) && holdsOutlines nodes
end

/-- The line that an item with some children promises: its marks, a space and its text. -/
def promise (lists : List String) (tag : String) : List Node → List Text
  | .text raw _ :: _ => if raw.isWhite then [] else [itemLine lists tag raw]
  | _ => []

mutual
/-- The lines that the items of a tree inside of `lists` promise, in document order. -/
def promises (lists : List String) : Node → List Text
  | .element name _ children =>
    if Element.listTags.contains (lowerName name) then
      promisesAll (lists ++ [lowerName name]) children
    else promise lists (lowerName name) children ++ promisesAll lists children
  | _ => []

def promisesAll (lists : List String) : List Node → List Text
  | [] => []
  | node :: nodes => promises lists node ++ promisesAll lists nodes
end

/-- Puts what opens an item with some children before the lines below it. -/
def begin (lists : List String) (tag : String) (below : List OutlineLine) :
    List Node → List OutlineLine
  | .text raw _ :: _ =>
    if raw.isWhite then OutlineLine.lead (lists.flatMap (Element.listMark tag)) below
    else .worded (lists.flatMap (Element.listMark tag))
      (trimEnd isBlank (trimStart isSpace ((Session.mediaWiki {}).guardText false raw))) :: below
  | _ => OutlineLine.lead (lists.flatMap (Element.listMark tag)) below

mutual
/-- The lines of a tree inside of `lists`. -/
def outline (lists : List String) : Node → List OutlineLine
  | .element name _ children =>
    if Element.listTags.contains (lowerName name) then
      outlineAll (lists ++ [lowerName name]) children
    else begin lists (lowerName name) (outlineAll lists children) children
  | _ => []

def outlineAll (lists : List String) : List Node → List OutlineLine
  | [] => []
  | node :: nodes => outline lists node ++ outlineAll lists nodes
end

/-! ### What is promised stands on some line -/

theorem filterMap_own_begin (lists : List String) (tag : String) (below : List OutlineLine)
    (children : List Node) : (begin lists tag below children).filterMap OutlineLine.own =
      promise lists tag children ++ below.filterMap OutlineLine.own := by
  unfold begin promise
  split
  · split
    · exact OutlineLine.filterMap_own_lead _ _
    · rfl
  · exact OutlineLine.filterMap_own_lead _ _

mutual
theorem filterMap_own_outline : ∀ (lists : List String) (node : Node),
    (node.outline lists).filterMap OutlineLine.own = node.promises lists
  | _, .text _ _ => rfl
  | _, .special _ _ => rfl
  | lists, .element name attributes children => by
    rw [outline, promises]
    split
    · exact filterMap_own_outlineAll _ children
    · rw [filterMap_own_begin, filterMap_own_outlineAll lists children]

theorem filterMap_own_outlineAll : ∀ (lists : List String) (nodes : List Node),
    (outlineAll lists nodes).filterMap OutlineLine.own = promisesAll lists nodes
  | _, [] => rfl
  | lists, node :: nodes => by
    rw [outlineAll, promisesAll, List.filterMap_append, filterMap_own_outline lists node,
      filterMap_own_outlineAll lists nodes]
end

end Node

open Node

namespace Session

variable {structural : Bool} {lists : List String} {tag name : String} {raw l m : Text}
  {n : Node} {nodes : List Node} {attributes : Attributes} {depth : Nat}
  {ls ms : List OutlineLine}

/-! ### Trees -/

/-- Siblings inside of `lists` have the lines `ls`, all with more marks than `depth`. -/
structure Outlines (structural : Bool) (lists : List String) (depth : Nat) (nodes : List Node)
    (ls : List OutlineLine) : Prop where
  writes : Writes structural lists nodes (ls.map OutlineLine.text)
  lasting : ∀ l ∈ ls, Lasting l.text
  deeper : ∀ l ∈ ls, l.Deeper depth

theorem Writes.outlines (h : Writes structural lists nodes []) :
    Outlines structural lists depth nodes [] :=
  ⟨h, fun _ hl => absurd hl List.not_mem_nil, fun _ hl => absurd hl List.not_mem_nil⟩

theorem outlines_nil : Outlines structural lists depth [] [] :=
  writes_nil.outlines

theorem outlines_white (h : n.isWhiteText = true) : Outlines structural lists depth [n] [] :=
  (writes_white h).outlines

theorem Outlines.cons (hfirst : Outlines structural lists depth [n] ls)
    (hrest : Outlines structural lists depth nodes ms) :
    Outlines structural lists depth (n :: nodes) (ls ++ ms) := by
  refine ⟨?_, fun l hl => ?_, fun l hl => ?_⟩
  · rw [List.map_append]
    exact hfirst.writes.cons hrest.writes
  · exact (List.mem_append.mp hl).elim (hfirst.lasting l) (hrest.lasting l)
  · exact (List.mem_append.mp hl).elim (hfirst.deeper l) (hrest.deeper l)

theorem length_marks (tag : String) (lists : List String) :
    (lists.flatMap (Element.listMark tag)).length = lists.length := by
  induction lists with
  | nil => rfl
  | cons list lists ih =>
    have hmark := listMark_cases tag list
    simp only [List.mem_cons, List.not_mem_nil, or_false] at hmark
    have hone : (Element.listMark tag list).length = 1 := by
      rcases hmark with h | h | h | h <;> rw [h] <;> rfl
    rw [List.flatMap_cons, List.length_append, ih, hone, List.length_cons, Nat.add_comm]

theorem Lasting.behind (hm : ∀ c ∈ m, c ∈ ['*', '#', ';', ':']) (h : Lasting l) :
    Lasting (m ++ ' ' :: l) := by
  refine ⟨by simp, fun hin => ?_, fun hinfix => ?_⟩
  · rcases List.mem_append.mp hin with hin | hin
    · exact absurd (hm _ hin) (by decide)
    · rcases List.mem_cons.mp hin with hin | hin
      · exact absurd hin (by decide)
      · exact h.notMem_newline hin
  · have hcons : MediaWiki.placeholder = '[' :: MediaWiki.placeholder.tail := rfl
    rw [List.append_cons, hcons] at hinfix
    have hrest := infix_append_of_notMem (fun hin => by
      rcases List.mem_append.mp hin with hin | hin
      · exact absurd (hm _ hin) (by decide)
      · exact absurd hin (by decide)) hinfix
    exact h.free hrest

theorem lasting_marks (hm : ∀ c ∈ m, c ∈ ['*', '#', ';', ':']) (hne : m ≠ []) : Lasting m := by
  refine ⟨hne, fun hin => absurd (hm _ hin) (by decide), fun hinfix => ?_⟩
  have hin : '[' ∈ m := hinfix.subset (by decide)
  exact absurd (hm _ hin) (by decide)

/-- An item without a text puts its marks before the first line below it. -/
theorem writes_bareItem {ls : List Text} (htag : lowerName name ∈ itemTags)
    (hfurniture : Element.isFurniture attributes = false) (hlists : lists ≠ [])
    (h : Writes false lists nodes ls) : Writes structural lists [.element name attributes nodes]
      (leadText (lists.flatMap (Element.listMark (lowerName name))) ls) := by
  have hall : ∀ tag ∈ itemTags, tag ∉ ["a", "caption", "pre"] ∧
      structuralTags.contains tag = false ∧ transparentTags.contains tag = false := by decide
  obtain ⟨hother, hstructural, htransparent⟩ := hall _ htag
  obtain ⟨c, marks, hmarks⟩ := marks_ne_nil (lowerName name) hlists
  refine produces_element hother hfurniture (by rw [hstructural]; exact h)
    fun ancestors preceded cs t ht => ?_
  refine ⟨_, elementMarkup_wrap htransparent (find?_item _ htag) rfl rfl rfl, fun habove => ?_⟩
  have hjoins := ht (by rw [listsAbove_cons_other (not_listTag_of_itemTag htag), habove])
  have hlayout : itemRule.layout (Element.itemStart (lowerName name) ⟨preceded, ancestors⟩) t [] =
      '\n' :: (lists.flatMap (Element.listMark (lowerName name)) ++ ' ' :: trimStart isSpace t) := by
    simp [Rule.layout, itemRule, Rule.wrap, Rule.bare, TrimPolicy.apply, LineFormat.apply,
      Element.itemStart, listMarks_eq, habove]
  rw [PlacedElement.tag, hlayout]
  exact hjoins.leadText (fun d hd => isSpace_of_mem_marks hd) (by simp [hmarks])

theorem outlines_bareItem (htag : lowerName name ∈ itemTags)
    (hfurniture : Element.isFurniture attributes = false) (hdepth : depth < lists.length)
    (h : Outlines false lists lists.length nodes ls) :
    Outlines structural lists depth [.element name attributes nodes]
      (OutlineLine.lead (lists.flatMap (Element.listMark (lowerName name))) ls) := by
  have hlists : lists ≠ [] := List.ne_nil_of_length_pos (Nat.zero_lt_of_lt hdepth)
  have hmarks : ∀ c ∈ lists.flatMap (Element.listMark (lowerName name)),
      c ∈ ['*', '#', ';', ':'] := fun _ hc => mem_marks hc
  have hlength := length_marks (lowerName name) lists
  have hne : lists.flatMap (Element.listMark (lowerName name)) ≠ [] := by
    obtain ⟨c, marks, heq⟩ := marks_ne_nil (lowerName name) hlists
    simp [heq]
  refine ⟨?_, ?_, ?_⟩
  · rw [OutlineLine.map_text_lead]
    exact writes_bareItem htag hfurniture hlists h.writes
  · exact OutlineLine.forall_mem_lead (lasting_marks hmarks hne)
      (fun l hl => (h.lasting l hl).behind hmarks) h.lasting
  · refine OutlineLine.forall_mem_lead ?_ (fun l hl => ?_) fun l hl =>
      (h.deeper l hl).mono hdepth.le
    · rwa [OutlineLine.Deeper, hlength]
    · rw [OutlineLine.Deeper, hlength]
      exact ⟨hdepth, h.deeper l hl⟩

theorem outlines_wordedItem (htag : lowerName name ∈ itemTags)
    (hfurniture : Element.isFurniture attributes = false) (hdepth : depth < lists.length)
    (hraw : raw.isWhite = false) (hfree : occurs MediaWiki.placeholder raw = false)
    (h : Outlines false lists lists.length nodes ls) :
    Outlines structural lists depth [.element name attributes (.text raw false :: nodes)]
      (.worded (lists.flatMap (Element.listMark (lowerName name)))
        (trimEnd isBlank (trimStart isSpace ((mediaWiki {}).guardText false raw))) :: ls) := by
  have hlists : lists ≠ [] := List.ne_nil_of_length_pos (Nat.zero_lt_of_lt hdepth)
  refine ⟨writes_item htag hfurniture hlists hraw h.writes, ?_, ?_⟩
  · rintro l (_ | ⟨_, hl⟩)
    · exact lasting_itemLine hlists hfree
    · exact h.lasting l hl
  · rintro l (_ | ⟨_, hl⟩)
    · rw [OutlineLine.Deeper, length_marks]
      refine ⟨hdepth, fun hin => ?_⟩
      exact absurd (mem_marks hin) (by decide)
    · exact (h.deeper l hl).mono hdepth.le

theorem outlines_list (htag : lowerName name ∈ Element.listTags)
    (hfurniture : Element.isFurniture attributes = false)
    (h : Outlines true (lists ++ [lowerName name]) lists.length nodes ls) :
    Outlines structural lists lists.length [.element name attributes nodes] ls :=
  ⟨writes_list htag hfurniture h.writes, h.lasting, h.deeper⟩

mutual
theorem outlines_of_isOutline : ∀ (n : Node) (structural : Bool) (lists : List String),
    n.isOutline = true → Outlines structural lists lists.length [n] (n.outline lists)
  | .text _ _, _, _, h => by cases h
  | .special _ _, _, _, h => by cases h
  | .element name attributes children, structural, lists, h => by
    simp only [isOutline, Bool.and_eq_true, Bool.not_eq_true', List.contains_iff_mem] at h
    obtain ⟨⟨htag, hfurniture⟩, hpoints⟩ := h
    rw [outline, if_pos (by simpa using htag)]
    exact outlines_list htag hfurniture
      (outlines_of_holdsPoints children (lists ++ [lowerName name]) lists.length (by simp) hpoints)

theorem outlines_of_holdsPoints : ∀ (nodes : List Node) (lists : List String) (depth : Nat),
    depth < lists.length → holdsPoints nodes = true →
      Outlines true lists depth nodes (outlineAll lists nodes)
  | [], _, _, _, _ => outlines_nil
  | n :: nodes, lists, depth, hdepth, h => by
    simp only [holdsPoints, Bool.and_eq_true, Bool.or_eq_true] at h
    rw [outlineAll]
    refine Outlines.cons ?_ (outlines_of_holdsPoints nodes lists depth hdepth h.2)
    rcases h.1 with hwhite | hpoint
    · obtain ⟨raw, rfl, -⟩ := exists_of_isWhiteText hwhite
      exact outlines_white hwhite
    · exact outlines_of_isPoint n lists depth hdepth hpoint

theorem outlines_of_isPoint : ∀ (n : Node) (lists : List String) (depth : Nat),
    depth < lists.length → n.isPoint = true → Outlines true lists depth [n] (n.outline lists)
  | .text _ _, _, _, _, h => by cases h
  | .special _ _, _, _, _, h => by cases h
  | .element name attributes [], lists, depth, hdepth, h => by
    simp only [isPoint, Bool.and_eq_true, Bool.not_eq_true', List.contains_iff_mem] at h
    rw [outline, if_neg (by simpa using not_listTag_of_itemTag h.1.1)]
    exact outlines_bareItem h.1.1 h.1.2 hdepth outlines_nil
  | .element name attributes (first :: rest), lists, depth, hdepth, h => by
    simp only [isPoint, holdsPoint, Bool.and_eq_true, Bool.or_eq_true, Bool.not_eq_true',
      List.contains_iff_mem] at h
    obtain ⟨⟨htag, hfurniture⟩, hfirst, hrest⟩ := h
    have hbelow := outlines_of_holdsOutlines rest lists hrest
    rw [outline, if_neg (by simpa using not_listTag_of_itemTag htag), outlineAll]
    rcases hfirst with (hwording | hwhite) | hlist
    · obtain ⟨raw, rfl, hraw, hfree⟩ := exists_of_isWording hwording
      rw [begin, if_neg (by simp [hraw])]
      exact outlines_wordedItem htag hfurniture hdepth hraw hfree hbelow
    · obtain ⟨raw, rfl, hraw⟩ := exists_of_isWhiteText hwhite
      rw [begin, if_pos hraw]
      exact outlines_bareItem htag hfurniture hdepth ((outlines_white hwhite).cons hbelow)
    · have hopen : begin lists (lowerName name) (outline lists first ++ outlineAll lists rest)
          (first :: rest) = OutlineLine.lead (lists.flatMap (Element.listMark (lowerName name)))
            (outline lists first ++ outlineAll lists rest) := by
        cases first with
        | text raw guarded => cases hlist
        | special kind content => rfl
        | element name attributes children => rfl
      rw [hopen]
      exact outlines_bareItem htag hfurniture hdepth
        ((outlines_of_isOutline first false lists hlist).cons hbelow)

theorem outlines_of_holdsOutlines : ∀ (nodes : List Node) (lists : List String),
    holdsOutlines nodes = true → Outlines false lists lists.length nodes (outlineAll lists nodes)
  | [], _, _ => outlines_nil
  | n :: nodes, lists, h => by
    simp only [holdsOutlines, Bool.and_eq_true, Bool.or_eq_true] at h
    rw [outlineAll]
    refine Outlines.cons ?_ (outlines_of_holdsOutlines nodes lists h.2)
    rcases h.1 with hwhite | hlist
    · obtain ⟨raw, rfl, -⟩ := exists_of_isWhiteText hwhite
      exact outlines_white hwhite
    · exact outlines_of_isOutline n false lists hlist
end

/-! ### Documents -/

/-- The markup of a list is the lines of its outline.  Each item with a text stands on one of
them, and has the line that it promises exactly if no item without a text begins there. -/
theorem convert_outline {list : Node} (h : list.isOutline = true) :
    (mediaWiki {}).convert [list] =
        Report.ok (unlines ((list.outline []).map OutlineLine.text)) ∧
      (list.outline [] ≠ [] → (unlines ((list.outline []).map OutlineLine.text)).lines =
        (list.outline []).map OutlineLine.text) ∧
      (list.outline []).filterMap OutlineLine.own = list.promises [] ∧
      ∀ l ∈ list.outline [], ∀ p ∈ l.own, p <+: l.text ↔ l.isLed = false := by
  cases list with
  | text raw guarded => cases h
  | special kind content => cases h
  | element name attributes children =>
    simp only [isOutline, Bool.and_eq_true, Bool.not_eq_true', List.contains_iff_mem] at h
    obtain ⟨⟨htag, hfurniture⟩, hpoints⟩ := h
    have houtline := outlines_of_holdsPoints children ([] ++ [lowerName name]) 0 (by simp) hpoints
    have hlines : (Node.element name attributes children).outline [] =
        outlineAll ([] ++ [lowerName name]) children := by
      rw [outline, if_pos (by simpa using htag)]
    have hlasting : ∀ l ∈ (outlineAll ([] ++ [lowerName name]) children).map OutlineLine.text,
        Lasting l := by
      intro l hl
      obtain ⟨line, hline, rfl⟩ := List.mem_map.mp hl
      exact houtline.lasting line hline
    refine ⟨?_, fun hne => ?_, filterMap_own_outline [] _, fun l hl p hp => ?_⟩
    · rw [hlines]
      exact convert_of_writes htag hfurniture houtline.writes hlasting
    · rw [hlines] at hne ⊢
      exact lines_unlines (by simpa using hne) fun l hl => (hlasting l hl).notMem_newline
    · rw [hlines] at hl
      exact (houtline.deeper l hl).own_prefix_iff hp

/-- Items without a text, with white space and with nothing in them, among others. -/
def outlined : Node :=
  .element "ul" [] [
    .element "li" [] [
      .text "\n ".toList false,
      .element "ol" [] [
        .element "li" [] [.element "dl" [] [.element "dt" [] [.text " term\n".toList false]]],
        .element "li" [] [.text "step".toList false]]],
    .text "\n".toList false,
    .element "LI" [] [.element "ul" [] [], .element "ul" [] [.element "li" [] []]],
    .element "li" [] [.text "# last".toList false, .element "ol" [] [.element "li" [] []]]]

theorem convert_outlined : outlined.isOutline = true ∧
    (mediaWiki {}).convert [outlined] = Report.ok
      ("* *# *#; term\n" ++ "*# step\n" ++ "* **\n" ++ "* <nowiki># last</nowiki>\n" ++
        "*#").toList ∧
      outlined.promises [] = ["*#; term".toList, "*# step".toList,
        "* <nowiki># last</nowiki>".toList] := by
  have houtline : outlined.isOutline = true := by decide +kernel
  refine ⟨houtline, ?_, by decide +kernel⟩
  rw [(convert_outline houtline).1]
  exact congrArg Report.ok (by decide +kernel)

/-- A list whose only item begins with a list. -/
def bareNesting : Node :=
  .element "ul" [] [.element "li" [] [.element "ul" [] [.element "li" [] [.text ['a'] false]]]]

/-- An item has no line of its own where it is the first thing in another one. -/
theorem not_keeps_bareNesting : bareNesting.isOutline = true ∧
    bareNesting.promises [] = ["** a".toList] ∧
      ∃ t, ((mediaWiki {}).convert [bareNesting]).outcome = .ok t ∧
        ∀ l ∈ t.lines, ¬ "** a".toList <+: l := by
  refine ⟨by decide +kernel, by decide +kernel, "* ** a".toList, by decide +kernel, ?_⟩
  decide +kernel

end Session

end Wikitext

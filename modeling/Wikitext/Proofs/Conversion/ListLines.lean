/-
  Wikitext/Proofs/Conversion/ListLines.lean
  =========================================
  **One line for each item.**  A list is converted from the inside out: items open a line,
  lists set themselves off by empty lines and drop the empty lines within, and the last pass
  tidies what is left.  All of this cancels out: the markup of a list is exactly one line for
  each of its items, in document order, however lists are nested and wherever white space stands
  (`convert_list`).

  The marks of an item are looked up above it, so the lists above are carried down.  What an item
  holds besides its text joins to the line of that text (`Text.Joins`), which is what makes the
  induction go through at every level.
-/
import Wikitext.Proofs.Conversion.Assembly
import Wikitext.Proofs.Text.Tidy

namespace Wikitext

open Text

namespace Node

/-! ### Lists as documents -/

/-- The elements that are items of lists. -/
def itemTags : List String := ["li", "dt", "dd"]

/-- A text that is more than white space, without the placeholder of preformatted text. -/
def isWording : Node → Bool
  | .text raw guarded => !guarded && !raw.isWhite && !occurs MediaWiki.placeholder raw
  | _ => false

mutual
/-- A list of items and white space. -/
def isList : Node → Bool
  | .element name attributes children =>
    Element.listTags.contains (lowerName name) && !Element.isFurniture attributes &&
      holdsItems children
  | _ => false

def holdsItems : List Node → Bool
  | [] => true
  | node :: nodes => (isWhiteText node || isItem node) && holdsItems nodes

/-- An item: a text, and after it further lists and white space. -/
def isItem : Node → Bool
  | .element name attributes children =>
    itemTags.contains (lowerName name) && !Element.isFurniture attributes && holdsWording children
  | _ => false

def holdsWording : List Node → Bool
  | [] => false
  | node :: nodes => isWording node && holdsLists nodes

def holdsLists : List Node → Bool
  | [] => true
  | node :: nodes => (isWhiteText node || isList node) && holdsLists nodes
end

/-! ### The lines of a list -/

/-- The line of an item: a mark for each list around it, from the outermost inwards, a space, and
the guarded text of the item without the white space before it and the blanks after it. -/
def itemLine (lists : List String) (tag : String) (raw : Text) : Text :=
  lists.flatMap (Element.listMark tag) ++
    ' ' :: trimEnd isBlank (trimStart isSpace ((Session.mediaWiki {}).guardText false raw))

/-- The line of an item with some children. -/
def openingLine (lists : List String) (tag : String) : List Node → List Text
  | .text raw _ :: _ => [itemLine lists tag raw]
  | _ => []

mutual
/-- The lines of the items of a tree inside of `lists`, in document order. -/
def itemLines (lists : List String) : Node → List Text
  | .element name _ children =>
    if Element.listTags.contains (lowerName name) then
      itemLinesAll (lists ++ [lowerName name]) children
    else openingLine lists (lowerName name) children ++ itemLinesAll lists children
  | _ => []

def itemLinesAll (lists : List String) : List Node → List Text
  | [] => []
  | node :: nodes => itemLines lists node ++ itemLinesAll lists nodes
end

theorem exists_of_isWording {node : Node} (h : node.isWording = true) :
    ∃ raw, node = .text raw false ∧ raw.isWhite = false ∧
      occurs MediaWiki.placeholder raw = false := by
  cases node with
  | text raw guarded =>
    simp only [isWording, Bool.and_eq_true, Bool.not_eq_true'] at h
    exact ⟨raw, by rw [h.1.1], h.1.2, h.2⟩
  | special kind content => cases h
  | element name attributes children => cases h

end Node

namespace Session

/-! ### Marks -/

/-- The names of the lists among some ancestors, outermost first. -/
def listsAbove (ancestors : List Frame) : List String :=
  ((ancestors.filter fun f => Element.listTags.contains f.tag).reverse).map (·.tag)

theorem listsAbove_cons_list {tag : String} (h : Element.listTags.contains tag = true)
    (preceded : Bool) (ancestors : List Frame) :
    listsAbove (⟨tag, preceded⟩ :: ancestors) = listsAbove ancestors ++ [tag] := by
  rw [listsAbove, List.filter_cons, if_pos h, List.reverse_cons, List.map_append]; rfl

theorem listsAbove_cons_other {tag : String} (h : Element.listTags.contains tag = false)
    (preceded : Bool) (ancestors : List Frame) :
    listsAbove (⟨tag, preceded⟩ :: ancestors) = listsAbove ancestors := by
  rw [listsAbove, List.filter_cons, if_neg (by rw [Bool.not_eq_true]; exact h)]; rfl

theorem listMarks_eq (tag : String) (preceded : Bool) (ancestors : List Frame) :
    Element.listMarks tag ⟨preceded, ancestors⟩ =
      (listsAbove ancestors).flatMap (Element.listMark tag) := by
  rw [listsAbove, List.flatMap_map]; rfl

theorem listMark_cases (tag list : String) :
    Element.listMark tag list ∈ [['*'], ['#'], [';'], [':']] := by
  rw [Element.listMark]
  split_ifs <;> simp

/-- Marks are no white space and no part of a placeholder. -/
theorem mem_marks {tag : String} {lists : List String} {c : Char}
    (h : c ∈ lists.flatMap (Element.listMark tag)) : c ∈ ['*', '#', ';', ':'] := by
  obtain ⟨list, -, hc⟩ := List.mem_flatMap.mp h
  have hmark := listMark_cases tag list
  simp only [List.mem_cons, List.not_mem_nil, or_false] at hmark
  rcases hmark with hm | hm | hm | hm <;> rw [hm] at hc <;> simp at hc <;> simp [hc]

theorem isSpace_of_mem_marks {tag : String} {lists : List String} {c : Char}
    (h : c ∈ lists.flatMap (Element.listMark tag)) : isSpace c = false := by
  exact not_isSpace_of_all (by decide) c (mem_marks h)

theorem marks_ne_nil (tag : String) {lists : List String} (h : lists ≠ []) :
    ∃ c marks, lists.flatMap (Element.listMark tag) = c :: marks := by
  obtain ⟨list, lists, rfl⟩ := List.exists_cons_of_ne_nil h
  have hmark := listMark_cases tag list
  simp only [List.mem_cons, List.not_mem_nil, or_false] at hmark
  rw [List.flatMap_cons]
  rcases hmark with hm | hm | hm | hm <;> rw [hm] <;> exact ⟨_, _, rfl⟩

/-! ### The line of an item -/

variable {lists : List String} {tag name : String} {raw : Text} {ls ms : List Text}

/-- What an item puts on its line, with its blanks at the end. -/
def itemText (lists : List String) (tag : String) (raw : Text) : Text :=
  lists.flatMap (Element.listMark tag) ++
    ' ' :: trimStart isSpace ((mediaWiki {}).guardText false raw)

theorem plain_itemText (lists : List String) (tag : String) (raw : Text) :
    Plain (itemText lists tag raw) := by
  have hmarks : Plain (lists.flatMap (Element.listMark tag)) := fun c hc hspace => by
    rw [isSpace_of_mem_marks hc] at hspace
    cases hspace
  refine hmarks.append fun c hc hspace => ?_
  rcases List.mem_cons.mp hc with rfl | hc
  · rfl
  · exact plain_guardText raw c ((List.dropWhile_sublist _).subset hc) hspace

theorem trimStart_guardText_ne_nil (hraw : raw.isWhite = false) :
    trimStart isSpace ((mediaWiki {}).guardText false raw) ≠ [] := fun h => by
  rw [← isWhite_guardText, isWhite_iff.mpr (trimStart_eq_nil.mp h)] at hraw
  cases hraw

theorem inked_itemText (hlists : lists ≠ []) (hraw : raw.isWhite = false) :
    inked [itemText lists tag raw] = [Node.itemLine lists tag raw] := by
  have hwords := trimStart_guardText_ne_nil hraw
  have hplain : Plain (trimStart isSpace ((mediaWiki {}).guardText false raw)) := fun c hc =>
    plain_guardText raw c ((List.dropWhile_sublist _).subset hc)
  have hend : trimEnd isSpace (trimStart isSpace ((mediaWiki {}).guardText false raw)) ≠ [] := by
    intro h
    have hnil : trim isSpace ((mediaWiki {}).guardText false raw) = [] := h
    exact hwords (trimStart_eq_nil.mpr (trim_eq_nil.mp hnil))
  obtain ⟨c, marks, hmarks⟩ := marks_ne_nil tag hlists
  have hc : isSpace c = false := by
    have hmem : c ∈ lists.flatMap (Element.listMark tag) := by
      rw [hmarks]
      exact List.mem_cons_self ..
    exact isSpace_of_mem_marks hmem
  have hline : trim isSpace (itemText lists tag raw) = Node.itemLine lists tag raw := by
    rw [itemText, Node.itemLine, hmarks, List.cons_append, trim_cons_of_neg hc,
      List.append_cons marks, trimEnd_append hend, hplain.trimEnd_eq]
    simp
  have hne : Node.itemLine lists tag raw ≠ [] := by
    rw [Node.itemLine, hmarks]
    simp
  rw [inked_of_trim_ne_nil (by rw [hline]; exact hne), hline]

/-- A line that the last passes leave as it is. -/
structure Lasting (l : Text) : Prop where
  ne_nil : l ≠ []
  notMem_newline : '\n' ∉ l
  free : ¬ MediaWiki.placeholder <:+: l

theorem lasting_itemLine (hlists : lists ≠ [])
    (hraw : occurs MediaWiki.placeholder raw = false) : Lasting (Node.itemLine lists tag raw) := by
  have hmem : ∀ {c}, c ∈ Node.itemLine lists tag raw → c ∈ itemText lists tag raw := by
    intro c hc
    rcases List.mem_append.mp hc with hc | hc
    · exact List.mem_append_left _ hc
    · refine List.mem_append_right _ ?_
      rcases List.mem_cons.mp hc with rfl | hc
      · exact List.mem_cons_self ..
      · exact List.mem_cons_of_mem _ ((List.rdropWhile_prefix _ _).subset hc)
  obtain ⟨c, marks, hmarks⟩ := marks_ne_nil tag hlists
  refine ⟨by rw [Node.itemLine, hmarks]; simp, fun h =>
    (plain_itemText lists tag raw).notMem_newline (hmem h), fun h => ?_⟩
  -- an occurrence would have to start in the text
  have hcons : MediaWiki.placeholder = '[' :: MediaWiki.placeholder.tail := rfl
  rw [Node.itemLine, List.append_cons, hcons] at h
  have hwords := infix_append_of_notMem (fun hin => by
    rcases List.mem_append.mp hin with hin | hin
    · exact absurd (mem_marks hin) (by decide)
    · exact absurd hin (by decide)) h
  have hguard := (hwords.trans (List.rdropWhile_prefix _ _).isInfix).trans
    (List.dropWhile_suffix _).isInfix
  rw [← hcons] at hguard
  exact Bool.eq_false_iff.mp hraw (occurs_iff.mpr (infix_of_infix_guardText hguard))

/-! ### Rules -/

/-- The rule of a list. -/
def listRule : Rule := { Rule.bare .wrap with lineFormat := .multi, block := true }

/-- The rule of an item. -/
def itemRule : Rule := { Rule.wrap (.feature .itemStart) (.literal []) with trim := .leading }

theorem find?_list : ∀ tag ∈ Element.listTags, (mediaWiki {}).table.find? tag = some listRule := by
  decide +kernel

theorem not_listTag_of_itemTag {tag : String} (h : tag ∈ Node.itemTags) :
    Element.listTags.contains tag = false := by
  revert h tag
  decide

theorem find?_item : ∀ tag ∈ Node.itemTags, (mediaWiki {}).table.find? tag = some itemRule := by
  decide +kernel

/-! ### Trees -/

/-- Siblings inside of `lists` have the lines `ls`, and join to what stands around them. -/
def Writes (structural : Bool) (lists : List String) (nodes : List Node) (ls : List Text) : Prop :=
  Produces structural nodes fun ancestors _ _ t => listsAbove ancestors = lists → Joins t ls

variable {structural : Bool} {n : Node} {nodes : List Node} {attributes : Attributes}

theorem writes_nil : Writes structural lists [] [] :=
  produces_nil fun _ _ _ => joins_nil

theorem Writes.cons (hfirst : Writes structural lists [n] ls)
    (hrest : Writes structural lists nodes ms) : Writes structural lists (n :: nodes) (ls ++ ms) :=
  Produces.cons hfirst hrest fun _ _ _ _ _ _ ht hu hlists => (ht hlists).append (hu hlists)

theorem writes_white (h : n.isWhiteText = true) : Writes structural lists [n] [] :=
  (produces_white h).mono fun _ _ _ _ ht _ => ht

/-- A list sets its lines off by empty lines, and leaves none between them. -/
theorem produces_list (htag : lowerName name ∈ Element.listTags)
    (hfurniture : Element.isFurniture attributes = false)
    (h : Writes true (lists ++ [lowerName name]) nodes ls) :
    Produces structural [.element name attributes nodes] fun ancestors _ _ t =>
      listsAbove ancestors = lists → ∃ content, Reads content ls ∧
        t = ['\n', '\n'] ++ LineFormat.multi.apply content ++ ['\n', '\n'] := by
  have hall : ∀ tag ∈ Element.listTags, tag ∉ ["a", "caption", "pre"] ∧
      structuralTags.contains tag = true ∧ transparentTags.contains tag = false := by decide
  obtain ⟨hother, hstructural, htransparent⟩ := hall _ htag
  refine produces_element hother hfurniture (by rw [hstructural]; exact h)
    fun ancestors preceded cs t ht => ?_
  refine ⟨_, elementMarkup_wrap htransparent (find?_list _ htag) rfl rfl rfl, fun hlists => ?_⟩
  have hreads := (ht (by rw [listsAbove_cons_list (by simpa using htag), hlists])).follows.reads
  exact ⟨t, hreads, by simp [Rule.layout, listRule, Rule.bare, TrimPolicy.apply]⟩

theorem writes_list (htag : lowerName name ∈ Element.listTags)
    (hfurniture : Element.isFurniture attributes = false)
    (h : Writes true (lists ++ [lowerName name]) nodes ls) :
    Writes structural lists [.element name attributes nodes] ls := by
  refine (produces_list htag hfurniture h).mono fun _ _ _ t ht hlists => ?_
  obtain ⟨content, hreads, rfl⟩ := ht hlists
  exact joins_block hreads.multi

theorem writes_item (htag : lowerName name ∈ Node.itemTags)
    (hfurniture : Element.isFurniture attributes = false) (hlists : lists ≠ [])
    (hraw : raw.isWhite = false) (h : Writes false lists nodes ls) :
    Writes structural lists [.element name attributes (.text raw false :: nodes)]
      (Node.itemLine lists (lowerName name) raw :: ls) := by
  have hall : ∀ tag ∈ Node.itemTags, tag ∉ ["a", "caption", "pre"] ∧
      structuralTags.contains tag = false ∧ transparentTags.contains tag = false := by decide
  obtain ⟨hother, hstructural, htransparent⟩ := hall _ htag
  have hlist := not_listTag_of_itemTag htag
  let guarded := (mediaWiki {}).guardText false raw
  have hwords : trimStart isSpace guarded ≠ [] := trimStart_guardText_ne_nil hraw
  have hchildren : Produces false (.text raw false :: nodes) fun ancestors _ _ t =>
      listsAbove ancestors = lists → ∃ u, t = guarded ++ u ∧ Joins u ls := by
    have hfirst : Produces false [.text raw false] fun _ _ _ t => t = guarded :=
      produces_text fun _ _ => rfl
    refine hfirst.cons h fun _ _ _ _ t u ht hu habove => ⟨u, by rw [ht], hu habove⟩
  refine produces_element hother hfurniture (by rw [hstructural]; exact hchildren)
    fun ancestors preceded cs t ht => ?_
  refine ⟨_, elementMarkup_wrap htransparent (find?_item _ htag) rfl rfl rfl, fun habove => ?_⟩
  obtain ⟨u, rfl, hu⟩ := ht (by rw [listsAbove_cons_other hlist, habove])
  have hlayout : itemRule.layout
      (Element.itemStart (lowerName name) ⟨preceded, ancestors⟩) (guarded ++ u) [] =
        '\n' :: itemText lists (lowerName name) raw ++ u := by
    simp [Rule.layout, itemRule, Rule.wrap, Rule.bare, TrimPolicy.apply, LineFormat.apply,
      trimStart_append hwords, Element.itemStart, listMarks_eq, habove, itemText, guarded]
  have hline := (joins_newline_cons (plain_itemText lists (lowerName name) raw)).append hu
  rw [inked_itemText hlists hraw] at hline
  rw [PlacedElement.tag, hlayout]
  exact hline

mutual
theorem writes_of_isList : ∀ (n : Node) (structural : Bool) (lists : List String),
    n.isList = true → Writes structural lists [n] (n.itemLines lists) ∧
      ∀ l ∈ n.itemLines lists, Lasting l
  | .text _ _, _, _, h => by cases h
  | .special _ _, _, _, h => by cases h
  | .element name attributes children, structural, lists, h => by
    simp only [Node.isList, Bool.and_eq_true, Bool.not_eq_true', List.contains_iff_mem] at h
    obtain ⟨⟨htag, hfurniture⟩, hitems⟩ := h
    have hchildren := writes_of_holdsItems children (lists ++ [lowerName name]) (by simp) hitems
    rw [Node.itemLines, if_pos (by simpa using htag)]
    exact ⟨writes_list htag hfurniture hchildren.1, hchildren.2⟩

theorem writes_of_holdsItems : ∀ (nodes : List Node) (lists : List String), lists ≠ [] →
    Node.holdsItems nodes = true → Writes true lists nodes (Node.itemLinesAll lists nodes) ∧
      ∀ l ∈ Node.itemLinesAll lists nodes, Lasting l
  | [], _, _, _ => ⟨writes_nil, by simp [Node.itemLinesAll]⟩
  | n :: nodes, lists, hlists, h => by
    simp only [Node.holdsItems, Bool.and_eq_true, Bool.or_eq_true] at h
    obtain ⟨hrest, hlasting⟩ := writes_of_holdsItems nodes lists hlists h.2
    rw [Node.itemLinesAll]
    have hfirst : Writes true lists [n] (n.itemLines lists) ∧ ∀ l ∈ n.itemLines lists, Lasting l := by
      rcases h.1 with hwhite | hitem
      · obtain ⟨raw, rfl, -⟩ := Node.exists_of_isWhiteText hwhite
        exact ⟨writes_white hwhite, by simp [Node.itemLines]⟩
      · exact writes_of_isItem n lists hlists hitem
    exact ⟨hfirst.1.cons hrest, fun l hl => (List.mem_append.mp hl).elim (hfirst.2 l) (hlasting l)⟩

theorem writes_of_isItem : ∀ (n : Node) (lists : List String), lists ≠ [] → n.isItem = true →
    Writes true lists [n] (n.itemLines lists) ∧ ∀ l ∈ n.itemLines lists, Lasting l
  | .text _ _, _, _, h => by cases h
  | .special _ _, _, _, h => by cases h
  | .element name attributes [], _, _, h => by simp [Node.isItem, Node.holdsWording] at h
  | .element name attributes (first :: rest), lists, hlists, h => by
    simp only [Node.isItem, Node.holdsWording, Bool.and_eq_true, Bool.not_eq_true',
      List.contains_iff_mem] at h
    obtain ⟨⟨htag, hfurniture⟩, hfirst, hrest⟩ := h
    obtain ⟨raw, rfl, hraw, hfree⟩ := Node.exists_of_isWording hfirst
    have hlist := not_listTag_of_itemTag htag
    obtain ⟨hwrites, hlasting⟩ := writes_of_holdsLists rest lists hrest
    rw [Node.itemLines, if_neg (by simpa using hlist)]
    refine ⟨writes_item htag hfurniture hlists hraw hwrites, fun l hl => ?_⟩
    rcases List.mem_cons.mp hl with rfl | hl
    · exact lasting_itemLine hlists hfree
    · exact hlasting l hl

theorem writes_of_holdsLists : ∀ (nodes : List Node) (lists : List String),
    Node.holdsLists nodes = true → Writes false lists nodes (Node.itemLinesAll lists nodes) ∧
      ∀ l ∈ Node.itemLinesAll lists nodes, Lasting l
  | [], _, _ => ⟨writes_nil, by simp [Node.itemLinesAll]⟩
  | n :: nodes, lists, h => by
    simp only [Node.holdsLists, Bool.and_eq_true, Bool.or_eq_true] at h
    obtain ⟨hrest, hlasting⟩ := writes_of_holdsLists nodes lists h.2
    rw [Node.itemLinesAll]
    have hfirst : Writes false lists [n] (n.itemLines lists) ∧
        ∀ l ∈ n.itemLines lists, Lasting l := by
      rcases h.1 with hwhite | hlist
      · obtain ⟨raw, rfl, -⟩ := Node.exists_of_isWhiteText hwhite
        exact ⟨writes_white hwhite, by simp [Node.itemLines]⟩
      · exact writes_of_isList n false lists hlist
    exact ⟨hfirst.1.cons hrest, fun l hl => (List.mem_append.mp hl).elim (hfirst.2 l) (hlasting l)⟩
end

/-! ### Documents -/

theorem finish_unlines (h : ∀ l ∈ ls, Lasting l) : MediaWiki.finish (unlines ls) = unlines ls := by
  refine replace_eq_self (eq_false_of_ne_true fun hoccurs => ?_) [' ']
  have hinfix := occurs_iff.mp hoccurs
  induction ls with
  | nil => exact absurd hinfix (by decide)
  | cons l ls ih =>
    have hl := (h l (List.mem_cons_self ..)).free
    cases hls : ls with
    | nil =>
      rw [hls] at hinfix
      exact hl hinfix
    | cons m ms =>
      rw [unlines_cons l (by simp [hls])] at hinfix
      rcases infix_append_cons (by decide) (by decide) hinfix with hin | hin
      · exact hl hin
      · exact ih (fun k hk => h k (List.mem_cons_of_mem _ hk)) (occurs_iff.mpr hin) hin

/-- A list with lasting lines is converted to them. -/
theorem convert_of_writes (htag : lowerName name ∈ Element.listTags)
    (hfurniture : Element.isFurniture attributes = false)
    (h : Writes true ([] ++ [lowerName name]) nodes ls) (hlasting : ∀ l ∈ ls, Lasting l) :
    (mediaWiki {}).convert [.element name attributes nodes] = Report.ok (unlines ls) := by
  obtain ⟨_, t, hconvert, ht⟩ := Produces.convert (produces_list htag hfurniture h)
  obtain ⟨content, hreads, rfl⟩ := ht rfl
  rw [hconvert, complete]
  have htidy := tidy_of_dense (joins_block hreads.multi).follows.reads.neat
    hreads.dense_multi.append_newlines fun l hl => (hlasting l hl).ne_nil
  rw [htidy]
  exact congrArg Report.ok (finish_unlines hlasting)

/-- The markup of a list is one line for each item. -/
theorem convert_list {list : Node} (h : list.isList = true) :
    (mediaWiki {}).convert [list] = Report.ok (unlines (list.itemLines [])) ∧
      (list.itemLines [] ≠ [] →
        (unlines (list.itemLines [])).lines = list.itemLines [] ∧ [] ∉ list.itemLines []) := by
  cases list with
  | text raw guarded => cases h
  | special kind content => cases h
  | element name attributes children =>
    simp only [Node.isList, Bool.and_eq_true, Bool.not_eq_true', List.contains_iff_mem] at h
    obtain ⟨⟨htag, hfurniture⟩, hitems⟩ := h
    obtain ⟨hwrites, hlasting⟩ :=
      writes_of_holdsItems children ([] ++ [lowerName name]) (by simp) hitems
    have hlines : (Node.element name attributes children).itemLines [] =
        Node.itemLinesAll ([] ++ [lowerName name]) children := by
      rw [Node.itemLines, if_pos (by simpa using htag)]
    rw [hlines]
    generalize Node.itemLinesAll ([] ++ [lowerName name]) children = ls at hwrites hlasting
    constructor
    · exact convert_of_writes htag hfurniture hwrites hlasting
    · intro hne
      exact ⟨lines_unlines hne fun l hl => (hlasting l hl).notMem_newline,
        fun hin => (hlasting _ hin).ne_nil rfl⟩

/-- Three kinds of lists in each other, with white space about and a text that reads as
markup. -/
def nestedLists : Node :=
  .element "ul" [] [
    .text "\n  ".toList false,
    .element "li" [] [
      .text " one &\n two ".toList false,
      .element "OL" [⟨"class", .list ["steps".toList]⟩] [
        .element "li" [] [.text "first".toList false, .text " \t".toList false],
        .text "\n".toList false,
        .element "li" [] [.text "# second".toList false]],
      .text "\n".toList false,
      .element "dl" [] [
        .element "dt" [] [.text "term".toList false],
        .element "dd" [] [.text "fact".toList false, .element "ul" [] []]]],
    .element "li" [] [.text "last".toList false]]

theorem convert_nestedLists : nestedLists.isList = true ∧
    (mediaWiki {}).convert [nestedLists] = Report.ok
      ("* one &amp; two\n" ++ "*# first\n" ++ "*# <nowiki># second</nowiki>\n" ++ "*; term\n" ++
        "*: fact\n" ++ "* last").toList := by
  have hlist : nestedLists.isList = true := by decide +kernel
  refine ⟨hlist, ?_⟩
  rw [(convert_list hlist).1]
  exact congrArg Report.ok (by decide +kernel)

end Session

end Wikitext

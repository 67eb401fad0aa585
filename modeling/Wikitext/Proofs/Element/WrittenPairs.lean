/-
  Wikitext/Proofs/Element/WrittenPairs.lean
  =========================================
  **Written attributes are read back.**  The grammar of written attributes is `name="value"`, with
  one space between neighbours, and no quote in a value.  So a text is taken apart at its quotes:
  what stands before the first and after the second is the name with its equals sign, what stands
  between them is the value (`readPairs`).

  The allowed attributes of an element are read back as they are, whatever their values hold
  (`readPairs_writtenAttributes`): a value is escaped, so it ends no quotes and opens no tag, and
  the lower case of a name is a name.
-/
import Wikitext.Proofs.Element.Written
import Wikitext.Proofs.Text.Lowercase
import Wikitext.Proofs.Text.Pieces

namespace Wikitext

open Text

namespace Text

variable {c d : Char} {t before after : Text}

/-! ### Entities in quotes -/

theorem decodeEntities_cons (hc : c ≠ '&') (t : Text) :
    decodeEntities (c :: t) = c :: decodeEntities t := by
  have hnone : entityAt? (c :: t) = none := by
    unfold entityAt?
    split <;> simp_all
  rw [decodeEntities, substitute, substituteFrom_zero, hnone]
  rfl

/-- A character in quotes stands for itself, or its entity is read as it. -/
theorem escapeAttributeChar_cases (c : Char) :
    escapeAttributeChar c = [c] ∧ c ≠ '&' ∧ c ≠ '"' ∨
      ∃ name, escapeAttributeChar c = '&' :: name ∧ '"' ∉ name ∧
        ∀ t, decodeEntities ('&' :: name ++ t) = c :: decodeEntities t := by
  by_cases h : c = '"' ∨ c = '&' ∨ c = '<' ∨ c = '>'
  · right
    rcases h with rfl | rfl | rfl | rfl
    · exact ⟨"quot;".toList, rfl, by decide, fun _ => rfl⟩
    · exact ⟨"amp;".toList, rfl, by decide, fun _ => rfl⟩
    · exact ⟨"lt;".toList, rfl, by decide, fun _ => rfl⟩
    · exact ⟨"gt;".toList, rfl, by decide, fun _ => rfl⟩
  · simp only [not_or] at h
    obtain ⟨hquote, hamp, hlt, hgt⟩ := h
    have hsame : escapeAttributeChar c = escapeChar c := by
      unfold escapeAttributeChar
      split <;> simp_all
    exact Or.inl ⟨hsame.trans (escapeChar_of_ne hamp hlt hgt), hamp, hquote⟩

/-- A value is read back from its escaped form. -/
theorem decodeEntities_escapeAttribute (t : Text) : decodeEntities t.escapeAttribute = t := by
  induction t with
  | nil => rfl
  | cons c t ih =>
    have hcons : escapeAttribute (c :: t) = escapeAttributeChar c ++ escapeAttribute t :=
      List.flatMap_cons
    rcases escapeAttributeChar_cases c with ⟨hc, hamp, -⟩ | ⟨name, hc, -, hread⟩
    · rw [hcons, hc, List.singleton_append, decodeEntities_cons hamp, ih]
    · rw [hcons, hc, hread, ih]

/-- No value ends its quotes. -/
theorem quote_notMem_escapeAttribute (t : Text) : '"' ∉ t.escapeAttribute := by
  intro h
  obtain ⟨c, -, hc⟩ := List.mem_flatMap.mp h
  rcases escapeAttributeChar_cases c with ⟨heq, -, hquote⟩ | ⟨name, heq, hname, -⟩
  · rw [heq, List.mem_singleton] at hc
    exact hquote hc.symm
  · rw [heq] at hc
    exact (List.mem_cons.mp hc).elim (by decide) hname

end Text

/-! ### Names -/

/-- The characters of names: all but white space, quotes, angles, slashes and equals signs. -/
def isAttributeChar (c : Char) : Bool :=
  !(['\t', '\n', '\x0c', '\r', ' ', '"', '\'', '<', '>', '/', '='].contains c)

namespace Text

theorem isAttributeChar_of_le (h : 0x80 ≤ c.toNat) : isAttributeChar c = true := by
  have hascii : ['\t', '\n', '\x0c', '\r', ' ', '"', '\'', '<', '>', '/', '='].all
      (fun d => decide (d.toNat < 0x80)) = true := by decide
  rw [isAttributeChar, Bool.not_eq_true', List.contains_eq_any_beq, List.any_eq_false]
  intro d hd heq
  have hlt := of_decide_eq_true (List.all_eq_true.mp hascii d hd)
  rw [← beq_iff_eq.mp heq] at hlt
  omega

theorem isAttributeChar_toLower (hc : isAttributeChar c = true) (h : c.toNat < 0x80) :
    isAttributeChar c.toLower = true := by
  have hall : ∀ n < 0x80, isAttributeChar (Char.ofNat n) = true →
      isAttributeChar (Char.ofNat n).toLower = true := by
    decide +kernel
  have hlower := hall c.toNat h
  rw [Char.ofNat_toNat] at hlower
  exact hlower hc

theorem isAttributeChar_of_mem_lowerAt (hc : isAttributeChar c = true)
    (h : d ∈ lowerAt before c after) : isAttributeChar d = true := by
  rw [lowerAt] at h
  split at h
  · have hall : ['i', '\u0307'].all isAttributeChar = true := by decide
    exact List.all_eq_true.mp hall d h
  · split at h
    · rw [List.mem_singleton.mp h]
      split <;> decide
    · rw [List.mem_singleton.mp h]
      by_cases hascii : c.toNat < 0x80
      · rw [lowerChar, if_pos hascii]
        exact isAttributeChar_toLower hc hascii
      · rcases lowerChar_of_le (Nat.le_of_not_lt hascii) with hk | hzero | hle
        · rw [hk]
          rfl
        · rw [hzero]
          rfl
        · exact isAttributeChar_of_le hle

theorem isAttributeChar_of_mem_lowerFrom (ht : t.all isAttributeChar = true)
    (h : d ∈ lowerFrom before t) : isAttributeChar d = true := by
  induction t generalizing before with
  | nil => cases h
  | cons c t ih =>
    rw [List.all_cons, Bool.and_eq_true] at ht
    rw [lowerFrom] at h
    exact (List.mem_append.mp h).elim (isAttributeChar_of_mem_lowerAt ht.1) (ih ht.2)

end Text

/-- The lower case of a name is a name. -/
theorem all_isAttributeChar_lowerName {name : String} (h : name.toList.all isAttributeChar = true) :
    (lowerName name).toList.all isAttributeChar = true := by
  rw [lowerName, String.toList_ofList]
  exact List.all_eq_true.mpr fun _ => isAttributeChar_of_mem_lowerFrom h

namespace Element

variable {allowed : List String} {attributes : Attributes} {name : String} {value gap t u : Text}
  {x : String} {xs : List String} {pairs : List (String × Text)}

theorem notMem_of_all_isAttributeChar {c : Char} (h : name.toList.all isAttributeChar = true)
    (hc : isAttributeChar c = false) : c ∉ name.toList := fun hmem => by
  rw [List.all_eq_true.mp h c hmem] at hc
  cases hc

theorem unangled_of_all_isAttributeChar (h : name.toList.all isAttributeChar = true) :
    Unangled name.toList :=
  ⟨notMem_of_all_isAttributeChar h (by decide), notMem_of_all_isAttributeChar h (by decide)⟩

/-! ### Distinct names -/

theorem filter_distinct (p : String → Bool) (xs : List String) :
    (distinct xs).filter p = distinct (xs.filter p) := by
  induction xs with
  | nil => rfl
  | cons x xs ih =>
    rw [distinct]
    by_cases hx : p x = true
    · rw [List.filter_cons_of_pos hx, List.filter_cons_of_pos hx, distinct, ← ih,
        List.filter_filter, List.filter_filter]
      simp only [Bool.and_comm]
    · rw [List.filter_cons_of_neg hx, List.filter_cons_of_neg hx, ← ih, List.filter_filter]
      -- what is not `x` need not be told apart from it
      refine List.filter_congr fun y _ => ?_
      by_cases hy : y = x
      · subst hy
        simp [hx]
      · simp [hy]

theorem distinct_eq_eraseDups (xs : List String) : distinct xs = xs.eraseDups := by
  induction hlength : xs.length using Nat.strong_induction_on generalizing xs with
  | _ n ih =>
    cases xs with
    | nil => rfl
    | cons x xs =>
      have hshort : (xs.filter (· != x)).length < n := by
        rw [← hlength]
        exact Nat.lt_succ_of_le (List.length_filter_le ..)
      rw [distinct, filter_distinct, ih _ hshort _ rfl, List.eraseDups_cons]
      rfl

/-! ### The grammar -/

/-- The name that stands between a gap and an equals sign. -/
def nameBefore? (gap t : Text) : Option String :=
  match splitOn '=' (t.drop gap.length) with
  | [name, []] =>
    if gap.isPrefixOf t && name.all isAttributeChar then some (String.ofList name) else none
  | _ => none

/-- The pairs in a text that has been taken apart at its quotes; `gap` stands before the first. -/
def readPieces (gap : Text) : List Text → Option (List (String × Text))
  | [] => none
  | [rest] => if rest = [] then some [] else none
  | before :: value :: rest => do
    let name ← nameBefore? gap before
    let pairs ← readPieces [' '] rest
    return (name, value.decodeEntities) :: pairs

/-- Reads `name="value"` pairs with one space between neighbours. -/
def readPairs (t : Text) : Option (List (String × Text)) :=
  readPieces [] (splitOn '"' t)

/-! ### One pair after another -/

theorem join_cons_eq (t : Text) (ts : List Text) :
    join [' '] (t :: ts) = t ++ ts.flatMap (' ' :: ·) := by
  induction ts generalizing t with
  | nil => exact (List.append_nil t).symm
  | cons u us ih => rw [join_cons ' ' t (List.cons_ne_nil u us), ih, List.flatMap_cons]; rfl

theorem nameBefore?_name (gap : Text) (hname : name.toList.all isAttributeChar = true) :
    nameBefore? gap (gap ++ (name.toList ++ ['='])) = some name := by
  have hsplit : splitOn '=' (name.toList ++ ['=']) = [name.toList, []] := by
    rw [splitOn_append_cons, splitOn_of_notMem (notMem_of_all_isAttributeChar hname (by decide))]
    rfl
  have hstart : gap.isPrefixOf (gap ++ (name.toList ++ ['='])) = true := by simp
  rw [nameBefore?, List.drop_left, hsplit]
  simp only [hstart, hname, Bool.and_self, if_true, String.ofList_toList]

/-- A written pair is read, and what follows it is read by itself. -/
theorem readPieces_writtenPair (hname : name.toList.all isAttributeChar = true)
    (hgap : '"' ∉ gap) (value u : Text) :
    readPieces gap (splitOn '"' (gap ++ writtenPair name value ++ u)) =
      (readPieces [' '] (splitOn '"' u)).map ((name, value) :: ·) := by
  have hparts : gap ++ writtenPair name value ++ u =
      (gap ++ (name.toList ++ ['='])) ++ '"' :: (value.escapeAttribute ++ '"' :: u) := by
    simp [writtenPair]
  have hbefore : '"' ∉ gap ++ (name.toList ++ ['=']) := by
    rw [List.mem_append, List.mem_append, not_or, not_or]
    exact ⟨hgap, notMem_of_all_isAttributeChar hname (by decide), by decide⟩
  rw [hparts, splitOn_append_cons, splitOn_append_cons, splitOn_of_notMem hbefore,
    splitOn_of_notMem (quote_notMem_escapeAttribute value), List.singleton_append,
    List.singleton_append, readPieces, nameBefore?_name gap hname,
    decodeEntities_escapeAttribute]
  cases readPieces [' '] (u.splitOn '"') <;> rfl

/-- Pairs with a space before each are read. -/
theorem readPieces_flatMap (h : ∀ pair ∈ pairs, pair.1.toList.all isAttributeChar = true) :
    readPieces [' ']
      (splitOn '"' (pairs.flatMap fun pair => ' ' :: writtenPair pair.1 pair.2)) =
      some pairs := by
  induction pairs with
  | nil => rfl
  | cons pair pairs ih =>
    obtain ⟨hpair, hpairs⟩ := List.forall_mem_cons.mp h
    have hstep := readPieces_writtenPair hpair (by decide : '"' ∉ [' ']) pair.2
      (pairs.flatMap fun pair => ' ' :: writtenPair pair.1 pair.2)
    rw [ih hpairs] at hstep
    rw [List.flatMap_cons]
    exact hstep

theorem readPairs_join (h : ∀ pair ∈ pairs, pair.1.toList.all isAttributeChar = true) :
    readPairs (join [' '] (pairs.map fun pair => writtenPair pair.1 pair.2)) =
      some pairs := by
  cases pairs with
  | nil => rfl
  | cons pair pairs =>
    obtain ⟨hpair, hpairs⟩ := List.forall_mem_cons.mp h
    have hstep := readPieces_writtenPair hpair (by decide : '"' ∉ []) pair.2
      (pairs.flatMap fun pair => ' ' :: writtenPair pair.1 pair.2)
    rw [readPieces_flatMap hpairs] at hstep
    rw [List.map_cons, join_cons_eq, List.flatMap_map]
    exact hstep

theorem count_writtenPair (hname : name.toList.all isAttributeChar = true) (value : Text) :
    (writtenPair name value).count '"' = 2 := by
  have hname' := List.count_eq_zero.mpr (notMem_of_all_isAttributeChar hname (c := '"') (by decide))
  have hvalue := List.count_eq_zero.mpr (quote_notMem_escapeAttribute value)
  simp [writtenPair, hname', hvalue]

theorem count_join (h : ∀ pair ∈ pairs, pair.1.toList.all isAttributeChar = true) :
    (join [' '] (pairs.map fun pair => writtenPair pair.1 pair.2)).count '"' =
      2 * pairs.length := by
  induction pairs with
  | nil => rfl
  | cons pair pairs ih =>
    obtain ⟨hpair, hpairs⟩ := List.forall_mem_cons.mp h
    have hcount := count_writtenPair hpair pair.2
    rw [List.map_cons]
    by_cases hne : pairs.map (fun pair => writtenPair pair.1 pair.2) = []
    · rw [List.map_eq_nil_iff.mp hne]
      exact hcount
    · rw [join_cons ' ' _ hne, List.count_append, List.count_cons_of_ne (by decide), hcount,
        ih hpairs, List.length_cons]
      omega

/-- The allowed attributes of an element are read back: those of the distinct names of the list,
in lower case, that it has, in the order of the list.  Whatever the values hold, the quotes are
those around the values, and no tag is opened. -/
theorem readPairs_writtenAttributes (allowed : List String) (attributes : Attributes)
    (hallowed : ∀ name ∈ allowed, name.toList.all isAttributeChar = true) :
    ∃ pairs, readPairs (writtenAttributes allowed attributes) = some pairs ∧
      pairs = (allowed.map lowerName).eraseDups.filterMap (fun name =>
        (attributes.text? name).map fun value => (name, value)) ∧
      (∀ pair ∈ pairs, pair.1 ∈ allowed.map lowerName) ∧
      (writtenAttributes allowed attributes).count '"' = 2 * pairs.length ∧
      Unangled (writtenAttributes allowed attributes) := by
  have hnames : ∀ name ∈ allowed.map lowerName, name.toList.all isAttributeChar = true := by
    intro name hname
    obtain ⟨spelt, hspelt, rfl⟩ := List.mem_map.mp hname
    exact all_isAttributeChar_lowerName (hallowed spelt hspelt)
  have hpairs : ∀ pair ∈ allowedPairs allowed attributes,
      pair.1.toList.all isAttributeChar = true := fun pair hpair =>
    hnames _ (exists_of_mem_allowedPairs hpair)
  refine ⟨allowedPairs allowed attributes, readPairs_join hpairs, ?_,
    fun pair => exists_of_mem_allowedPairs, count_join hpairs,
    unangled_writtenAttributes
      (fun name hname => unangled_of_all_isAttributeChar (hnames name hname))
      attributes⟩
  rw [allowedPairs, distinct_eq_eraseDups]

/-- Two spellings of one name, a list of values, and a value that holds quotes and tags. -/
theorem readPairs_writtenAttributes_spellings :
    (∀ name ∈ ["Class", "data-Note", "CLASS", "id"], name.toList.all isAttributeChar = true) ∧
      readPairs (writtenAttributes ["Class", "data-Note", "CLASS", "id"]
        [⟨"data-note", .single "x\" id=\"<b>&quot;".toList⟩,
          ⟨"class", .list ["a".toList, "b".toList]⟩]) =
        some [("class", "a b".toList), ("data-note", "x\" id=\"<b>&quot;".toList)] := by
  have hnames : ∀ name ∈ ["Class", "data-Note", "CLASS", "id"],
      name.toList.all isAttributeChar = true := by
    decide
  obtain ⟨pairs, hread, hpairs, -⟩ := readPairs_writtenAttributes
    ["Class", "data-Note", "CLASS", "id"] [⟨"data-note", .single "x\" id=\"<b>&quot;".toList⟩,
      ⟨"class", .list ["a".toList, "b".toList]⟩] hnames
  refine ⟨hnames, hread.trans (congrArg some (hpairs.trans ?_))⟩
  decide +kernel

end Element

end Wikitext

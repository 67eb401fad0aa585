/-
  Wikitext/Proofs/Element/CellLine.lean
  =====================================
  **Cells on one line.**  A wiki reads the cells of a line by their bars: two bars in a row start
  another cell, as two exclamation marks do on the line of a header, and what stands before the
  first single bar of a cell are its attributes (`readLine?`).  Bars within `<nowiki>` do not
  count.

  A cell that is written with its attributes is read as one cell with these attributes and its
  content just if no open mark of the content starts another cell, and no open bar of it passes
  for the end of attributes where there are none (`readLine?_cellLine`).  The attributes
  themselves must hold no such marks; their values are no concern of this module.
-/
import Wikitext.Proofs.Element.Opening
import Wikitext.Proofs.Nowiki.Signs

namespace Wikitext

open Text Nowiki

/-! ### Splitting at pairs -/

section SplitPairs

variable {α β : Type} {r : α → α → Bool} {a : List α}

/-- The pieces between the pairs that are related by `r`, from left to right. -/
def splitPairs (r : α → α → Bool) : List α → List (List α)
  | [] => [[]]
  | [x] => [[x]]
  | x :: y :: rest =>
    if r x y then [] :: splitPairs r rest
    else (splitPairs r (y :: rest)).modifyHead (x :: ·)

theorem splitPairs_ne_nil (r : α → α → Bool) (a : List α) : splitPairs r a ≠ [] := by
  fun_induction splitPairs r a with
  | case1 => simp
  | case2 x => simp
  | case3 x y rest h ih => simp
  | case4 x y rest h ih => simpa using ih

/-- There is one piece just if there are no pairs. -/
theorem map_splitPairs_eq_iff {f : List α → β} {b : β} : (splitPairs r a).map f = [b] ↔
    a.IsChain (fun x y => r x y = false) ∧ f a = b := by
  suffices h : ∀ f : List α → β, (splitPairs r a).map f = [b] ↔
      a.IsChain (fun x y => r x y = false) ∧ f a = b from h f
  fun_induction splitPairs r a with
  | case1 => simp
  | case2 x => simp
  | case3 x y rest h ih =>
    intro f
    have hne := splitPairs_ne_nil r rest
    simp [h, hne]
  | case4 x y rest h ih =>
    intro f
    have hr : r x y = false := by simpa using h
    obtain ⟨b', bs, hbs⟩ := List.exists_cons_of_ne_nil (splitPairs_ne_nil r (y :: rest))
    have hstep := ih fun b => f (x :: b)
    rw [hbs] at hstep ⊢
    rw [List.isChain_cons_cons, hr]
    simpa using hstep

end SplitPairs

namespace Element

variable {c d : Char} {tag : String} {header : Bool} {A T t : Text} {a b : List Sign}
  {x y : Sign}

/-! ### Reading a line -/

/-- A cell as a wiki reads it. -/
structure Cell where
  attributes : Text
  content : Text
deriving DecidableEq, Repr

/-- Two open bars start another cell, and so do two open exclamation marks on the line of a
header. -/
def opensCell (header : Bool) (x y : Sign) : Bool :=
  isMark '|' x && isMark '|' y || header && (isMark '!' x && isMark '!' y)

/-- The cell in a piece of a line: its attributes end with the first open bar, if there is one. -/
def readCell (piece : List Sign) : Cell :=
  match piece.dropWhile (fun sign => !isMark '|' sign) with
  | [] => ⟨[], trim isSpace (written piece)⟩
  | _ :: content =>
    ⟨trim isSpace (written (piece.takeWhile fun sign => !isMark '|' sign)),
      trim isSpace (written content)⟩

def readCells (header : Bool) (t : Text) : List Cell :=
  (splitPairs (opensCell header) (signs t)).map readCell

/-- The cells of a line, if it is one of cells. -/
def readLine? : Text → Option (List Cell)
  | '!' :: t => some (readCells true t)
  | '|' :: t =>
    if t.head?.any (['-', '+', '\x7d'].contains ·) then none else some (readCells false t)
  | _ => none

/-! ### Writing a line -/

/-- The line of a cell with written attributes `A` and content `T`. -/
def cellLine (tag : String) (A T : Text) : Text :=
  trim isSpace (cellMark tag :: (cellHead A ++ ' ' :: T))

/-- The content after a space, if there is any. -/
def cellTail (T : Text) : Text :=
  if T = [] then [] else ' ' :: T

theorem isSpace_of_mem_blank : ∀ c ∈ [' '], isSpace c = true := by
  simp [isSpace]

theorem trimEnd_of_trim (hT : trim isSpace T = T) : trimEnd isSpace T = T := by
  rcases List.eq_nil_or_concat' T with rfl | ⟨u, c, rfl⟩
  · rfl
  · have hc := trim_last isSpace (u ++ [c]) c (by rw [hT]; simp)
    rw [trimEnd_concat, if_neg (by simp [hc])]

theorem cellLine_eq (tag : String) (A : Text) (hT : trim isSpace T = T) :
    cellLine tag A T = cellMark tag :: (cellHead A ++ cellTail T) := by
  rw [cellLine, trim_cons_of_neg (isSpace_cellMark tag), cellTail]
  congr 1
  split
  · next hnil =>
    -- the space is trimmed off
    rw [hnil, trimEnd_append_of_all isSpace_of_mem_blank, List.append_nil, cellHead]
    split
    · rfl
    · have hparts : ' ' :: (A ++ [' ', '|']) = (' ' :: (A ++ [' '])) ++ ['|'] := by simp
      rw [hparts, trimEnd_concat, if_neg (by decide)]
  · next hne =>
    have htail : trimEnd isSpace (' ' :: T) = ' ' :: T := by
      have happend := trimEnd_append (p := isSpace) (by rwa [trimEnd_of_trim hT]) [' ']
      rwa [trimEnd_of_trim hT] at happend
    rw [trimEnd_append (by rw [htail]; simp), htail]

theorem trim_cellTail (hT : trim isSpace T = T) : trim isSpace (cellTail T) = T := by
  rw [cellTail]
  split
  · next hnil => rw [hnil]; rfl
  · rw [trim_cons_of_pos (by decide), hT]

/-! ### Marks of a line -/

/-- No sign starts another cell. -/
def IsOneCell (header : Bool) (a : List Sign) : Prop :=
  a.IsChain fun x y => opensCell header x y = false

instance (header : Bool) (a : List Sign) : Decidable (IsOneCell header a) :=
  inferInstanceAs (Decidable (a.IsChain _))

theorem opensCell_of_left (hbar : isMark '|' x = false) (hmark : isMark '!' x = false) (y : Sign) :
    opensCell header x y = false := by
  simp [opensCell, hbar, hmark]

theorem opensCell_of_right (hbar : isMark '|' y = false) (hmark : isMark '!' y = false) (x : Sign) :
    opensCell header x y = false := by
  simp [opensCell, hbar, hmark]

theorem isOneCell_space_cons : IsOneCell header ((' ', true) :: a) ↔ IsOneCell header a := by
  rw [IsOneCell, List.isChain_cons]
  exact and_iff_right fun y _ => opensCell_of_left rfl rfl y

theorem isOneCell_concat_space : IsOneCell header (a ++ [(' ', true)]) ↔ IsOneCell header a := by
  rw [IsOneCell, List.isChain_append]
  refine ⟨fun h => h.1, fun h => ⟨h, List.isChain_singleton _, fun x _ y hy => ?_⟩⟩
  obtain rfl : (' ', true) = y := by simpa using hy
  exact opensCell_of_right rfl rfl x

/-- Marks behind a space start no cell together with those before it. -/
theorem isOneCell_append (hlast : a.getLast? = some (' ', true)) :
    IsOneCell header (a ++ b) ↔ IsOneCell header a ∧ IsOneCell header b := by
  rw [IsOneCell, List.isChain_append]
  refine and_congr_right fun _ => and_iff_left fun x hx y _ => ?_
  obtain rfl : (' ', true) = x := by simpa [hlast] using hx
  exact opensCell_of_left rfl rfl y

theorem signs_cellTail (T : Text) :
    signs (cellTail T) = if T = [] then [] else (' ', true) :: signs T := by
  rw [cellTail]
  split
  · rfl
  · exact signs_cons (by decide) T

theorem isOneCell_cellTail :
    IsOneCell header (signs (cellTail T)) ↔ IsOneCell header (signs T) := by
  rw [signs_cellTail]
  split
  · next hnil => rw [hnil]; rfl
  · exact isOneCell_space_cons

/-- Open text without bars, and without two exclamation marks in a header. -/
theorem isOneCell_open (hbar : '|' ∉ t) (hmarks : header = true → ¬ ['!', '!'] <:+: t) :
    IsOneCell header (t.map (·, true)) := by
  induction t with
  | nil => exact List.isChain_nil
  | cons c t ih =>
    rw [List.mem_cons, not_or] at hbar
    have hrest := ih hbar.2 fun h hin => hmarks h (hin.trans (List.suffix_cons ..).isInfix)
    rw [List.map_cons, IsOneCell, List.isChain_cons]
    refine ⟨fun y hy => ?_, hrest⟩
    cases t with
    | nil => cases hy
    | cons d t =>
      obtain rfl : (d, true) = y := by simpa using hy
      rw [Bool.eq_false_iff]
      intro hopens
      simp only [opensCell, isMark_open, Bool.or_eq_true, Bool.and_eq_true, beq_iff_eq] at hopens
      rcases hopens with ⟨rfl, -⟩ | ⟨hheader, rfl, rfl⟩
      · exact hbar.1 rfl
      · exact hmarks hheader ⟨[], t, rfl⟩

/-! ### Reading a written line -/

theorem readCells_eq_iff {cell : Cell} : readCells header t = [cell] ↔
    IsOneCell header (signs t) ∧ readCell (signs t) = cell :=
  map_splitPairs_eq_iff

/-- Without open bars a piece is all content. -/
theorem readCell_of_none (h : ∀ sign ∈ a, isMark '|' sign = false) :
    readCell a = ⟨[], trim isSpace (written a)⟩ := by
  have hnil : a.dropWhile (fun sign => !isMark '|' sign) = [] :=
    List.dropWhile_eq_nil_iff.mpr fun sign hsign => by simp [h sign hsign]
  rw [readCell, hnil]

/-- The first open bar stands between the attributes and the content. -/
theorem readCell_append (h : ∀ sign ∈ a, isMark '|' sign = false) (b : List Sign) :
    readCell (a ++ ('|', true) :: b) = ⟨trim isSpace (written a), trim isSpace (written b)⟩ := by
  have hpass : ∀ sign ∈ a, (!isMark '|' sign) = true := fun sign hsign => by simp [h sign hsign]
  have hstop : ¬ (!isMark '|' ('|', true)) = true := by decide
  rw [readCell, List.dropWhile_append_of_pos hpass, List.dropWhile_cons, if_neg hstop,
    List.takeWhile_append_of_pos hpass, List.takeWhile_cons, if_neg hstop, List.append_nil]

theorem exists_append_bar (h : ∃ sign ∈ a, isMark '|' sign = true) :
    ∃ b c, a = b ++ ('|', true) :: c ∧ ∀ sign ∈ b, isMark '|' sign = false := by
  induction a with
  | nil => simp at h
  | cons x a ih =>
    by_cases hx : isMark '|' x = true
    · obtain rfl : x = ('|', true) := beq_iff_eq.mp hx
      exact ⟨[], a, rfl, by simp⟩
    · have hrest : ∃ sign ∈ a, isMark '|' sign = true := by simpa [hx] using h
      obtain ⟨b, c, rfl, hb⟩ := ih hrest
      exact ⟨x :: b, c, rfl, List.forall_mem_cons.mpr ⟨by simpa using hx, hb⟩⟩

/-- A content without attributes is read as it is just if it has no open bar. -/
theorem readCell_cellTail_eq_iff (hT : trim isSpace T = T) :
    readCell (signs (cellTail T)) = ⟨[], T⟩ ↔ ∀ sign ∈ signs T, isMark '|' sign = false := by
  have hsame : (∀ sign ∈ signs (cellTail T), isMark '|' sign = false) ↔
      ∀ sign ∈ signs T, isMark '|' sign = false := by
    rw [signs_cellTail]
    split
    · next hnil => rw [hnil]; rfl
    · rw [List.forall_mem_cons]
      exact and_iff_right rfl
  rw [← hsame]
  constructor
  · intro hread
    by_contra hbar
    simp only [not_forall, Bool.not_eq_false] at hbar
    obtain ⟨sign, hsign, hmark⟩ := hbar
    obtain ⟨b, c, hsplit, hb⟩ := exists_append_bar ⟨sign, hsign, hmark⟩
    rw [hsplit, readCell_append hb] at hread
    -- the content has lost a bar
    have hwritten := congrArg written hsplit
    rw [written_signs, written_append] at hwritten
    have hcount : (cellTail T).count '|' = T.count '|' := by
      rw [cellTail]
      split
      · next hnil => rw [hnil]
      · exact List.count_cons_of_ne (by decide)
    have hless := (trim_infix_self isSpace (written c)).sublist.count_le '|'
    have hcontent : trim isSpace (written c) = T := congrArg Cell.content hread
    have hmore : written (('|', true) :: c) = '|' :: written c := rfl
    rw [hwritten, hmore, List.count_append, List.count_cons_self] at hcount
    rw [hcontent] at hless
    omega
  · intro hnone
    rw [readCell_of_none hnone, written_signs, trim_cellTail hT]

/-- The signs of a line with attributes. -/
theorem signs_cellHead (hne : A ≠ []) (hangle : '<' ∉ A) (t : Text) :
    signs (cellHead A ++ t) = (' ' :: (A ++ [' '])).map (·, true) ++ ('|', true) :: signs t := by
  have hparts : cellHead A ++ t = (' ' :: (A ++ [' '])) ++ '|' :: t := by
    simp [cellHead, hne]
  rw [hparts, signs_append_of_notMem (by simpa using hangle), signs_cons (by decide)]

/-- Attributes that hold no marks are told from the content by the bar behind them. -/
theorem readCell_cellHead (hA : trim isSpace A = A) (hne : A ≠ []) (hangle : '<' ∉ A)
    (hbar : '|' ∉ A) (hT : trim isSpace T = T) :
    readCell (signs (cellHead A ++ cellTail T)) = ⟨A, T⟩ := by
  have hnone : ∀ sign ∈ (' ' :: (A ++ [' '])).map (·, true), isMark '|' sign = false :=
    fun _ => not_isMark_of_notMem (by simpa using hbar)
  have hwritten : written ((' ' :: (A ++ [' '])).map (·, true)) = [' '] ++ A ++ [' '] := by
    simp [written, Function.comp_def]
  rw [signs_cellHead hne hangle, readCell_append hnone, written_signs, trim_cellTail hT, hwritten,
    trim_append_trim_append isSpace_of_mem_blank isSpace_of_mem_blank, hA]

theorem isOneCell_cellHead (hangle : '<' ∉ A) (hbar : '|' ∉ A)
    (hmarks : header = true → ¬ ['!', '!'] <:+: A) :
    IsOneCell header (signs (cellHead A ++ cellTail T)) ↔ IsOneCell header (signs T) := by
  rw [← isOneCell_cellTail (T := T)]
  by_cases hnil : A = []
  · rw [hnil]
    rfl
  · have hattributes : IsOneCell header ((' ' :: (A ++ [' '])).map (·, true)) := by
      have hopen := isOneCell_open hbar hmarks
      rw [List.map_cons, List.map_append]
      exact isOneCell_space_cons.mpr (isOneCell_concat_space.mpr hopen)
    have hlast : ((' ' :: (A ++ [' '])).map (·, true)).getLast? = some (' ', true) := by
      rw [← List.cons_append, List.map_append]
      exact List.getLast?_concat
    rw [signs_cellHead hnil hangle, isOneCell_append hlast, and_iff_right hattributes]
    -- the bar stands before a space, or at the end
    rw [signs_cellTail]
    split
    · exact iff_of_true (List.isChain_singleton _) List.isChain_nil
    · rw [IsOneCell, List.isChain_cons_cons]
      exact and_iff_right (opensCell_of_right rfl rfl _)

/-- A written cell is read as one cell with its attributes and its content just if no open mark of
the content starts another cell, and no open bar of it ends attributes where there are none. -/
theorem readLine?_cellLine (hA : trim isSpace A = A) (hangle : '<' ∉ A) (hbar : '|' ∉ A)
    (hmarks : tag = "th" → ¬ ['!', '!'] <:+: A) (hT : trim isSpace T = T) :
    readLine? (cellLine tag A T) = some [⟨A, T⟩] ↔
      IsOneCell (tag == "th") (signs T) ∧
        (A = [] → ∀ sign ∈ signs T, isMark '|' sign = false) := by
  have hread : readLine? (cellLine tag A T) =
      some (readCells (tag == "th") (cellHead A ++ cellTail T)) := by
    have hhead : (cellHead A ++ cellTail T).head?.any (['-', '+', '\x7d'].contains ·) = false := by
      rw [cellHead, cellTail]
      split <;> split <;> rfl
    rw [cellLine_eq tag A hT, cellMark]
    by_cases htag : tag = "th"
    · rw [if_pos htag, htag]
      rfl
    · have hth : (tag == "th") = false := by simpa using htag
      rw [if_neg htag, readLine?, hhead, hth, if_neg Bool.false_ne_true]
  rw [hread, Option.some.injEq, readCells_eq_iff,
    isOneCell_cellHead hangle hbar fun h => hmarks (by simpa using h)]
  refine and_congr_right fun _ => ?_
  by_cases hnil : A = []
  · rw [hnil]
    exact (readCell_cellTail_eq_iff hT).trans (by simp)
  · exact iff_of_true (readCell_cellHead hA hnil hangle hbar hT) fun h => absurd h hnil

end Element

end Wikitext

/-
  Wikitext/Proofs/Text/Runs.lean
  ==============================
  **Runs of marks.**  Marks that stand side by side make a run.  `runLengths` lists the lengths of
  the maximal runs of a list, and `pairCount` counts the places where two marks stand side by
  side, which are one less than the marks in every run (`sum_runLengths`).

  Two lists that do not meet in marks have the runs of both (`runLengths_append`), and a gap
  keeps runs apart whatever it is (`runLengths_append_gap`).  Meeting in marks makes one more pair
  (`pairCount_append`), so a list of parts has the pairs of its parts only if no two neighbours
  meet (`pairCount_flatten_eq_iff`).
-/
import Mathlib.Algebra.GroupWithZero.Nat
import Mathlib.Data.List.Chain
import Wikitext.Text.Basic

namespace Wikitext.Text

variable {α : Type} {q : α → Bool} {a b c w : List α} {x : α} {n : Nat} {ls : List (List α)}

/-! ### Runs -/

/-- The lengths of the runs, where `n` marks stand before the list. -/
def runLengthsFrom (q : α → Bool) : (n : Nat) → List α → List Nat
  | n, [] => if n = 0 then [] else [n]
  | n, x :: a =>
    if q x then runLengthsFrom q (n + 1) a
    else (if n = 0 then [] else [n]) ++ runLengthsFrom q 0 a

/-- The lengths of the maximal runs of marks. -/
def runLengths (q : α → Bool) (a : List α) : List Nat :=
  runLengthsFrom q 0 a

@[simp] theorem runLengths_nil : runLengths q [] = [] := rfl

theorem runLengths_cons (hx : q x = false) (a : List α) :
    runLengths q (x :: a) = runLengths q a := by
  rw [runLengths, runLengthsFrom, hx]
  rfl

theorem runLengthsFrom_append_cons (hx : q x = false) (n : Nat) (a b : List α) :
    runLengthsFrom q n (a ++ x :: b) = runLengthsFrom q n a ++ runLengths q b := by
  induction a generalizing n with
  | nil => rw [List.nil_append, runLengthsFrom, runLengthsFrom, hx, if_neg Bool.false_ne_true]; rfl
  | cons y a ih =>
    rw [List.cons_append, runLengthsFrom, runLengthsFrom]
    split
    · exact ih (n + 1)
    · rw [ih 0, List.append_assoc]

/-- What is no mark ends a run. -/
theorem runLengths_append_cons (hx : q x = false) (a b : List α) :
    runLengths q (a ++ x :: b) = runLengths q a ++ runLengths q b :=
  runLengthsFrom_append_cons hx 0 a b

theorem runLengths_append_gap (hne : w ≠ []) (hw : ∀ x ∈ w, q x = false) (a b : List α) :
    runLengths q (a ++ (w ++ b)) = runLengths q a ++ runLengths q b := by
  induction w generalizing a with
  | nil => exact absurd rfl hne
  | cons x w ih =>
    obtain ⟨hx, hw⟩ := List.forall_mem_cons.mp hw
    rw [List.cons_append, runLengths_append_cons hx]
    by_cases hnil : w = []
    · rw [hnil, List.nil_append]
    · rw [← List.nil_append (w ++ b), ih hnil hw [], runLengths_nil, List.nil_append]

theorem runLengths_of_none (hw : ∀ x ∈ w, q x = false) : runLengths q w = [] := by
  induction w with
  | nil => rfl
  | cons x w ih =>
    obtain ⟨hx, hw⟩ := List.forall_mem_cons.mp hw
    rw [runLengths_cons hx, ih hw]

theorem runLengths_map {β : Type} (q : β → Bool) (f : α → β) (a : List α) :
    runLengths q (a.map f) = runLengths (fun x => q (f x)) a := by
  suffices h : ∀ n, runLengthsFrom q n (a.map f) = runLengthsFrom (fun x => q (f x)) n a from h 0
  induction a with
  | nil => exact fun _ => rfl
  | cons x a ih =>
    intro n
    rw [List.map_cons, runLengthsFrom, runLengthsFrom, ih, ih]

theorem pos_of_mem_runLengthsFrom {k : Nat} (h : k ∈ runLengthsFrom q n a) : 0 < k := by
  have hended : ∀ m, k ∈ (if m = 0 then [] else [m]) → 0 < k := by
    intro m hm
    split at hm
    · cases hm
    · rw [List.mem_singleton.mp hm]
      omega
  induction a generalizing n with
  | nil => exact hended n h
  | cons x a ih =>
    rw [runLengthsFrom] at h
    split at h
    · exact ih h
    · exact (List.mem_append.mp h).elim (hended n) ih

/-! ### Parts that meet -/

/-- A mark at the end of one list meets a mark at the start of another. -/
def meets (q : α → Bool) (a b : List α) : Bool :=
  a.getLast?.any q && b.head?.any q

theorem meets_of_none (hw : ∀ x ∈ w, q x = false) (b : List α) : meets q w b = false := by
  rw [meets, Bool.and_eq_false_iff]
  left
  cases hlast : w.getLast? with
  | none => rfl
  | some x => exact hw x (List.mem_of_getLast? hlast)

theorem meets_of_none_right (hw : ∀ x ∈ w, q x = false) (a : List α) : meets q a w = false := by
  rw [meets, Bool.and_eq_false_iff]
  right
  cases hhead : w.head? with
  | none => rfl
  | some x => exact hw x (List.mem_of_head? hhead)

/-- Lists that do not meet in marks keep their runs. -/
theorem runLengths_append (h : meets q a b = false) :
    runLengths q (a ++ b) = runLengths q a ++ runLengths q b := by
  cases b with
  | nil => rw [List.append_nil, runLengths_nil, List.append_nil]
  | cons y b =>
    by_cases hy : q y = true
    · rcases List.eq_nil_or_concat' a with rfl | ⟨a, x, rfl⟩
      · rfl
      · have hx : q x = false := by
          simpa [meets, hy] using h
        rw [List.append_assoc, List.singleton_append, runLengths_append_cons hx,
          runLengths_append_cons hx, runLengths_nil, List.append_nil]
    · rw [Bool.not_eq_true] at hy
      rw [runLengths_append_cons hy, runLengths_cons hy]

/-- What has no marks adds no runs on either side. -/
theorem runLengths_between (ha : ∀ x ∈ a, q x = false) (hc : ∀ x ∈ c, q x = false)
    (b : List α) : runLengths q (a ++ b ++ c) = runLengths q b := by
  rw [runLengths_append (meets_of_none_right hc _), runLengths_append (meets_of_none ha _),
    runLengths_of_none ha, runLengths_of_none hc, List.append_nil, List.nil_append]

/-! ### Pairs -/

/-- The number of marks that follow a mark; `after` says that one stands before the list. -/
def pairCountFrom (q : α → Bool) : (after : Bool) → List α → Nat
  | _, [] => 0
  | after, x :: a => (if after && q x then 1 else 0) + pairCountFrom q (q x) a

/-- The number of places where two marks stand side by side. -/
def pairCount (q : α → Bool) (a : List α) : Nat :=
  pairCountFrom q false a

/-- The marks of a run are one more than its pairs. -/
theorem sum_runLengthsFrom (n : Nat) (a : List α) :
    ((runLengthsFrom q n a).map (· - 1)).sum = (n - 1) + pairCountFrom q (decide (0 < n)) a := by
  have hended : ∀ m : Nat, ((if m = 0 then [] else [m]).map (· - 1)).sum = m - 1 := by
    intro m
    split
    · next h => rw [h]; rfl
    · simp
  induction a generalizing n with
  | nil => exact hended n
  | cons x a ih =>
    rw [runLengthsFrom, pairCountFrom]
    cases hx : q x with
    | true =>
      rw [if_pos rfl, ih (n + 1)]
      by_cases hn : 0 < n
      · simp [hn]
        omega
      · simp [hn]
        omega
    | false =>
      rw [if_neg Bool.false_ne_true, List.map_append, List.sum_append, hended, ih 0]
      simp

theorem sum_runLengths (a : List α) : ((runLengths q a).map (· - 1)).sum = pairCount q a :=
  (sum_runLengthsFrom 0 a).trans (Nat.zero_add _)

/-- Without pairs, every run is a single mark. -/
theorem eq_one_of_pairCount (h : pairCount q a = 0) : ∀ k ∈ runLengths q a, k = 1 := by
  intro k hk
  rw [← sum_runLengths, List.sum_eq_zero_iff_forall_eq_nat] at h
  have hpos := pos_of_mem_runLengthsFrom hk
  have hzero := h (k - 1) (List.mem_map_of_mem hk)
  omega

/-- Where no run is longer than two marks, those of two marks are the pairs. -/
theorem count_two_eq_sum {ns : List Nat} (h : ∀ k ∈ ns, k = 1 ∨ k = 2) :
    ns.count 2 = (ns.map (· - 1)).sum := by
  induction ns with
  | nil => rfl
  | cons k ns ih =>
    obtain ⟨hk, hns⟩ := List.forall_mem_cons.mp h
    rw [List.count_cons, List.map_cons, List.sum_cons, ih hns]
    rcases hk with rfl | rfl
    · simp
    · simp
      omega

theorem pairCountFrom_append (after : Bool) (a b : List α) :
    pairCountFrom q after (a ++ b) = pairCountFrom q after a + pairCount q b +
      if (a.isEmpty && after || a.getLast?.any q) && b.head?.any q then 1 else 0 := by
  induction a generalizing after with
  | nil =>
    cases b with
    | nil => simp [pairCountFrom, pairCount]
    | cons y b =>
      cases after <;> cases hy : q y <;> simp [pairCountFrom, pairCount, hy, Nat.add_comm]
  | cons x a ih =>
    rw [List.cons_append, pairCountFrom, ih, pairCountFrom]
    cases a with
    | nil => simp [Nat.add_assoc]
    | cons y a => simp [Nat.add_assoc]

/-- Lists that meet in marks have one more pair than both. -/
theorem pairCount_append (a b : List α) : pairCount q (a ++ b) =
    pairCount q a + pairCount q b + if meets q a b then 1 else 0 := by
  rw [pairCount, pairCountFrom_append]
  simp [pairCount, meets]

theorem pairCount_of_none (hw : ∀ x ∈ w, q x = false) : pairCount q w = 0 := by
  rw [← sum_runLengths, runLengths_of_none hw]
  rfl

theorem pairCount_append_of_none (hw : ∀ x ∈ w, q x = false) (b : List α) :
    pairCount q (w ++ b) = pairCount q b := by
  rw [pairCount_append, pairCount_of_none hw, meets_of_none hw, Nat.zero_add]
  rfl

theorem pairCount_cons (x : α) (a : List α) :
    pairCount q (x :: a) = pairCount q a + if q x && a.head?.any q then 1 else 0 := by
  rw [← List.singleton_append, pairCount_append]
  simp [pairCount, pairCountFrom, meets]

/-! ### Many parts -/

/-- No part meets the next one in marks. -/
def Separate (q : α → Bool) (ls : List (List α)) : Prop :=
  ls.IsChain fun a b => meets q a b = false

instance : Decidable (Separate q ls) :=
  inferInstanceAs (Decidable (ls.IsChain _))

theorem head?_flatten (hne : b ≠ []) (ls : List (List α)) : (b :: ls).flatten.head? = b.head? := by
  obtain ⟨y, b, rfl⟩ := List.exists_cons_of_ne_nil hne
  rfl

theorem sum_le_pairCount_flatten (ls : List (List α)) :
    (ls.map (pairCount q)).sum ≤ pairCount q ls.flatten := by
  induction ls with
  | nil => exact Nat.le_refl 0
  | cons a ls ih =>
    rw [List.map_cons, List.sum_cons, List.flatten_cons, pairCount_append]
    omega

/-- The pairs of a list of parts are those of the parts just if no two neighbours meet. -/
theorem pairCount_flatten_eq_iff (hne : ∀ a ∈ ls, a ≠ []) :
    pairCount q ls.flatten = (ls.map (pairCount q)).sum ↔ Separate q ls := by
  induction ls with
  | nil => simp [Separate, pairCount, pairCountFrom]
  | cons a ls ih =>
    have hls : ∀ b ∈ ls, b ≠ [] := fun b hb => hne b (List.mem_cons_of_mem _ hb)
    have hle := sum_le_pairCount_flatten (q := q) ls
    have hstep := ih hls
    rw [List.map_cons, List.sum_cons, List.flatten_cons, pairCount_append]
    cases ls with
    | nil => simp [Separate, pairCount, pairCountFrom, meets]
    | cons b ls =>
      have hhead : meets q a (b :: ls).flatten = meets q a b := by
        rw [meets, meets, head?_flatten (hls b (List.mem_cons_self ..))]
      rw [Separate, List.isChain_cons_cons, ← Separate, ← hstep, hhead]
      cases meets q a b with
      | true =>
        refine ⟨fun h => ?_, fun h => absurd h.1 (by decide)⟩
        rw [if_pos rfl] at h
        omega
      | false => simp

/-- Parts that do not meet in marks keep their runs. -/
theorem runLengths_flatten (hne : ∀ a ∈ ls, a ≠ []) (h : Separate q ls) :
    runLengths q ls.flatten = ls.flatMap (runLengths q) := by
  induction ls with
  | nil => rfl
  | cons a ls ih =>
    have hls : ∀ b ∈ ls, b ≠ [] := fun b hb => hne b (List.mem_cons_of_mem _ hb)
    rw [List.flatten_cons, List.flatMap_cons]
    cases ls with
    | nil => simp
    | cons b ls =>
      rw [Separate, List.isChain_cons_cons] at h
      have hmeets : meets q a (b :: ls).flatten = false := by
        rw [meets, head?_flatten (hls b (List.mem_cons_self ..))]
        exact h.1
      rw [runLengths_append hmeets, ih hls h.2]

end Wikitext.Text

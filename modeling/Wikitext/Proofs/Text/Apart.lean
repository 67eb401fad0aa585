/-
  Wikitext/Proofs/Text/Apart.lean
  ===============================
  **Tidying what an empty line keeps apart.**  The last pass leaves of the lines of a text those
  from the first to the last that are not empty, with one empty line wherever some stood between
  two of them (`core`).  So where two texts have an empty line between them, tidying both is
  tidying each (`tidy_append`), as long as no white space but blanks and line feeds stands at
  their ends.
-/
import Wikitext.Proofs.Text.Edges
import Wikitext.Proofs.Text.Search
import Wikitext.Proofs.Text.Tidy

namespace Wikitext

namespace Text

variable {t u l old new : Text} {ls ms vs : List Text}

/-! ### Two parts and a gap -/

section Apart

variable {α β : Type} {a b : List α}

/-- Two lists with a gap between them, if both have something to keep apart. -/
def apart (gap a b : List α) : List α :=
  if a.isEmpty then b else if b.isEmpty then a else a ++ gap ++ b

@[simp] theorem apart_nil_left (gap b : List α) : apart gap [] b = b := rfl

@[simp] theorem apart_nil_right (gap a : List α) : apart gap a [] = a := by
  cases a <;> rfl

theorem apart_of_ne (gap : List α) (ha : a ≠ []) (hb : b ≠ []) :
    apart gap a b = a ++ gap ++ b := by
  simp [apart, ha, hb]

/-- What is done to both parts and respects the gap is done to the whole. -/
theorem map_apart {f : List α → List β} {gap : List α} {gap' : List β} (hnil : f [] = [])
    (hne : ∀ x ∈ [a, b], f x = [] → x = [])
    (happend : a ≠ [] → b ≠ [] → f (a ++ gap ++ b) = f a ++ gap' ++ f b) :
    f (apart gap a b) = apart gap' (f a) (f b) := by
  by_cases ha : a = []
  · rw [ha, hnil, apart_nil_left, apart_nil_left]
  · by_cases hb : b = []
    · rw [hb, hnil, apart_nil_right, apart_nil_right]
    · have ha' : f a ≠ [] := fun h => ha (hne a (by simp) h)
      have hb' : f b ≠ [] := fun h => hb (hne b (by simp) h)
      rw [apart_of_ne gap ha hb, apart_of_ne gap' ha' hb', happend ha hb]

end Apart

/-! ### The core of some lines -/

/-- The lines from the first to the last that are not empty, with one empty line for each run of
empty lines between them; `after` says that some line stands before. -/
def coreFrom : (after : Bool) → List Text → List Text
  | _, [] => []
  | false, l :: ls => if l = [] then coreFrom false ls else l :: coreFrom true ls
  | true, l :: ls =>
    if l = [] then (if coreFrom false ls = [] then [] else [] :: coreFrom false ls)
    else l :: coreFrom true ls

def core (ls : List Text) : List Text :=
  coreFrom false ls

theorem coreFrom_empty_cons (ls : List Text) :
    coreFrom true ([] :: ls) = if core ls = [] then [] else [] :: core ls := rfl

theorem core_empty_cons (ls : List Text) : core ([] :: ls) = core ls := rfl

theorem coreFrom_cons (hl : l ≠ []) (after : Bool) (ls : List Text) :
    coreFrom after (l :: ls) = l :: coreFrom true ls := by
  cases after with
  | false => exact if_neg hl
  | true => exact if_neg hl

theorem core_cons (hl : l ≠ []) (ls : List Text) : core (l :: ls) = l :: coreFrom true ls :=
  coreFrom_cons hl false ls

theorem dropTrailing_cons (l : Text) (vs : List Text) :
    dropTrailing (l :: vs) = if l = [] ∧ dropTrailing vs = [] then [] else l :: dropTrailing vs := by
  rw [dropTrailing, dropTrailing, List.rdropWhile, List.rdropWhile, List.reverse_cons,
    List.dropWhile_append]
  by_cases hvs : vs.reverse.dropWhile (fun v => decide (v = [])) = []
  · by_cases hl : l = []
    · simp [hvs, hl]
    · simp [hvs, hl]
  · simp [hvs]

theorem dropTrailing_cons_of_ne (hl : l ≠ []) (vs : List Text) :
    dropTrailing (l :: vs) = l :: dropTrailing vs := by
  rw [dropTrailing_cons, if_neg fun h => hl h.1]

theorem dropTrailing_squeezeEmpty (ls : List Text) :
    dropTrailing (squeezeEmpty ls) = coreFrom true ls := by
  induction ls with
  | nil => rfl
  | cons l ls ih =>
    by_cases hl : l = []
    · subst hl
      rw [coreFrom_empty_cons]
      cases ls with
      | nil => rfl
      | cons m ms =>
        by_cases hm : m = []
        · subst hm
          rw [core_empty_cons]
          cases ms with
          | nil => rfl
          | cons k ks =>
            rw [squeezeEmpty, if_pos (by simp), ih, coreFrom_empty_cons]
        · rw [squeezeEmpty, if_neg (by simp [hm]), dropTrailing_cons, ih, coreFrom_cons hm,
            core_cons hm]
          simp
    · rw [coreFrom_cons hl]
      cases ls with
      | nil => exact dropTrailing_cons_of_ne hl []
      | cons m ms => rw [squeezeEmpty, if_neg (by simp [hl]), dropTrailing_cons_of_ne hl, ih]

theorem dropLeading_empty_cons (vs : List Text) : dropLeading ([] :: vs) = dropLeading vs := rfl

theorem dropLeading_cons_of_ne (hl : l ≠ []) (vs : List Text) :
    dropLeading (l :: vs) = l :: vs := by
  rw [dropLeading, List.dropWhile_cons, if_neg (by simpa using hl)]

theorem core_eq_squeezeEmpty (ls : List Text) :
    dropTrailing (dropLeading (squeezeEmpty ls)) = core ls := by
  induction ls with
  | nil => rfl
  | cons l ls ih =>
    by_cases hl : l = []
    · subst hl
      rw [core_empty_cons, ← ih]
      cases ls with
      | nil => rfl
      | cons m ms =>
        rw [squeezeEmpty]
        split
        · rfl
        · rw [dropLeading_empty_cons]
    · have hcore := dropTrailing_squeezeEmpty (l :: ls)
      rw [coreFrom_cons hl] at hcore
      rw [core_cons hl, ← hcore]
      cases ls with
      | nil => rw [squeezeEmpty, dropLeading_cons_of_ne hl]
      | cons m ms => rw [squeezeEmpty, if_neg (by simp [hl]), dropLeading_cons_of_ne hl]

/-- The last pass leaves the core. -/
theorem core_eq (ls : List Text) :
    dropTrailing (dropLeading (withSingleEmptyLines ls)) = core ls := by
  cases ls with
  | nil => rfl
  | cons l ls =>
    rw [withSingleEmptyLines]
    by_cases hl : l = []
    · rw [hl, dropLeading_empty_cons, core_eq_squeezeEmpty, core_empty_cons]
    · rw [dropLeading_cons_of_ne hl, dropTrailing_cons_of_ne hl, dropTrailing_squeezeEmpty,
        core_cons hl]

/-- An empty line keeps cores apart. -/
theorem core_append (ls ms : List Text) :
    core (ls ++ [] :: ms) = apart [[]] (core ls) (core ms) ∧
      coreFrom true (ls ++ [] :: ms) =
        if core ms = [] then coreFrom true ls else coreFrom true ls ++ [] :: core ms := by
  -- both at once: a line that is not empty leads from the first to the second
  induction ls with
  | nil => exact ⟨rfl, rfl⟩
  | cons l ls ih =>
    obtain ⟨ih, ih'⟩ := ih
    rw [List.cons_append]
    by_cases hl : l = []
    · subst hl
      rw [core_empty_cons, core_empty_cons, coreFrom_empty_cons, coreFrom_empty_cons, ih]
      refine ⟨rfl, ?_⟩
      by_cases hms : core ms = []
      · rw [hms, apart_nil_right, if_pos rfl]
      · by_cases hls : core ls = []
        · simp [hls, hms]
        · rw [apart_of_ne _ hls hms]
          simp [hls, hms]
    · rw [core_cons hl, core_cons hl, coreFrom_cons hl, coreFrom_cons hl, ih']
      by_cases hms : core ms = []
      · simp [hms]
      · rw [apart_of_ne _ (by simp) hms]
        simp [hms]

/-- A core starts with a line that is not empty. -/
theorem unlines_core_ne_nil (h : core ls ≠ []) : unlines (core ls) ≠ [] := by
  induction ls with
  | nil => exact absurd rfl h
  | cons l ls ih =>
    by_cases hl : l = []
    · rw [hl, core_empty_cons] at h ⊢
      exact ih h
    · rw [core_cons hl]
      cases hrest : coreFrom true ls with
      | nil => exact hl
      | cons m ms =>
        rw [unlines_cons l (by simp)]
        simp

/-! ### Tidied texts -/

theorem Edged.trim_eq (h : Edged t) : trim isSpace t = trim isGap t := by
  have hstart : Edged (trimStart isGap t) := h.thins (thins_trimStart (fun _ => isSpace_of_isGap) t)
  rw [trim, trim, h.trimStart_eq, hstart.trimEnd_eq]

theorem thins_unlines_trimmed (t : Text) :
    Thins t (unlines (withSingleEmptyLines (t.lines.map (trim isBlank)))) := by
  have hsame : ∀ p : Char → Bool, (∀ c, p c = true → isGap c = false) →
      (unlines (withSingleEmptyLines (t.lines.map (trim isBlank)))).filter p = t.filter p := by
    intro p hp
    have hlines : (t.lines.map (trim isBlank)).flatMap (List.filter p) =
        t.lines.flatMap (List.filter p) := by
      rw [List.flatMap_map]
      exact List.flatMap_congr fun l _ => filter_trim_isBlank hp l
    rw [filter_unlines hp, flatMap_filter_of_filter_eq p (filter_withSingleEmptyLines _), hlines,
      ← filter_unlines hp, unlines_lines]
  constructor
  · rw [solid, solid, hsame _ not_isGap_of_solid]
  · exact hsame _ not_isGap_of_visible

/-- A tidied text is the core of its trimmed lines. -/
theorem Edged.tidy_eq (h : Edged t) : t.tidy = unlines (core (t.lines.map (trim isBlank))) := by
  have hedged := h.thins (thins_unlines_trimmed t)
  have htrimmed : ∀ v ∈ withSingleEmptyLines (t.lines.map (trim isBlank)),
      ∃ l, '\n' ∉ v ∧ v = trim isBlank l := by
    intro v hv
    obtain ⟨l, hl, rfl⟩ := List.mem_map.mp ((withSingleEmptyLines_sublist _).subset hv)
    exact ⟨l, fun hin => notMem_newline_of_mem_lines hl (mem_of_mem_trim hin), rfl⟩
  have hgap : ∀ (v : Text) (c : Char), '\n' ∉ v → c ∈ v → isBlank c = false → isGap c = false := by
    intro v c hv hc hblank
    have hne : c ≠ '\n' := fun heq => hv (heq ▸ hc)
    simp [isGap, hblank, hne]
  rw [tidy, hedged.trim_eq, trim_unlines (by decide), core_eq]
  · intro v hv c hc
    obtain ⟨l, hnewline, rfl⟩ := htrimmed v hv
    exact hgap _ c hnewline (List.mem_of_mem_head? hc) (trim_head isBlank l c hc)
  · intro v hv c hc
    obtain ⟨l, hnewline, rfl⟩ := htrimmed v hv
    exact hgap _ c hnewline (List.mem_of_getLast? hc) (trim_last isBlank l c hc)

/-- Texts with an empty line between them are tidied each for itself. -/
theorem tidy_append (ht : Edged t) (hu : Edged u) :
    (t ++ '\n' :: '\n' :: u).tidy = apart ['\n', '\n'] t.tidy u.tidy := by
  have hgap : Edged ['\n', '\n'] := edged_of_clean (by decide)
  have hedged : Edged (t ++ '\n' :: '\n' :: u) := ht.append (hgap.append hu)
  have hlines : (t ++ '\n' :: '\n' :: u).lines.map (trim isBlank) =
      t.lines.map (trim isBlank) ++ [] :: u.lines.map (trim isBlank) := by
    rw [lines_append_newline, lines_newline_cons]
    simp [trim_nil]
  rw [hedged.tidy_eq, ht.tidy_eq, hu.tidy_eq, hlines, (core_append _ _).1]
  refine map_apart rfl ?_ ?_
  · intro vs hvs hnil
    by_contra hne
    simp only [List.mem_cons, List.not_mem_nil, or_false] at hvs
    rcases hvs with rfl | rfl
    · exact unlines_core_ne_nil hne hnil
    · exact unlines_core_ne_nil hne hnil
  · intro ha hb
    rw [unlines_append (by simp) hb, unlines_append ha (by simp)]
    simp

theorem tidy_append_newlines (ht : Edged t) : (t ++ ['\n', '\n']).tidy = t.tidy := by
  rw [tidy_append ht edged_nil]
  exact apart_nil_right _ _

theorem tidy_newlines_append (hu : Edged u) : tidy ('\n' :: '\n' :: u) = u.tidy :=
  tidy_append edged_nil hu

theorem replace_ne_nil (hnew : new ≠ []) (ht : t ≠ []) : replace old new t ≠ [] := by
  obtain ⟨c, t, rfl⟩ := List.exists_cons_of_ne_nil ht
  rw [replace, substitute, substituteFrom_zero]
  split
  · next h =>
    split at h
    · obtain ⟨-, rfl⟩ := Prod.mk.inj (Option.some.inj h)
      simp [hnew]
    · cases h
  · simp

/-- Replacing respects an empty line. -/
theorem replace_apart (hold : '\n' ∉ old) (hne : old ≠ []) (hne' : new ≠ []) (t u : Text) :
    replace old new (apart ['\n', '\n'] t u) =
      apart ['\n', '\n'] (replace old new t) (replace old new u) := by
  refine map_apart rfl ?_ ?_
  · intro v _ hv
    by_contra hnil
    exact replace_ne_nil hne' hnil hv
  · intro _ _
    have hu : replace old new ('\n' :: u) = '\n' :: replace old new u :=
      replace_append_cons hold hne [] u
    rw [List.append_assoc, List.cons_append, replace_append_cons hold hne, List.cons_append,
      List.nil_append, hu]
    simp

end Text

end Wikitext

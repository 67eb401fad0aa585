/-
  Wikitext/Proofs/Url/Settling.lean
  =================================
  **Resolving twice.**  Nothing tells a URL that has been resolved from a reference that has not.
  So resolving again changes nothing only if what comes out names itself, and whether it does is
  up to the base (`Settles`): with a host, or with a scheme that nothing is resolved against, it
  does (`resolve_resolve`).  Without either it does not: two slashes of the path are taken for
  the start of a host the next time (`exists_resolve_ne`), and a path that is relative itself is
  put before the reference once more.
-/
import Wikitext.Proofs.Url.Parts

namespace Wikitext.Url

open Text

variable {c : Char} {b r u : Url} {base v path t : Text} {done segments ls : List Text}

/-- What is resolved against the base names itself: the base is empty, or has a host, or a
scheme that nothing is resolved against. -/
def Settles (base : Text) : Prop :=
  base = [] ∨ ∀ b, read [] base = .ok b → b.host ≠ [] ∨ b.scheme ∉ relativeSchemes

instance (base : Text) : Decidable (Settles base) :=
  match h : read [] base with
  | .ok b => decidable_of_iff
      ((base.isEmpty || !b.host.isEmpty || !relativeSchemes.contains b.scheme) = true)
      (by simp [Settles, h, or_assoc])
  | .error _ => .isTrue (Or.inr fun b hb => by simp [h] at hb)

/-! ### Segments of a path -/

theorem mem_of_mem_normalizeFrom (h : t ∈ normalizeFrom done segments) :
    t ∈ done ∨ t ∈ segments := by
  induction segments generalizing done with
  | nil => exact Or.inl (List.mem_reverse.mp h)
  | cons s rest ih =>
    rw [normalizeFrom] at h
    split at h
    · exact (ih h).imp (List.mem_of_mem_tail) (List.mem_cons_of_mem _)
    · split at h
      · exact (ih h).imp_right (List.mem_cons_of_mem _)
      · rcases ih h with h | h
        · rcases List.mem_cons.mp h with rfl | h
          · exact Or.inr (List.mem_cons_self ..)
          · exact Or.inl h
        · exact Or.inr (List.mem_cons_of_mem _ h)

theorem mem_of_mem_normalize (h : t ∈ normalize segments) : t = [] ∨ t ∈ segments := by
  rcases List.mem_append.mp h with h | h
  · exact (mem_of_mem_normalizeFrom h).elim (fun h => absurd h List.not_mem_nil) Or.inr
  · split at h
    · exact Or.inl (List.mem_singleton.mp h)
    · cases h

theorem normalizeFrom_concat (hs : isDirectory t = false) :
    ∃ ls, normalizeFrom done (segments ++ [t]) = ls ++ [t] := by
  induction segments generalizing done with
  | nil =>
    have ht : t ≠ ['.', '.'] ∧ t ≠ ['.'] := by
      constructor <;> rintro rfl <;> exact absurd hs (by decide)
    rw [List.nil_append, normalizeFrom, if_neg ht.1, if_neg ht.2, normalizeFrom]
    exact ⟨done.reverse, by simp⟩
  | cons s rest ih =>
    rw [List.cons_append, normalizeFrom]
    split
    · exact ih
    · split
      · exact ih
      · exact ih

/-- The last segment is kept, or none stands in its place. -/
theorem normalize_concat (segments : List Text) (t : Text) :
    ∃ ls, normalize (segments ++ [t]) = ls ++ [t] ∨ normalize (segments ++ [t]) = ls ++ [[]] := by
  rw [normalize]
  cases hs : isDirectory t with
  | true => exact ⟨normalizeFrom [] (segments ++ [t]), Or.inr (by simp [hs])⟩
  | false =>
    obtain ⟨ls, hls⟩ : ∃ ls, normalizeFrom [] (segments ++ [t]) = ls ++ [t] :=
      normalizeFrom_concat hs
    exact ⟨ls, Or.inl (by simp [hs, hls])⟩

theorem dropInnerEmpty_concat (segments : List Text) (t : Text) :
    ∃ ls, dropInnerEmpty (segments ++ [t]) = ls ++ [t] ∧ ls ⊆ segments := by
  cases segments with
  | nil => exact ⟨[], rfl, List.Subset.refl []⟩
  | cons s segments =>
    refine ⟨s :: segments.filter (· ≠ []), by simp [dropInnerEmpty], ?_⟩
    exact List.cons_subset_cons s (List.filter_subset_self segments)

theorem directorySegments_subset (base : Text) : directorySegments base ⊆ base.splitOn '/' := by
  rw [directorySegments]
  split
  · exact List.Subset.refl _
  · exact List.dropLast_subset _

/-- The segments that a path names in a directory: segments of both, and last that of the path,
if it is no directory. -/
theorem exists_resolvePath (base path : Text) : ∃ ls,
    (resolvePath base path = ['/'] ∨ resolvePath base path = join ['/'] ls) ∧ ls ≠ [] ∧
      (∀ l ∈ ls, l = [] ∨ l ∈ base.splitOn '/' ∨ l ∈ path.splitOn '/') ∧
      ∀ l ∈ ls.getLast?, l = [] ∨ l = lastSegment path := by
  obtain ⟨ps, l, hps⟩ := exists_splitOn_concat '/' path
  -- the segments before the dots are taken out
  obtain ⟨front, hfront, hsubset⟩ : ∃ front,
      (if path.head? = some '/' then path.splitOn '/'
        else dropInnerEmpty (directorySegments base ++ path.splitOn '/')) = front ++ [l] ∧
      ∀ k ∈ front ++ [l], k ∈ base.splitOn '/' ∨ k ∈ path.splitOn '/' := by
    split
    · exact ⟨ps, hps, fun k hk => Or.inr (hps ▸ hk)⟩
    · obtain ⟨front, hdrop, hfront⟩ := dropInnerEmpty_concat (directorySegments base ++ ps) l
      refine ⟨front, by rw [hps, ← List.append_assoc, hdrop], fun k hk => ?_⟩
      rcases List.mem_append.mp hk with hk | hk
      · rcases List.mem_append.mp (hfront hk) with hk | hk
        · exact Or.inl (directorySegments_subset base hk)
        · exact Or.inr (by rw [hps]; exact List.mem_append_left _ hk)
      · exact Or.inr (by rw [hps]; exact List.mem_append_right _ hk)
  obtain ⟨ls, hlast⟩ := normalize_concat front l
  refine ⟨normalize (front ++ [l]), ?_, ?_, fun k hk => ?_, ?_⟩
  · rw [resolvePath]
    simp only [hfront]
    split
    · exact Or.inl rfl
    · exact Or.inr rfl
  · rcases hlast with h | h <;> rw [h] <;> simp
  · exact (mem_of_mem_normalize hk).imp_right (hsubset k)
  · rw [lastSegment_of_splitOn hps]
    rcases hlast with h | h
    · rw [h]
      simp
    · rw [h]
      simp

theorem mem_of_mem_resolvePath {base path : Text} (h : c ∈ resolvePath base path) :
    c = '/' ∨ c ∈ base ∨ c ∈ path := by
  obtain ⟨ls, hpath | hpath, -, hmem, -⟩ := exists_resolvePath base path
  · rw [hpath] at h
    exact Or.inl (List.mem_singleton.mp h)
  · rw [hpath] at h
    refine (mem_join h).imp_right fun ⟨l, hl, hc⟩ => ?_
    rcases hmem l hl with rfl | hl | hl
    · cases hc
    · exact Or.inl (mem_of_mem_splitOn hl hc)
    · exact Or.inr (mem_of_mem_splitOn hl hc)

theorem lastSegment_resolvePath (base path : Text) :
    lastSegment (resolvePath base path) = [] ∨
      lastSegment (resolvePath base path) = lastSegment path := by
  obtain ⟨ls, hpath | hpath, hne, hmem, hlast⟩ := exists_resolvePath base path
  · rw [hpath]
    exact Or.inl rfl
  · have hsplit : splitOn '/' (join ['/'] ls) = ls := by
      refine splitOn_join hne fun l hl => ?_
      rcases hmem l hl with rfl | hl | hl
      · exact List.not_mem_nil
      · exact notMem_of_mem_splitOn hl
      · exact notMem_of_mem_splitOn hl
    obtain ⟨front, l, rfl⟩ := (List.eq_nil_or_concat' ls).resolve_left hne
    rw [hpath, lastSegment_of_splitOn hsplit]
    exact hlast l (by simp)

/-! ### What is resolved -/

theorem relativeTo_scheme (b r : Url) : (relativeTo b r).scheme = r.scheme := by
  rw [relativeTo]
  split <;> rfl

theorem relativeTo_host (b r : Url) : (relativeTo b r).host = b.host := by
  rw [relativeTo]
  split <;> rfl

/-- What a sound reference names in a sound document is sound. -/
theorem Sound.relativeTo (hb : b.Sound) (hr : r.Sound) (hscheme : r.scheme = b.scheme) :
    (relativeTo b r).Sound := by
  rw [Url.relativeTo]
  split
  · refine { hr with
      check := hb.check
      host := hb.host
      path := hb.path
      parameters := hb.parameters
      query := fun c hc => ?_
      segment := fun h => hb.segment (by rwa [← hscheme])
      scheme := fun h => hb.scheme (by rwa [← hscheme]) }
    split at hc
    · exact hb.query c hc
    · exact hr.query c hc
  · refine { hr with
      check := hb.check
      host := hb.host
      path := fun c hc => ?_
      segment := fun h => ?_ }
    · rcases mem_of_mem_resolvePath hc with rfl | hc | hc
      · decide
      · exact hb.path c hc
      · exact hr.path c hc
    · rcases lastSegment_resolvePath b.path r.path with hlast | hlast
      · rw [hlast]
        exact List.not_mem_nil
      · rw [hlast]
        exact hr.segment h

theorem write_ne_nil (hhost : u.host ≠ []) : u.write ≠ [] := by
  rw [write_of_host hhost]
  simp

/-- A sound URL with a host names itself where its own scheme is resolved. -/
theorem combine_write (hu : u.Sound) (hhost : u.host ≠ []) (hscheme : u.scheme ∈ relativeSchemes)
    (hb : b.scheme = u.scheme) :
    ∃ r, read b.scheme u.write = .ok r ∧ combine b u.write r = u.write := by
  refine ⟨u.rooted, by rw [hb]; exact read_write hu hhost hscheme, ?_⟩
  have hhost' : u.rooted.host ≠ [] := by rwa [rooted_host]
  rw [combine, rooted_scheme, if_neg (by simp [hb, hscheme]), if_pos hhost', write_rooted hhost]

theorem resolve_eq_ok_iff (hbase : base ≠ []) (ht : t ≠ []) : resolve base t = .ok v ↔
    ∃ b r, read [] base = .ok b ∧ read b.scheme t = .ok r ∧ v = combine b t r := by
  rw [resolve, if_neg hbase, if_neg ht]
  constructor
  · intro h
    cases hb : read [] base with
    | error e =>
      rw [hb] at h
      cases h
    | ok b =>
      rw [hb] at h
      cases hr : read b.scheme t with
      | error e =>
        simp only [bind, Except.bind, hr] at h
        cases h
      | ok r =>
        simp only [bind, Except.bind, hr] at h
        exact ⟨b, r, rfl, hr, (Except.ok.inj h).symm⟩
  · rintro ⟨b, r, hb, hr, rfl⟩
    rw [hb]
    simp only [bind, Except.bind, hr]
    rfl

/-- What has been resolved against a base that settles is resolved. -/
theorem resolve_resolve (hbase : Settles base) (ht : t ≠ []) (h : resolve base t = .ok v) :
    resolve base v = .ok v := by
  by_cases hempty : base = []
  · rw [resolve, if_pos hempty]
  obtain ⟨b, r, hb, hr, rfl⟩ := (resolve_eq_ok_iff hempty ht).mp h
  have hnamed := (hbase.resolve_left hempty) b hb
  by_cases hother : r.scheme ≠ b.scheme ∨ (!relativeSchemes.contains r.scheme) = true
  · -- the reference names itself
    have hsame : combine b t r = t := if_pos hother
    rw [hsame] at h ⊢
    exact h
  · have hscheme : r.scheme = b.scheme := by
      by_contra hne
      exact hother (Or.inl hne)
    have hrelative : r.scheme ∈ relativeSchemes := by
      by_contra hnot
      exact hother (Or.inr (by simpa using hnot))
    have hhost : b.host ≠ [] := hnamed.resolve_right (by simpa [hscheme] using hrelative)
    obtain ⟨u, hu, hne, hsame, hwrite⟩ : ∃ u : Url, u.Sound ∧ u.host ≠ [] ∧
        u.scheme = b.scheme ∧ combine b t r = u.write := by
      have hcombine : combine b t r = if r.host ≠ [] then r.write else (relativeTo b r).write :=
        if_neg hother
      rw [hcombine]
      split
      · next hown => exact ⟨r, sound_of_read hr, hown, hscheme, rfl⟩
      · refine ⟨relativeTo b r, (sound_of_read hb).relativeTo (sound_of_read hr) hscheme, ?_, ?_, rfl⟩
        · rwa [relativeTo_host]
        · rw [relativeTo_scheme, hscheme]
    obtain ⟨r', hr', hcombine⟩ := combine_write hu hne (by rwa [hsame, ← hscheme]) hsame.symm
    rw [hwrite]
    exact (resolve_eq_ok_iff hempty (write_ne_nil hne)).mpr ⟨b, r', hb, hr', hcombine.symm⟩

example : Settles "http://w.org".toList ∧ Settles "mailto:a".toList ∧
    ¬ Settles "/wiki/".toList ∧ ¬ Settles "file:///wiki/".toList := by
  decide +kernel

/-! ### What is not settled -/

/-- A path of slashes. -/
def slashes : Text := "//////b".toList

theorem read_slashes : ∀ scheme ∈ relativeSchemes,
    read scheme slashes = .ok ⟨scheme, [], "////b".toList, [], [], []⟩ ∧
      read scheme (write ⟨scheme, [], "////b".toList, [], [], []⟩) =
        .ok ⟨scheme, [], "//b".toList, [], [], []⟩ ∧
      write ⟨scheme, [], "////b".toList, [], [], []⟩ ≠ [] ∧
      write ⟨scheme, [], "//b".toList, [], [], []⟩ ≠ [] ∧
      write ⟨scheme, [], "//b".toList, [], [], []⟩ ≠
        write ⟨scheme, [], "////b".toList, [], [], []⟩ := by
  decide +kernel

/-- A path from the root without dots is as it was. -/
theorem combine_slashes {scheme path : Text} (hscheme : scheme ∈ relativeSchemes)
    (hb : b.scheme = scheme) (hhost : b.host = [])
    (hpath : path = "////b".toList ∨ path = "//b".toList) :
    combine b t ⟨scheme, [], path, [], [], []⟩ = write ⟨scheme, [], path, [], [], []⟩ := by
  have hsame : resolvePath b.path path = path := by
    rcases hpath with rfl | rfl <;> rfl
  have hne : path ≠ [] := by
    rcases hpath with rfl | rfl <;> decide
  rw [combine, if_neg (by simp [hb, hscheme]), if_neg (by simp), relativeTo, if_neg (by simp [hne])]
  simp only [hsame, hhost]

/-- Where the base has no host, slashes at the start of a path are lost one by one. -/
theorem exists_resolve_ne (h : ¬ Settles base) : ∃ t v w, t ≠ [] ∧ resolve base t = .ok v ∧
    v ≠ [] ∧ resolve base v = .ok w ∧ w ≠ [] ∧ w ≠ v := by
  rw [Settles, not_or, not_forall] at h
  obtain ⟨hempty, b, hb⟩ := h
  simp only [Classical.not_imp, not_or, not_not] at hb
  obtain ⟨hread, hhost, hscheme⟩ := hb
  obtain ⟨honce, htwice, hne, hne', hother⟩ := read_slashes b.scheme hscheme
  refine ⟨slashes, _, _, by decide, ?_, hne, ?_, hne', hother⟩
  · exact (resolve_eq_ok_iff hempty (by decide)).mpr
      ⟨b, _, hread, honce, (combine_slashes hscheme rfl hhost (Or.inl rfl)).symm⟩
  · exact (resolve_eq_ok_iff hempty hne).mpr
      ⟨b, _, hread, htwice, (combine_slashes hscheme rfl hhost (Or.inr rfl)).symm⟩

end Wikitext.Url

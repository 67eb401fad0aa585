/-
  Wikitext/Proofs/Text/Lowercase.lean
  ===================================
  **Names in lower case.**  A rule is looked up under the lower case of a name that is in lower
  case already.  For a name of ASCII this makes no difference (`lowerName_lowerName`), nor for one
  that is found as a word of small letters of ASCII (`lowerName_eq_of_lowerName`): beyond ASCII
  only the sign for Kelvin has a small letter of ASCII, which is `k`.
-/
import Wikitext.Text.Lowercase

namespace Wikitext

namespace Text

variable {c d : Char} {t u before after : Text}

theorem toLower_toLower (h : c.toNat < 0x80) : c.toLower.toLower = c.toLower := by
  have hall : ∀ n < 0x80, (Char.ofNat n).toLower.toLower = (Char.ofNat n).toLower := by
    decide +kernel
  have hc := hall c.toNat h
  rwa [Char.ofNat_toNat] at hc

/-- The ranges of capital letters lead beyond ASCII, but for the sign for Kelvin. -/
theorem capitalRanges_shift : ∀ range ∈ capitalRanges,
    range.1 = 0x212a ∧ range.2.1 = 0x212a ∧ range.2.2.2 = -8383 ∨
      (0x80 : Int) ≤ range.1 + range.2.2.2 := by
  decide +kernel

theorem toNat_ofNat (n : Nat) : Char.ofNat n = '\x00' ∨ (Char.ofNat n).toNat = n := by
  by_cases h : n.isValidChar
  · exact Or.inr (congrArg Char.toNat (dif_pos h))
  · exact Or.inl (dif_neg h)

/-- The small letter of a letter beyond ASCII. -/
theorem lowerChar_of_le (h : 0x80 ≤ c.toNat) :
    lowerChar c = 'k' ∨ lowerChar c = '\x00' ∨ 0x80 ≤ (lowerChar c).toNat := by
  rw [lowerChar, if_neg (by omega)]
  cases hrange : capitalRange? c.toNat with
  | none => exact Or.inr (Or.inr h)
  | some range =>
    obtain ⟨first, last, step, shift⟩ := range
    have hfound := List.find?_some hrange
    simp only [Bool.and_eq_true, decide_eq_true_eq] at hfound
    obtain ⟨⟨hfirst, hlast⟩, -⟩ := hfound
    rcases capitalRanges_shift _ (List.mem_of_find?_eq_some hrange) with ⟨h1, h2, h3⟩ | hshift
    · -- the only letter of its range
      left
      have hc : c.toNat = 0x212a := by
        simp only at h1 h2
        omega
      simp only at h3
      rw [hc, h3]
      rfl
    · right
      simp only at hshift ⊢
      refine (toNat_ofNat ((c.toNat : Int) + shift).toNat).imp_right fun heq => ?_
      rw [heq]
      omega

/-- What lower case leaves of ASCII are small letters. -/
theorem toLower_of_mem_lowerAt (h : d ∈ lowerAt before c after) (hascii : d.toNat < 0x80) :
    d.toLower = d := by
  rw [lowerAt] at h
  split at h
  · have hall : ['i', '\u0307'].all (fun d => d.toLower == d) = true := by decide
    exact beq_iff_eq.mp (List.all_eq_true.mp hall d h)
  · split at h
    · exfalso
      rw [List.mem_singleton.mp h] at hascii
      revert hascii
      split <;> decide
    · rw [List.mem_singleton.mp h] at hascii ⊢
      by_cases hc : c.toNat < 0x80
      · rw [lowerChar, if_pos hc]
        exact toLower_toLower hc
      · rcases lowerChar_of_le (Nat.le_of_not_lt hc) with hk | hzero | hle
        · rw [hk]
          rfl
        · rw [hzero]
          rfl
        · omega

theorem toLower_of_mem_lowerFrom (h : d ∈ lowerFrom before t) (hascii : d.toNat < 0x80) :
    d.toLower = d := by
  induction t generalizing before with
  | nil => cases h
  | cons c t ih =>
    rw [lowerFrom] at h
    exact (List.mem_append.mp h).elim (fun h => toLower_of_mem_lowerAt h hascii) ih

/-- In ASCII each character has its own small letter. -/
theorem lowerFrom_of_ascii (h : ∀ c ∈ t, c.toNat < 0x80) :
    lowerFrom before t = t.map Char.toLower := by
  induction t generalizing before with
  | nil => rfl
  | cons c t ih =>
    have hc := h c (List.mem_cons_self ..)
    rw [lowerFrom, ih fun d hd => h d (List.mem_cons_of_mem _ hd), lowerAt, if_neg (by omega),
      if_neg (by omega), lowerChar, if_pos hc]
    rfl

theorem toNat_toLower_lt (h : c.toNat < 0x80) : c.toLower.toNat < 0x80 := by
  have hall : ∀ n < 0x80, (Char.ofNat n).toLower.toNat < 0x80 := by
    decide +kernel
  have hc := hall c.toNat h
  rwa [Char.ofNat_toNat] at hc

/-- A character that becomes a small letter of ASCII first is that letter or its capital. -/
theorem exists_of_lowerAt (h : lowerAt before c after ++ t = d :: u) (hd : d.isLower = true)
    (hk : d ≠ 'k') (hi : '\u0307' ∉ u) : c.toLower = d ∧ c.toNat < 0x80 ∧ t = u := by
  rw [lowerAt] at h
  split at h
  · exfalso
    simp only [List.cons_append, List.cons.injEq] at h
    exact hi (h.2 ▸ List.mem_cons_self ..)
  · split at h
    · exfalso
      rw [List.singleton_append, List.cons.injEq] at h
      rw [← h.1] at hd
      revert hd
      split <;> decide
    · rw [List.singleton_append, List.cons.injEq] at h
      obtain ⟨rfl, rfl⟩ := h
      by_cases hc : c.toNat < 0x80
      · refine ⟨?_, hc, rfl⟩
        rw [lowerChar, if_pos hc]
      · exfalso
        rcases lowerChar_of_le (Nat.le_of_not_lt hc) with heq | hzero | hle
        · exact hk heq
        · rw [hzero] at hd
          exact absurd hd (by decide)
        · have hsmall : (lowerChar c).toNat ≤ 'z'.toNat :=
            of_decide_eq_true (Bool.and_eq_true_iff.mp hd).2
          have hz : 'z'.toNat = 0x7a := rfl
          omega

/-- Small letters of ASCII, whose capitals are not among `t`, come from themselves. -/
theorem eq_of_lowerFrom_eq (hsmall : ∀ c ∈ t, c.toNat < 0x80 → c.toLower = c)
    (hu : ∀ d ∈ u, d.isLower = true ∧ d ≠ 'k') (h : lowerFrom before t = u) : t = u := by
  induction t generalizing before u with
  | nil => exact h
  | cons c t ih =>
    rw [lowerFrom] at h
    cases u with
    | nil =>
      rw [List.append_eq_nil_iff, lowerAt] at h
      revert h
      split
      · simp
      · split <;> simp
    | cons d u =>
      have hu' : ∀ e ∈ u, e.isLower = true ∧ e ≠ 'k' := fun e he => hu e (List.mem_cons_of_mem _ he)
      obtain ⟨hd, hk⟩ := hu d (List.mem_cons_self ..)
      have hi : '\u0307' ∉ u := fun hin => absurd (hu' _ hin).1 (by decide)
      obtain ⟨hc, hascii, hrest⟩ := exists_of_lowerAt h hd hk hi
      rw [hsmall c (List.mem_cons_self ..) hascii] at hc
      rw [hc, ih (fun e he => hsmall e (List.mem_cons_of_mem _ he)) hu' hrest]

end Text

/-- A name in lower case whose lower case is a word of small letters of ASCII, other than `k`, is
that word. -/
theorem lowerName_eq_of_lowerName {name word : String}
    (hword : word.toList.all (fun d => d.isLower && d != 'k') = true)
    (h : lowerName (lowerName name) = word) : lowerName name = word := by
  have hlower : Text.lower (lowerName name).toList = word.toList := by
    rw [← h]
    exact String.toList_ofList.symm
  have htext : (lowerName name).toList = word.toList := by
    refine Text.eq_of_lowerFrom_eq (fun c hc hascii => ?_) (fun d hd => ?_) hlower
    · rw [lowerName, String.toList_ofList] at hc
      exact Text.toLower_of_mem_lowerFrom hc hascii
    · simpa using List.all_eq_true.mp hword d hd
  rw [← String.toList_inj, htext]

/-- The lower case of a name of ASCII is in lower case. -/
theorem lowerName_lowerName {name : String} (h : ∀ c ∈ name.toList, c.toNat < 0x80) :
    lowerName (lowerName name) = lowerName name := by
  have hlower : Text.lower name.toList = name.toList.map Char.toLower := Text.lowerFrom_of_ascii h
  have hascii : ∀ c ∈ name.toList.map Char.toLower, c.toNat < 0x80 := by
    intro c hc
    obtain ⟨d, hd, rfl⟩ := List.mem_map.mp hc
    exact Text.toNat_toLower_lt (h d hd)
  have hagain : ∀ c ∈ name.toList, (Char.toLower ∘ Char.toLower) c = c.toLower :=
    fun c hc => Text.toLower_toLower (h c hc)
  rw [lowerName, lowerName, String.toList_ofList, hlower, Text.lower,
    Text.lowerFrom_of_ascii hascii, List.map_map, List.map_congr_left hagain]

end Wikitext

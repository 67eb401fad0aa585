/-
  Wikitext/Proofs/Link/PageUrl.lean
  =================================
  **From a title to a URL and back.**  The URL of a page is the address of the wiki and the title,
  percent-encoded, with underscores for spaces.  A recognizer of the address finds that title in
  the URL, and the markup of a link to it shows the title as it was: alone, where the label is the
  title or has its first letter small, or before the label (`resolve_titleUrl`).

  Nothing is asked of the title but that it has no underscore, which could not be told from a
  space.  It may hold percent signs, brackets, line feeds and characters beyond ASCII: all of these
  are encoded, and what is encoded is read back (`Percent.decode_encode`).
-/
import Wikitext.Link.Markup
import Wikitext.Link.Recognizer
import Wikitext.Proofs.Text.Percent

namespace Wikitext.Link

variable {address title name label : Text} {c : Char} {cs : Text}

/-- A title as it stands in a URL: spaces are underscores. -/
def urlTitle (title : Text) : Text :=
  title.map fun c => if c = ' ' then '_' else c

/-- The URL of the page with a title, in the wiki at an address. -/
def titleUrl (address title : Text) : Text :=
  address ++ Percent.encode (urlTitle title)

theorem displayTitle_urlTitle (h : '_' ∉ title) : displayTitle (urlTitle title) = title := by
  induction title with
  | nil => rfl
  | cons c title ih =>
    rw [List.mem_cons, not_or] at h
    have hfirst : (if (if c = ' ' then '_' else c) = '_' then ' '
        else if c = ' ' then '_' else c) = c := by
      by_cases hspace : c = ' '
      · rw [if_pos hspace, if_pos rfl, hspace]
      · rw [if_neg hspace, if_neg (Ne.symm h.1)]
    rw [displayTitle, urlTitle] at ih ⊢
    rw [List.map_cons, List.map_cons, ih h.2, hfirst]

theorem urlTitle_ne_nil (h : title ≠ []) : urlTitle title ≠ [] := by
  simpa [urlTitle] using h

/-- What follows an address, percent-encoded, is found by a recognizer of the address. -/
theorem resolve_under_append (haddress : address ≠ []) (hname : name ≠ [])
    (rs : List Recognizer) :
    Recognizer.resolve (.under address :: rs) (address ++ Percent.encode name) = some name := by
  have hmore : address.length < (address ++ Percent.encode name).length := by
    rw [List.length_append]
    exact Nat.lt_add_of_pos_right (List.length_pos_iff.mpr (Percent.encode_ne_nil hname))
  have hstart : address.isPrefixOf (address ++ Percent.encode name) = true :=
    List.isPrefixOf_iff_prefix.mpr (List.prefix_append ..)
  have htitle : (Recognizer.under address).title? (address ++ Percent.encode name) =
      some name := by
    rw [Recognizer.title?, if_pos ⟨haddress, hstart, hmore⟩, List.drop_left,
      Percent.decode_encode]
  have husable : Recognizer.usable (some name) = some name := by
    rw [Recognizer.usable, Option.filter_some, if_pos (decide_eq_true hname)]
  have hurl : address ++ Percent.encode name ≠ [] := List.append_ne_nil_of_left_ne_nil haddress _
  rw [Recognizer.resolve, if_neg hurl, List.findSome?_cons, htitle, husable]

/-! ### First letters -/

theorem lt_of_isAlpha (h : c.isAlpha = true) : c.toNat < 0x80 := by
  have hrange : c.isAlpha = (decide ('A'.val.toNat ≤ c.toNat ∧ c.toNat ≤ 'Z'.val.toNat) ||
      (decide ('a'.val.toNat ≤ c.toNat) && decide (c.toNat ≤ 'z'.val.toNat))) := rfl
  have hupper : 'Z'.val.toNat = 90 := rfl
  have hlower : 'z'.val.toNat = 122 := rfl
  rw [hrange, Bool.or_eq_true, Bool.and_eq_true, decide_eq_true_iff, decide_eq_true_iff,
    decide_eq_true_iff] at h
  omega

theorem lowerFirst_cons_of_isAlpha (h : c.isAlpha = true) (cs : Text) :
    lowerFirst (c :: cs) = c.toLower :: cs := by
  rw [lowerFirst, if_pos (lt_of_isAlpha h)]

theorem lowerFirst_cons_of_not_isAlpha (h : c.isAlpha = false) (cs : Text) :
    lowerFirst (c :: cs) = c :: cs := by
  have hall : ∀ n < 0x80, (Char.ofNat n).isAlpha = false →
      (Char.ofNat n).toLower = Char.ofNat n := by
    decide +kernel
  rw [lowerFirst]
  split
  · next hascii =>
    have hlower := hall c.toNat hascii
    rw [Char.ofNat_toNat] at hlower
    rw [hlower h]
  · rfl

/-! ### Titles -/

/-- The URL of a page is resolved to its title, and a link to it is written with that title. -/
theorem resolve_titleUrl (haddress : address ≠ []) (htitle : title ≠ []) (hplain : '_' ∉ title)
    (rs : List Recognizer) :
    Recognizer.resolve (.under address :: rs) (titleUrl address title) = some (urlTitle title) ∧
      ∀ label,
        (label = title → markup (titleUrl address title) (some (urlTitle title)) label =
          ['[', '['] ++ title ++ [']', ']']) ∧
        (∀ c cs, title = c :: cs → c.isAlpha = true → label = c.toLower :: cs →
          markup (titleUrl address title) (some (urlTitle title)) label =
            ['[', '['] ++ label ++ [']', ']']) ∧
        (label ≠ title → (∀ c cs, title = c :: cs → c.isAlpha = true → label ≠ c.toLower :: cs) →
          markup (titleUrl address title) (some (urlTitle title)) label =
            ['[', '['] ++ title ++ '|' :: label ++ [']', ']']) := by
  have hname := urlTitle_ne_nil htitle
  have hmarkup : ∀ label, markup (titleUrl address title) (some (urlTitle title)) label =
      if label = title then ['[', '['] ++ title ++ [']', ']']
      else if label = lowerFirst title then ['[', '['] ++ label ++ [']', ']']
      else ['[', '['] ++ title ++ '|' :: label ++ [']', ']'] := by
    intro label
    obtain ⟨d, ds, hd⟩ := List.exists_cons_of_ne_nil hname
    rw [hd, markup, page, ← hd, displayTitle_urlTitle hplain]
  refine ⟨resolve_under_append haddress hname rs, fun label => ⟨?_, ?_, ?_⟩⟩
  · intro hlabel
    rw [hmarkup, if_pos hlabel]
  · rintro c cs rfl halpha hlabel
    rw [hmarkup]
    by_cases hsame : label = c :: cs
    · rw [if_pos hsame, hsame]
    · rw [if_neg hsame, if_pos (by rw [lowerFirst_cons_of_isAlpha halpha, hlabel])]
  · intro hother hletter
    rw [hmarkup, if_neg hother, if_neg]
    intro hlabel
    obtain ⟨c, cs, rfl⟩ := List.exists_cons_of_ne_nil htitle
    cases halpha : c.isAlpha with
    | true =>
      rw [lowerFirst_cons_of_isAlpha halpha] at hlabel
      exact hletter c cs rfl halpha hlabel
    | false =>
      rw [lowerFirst_cons_of_not_isAlpha halpha] at hlabel
      exact hother hlabel

/-- An address that is percent-encoded itself. -/
def encodedAddress : Text := "http://w.example/a%20b/".toList

/-- A title with characters beyond ASCII, an escape, a line feed and the marks of links. -/
def markedTitle : Text := "Straße 5%41\n[é]|😀".toList

theorem resolve_titleUrl_markedTitle :
    encodedAddress ≠ [] ∧ markedTitle ≠ [] ∧ '_' ∉ markedTitle ∧
      Recognizer.resolve [.under encodedAddress, .function .noTitle]
        (titleUrl encodedAddress markedTitle) = some "Straße_5%41\n[é]|😀".toList ∧
      markup (titleUrl encodedAddress markedTitle) (some (urlTitle markedTitle)) markedTitle =
        ['[', '['] ++ markedTitle ++ [']', ']'] ∧
      markup (titleUrl encodedAddress markedTitle) (some (urlTitle markedTitle))
          ('s' :: markedTitle.tail) =
        ['[', '['] ++ 's' :: markedTitle.tail ++ [']', ']'] ∧
      markup (titleUrl encodedAddress markedTitle) (some (urlTitle markedTitle)) ['m', 'e'] =
        ['[', '['] ++ markedTitle ++ '|' :: ['m', 'e'] ++ [']', ']'] := by
  have haddress : encodedAddress ≠ [] := by decide
  have htitle : markedTitle ≠ [] := by decide
  have hplain : '_' ∉ markedTitle := by decide
  have hname : urlTitle markedTitle = "Straße_5%41\n[é]|😀".toList := by decide
  obtain ⟨hresolve, hmarkup⟩ :=
    resolve_titleUrl haddress htitle hplain [.function .noTitle]
  refine ⟨haddress, htitle, hplain, hname ▸ hresolve, (hmarkup _).1 rfl, ?_, ?_⟩
  · exact (hmarkup _).2.1 'S' _ rfl (by decide) rfl
  · refine (hmarkup _).2.2 (by decide) ?_
    rintro c cs hcons - hlabel
    obtain ⟨rfl, -⟩ := List.cons.inj hcons
    exact absurd (List.cons.inj hlabel).1 (by decide)

end Wikitext.Link

/-
  Wikitext/Proofs/Conversion/Reach.lean
  =====================================
  **Preparation within reach.**  A walk along parents is bounded, so what is done to a document
  in place reaches only so many levels down, and looks only so many levels up.
  `Session.prepareAllTo` is preparation from the top down with both bounds; it leaves what is out
  of reach as it is.  For a document that is no higher than the bound it is `Session.prepareAll`
  (`prepareAllTo_eq`), which asks only three things of the names above (`prepareAll_congr`).

  Doing it twice is doing it once where URLs stay as they are when they are resolved again
  (`prepareAllTo_again`); without a base for URLs they do, and it always has a result
  (`prepareAllTo_twice`).
-/
import Wikitext.Conversion.Prepared
import Wikitext.Store.Basic

namespace Wikitext

open Store (maxHeight)

namespace Node

mutual
/-- The number of levels of a tree. -/
def height : Node → Nat
  | .text _ _ => 1
  | .special _ _ => 1
  | .element _ _ children => heightAll children + 1

/-- The number of levels of the highest of some siblings. -/
def heightAll : List Node → Nat
  | [] => 0
  | node :: nodes => max (height node) (heightAll nodes)
end

end Node

namespace Session

mutual
/-- The nodes that a node becomes when `reach` levels, its own included, are within reach. -/
def prepareNodeTo (s : Session) (reach : Nat) (above : List String) :
    Node → Except UrlError (List Node)
  | .text content guarded =>
    if reach = 0 then .ok [.text content guarded]
    else s.prepareNode (above.take maxHeight) (.text content guarded)
  | .special kind content =>
    if reach = 0 then .ok [.special kind content]
    else s.prepareNode (above.take maxHeight) (.special kind content)
  | .element name attributes children =>
    if reach = 0 then .ok [.element name attributes children]
    else do
      let attributes ← s.resolveUrl (lowerName name) attributes
      let name := properName (above.take maxHeight) name
      let tag := lowerName name
      if s.dialect.removesNoise && Element.isNamedAnchor tag attributes then
        prepareAllTo s reach above children
      else if s.dialect.removesNoise && Element.isFurniture attributes then
        return []
      else
        let children ← prepareAllTo s (reach - 1) (tag :: above) children
        return [.element name attributes children]

/-- Prepares siblings of which `reach` levels are within reach. -/
def prepareAllTo (s : Session) (reach : Nat) (above : List String) :
    List Node → Except UrlError (List Node)
  | [] => .ok []
  | node :: nodes => do
    let first ← prepareNodeTo s reach above node
    let rest ← prepareAllTo s reach above nodes
    return first ++ rest
end

variable {s : Session} {reach : Nat} {above : List String}

/-- What is out of reach stays as it is. -/
theorem prepareNodeTo_zero (node : Node) : s.prepareNodeTo 0 above node = .ok [node] := by
  cases node <;> rfl

/-- An element within reach gives way to its children, vanishes, or stays with its proper
name and its children prepared. -/
theorem prepareNodeTo_element (hreach : reach ≠ 0) {name : String}
    {attributes resolved : Attributes} (children : List Node)
    (hresolved : s.resolveUrl (lowerName name) attributes = .ok resolved) :
    s.prepareNodeTo reach above (.element name attributes children) =
      if s.dialect.removesNoise &&
          Element.isNamedAnchor (lowerName (properName (above.take maxHeight) name)) resolved then
        s.prepareAllTo reach above children
      else if s.dialect.removesNoise && Element.isFurniture resolved then .ok []
      else
        (s.prepareAllTo (reach - 1) (lowerName (properName (above.take maxHeight) name) :: above)
          children).map fun cs => [.element (properName (above.take maxHeight) name) resolved cs] := by
  rw [prepareNodeTo, if_neg hreach, hresolved]
  simp only [bind, Except.bind]
  split
  · rfl
  · split
    · rfl
    · cases s.prepareAllTo (reach - 1) _ children <;> rfl

theorem prepareNodeTo_element_error (hreach : reach ≠ 0) {name : String}
    {attributes : Attributes} (children : List Node) {e : UrlError}
    (herror : s.resolveUrl (lowerName name) attributes = .error e) :
    s.prepareNodeTo reach above (.element name attributes children) = .error e := by
  rw [prepareNodeTo, if_neg hreach, herror]; rfl

/-- What becomes of an element within reach that is prepared. -/
theorem prepareNodeTo_element_cases (hreach : reach ≠ 0) {name : String}
    {attributes : Attributes} {children result : List Node}
    (h : s.prepareNodeTo reach above (.element name attributes children) = .ok result) :
    ∃ resolved tag, s.resolveUrl (lowerName name) attributes = .ok resolved ∧
      tag = lowerName (properName (above.take maxHeight) name) ∧
      ((s.dialect.removesNoise && Element.isNamedAnchor tag resolved) = true ∧
          s.prepareAllTo reach above children = .ok result ∨
        ¬ (s.dialect.removesNoise && Element.isNamedAnchor tag resolved) = true ∧
          ((s.dialect.removesNoise && Element.isFurniture resolved) = true ∧ result = [] ∨
            ¬ (s.dialect.removesNoise && Element.isFurniture resolved) = true ∧
              ∃ below, s.prepareAllTo (reach - 1) (tag :: above) children = .ok below ∧
                result = [.element (properName (above.take maxHeight) name) resolved below])) := by
  cases hurl : s.resolveUrl (lowerName name) attributes with
  | error e =>
    rw [prepareNodeTo_element_error hreach children hurl] at h
    cases h
  | ok resolved =>
    refine ⟨resolved, _, rfl, rfl, ?_⟩
    rw [prepareNodeTo_element hreach children hurl] at h
    split at h
    · next hanchor => exact Or.inl ⟨hanchor, h⟩
    · next hanchor =>
      refine Or.inr ⟨hanchor, ?_⟩
      split at h
      · next hnoise => exact Or.inl ⟨hnoise, (Except.ok.inj h).symm⟩
      · next hnoise =>
        refine Or.inr ⟨hnoise, ?_⟩
        cases hbelow : s.prepareAllTo (reach - 1)
            (lowerName (properName (above.take maxHeight) name) :: above) children with
        | error e =>
          rw [hbelow] at h
          cases h
        | ok below =>
          rw [hbelow] at h
          exact ⟨below, rfl, (Except.ok.inj h).symm⟩

/-! ### All within reach -/

mutual
theorem prepareNodeTo_eq : ∀ {node : Node} {reach : Nat} {above : List String},
    node.height ≤ reach → above.length + node.height ≤ maxHeight + 1 →
      s.prepareNodeTo reach above node = s.prepareNode above node
  | .text _ _, reach, above, hheight, hlength => by
    rw [Node.height] at hheight hlength
    rw [prepareNodeTo, if_neg (by omega), List.take_of_length_le (by omega)]
  | .special _ _, reach, above, hheight, hlength => by
    rw [Node.height] at hheight hlength
    rw [prepareNodeTo, if_neg (by omega), List.take_of_length_le (by omega)]
  | .element name attributes children, reach, above, hheight, hlength => by
    rw [Node.height] at hheight hlength
    have hsame : s.prepareAllTo reach above children = s.prepareAll above children :=
      prepareAllTo_eq (by omega) (by omega)
    have hbelow : ∀ tag : String, s.prepareAllTo (reach - 1) (tag :: above) children =
        s.prepareAll (tag :: above) children := fun tag =>
      prepareAllTo_eq (by omega) (by rw [List.length_cons]; omega)
    rw [prepareNodeTo, if_neg (by omega), List.take_of_length_le (by omega), prepareNode]
    simp only [hsame, hbelow]

theorem prepareAllTo_eq : ∀ {nodes : List Node} {reach : Nat} {above : List String},
    Node.heightAll nodes ≤ reach → above.length + Node.heightAll nodes ≤ maxHeight + 1 →
      s.prepareAllTo reach above nodes = s.prepareAll above nodes
  | [], _, _, _, _ => rfl
  | node :: nodes, reach, above, hheight, hlength => by
    rw [Node.heightAll] at hheight hlength
    rw [prepareAllTo, prepareAll, prepareNodeTo_eq (by omega) (by omega),
      prepareAllTo_eq (by omega) (by omega)]
end

/-! ### What is seen above -/

mutual
theorem prepareNodeTo_congr : ∀ (node : Node) (reach : Nat) {above above' : List String},
    above.take maxHeight = above'.take maxHeight →
      s.prepareNodeTo reach above node = s.prepareNodeTo reach above' node
  | .text content guarded, reach, above, above', hsame => by
    rw [prepareNodeTo, prepareNodeTo, hsame]
  | .special kind content, reach, above, above', hsame => by
    rw [prepareNodeTo, prepareNodeTo, hsame]
  | .element name attributes children, reach, above, above', hsame => by
    have hchildren := prepareAllTo_congr children reach hsame
    have hbelow : ∀ tag : String, s.prepareAllTo (reach - 1) (tag :: above) children =
        s.prepareAllTo (reach - 1) (tag :: above') children := by
      intro tag
      refine prepareAllTo_congr children (reach - 1) ?_
      have hless := congrArg (List.take (maxHeight - 1)) hsame
      rw [List.take_take, List.take_take] at hless
      rw [maxHeight, List.take_succ_cons, List.take_succ_cons]
      exact congrArg (tag :: ·) hless
    rw [prepareNodeTo, prepareNodeTo, hsame]
    simp only [hchildren, hbelow]

/-- Names that no walk up gets to do not matter. -/
theorem prepareAllTo_congr : ∀ (nodes : List Node) (reach : Nat) {above above' : List String},
    above.take maxHeight = above'.take maxHeight →
      s.prepareAllTo reach above nodes = s.prepareAllTo reach above' nodes
  | [], _, _, _, _ => rfl
  | node :: nodes, reach, above, above', hsame => by
    rw [prepareAllTo, prepareAllTo, prepareNodeTo_congr node reach hsame,
      prepareAllTo_congr nodes reach hsame]
end

/-- What preparation asks of the names above: the nearest one, whether there is preformatted text,
and whether there is a table. -/
structure SameSetting (above above' : List String) : Prop where
  nearest : above.head? = above'.head?
  pre : "pre" ∈ above ↔ "pre" ∈ above'
  table : "table" ∈ above ↔ "table" ∈ above'

theorem SameSetting.cons {above' : List String} (h : SameSetting above above') (tag : String) :
    SameSetting (tag :: above) (tag :: above') where
  nearest := rfl
  pre := by rw [List.mem_cons, List.mem_cons, h.pre]
  table := by rw [List.mem_cons, List.mem_cons, h.table]

mutual
theorem prepareNode_congr : ∀ (node : Node) {above above' : List String},
    SameSetting above above' → s.prepareNode above node = s.prepareNode above' node
  | .special kind content, above, above', h => rfl
  | .text content true, above, above', h => rfl
  | .text raw false, above, above', h => by
    have hpre : above.contains "pre" = above'.contains "pre" := by
      rw [Bool.eq_iff_iff, List.contains_iff_mem, List.contains_iff_mem, h.pre]
    rw [prepareNode, prepareNode, dropsText, dropsText, h.nearest, hpre]
  | .element name attributes children, above, above', h => by
    have hproper : properName above name = properName above' name := by
      simp only [properName, h.table]
    have hbelow : ∀ tag : String, s.prepareAll (tag :: above) children =
        s.prepareAll (tag :: above') children := fun tag => prepareAll_congr children (h.cons tag)
    rw [prepareNode, prepareNode, hproper]
    simp only [prepareAll_congr children h, hbelow]

/-- Preparation depends on its setting only. -/
theorem prepareAll_congr : ∀ (nodes : List Node) {above above' : List String},
    SameSetting above above' → s.prepareAll above nodes = s.prepareAll above' nodes
  | [], _, _, _ => rfl
  | node :: nodes, above, above', h => by
    rw [prepareAll, prepareAll, prepareNode_congr node h, prepareAll_congr nodes h]
end

/-! ### Preparing again -/

theorem prepareAllTo_append (xs ys : List Node) :
    s.prepareAllTo reach above (xs ++ ys) = do
      let first ← s.prepareAllTo reach above xs
      let rest ← s.prepareAllTo reach above ys
      return first ++ rest := by
  induction xs with
  | nil =>
    rw [List.nil_append, prepareAllTo]
    cases s.prepareAllTo reach above ys <;> rfl
  | cons x xs ih =>
    rw [List.cons_append, prepareAllTo, prepareAllTo, ih]
    cases s.prepareNodeTo reach above x with
    | error e => rfl
    | ok first =>
      cases s.prepareAllTo reach above xs with
      | error e => rfl
      | ok mid =>
        cases s.prepareAllTo reach above ys with
        | error e => rfl
        | ok last => simp [bind, Except.bind, pure, Except.pure]

/-- Without a base no URL is resolved. -/
theorem resolveUrl_of_baseUri_eq_none (h : s.options.baseUri = none) (tag : String)
    (attributes : Attributes) : s.resolveUrl tag attributes = .ok attributes := by
  simp [resolveUrl, h]

theorem resolveUrl_of_urlAttribute?_eq_none {tag : String} (h : urlAttribute? tag = none)
    (attributes : Attributes) : s.resolveUrl tag attributes = .ok attributes := by
  rw [resolveUrl, h]
  cases s.options.baseUri with
  | none => rfl
  | some base =>
    cases base with
    | unusable => rfl
    | address t => cases t <;> rfl

theorem lowerName_p : lowerName "p" = "p" := by decide +kernel

/-- A name is its proper name, but for that of a caption, which may be a paragraph's. -/
theorem lowerName_properName (above : List String) (name : String) :
    lowerName (properName above name) = lowerName name ∨
      lowerName name = "caption" ∧ lowerName (properName above name) = "p" := by
  by_cases h : lowerName name = "caption" ∧ "table" ∉ above
  · right
    exact ⟨h.1, by rw [properName, if_pos h, lowerName_p]⟩
  · left
    rw [properName, if_neg h]

/-- A name that has been set right is right. -/
theorem properName_properName (above : List String) (name : String) :
    properName above (properName above name) = properName above name := by
  by_cases h : lowerName name = "caption" ∧ "table" ∉ above
  · have hp : properName above name = "p" := if_pos h
    rw [hp, properName, if_neg]
    rw [lowerName_p]
    exact fun hc => absurd hc.1 (by decide)
  · have hname : properName above name = name := if_neg h
    rw [hname, hname]

/-- A single node that becomes itself. -/
theorem prepareAllTo_singleton {node : Node} (h : s.prepareNodeTo reach above node = .ok [node]) :
    s.prepareAllTo reach above [node] = .ok [node] := by
  rw [prepareAllTo, h, prepareAllTo]; rfl

/-- Resolving the URL of an element again changes nothing. -/
def StableUrls (s : Session) : Prop :=
  ∀ tag attributes resolved, s.resolveUrl tag attributes = .ok resolved →
    s.resolveUrl tag resolved = .ok resolved

theorem stableUrls_of_baseUri_eq_none (hbase : s.options.baseUri = none) : s.StableUrls :=
  fun tag _ resolved _ => resolveUrl_of_baseUri_eq_none hbase tag resolved

/-- An element that has got its proper name keeps its URL. -/
theorem StableUrls.properName (h : s.StableUrls) {name : String}
    {attributes resolved : Attributes} (above : List String)
    (hresolved : s.resolveUrl (lowerName name) attributes = .ok resolved) :
    s.resolveUrl (lowerName (properName above name)) resolved = .ok resolved := by
  rcases lowerName_properName above name with hname | ⟨-, hname⟩
  · rw [hname]
    exact h _ _ _ hresolved
  · rw [hname]
    exact resolveUrl_of_urlAttribute?_eq_none rfl resolved

mutual
theorem prepareNodeTo_again (h : s.StableUrls) :
    ∀ (node : Node) (reach : Nat) (above : List String) (result : List Node),
      s.prepareNodeTo reach above node = .ok result →
        s.prepareAllTo reach above result = .ok result
  | node, 0, above, result, hresult => by
    rw [prepareNodeTo_zero] at hresult
    obtain rfl := Except.ok.inj hresult
    exact prepareAllTo_singleton (prepareNodeTo_zero node)
  | .text content guarded, reach + 1, above, result, hresult => by
    have hkept : ∀ t, s.prepareNodeTo (reach + 1) above (.text t true) = .ok [.text t true] := by
      intro t
      rw [prepareNodeTo, if_neg (Nat.succ_ne_zero reach)]
      rfl
    cases guarded with
    | true =>
      obtain rfl := Except.ok.inj ((hkept content).symm.trans hresult)
      exact prepareAllTo_singleton (hkept content)
    | false =>
      rw [prepareNodeTo, if_neg (Nat.succ_ne_zero reach), prepareNode] at hresult
      obtain rfl := Except.ok.inj hresult
      split
      · rfl
      · exact prepareAllTo_singleton (hkept _)
  | .special kind content, reach + 1, above, result, hresult => by
    have hout := hresult
    rw [prepareNodeTo, if_neg (Nat.succ_ne_zero reach), prepareNode] at hout
    obtain rfl := Except.ok.inj hout
    by_cases hkeep : kind = .comment ∧ s.options.stripComments = false
    · rw [if_pos hkeep] at hresult ⊢
      exact prepareAllTo_singleton hresult
    · rw [if_neg hkeep]
      rfl
  | .element name attributes children, reach + 1, above, result, hresult => by
    have hreach := Nat.succ_ne_zero reach
    obtain ⟨resolved, tag, hurl, rfl, ⟨-, hchildren⟩ |
      ⟨hanchor, ⟨-, rfl⟩ | ⟨hnoise, below, hbelow, rfl⟩⟩⟩ :=
      prepareNodeTo_element_cases hreach hresult
    · exact prepareAllTo_again h children _ above result hchildren
    · rfl
    · -- the name and the URL are those that the element has got
      refine prepareAllTo_singleton ?_
      rw [prepareNodeTo_element hreach below (h.properName _ hurl), properName_properName,
        if_neg hanchor, if_neg hnoise, prepareAllTo_again h children _ _ below hbelow]
      rfl

/-- What has been prepared stays as it is, if URLs do. -/
theorem prepareAllTo_again (h : s.StableUrls) :
    ∀ (nodes : List Node) (reach : Nat) (above : List String) (result : List Node),
      s.prepareAllTo reach above nodes = .ok result →
        s.prepareAllTo reach above result = .ok result
  | [], _, _, result, hresult => by
    obtain rfl := Except.ok.inj hresult
    rfl
  | node :: nodes, reach, above, result, hresult => by
    rw [prepareAllTo] at hresult
    cases hfirst : s.prepareNodeTo reach above node with
    | error e =>
      rw [hfirst] at hresult
      cases hresult
    | ok first =>
      cases hrest : s.prepareAllTo reach above nodes with
      | error e =>
        rw [hfirst, hrest] at hresult
        cases hresult
      | ok rest =>
        rw [hfirst, hrest] at hresult
        obtain rfl := Except.ok.inj hresult
        rw [prepareAllTo_append, prepareNodeTo_again h node reach above first hfirst,
          prepareAllTo_again h nodes reach above rest hrest]
        rfl
end

mutual
theorem exists_prepareNodeTo (hbase : s.options.baseUri = none) :
    ∀ (node : Node) (reach : Nat) (above : List String), ∃ result,
      s.prepareNodeTo reach above node = .ok result
  | .text content guarded, reach, above => by
    rw [prepareNodeTo]
    cases guarded <;> split <;> exact ⟨_, rfl⟩
  | .special kind content, reach, above => by
    rw [prepareNodeTo]
    split <;> exact ⟨_, rfl⟩
  | .element name attributes children, reach, above => by
    by_cases hreach : reach = 0
    · exact ⟨_, if_pos hreach⟩
    · rw [prepareNodeTo_element hreach children (resolveUrl_of_baseUri_eq_none hbase _ _)]
      split
      · exact exists_prepareAllTo hbase children reach above
      · split
        · exact ⟨[], rfl⟩
        · obtain ⟨below, hbelow⟩ := exists_prepareAllTo hbase children (reach - 1)
            (lowerName (properName (above.take maxHeight) name) :: above)
          exact ⟨_, by rw [hbelow]; rfl⟩

/-- Without a base for URLs nothing is refused. -/
theorem exists_prepareAllTo (hbase : s.options.baseUri = none) :
    ∀ (nodes : List Node) (reach : Nat) (above : List String), ∃ result,
      s.prepareAllTo reach above nodes = .ok result
  | [], _, _ => ⟨[], rfl⟩
  | node :: nodes, reach, above => by
    obtain ⟨first, hfirst⟩ := exists_prepareNodeTo hbase node reach above
    obtain ⟨rest, hrest⟩ := exists_prepareAllTo hbase nodes reach above
    exact ⟨first ++ rest, by rw [prepareAllTo, hfirst, hrest]; rfl⟩
end

/-- Preparing siblings without a base for URLs has a result, and preparing the result gives
the result. -/
theorem prepareAllTo_twice (hbase : s.options.baseUri = none) (nodes : List Node) (reach : Nat)
    (above : List String) : ∃ result, s.prepareAllTo reach above nodes = .ok result ∧
      s.prepareAllTo reach above result = .ok result := by
  obtain ⟨result, hresult⟩ := exists_prepareAllTo hbase nodes reach above
  exact ⟨result, hresult, prepareAllTo_again (stableUrls_of_baseUri_eq_none hbase) nodes reach above
    result hresult⟩

end Session

end Wikitext

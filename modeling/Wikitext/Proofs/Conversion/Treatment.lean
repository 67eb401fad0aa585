/-
  Wikitext/Proofs/Conversion/Treatment.lean
  =========================================
  **What becomes of an element.**  Whether its tag is scaffolding, has a rule, or is unknown, an
  element is treated in one of six ways (`Treatment`), and every statement about the markup of a
  tree goes through them: an element is dropped, gives way to its content, is replaced, or stays
  around its content in one form or another (`elementMarkup_eq`).

  The rules of the MediaWiki dialect replace `img` and `a` by markup that may be refused, and
  nothing else (`settled_treatment`).
-/
import Wikitext.Proofs.Conversion.Assembly
import Wikitext.Proofs.Rule.Table

namespace Wikitext

/-- What becomes of an element. -/
inductive Treatment where
  | dropped
  /-- The content stays, and nothing else. -/
  | unwrapped
  | replaced (f : Fragment)
  /-- Tags stand around the content. -/
  | tagged (rule : Rule)
  /-- One tag stands for the element, and its content is dropped. -/
  | void (rule : Rule)
  /-- Markup stands around the content. -/
  | wrapped (rule : Rule)

def Rule.treatment (rule : Rule) : Treatment :=
  match rule.kind with
  | .delete => .dropped
  | .replace => .replaced rule.substitute
  | .preserve => if rule.void then .void rule else .tagged rule
  | .wrap | .synonym => .wrapped rule

/-- Whether a piece of markup is the same wherever the content is, and never refused. -/
def Fragment.isSettled : Fragment → Bool
  | .feature .image => false
  | .feature .link => false
  | _ => true

/-- The rule that stays around the content of an element. -/
def Treatment.rule? : Treatment → Option Rule
  | .tagged rule | .void rule | .wrapped rule => some rule
  | _ => none

/-- Markup that may be refused stands for `img` and `a`, and is around nothing. -/
def Treatment.Settled (tag : String) : Treatment → Prop
  | .replaced f => f.isSettled = true ∨ tag = "img" ∧ f = .feature .image ∨
      tag = "a" ∧ f = .feature .link
  | .wrapped rule => rule.opening.isSettled = true ∧ rule.closing.isSettled = true
  | _ => True

instance (tag : String) : (t : Treatment) → Decidable (t.Settled tag)
  | .replaced _ => inferInstanceAs (Decidable (_ ∨ _))
  | .wrapped _ => inferInstanceAs (Decidable (_ ∧ _))
  | .dropped => inferInstanceAs (Decidable True)
  | .unwrapped => inferInstanceAs (Decidable True)
  | .tagged _ => inferInstanceAs (Decidable True)
  | .void _ => inferInstanceAs (Decidable True)

namespace Session

/-- What becomes of an element with a tag. -/
def treatment (s : Session) (tag : String) : Treatment :=
  if transparentTags.contains tag then .unwrapped
  else match s.table.find? tag with
    | some rule => rule.treatment
    | none => match s.options.unknownTags with
      | .strip => .dropped
      | .passthrough => .unwrapped
      -- a bare tag is what a rule without allowed attributes leaves
      | .preserve => .tagged (.preserve [])

/-- The markup of an element that is treated in some way, from the markup of its children. -/
def treat (s : Session) (e : PlacedElement) (content : Report UrlError Text) :
    Treatment → Report UrlError Text
  | .dropped => Report.ok []
  | .unwrapped => content
  | .replaced f => s.expand e content f
  | .void rule => Report.ok (rule.layout (startTag e.name rule.attributes e.attributes true) [] [])
  | .tagged rule => content.andThen fun inner => Report.ok
      (rule.layout (startTag e.name rule.attributes e.attributes false) inner (endTag e.name))
  | .wrapped rule => content.andThen fun inner =>
      (s.expand e content rule.opening).andThen fun opening =>
        (s.expand e content rule.closing).andThen fun closing =>
          Report.ok (rule.layout opening inner closing)

variable {s : Session} {options : Options} {tag : String} {rule : Rule} {f : Fragment}
  {e : PlacedElement} {content : Report UrlError Text}

/-! ### Elements -/

theorem startTag_nil (name : String) (attributes : Attributes) :
    startTag name [] attributes false = '<' :: name.toList ++ ['>'] := by
  rw [startTag]
  exact congrArg (· ++ ['>']) (List.append_nil _)

theorem applyRule_eq (rule : Rule) :
    s.applyRule rule e content = s.treat e content rule.treatment := by
  rw [applyRule, Rule.treatment]
  cases hkind : rule.kind with
  | preserve =>
    by_cases hvoid : rule.void = true
    · simp [hvoid, treat]
    · simp [hvoid, treat]
  | replace => rfl
  | wrap => rfl
  | synonym => rfl
  | delete => rfl

theorem elementMarkup_eq : s.elementMarkup e content = s.treat e content (s.treatment e.tag) := by
  rw [elementMarkup, treatment]
  by_cases htransparent : transparentTags.contains e.tag = true
  · rw [if_pos htransparent, if_pos htransparent]
    rfl
  · rw [if_neg htransparent, if_neg htransparent]
    cases s.table.find? e.tag with
    | some rule => exact applyRule_eq rule
    | none =>
      rw [unknownMarkup]
      cases s.options.unknownTags with
      | strip => rfl
      | passthrough => rfl
      | preserve =>
        refine congrArg content.andThen (funext fun inner => congrArg Report.ok ?_)
        have hattributes : (Rule.preserve []).attributes = [] := rfl
        rw [hattributes, startTag_nil]
        simp [Rule.layout, Rule.preserve, Rule.bare, LineFormat.apply, TrimPolicy.apply]

/-! ### The rules of the dialect -/

/-- What holds of the treatments that the rules of the four tables give, and of the three without
a rule, holds of every treatment. -/
theorem treatment_induction {P : String → Treatment → Prop} (options : Options) (tag : String)
    (hrules : ∀ italic bold : Bool, ∀ entry ∈ (MediaWiki.tableOf italic bold).rules,
      P entry.1 entry.2.treatment)
    (hdropped : ∀ tag, P tag .dropped) (hunwrapped : ∀ tag, P tag .unwrapped)
    (hbare : ∀ tag, P tag (.tagged (.preserve []))) :
    P (lowerName tag) ((mediaWiki options).treatment tag) := by
  rw [treatment]
  by_cases htransparent : transparentTags.contains tag = true
  · rw [if_pos htransparent]
    exact hunwrapped _
  · rw [if_neg htransparent]
    cases hrule : (mediaWiki options).table.find? tag with
    | some rule =>
      exact MediaWiki.rule_of_find? (P := fun tag rule => P tag rule.treatment) hrules hrule
    | none =>
      cases (mediaWiki options).options.unknownTags with
      | strip => exact hdropped _
      | passthrough => exact hunwrapped _
      | preserve => exact hbare _

theorem settled_treatment (options : Options) (tag : String) :
    ((mediaWiki options).treatment tag).Settled (lowerName tag) := by
  apply treatment_induction (P := fun tag t => t.Settled tag)
  · decide +kernel
  · intro tag
    trivial
  · intro tag
    trivial
  · intro tag
    trivial

theorem linePrefix_of_treatment (options : Options) (tag : String) :
    ∀ rule ∈ ((mediaWiki options).treatment tag).rule?,
      rule.linePrefix = [] ∨ rule.linePrefix = MediaWiki.placeholder := by
  apply treatment_induction (P := fun _ t => ∀ rule ∈ t.rule?,
    rule.linePrefix = [] ∨ rule.linePrefix = MediaWiki.placeholder)
  · decide +kernel
  · intro _ rule hrule
    cases hrule
  · intro _ rule hrule
    cases hrule
  · intro _ rule hrule
    cases hrule
    exact Or.inl rfl

/-- Settled markup is there, whatever the content is. -/
theorem expand_of_isSettled (h : f.isSettled = true) :
    ∃ t, ∀ content, s.expand e content f = Report.ok t := by
  cases f with
  | literal t => exact ⟨t, fun _ => rfl⟩
  | feature f =>
    cases f with
    | image => cases h
    | link => cases h
    | tableStart => exact ⟨_, fun _ => rfl⟩
    | rowStart => exact ⟨_, fun _ => rfl⟩
    | cellStart => exact ⟨_, fun _ => rfl⟩
    | captionStart => exact ⟨_, fun _ => rfl⟩
    | itemStart => exact ⟨_, fun _ => rfl⟩

end Session

end Wikitext

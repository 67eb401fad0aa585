/-
  Wikitext/Report.lean
  ====================
  **Reports** — the outcome of a conversion together with the warnings that were given on
  the way.  An element that lacks what its rule needs is converted by a fallback, and a
  warning says so; an error ends the conversion, and the warnings before it are kept.
-/
import Wikitext.Text.Quoted

namespace Wikitext

/-- An element that lacks what its rule needs. -/
inductive Warning where
  | linkWithoutTarget
  | imageWithoutSource
  /-- The source of the image ends in no file name. -/
  | imageWithoutFileName (source : Text)
deriving DecidableEq, Repr

def Warning.message : Warning → Text
  | linkWithoutTarget => "Link without href rendered as an external link".toList
  | imageWithoutSource => "Image without src dropped".toList
  | imageWithoutFileName source =>
    "Image src ".toList ++ source.quoted ++ " has no file name; dropped".toList

/-- A result or an error, with the warnings given before it. -/
structure Report (ε α : Type) where
  outcome : Except ε α
  warnings : List Warning

namespace Report

variable {ε ε' α β : Type}

/-- A result without warnings. -/
def ok (a : α) : Report ε α := ⟨.ok a, []⟩

def fail (e : ε) : Report ε α := ⟨.error e, []⟩

/-- A result with one warning. -/
def warn (w : Warning) (a : α) : Report ε α := ⟨.ok a, [w]⟩

/-- A result or an error without warnings. -/
def ofExcept (x : Except ε α) : Report ε α := ⟨x, []⟩

/-- Goes on from a result; warnings add up. -/
def andThen (r : Report ε α) (f : α → Report ε β) : Report ε β :=
  match r.outcome with
  | .ok a => ⟨(f a).outcome, r.warnings ++ (f a).warnings⟩
  | .error e => ⟨.error e, r.warnings⟩

def mapError (f : ε → ε') (r : Report ε α) : Report ε' α :=
  ⟨r.outcome.mapError f, r.warnings⟩

instance : Monad (Report ε) where
  pure := ok
  bind := andThen

@[simp] theorem ok_andThen (a : α) (f : α → Report ε β) : (ok a).andThen f = f a := by
  simp [ok, andThen]

@[simp] theorem fail_andThen (e : ε) (f : α → Report ε β) : (fail e).andThen f = fail e := rfl

@[simp] theorem pure_eq (a : α) : (pure a : Report ε α) = ok a := rfl

@[simp] theorem bind_eq (r : Report ε α) (f : α → Report ε β) : r >>= f = r.andThen f := rfl

end Report

end Wikitext

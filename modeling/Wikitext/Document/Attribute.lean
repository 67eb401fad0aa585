/-
  Wikitext/Document/Attribute.lean
  ================================
  **Attributes** — the named values of an element.  A value is one text, or a list of
  texts where the attribute holds several (the classes of an element, the headers of a
  cell).  Names are looked up as they are spelled.
-/
import Wikitext.Text.Quoted

namespace Wikitext

/-- The value of an attribute. -/
inductive AttributeValue where
  | single (value : Text)
  | list (values : List Text)
deriving DecidableEq, Repr

namespace AttributeValue

/-- The value as one text; the members of a list are separated by a space. -/
def text : AttributeValue → Text
  | single t => t
  | list ts => Text.join [' '] ts

/-- Whether the value is an empty text or an empty list. -/
def isEmpty : AttributeValue → Bool
  | single t => t.isEmpty
  | list ts => ts.isEmpty

/-- The value as it is shown where a single text is expected: a list keeps its
brackets, and its members are quoted. -/
def shown : AttributeValue → Text
  | single t => t
  | list ts => '[' :: Text.join [',', ' '] (ts.map Text.quoted) ++ [']']

end AttributeValue

/-- A named value. -/
structure Attribute where
  name : String
  value : AttributeValue
deriving DecidableEq, Repr

/-- The attributes of an element, each name at most once, in document order. -/
abbrev Attributes := List Attribute

namespace Attributes

/-- The value stored under a name. -/
def find? (attributes : Attributes) (name : String) : Option AttributeValue :=
  (List.find? (·.name == name) attributes).map (·.value)

/-- The text stored under a name. -/
def text? (attributes : Attributes) (name : String) : Option Text :=
  (attributes.find? name).map (·.text)

/-- Stores a value under a name: in the place of the value before, or at the end. -/
def set (name : String) (value : AttributeValue) : Attributes → Attributes
  | [] => [⟨name, value⟩]
  | a :: rest => if a.name = name then ⟨name, value⟩ :: rest else a :: set name value rest

/-- Whether a text that is not empty is stored under a name. -/
def has (attributes : Attributes) (name : String) : Bool :=
  match attributes.text? name with
  | some t => !t.isEmpty
  | none => false

end Attributes

end Wikitext

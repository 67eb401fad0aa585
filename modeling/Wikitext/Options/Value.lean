/-
  Wikitext/Options/Value.lean
  ===========================
  **Untyped values** — what a caller hands over for an option or a field of a rule, before
  it has been checked.  `shown` is how an error message repeats a value that it refuses.
-/
import Wikitext.Text.Quoted
import Wikitext.Link.Recognizer

namespace Wikitext

/-- A value that has not been checked. -/
inductive Value where
  | null
  | bool (b : Bool)
  | int (n : Int)
  /-- The number `digits * 10 ^ exponent`, or its negative. -/
  | decimal (negative : Bool) (digits : Nat) (exponent : Int)
  | text (t : Text)
  | list (vs : List Value)
  | record (fields : List (Text × Value))
  /-- A URL pattern in its written form. -/
  | pattern (source : Text)
  | function (f : TitleFunction)
deriving Inhabited

namespace Value

/-- Digits with a point after the first `n` of them, and at least one digit on both
sides of it. -/
def pointed (n : Int) (digits : Text) : Text :=
  let whole := digits.take n.toNat ++ List.replicate (n.toNat - digits.length) '0'
  let fraction := List.replicate (-n).toNat '0' ++ digits.drop n.toNat
  (if whole = [] then ['0'] else whole) ++ '.' :: (if fraction = [] then ['0'] else fraction)

/-- Digits with a power of ten after them; the point is after the first digit, and the
exponent has a sign and at least two digits. -/
def powered (n : Int) (digits : Text) : Text :=
  let size := Nat.toDigits 10 n.natAbs
  digits.take 1 ++ (if digits.length ≤ 1 then [] else '.' :: digits.drop 1)
    ++ 'e' :: (if n < 0 then '-' else '+') :: (List.replicate (2 - size.length) '0' ++ size)

/-- The number `digits * 10 ^ exponent` without needless zeros: positional from one
ten-thousandth up to ten to the sixteenth, with a power of ten otherwise. -/
def shownDecimal (negative : Bool) (digits : Nat) (exponent : Int) : Text :=
  let all := if digits = 0 then [] else Nat.toDigits 10 digits
  let kept := Text.trimEnd (· == '0') all
  /- The point stands after the first `place` digits. -/
  let place : Int := if digits = 0 then 0 else all.length + exponent
  (if negative then ['-'] else []) ++
    (if -4 < place ∧ place ≤ 16 then pointed place kept else powered (place - 1) kept)

mutual
def shown : Value → Text
  | null => "None".toList
  | bool true => "True".toList
  | bool false => "False".toList
  | int n => (if n < 0 then ['-'] else []) ++ Nat.toDigits 10 n.natAbs
  | decimal negative digits exponent => shownDecimal negative digits exponent
  | text t => t.quoted
  | list vs => '[' :: shownAll vs ++ [']']
  | record fields => '\x7b' :: shownFields fields ++ ['\x7d']
  | pattern source => "re.compile(".toList ++ source.quoted ++ [')']
  | function _ => "<function>".toList

/-- Values with commas between them. -/
def shownAll : List Value → Text
  | [] => []
  | [v] => v.shown
  | v :: vs => v.shown ++ [',', ' '] ++ shownAll vs

/-- Named values with commas between them. -/
def shownFields : List (Text × Value) → Text
  | [] => []
  | [(k, v)] => k.quoted ++ [':', ' '] ++ v.shown
  | (k, v) :: fields => k.quoted ++ [':', ' '] ++ v.shown ++ [',', ' '] ++ shownFields fields
end

/-- Whether a value counts as true where a switch is expected. -/
def isTrue : Value → Bool
  | null => false
  | bool b => b
  | int n => n != 0
  | decimal _ digits _ => digits != 0
  | text t => !t.isEmpty
  | list vs => !vs.isEmpty
  | record fields => !fields.isEmpty
  | pattern _ => true
  | function _ => true

/-- The word that a value is, if `read` knows it. -/
def word? {α : Type} (read : String → Option α) : Value → Option α
  | text t => read (String.ofList t)
  | _ => none

def kindName : Value → String
  | null => "NoneType"
  | bool _ => "bool"
  | int _ => "int"
  | decimal _ _ _ => "float"
  | text _ => "str"
  | list _ => "list"
  | record _ => "dict"
  | pattern _ => "re.Pattern"
  | function _ => "function"

end Value

end Wikitext

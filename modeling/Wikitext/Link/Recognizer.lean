/-
  Wikitext/Link/Recognizer.lean
  =============================
  **Page recognizers** — which URLs name pages of the wiki that the markup is for, and
  under which title.  Recognizers are tried in order, and the first one that yields a
  title that is not empty decides.  Addresses are looked at here; what a pattern finds in a
  URL and what title a function gives it is for the caller to say, so these recognizers hold
  any function from URLs to titles.
-/
import Wikitext.Text.Percent

namespace Wikitext

/-- A function from URLs to titles that a caller brings along, under the name by which the
caller knows it.  It has an answer for every URL. -/
structure TitleFunction where
  name : String
  apply : Text → Option Text

namespace TitleFunction

/-- Functions are told apart by their names. -/
instance : BEq TitleFunction := ⟨fun f g => f.name == g.name⟩

/-- The last path segment of a URL that mentions a wiki. -/
def lastSegmentOfWiki : TitleFunction where
  name := "lastSegmentOfWiki"
  apply url := if Text.occurs ['w', 'i', 'k', 'i'] url then (url.splitOn '/').getLast? else none

/-- The URL itself. -/
def wholeUrl : TitleFunction := ⟨"wholeUrl", some⟩

/-- No title for any URL. -/
def noTitle : TitleFunction := ⟨"noTitle", fun _ => none⟩

/-- The empty title. -/
def emptyTitle : TitleFunction := ⟨"emptyTitle", fun _ => some []⟩

end TitleFunction

/-- A way to recognize the URLs of pages. -/
inductive Recognizer where
  /-- The pages are the URLs that go on after an address; what goes on is the title,
  percent-encoded. -/
  | under (address : Text)
  /-- The pages are the URLs in which a pattern, with this written form, finds a title. -/
  | pattern (source : Text) (search : Text → Option Text)
  | function (f : TitleFunction)

namespace Recognizer

/-- The title of the page that a URL names. -/
def title? : Recognizer → Text → Option Text
  | under address, url =>
    if address ≠ [] ∧ address.isPrefixOf url ∧ address.length < url.length then
      some (Percent.decode (url.drop address.length))
    else none
  | pattern _ search, url => search url
  | function f, url => f.apply url

/-- A title that is not empty. -/
def usable (title : Option Text) : Option Text :=
  title.filter (· ≠ [])

/-- The title that the first successful recognizer gives a URL.  The empty URL names no
page. -/
def resolve (recognizers : List Recognizer) (url : Text) : Option Text :=
  if url = [] then none else recognizers.findSome? fun r => usable (r.title? url)

end Recognizer

end Wikitext

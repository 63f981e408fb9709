import Retouch.Address
import Retouch.Dialect
import Retouch.ParseError
import Retouch.Script.Grammar

/-!
# Element sites

A site is an element of a source that is rendered as itself: its address, where its tags stand, and
the text it shows. `sites` lists those of a source in document order; `findSite` takes an address
back to its site.
-/

namespace Retouch

/-- An addressed element of a source. -/
structure Site where
  address : Address
  /-- The tag name as it is written. -/
  name : Text
  tag : Tag
  /-- The text between the tags: what is written there and string literals in braces. -/
  text : Text
  /-- Whether no element or fragment stands directly between the tags. -/
  isLeaf : Bool
deriving DecidableEq

namespace Site

/-- Where the opening tag begins. It tells the sites of a source apart. -/
def anchor (site : Site) : Nat := site.tag.span.start

/-- Whether the element is one tag. -/
def isSelfClosing (site : Site) : Bool := site.tag.closing.isNone

/-- What stands between the opening tag and the closing tag, if there is one. -/
def between (site : Site) : Option Span :=
  site.tag.closing.map fun closing => ⟨site.tag.opening.stop, closing.span.start⟩

/-- The site of an element with a name, and the counter behind it. -/
def ofElement (counter : Counter) (name : Text) (tag : Tag) (children : List Markup) :
    Site × Counter :=
  let (address, counter) := counter.next name
  (⟨address, name, tag, Markup.textOf children, !children.any Markup.isStructural⟩, counter)

/-- The sites of elements in document order. Components have none. -/
def ofElements : Counter → List (Tag × List Markup) → List Site
  | _, [] => []
  | counter, (tag, children) :: rest =>
    match tag.name with
    | none => ofElements counter rest
    | some name =>
      let (site, counter) := ofElement counter name tag children
      site :: ofElements counter rest

end Site

/-- The sites of a source in document order. -/
def sites (dialect : Dialect) (source : Text) : Except ParseError (List Site) :=
  match Script.parse dialect.typed source with
  | .ok markup => .ok (Site.ofElements .empty (Markup.elementsOfAll markup))
  | .error faults => .error (.ofDiagnostic faults.first)

/-- The addresses of a source in document order. -/
def addresses (dialect : Dialect) (source : Text) : Except ParseError (List Address) :=
  (sites dialect source).map fun found => found.map Site.address

/-- The first site with an address. -/
def findSite (found : List Site) (address : Address) : Option Site :=
  found.find? fun site => site.address = address

end Retouch

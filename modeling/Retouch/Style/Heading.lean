import Retouch.Json.Record

/-!
# Headings

The headings that the style controls offer, each with its tag and font size.
-/

namespace Retouch

/-- A heading. -/
inductive Heading where
  | h1 | h2 | h3 | h4
deriving DecidableEq, Repr

namespace Heading

/-- All headings, the largest first. -/
def all : List Heading := [h1, h2, h3, h4]

/-- The tag of a heading, which is also its word in JSON. -/
def tag : Heading → Text
  | h1 => ['h', '1']
  | h2 => ['h', '2']
  | h3 => ['h', '3']
  | h4 => ['h', '4']

/-- The font size of a heading in pixels. -/
def fontSize : Heading → Float
  | h1 => 32
  | h2 => 24
  | h3 => 18
  | h4 => 16

/-- The heading with a tag. -/
def ofTag? (t : Text) : Option Heading := all.find? fun h => h.tag == t

/-- The heading in a JSON value. -/
def ofJson? (v : Json) : Option Heading := (Json.choice? v).bind ofTag?

/-- A heading as a JSON value. -/
def toJson (h : Heading) : Json := .string h.tag

end Heading

end Retouch

import Retouch.Text.Basic

/-!
# Markup

The markup of a script, as the trees of elements that stand in it. Code is kept only as far as it
holds markup. `Markup.elements` lists the tags of a forest in document order, those in attributes
before those between the tags.
-/

namespace Retouch

/-- The bytes of a source from `start` up to `stop`. -/
structure Span where
  start : Nat
  stop : Nat
deriving DecidableEq, Repr

/-- The bytes of a span in its source. -/
def Span.slice (span : Span) (source : Text) : Text := Text.slice source span.start span.stop

/-- Whether a span holds nothing. -/
def Span.isEmpty (span : Span) : Bool := span.start == span.stop

/-- A style attribute: all of it, and its value if it has one. -/
structure StyleAttribute where
  span : Span
  value : Option Span
deriving DecidableEq, Repr

/-- A closing tag and the name in it. -/
structure ClosingTag where
  span : Span
  name : Span
deriving DecidableEq, Repr

/-- Where the tags of an element stand. -/
structure Tag where
  /-- The name of an element that is rendered as itself; none for a component. -/
  name : Option Text
  /-- The element, from the beginning of its opening tag to the end of its last one. -/
  span : Span
  opening : Span
  nameSpan : Span
  closing : Option ClosingTag
  /-- The last style attribute. -/
  style : Option StyleAttribute
  /-- The end of the last attribute, or of the name if there is none. -/
  insertAt : Nat
deriving DecidableEq, Repr

/-- A piece of markup. -/
inductive Markup where
  /-- An element: its tags, the markup in its attributes, and what stands between its tags. -/
  | element (tag : Tag) (inside : List Markup) (children : List Markup)
  | fragment (children : List Markup)
  /-- Text between tags, as it is written. -/
  | text (raw : Text)
  /-- A string literal in braces. -/
  | literal (value : Text)
  /-- Other code in braces, with the markup in it. -/
  | code (inside : List Markup)

namespace Markup

/-- Whether a piece is rendered as an element, or holds such pieces. -/
def isStructural : Markup → Bool
  | element .. | fragment _ => true
  | _ => false

/-- The text that a piece shows by itself. -/
def ownText : Markup → Text
  | text raw => raw
  | literal value => value
  | _ => []

/-- The text between two tags: the pieces that are texts or string literals, one after the other. -/
def textOf (children : List Markup) : Text := children.flatMap ownText

mutual

/-- The elements of a piece in document order, each with what stands between its tags. -/
def elements : Markup → List (Tag × List Markup)
  | element tag inside children =>
    (tag, children) :: (elementsOfAll inside ++ elementsOfAll children)
  | fragment children => elementsOfAll children
  | code inside => elementsOfAll inside
  | text _ => []
  | literal _ => []

/-- The elements of a forest in document order. -/
def elementsOfAll : List Markup → List (Tag × List Markup)
  | [] => []
  | m :: rest => elements m ++ elementsOfAll rest

end

theorem elementsOfAll_append (l r : List Markup) :
    elementsOfAll (l ++ r) = elementsOfAll l ++ elementsOfAll r := by
  induction l with
  | nil => simp [elementsOfAll]
  | cons m l ih => simp [elementsOfAll, ih]

end Markup

end Retouch

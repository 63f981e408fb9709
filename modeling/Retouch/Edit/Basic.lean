import Retouch.Address
import Retouch.Style.Color

/-!
# Edits

An edit changes one element of a source, which it names by its address: it gives the element a new
text, or a new style and perhaps a new tag name. Edits hold no positions, so they can wait while the
source stays the one that their addresses were taken from.
-/

namespace Retouch

/-- Replace what stands between the tags of an element by a text. -/
structure TextEdit where
  address : Address
  text : Text
deriving DecidableEq

/-- Replace the style of an element, and rename it if a tag is given. -/
structure StyleEdit where
  address : Address
  backgroundColor : Color
  textColor : Color
  fontSize : Float
  bold : Bool
  targetTag : Option Text
deriving BEq

/-- An edit that waits to be written into the source. -/
inductive PendingEdit where
  | text (edit : TextEdit)
  | style (edit : StyleEdit)
deriving BEq

/-- The element that an edit changes. -/
def PendingEdit.address : PendingEdit → Address
  | text edit => edit.address
  | style edit => edit.address

namespace StyleEdit

/-- The tag name that an edit asks for: none, one in normal spelling, or a text that is no name of
an intrinsic element. -/
def target (edit : StyleEdit) : Except Text (Option Text) :=
  match edit.targetTag with
  | none => .ok none
  | some raw =>
    if isIntrinsicTagName (normaliseTag raw) then .ok (some (normaliseTag raw)) else .error raw

/-- Whether a font size can be written. -/
def isUsableSize (size : Float) : Bool := size.isFinite && 0 < size

/-- A property of a style: its name and its value as a string literal. -/
def property (name : String) (value : Text) : Text :=
  name.toList ++ [':', ' ', '"'] ++ value ++ ['"']

/-- The value of the style attribute: an object in braces. -/
def expression (edit : StyleEdit) : Except StyleError Text :=
  if isUsableSize edit.fontSize then
    .ok ("\x7b\x7b ".toList
      ++ property "backgroundColor" edit.backgroundColor.text ++ [',', ' ']
      ++ property "color" edit.textColor.text ++ [',', ' ']
      ++ property "fontSize" (Decimal.displayFloat edit.fontSize ++ ['p', 'x']) ++ [',', ' ']
      ++ property "fontWeight" (if edit.bold then "bold" else "normal").toList
      ++ " \x7d\x7d".toList)
  else .error (.unusableFontSize edit.fontSize)

end StyleEdit

end Retouch

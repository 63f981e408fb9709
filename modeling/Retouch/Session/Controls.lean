import Retouch.Edit.Basic
import Retouch.Style.Heading

/-!
# Style controls

The values that the user has set for the style of the selected element.
-/

namespace Retouch

/-- The values of the style controls. -/
structure Controls where
  backgroundColor : Color
  textColor : Color
  fontSize : Float
  bold : Bool

/-- Values that the user sets, colours as they were typed. -/
structure ControlInput where
  backgroundColor : Option Text
  textColor : Option Text
  fontSize : Option Float
  bold : Option Bool

namespace Controls

/-- The values before the user sets any. -/
def standard : Controls := ⟨.white, .black, 16, false⟩

/-- The least font size that is applied. -/
def leastFontSize : Float := 8

/-- The greatest font size that is applied. -/
def greatestFontSize : Float := 72

/-- A font size moved into the range of those that are applied. What is no number stays so. -/
def limitFontSize (size : Float) : Float :=
  if size < leastFontSize then leastFontSize
  else if greatestFontSize < size then greatestFontSize
  else size

/-- The edit that applies the controls to an element, and renames it if a tag is given. -/
def edit (controls : Controls) (address : Address) (target : Option Text) : StyleEdit :=
  { address := address
    backgroundColor := controls.backgroundColor
    textColor := controls.textColor
    fontSize := limitFontSize controls.fontSize
    bold := controls.bold
    targetTag := target }

/-- Set the values that are given, in order. A text that is no colour ends this: the values behind
it are not set. -/
def set (controls : Controls) (input : ControlInput) : Controls × Except StyleError Unit :=
  match input.backgroundColor.mapM Color.ofText with
  | .error cause => (controls, .error cause)
  | .ok background =>
    let controls := { controls with backgroundColor := background.getD controls.backgroundColor }
    match input.textColor.mapM Color.ofText with
    | .error cause => (controls, .error cause)
    | .ok color =>
      ({ controls with
          textColor := color.getD controls.textColor
          fontSize := input.fontSize.getD controls.fontSize
          bold := input.bold.getD controls.bold }, .ok ())

end Controls

end Retouch

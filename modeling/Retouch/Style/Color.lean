import Retouch.Json.Record
import Retouch.Style.Error
import Retouch.Text.Blank
import Retouch.Text.Case
import Retouch.Text.Hex

/-!
# Colours

A colour is the text of a colour in a style sheet: hexadecimal digits behind a number sign, a
colour function with its arguments, or a keyword. None of these holds a quote or a backslash, so a
colour can stand in a string literal as it is.
-/

namespace Retouch

open Text

/-- Whether a character is a letter of ASCII. -/
def isLetter (c : Char) : Bool := isCapital c || isSmall c

/-- Whether a text is a number sign with 3, 4, 6 or 8 hexadecimal digits. -/
def isHexColor : Text → Bool
  | '#' :: digits =>
    digits.all (fun c => (hexValue? c).isSome)
      && (digits.length == 3 || digits.length == 4 || digits.length == 6 || digits.length == 8)
  | _ => false

/-- Whether a character is the small letter `letter` in any case. The long s is an s. -/
def isLetterCase (letter c : Char) : Bool := c.toLower == letter || (letter == 's' && c == 'ſ')

/-- The names of colour functions. -/
def colorFunctions : List Text := [['r', 'g', 'b'], ['r', 'g', 'b', 'a'], ['h', 's', 'l'], ['h', 's', 'l', 'a']]

/-- Whether `name` is a name in any case. -/
def isNameCase : (name : Text) → Text → Bool
  | [], [] => true
  | letter :: letters, c :: rest => isLetterCase letter c && isNameCase letters rest
  | _, _ => false

/-- Whether a character can stand among the arguments of a colour function. -/
def isArgumentChar (c : Char) : Bool :=
  isLetter c || c.isDigit || isBlank c || c == '.' || c == ',' || c == '%' || c == '/' || c == '+'
    || c == '-'

/-- Whether a text is arguments with the parenthesis behind them. -/
def isArguments : Text → Bool
  | [')'] => true
  | c :: rest => isArgumentChar c && isArguments rest
  | [] => false

/-- Whether a text is a colour function with its arguments in parentheses. -/
def isFunctionalColor (t : Text) : Bool :=
  let name := t.takeWhile fun c => c != '('
  match t.dropWhile fun c => c != '(' with
  | _ :: arguments => colorFunctions.any (fun f => isNameCase f name) && isArguments arguments
  | [] => false

/-- Whether a text is letters. -/
def isKeywordColor (t : Text) : Bool := !t.isEmpty && t.all isLetter

/-- Whether a text is a colour. -/
def isColor (t : Text) : Bool := isHexColor t || isFunctionalColor t || isKeywordColor t

example : isColor "hsla(120deg, 100%, 50%, .3)".toList = true := by decide
example : isColor "#12345".toList = false := by decide
example : isColor "rgb(\"0\")".toList = false := by decide

/-- A colour. -/
structure Color where
  text : Text
  valid : isColor text = true
deriving DecidableEq

namespace Color

/-- The colour that a text is, but for blanks around it. -/
def ofText (value : Text) : Except StyleError Color :=
  if h : isColor (trim value) = true then .ok ⟨trim value, h⟩
  else .error (.unsupportedColor (trim value))

/-- White. -/
def white : Color := ⟨['#', 'f', 'f', 'f', 'f', 'f', 'f'], by decide⟩

/-- Black. -/
def black : Color := ⟨['#', '0', '0', '0', '0', '0', '0'], by decide⟩

/-- The colour in a JSON value. -/
def ofJson? (v : Json) : Option Color := (Json.text? v).bind fun t => (ofText t).toOption

/-- A colour as a JSON value. -/
def toJson (c : Color) : Json := .string c.text

end Color

end Retouch

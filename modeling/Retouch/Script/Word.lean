import Retouch.Script.Cursor
import Retouch.Script.Token
import Retouch.Text.Hex
import Retouch.Text.Identifier

/-!
# Words

Names and keywords, as they are spelt with and without escapes.
-/

namespace Retouch.Script

open Text

/-- The code point of an escape behind `\u`, and how many characters spell it: four hexadecimal
digits, or any number of them in braces. -/
def readCodePoint (t : Text) : Option (Nat × Nat) :=
  match t with
  | '\x7b' :: rest =>
    let digits := rest.takeWhile fun c => (hexValue? c).isSome
    match digits, rest.drop digits.length with
    | [], _ => none
    | _, '\x7d' :: _ =>
      match hexNumber? digits with
      | some n => if n ≤ 0x10ffff then some (n, digits.length + 2) else none
      | none => none
    | _, _ => none
  | t => (readHex4 t).map fun (n, _) => (n, 4)

/-- A word as far as it was read: its characters, whether it has escapes, and the cursor behind it. -/
structure Word where
  letters : Text
  escaped : Bool
  behind : Cursor

/-- The word at the beginning of a text, of which `covered` characters belong to an escape that was
read already. The first character of a word is tested by `isIdentifierStart`. -/
def readWord : (covered : Nat) → (first : Bool) → Text → (offset : Nat) → Word
  | _, _, [], offset => ⟨[], false, ⟨[], offset⟩⟩
  | covered + 1, first, c :: rest, offset => readWord covered first rest (offset + c.utf8Size)
  | 0, first, c :: rest, offset =>
    let belongs := fun d => if first then isIdentifierStart d else isIdentifierPart d
    let stop : Word := ⟨[], false, ⟨c :: rest, offset⟩⟩
    if belongs c then
      let word := readWord 0 false rest (offset + c.utf8Size)
      { word with letters := c :: word.letters }
    else if c == '\\' then
      match rest with
      | 'u' :: escape =>
        match readCodePoint escape with
        | some (n, length) =>
          if belongs (Char.ofNat n) then
            let word := readWord (length + 1) false rest (offset + 1)
            { word with letters := Char.ofNat n :: word.letters, escaped := true }
          else stop
        | none => stop
      | _ => stop
    else stop

/-- The kind of token that a word is. -/
def wordKind (letters : Text) : TokenKind :=
  match Keyword.ofText? letters with
  | some k => .keyword k
  | none => .name letters

end Retouch.Script

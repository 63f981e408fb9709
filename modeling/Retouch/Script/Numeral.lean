import Retouch.Script.Cursor
import Retouch.Script.Token
import Retouch.Text.Hex
import Retouch.Text.Identifier

/-!
# Numerals

Numbers as a script spells them: in four bases, with underscores between digits, fractions,
exponents and the mark of a big number.
-/

namespace Retouch.Script

open Text

/-- Whether underscores stand only between digits. -/
def separatorsSound : Text → Bool
  | [] => true
  | '_' :: _ => false
  | [_] => true
  | _ :: '_' :: '_' :: _ => false
  | [_, '_'] => false
  | _ :: '_' :: rest => separatorsSound rest
  | _ :: rest => separatorsSound rest

/-- A numeral as far as it was read: whether it is sound, and the cursor behind it. -/
structure Numeral where
  kind : TokenKind
  sound : Bool
  behind : Cursor

/-- The digits and underscores from a cursor on. -/
def digitRun (isDigit : Char → Bool) (c : Cursor) : Text × Cursor :=
  c.run fun d => isDigit d || d == '_'

/-- The numeral with an exponent, if one follows. -/
def Numeral.withPower (n : Numeral) : Numeral :=
  match n.behind.rest with
  | c :: rest =>
    if c == 'e' || c == 'E' then
      let sign := match rest with
        | '+' :: _ => 1
        | '-' :: _ => 1
        | _ => 0
      let (digits, behind) := digitRun Char.isDigit (n.behind.skip (1 + sign))
      ⟨n.kind, n.sound && !digits.isEmpty && separatorsSound digits, behind⟩
    else n
  | [] => n

/-- The numeral with a fraction and an exponent, as far as they follow. -/
def Numeral.withTail (n : Numeral) : Numeral :=
  match n.behind.rest with
  | '.' :: _ =>
    let (digits, behind) := digitRun Char.isDigit (n.behind.skip 1)
    Numeral.withPower ⟨n.kind, n.sound && separatorsSound digits, behind⟩
  | _ => n.withPower

/-- The digits of a numeral that is whole, and the mark of a big number. -/
def readWhole (isDigit : Char → Bool) (c : Cursor) : Numeral :=
  let (digits, behind) := digitRun isDigit c
  let sound := !digits.isEmpty && separatorsSound digits
  match behind.rest with
  | 'n' :: _ => ⟨.bigNumber, sound, behind.skip 1⟩
  | _ => ⟨.number, sound, behind⟩

/-- The numeral at a cursor. -/
def readNumeral (c : Cursor) : Numeral :=
  match c.rest with
  | '.' :: _ => Numeral.withTail ⟨.number, true, c⟩
  | '0' :: d :: _ =>
    if d == 'x' || d == 'X' then readWhole (fun e => (hexValue? e).isSome) (c.skip 2)
    else if d == 'b' || d == 'B' then readWhole (fun e => e == '0' || e == '1') (c.skip 2)
    else if d == 'o' || d == 'O' then readWhole (fun e => '0' ≤ e && e ≤ '7') (c.skip 2)
    else if d.isDigit then
      let (digits, behind) := c.run Char.isDigit
      if digits.all fun e => e ≤ '7' then ⟨.number, true, behind⟩
      else Numeral.withTail ⟨.number, true, behind⟩
    else if d == 'n' then ⟨.bigNumber, true, c.skip 2⟩
    else Numeral.withTail ⟨.number, true, c.skip 1⟩
  | _ =>
    let whole := readWhole Char.isDigit c
    if whole.kind == .bigNumber then whole else whole.withTail

/-- Whether what follows a number cannot stand directly behind it. -/
def sticksToNumber (t : Text) : Bool :=
  match t with
  | c :: _ => isIdentifierStart c || c.isDigit || c == '\\'
  | [] => false

end Retouch.Script

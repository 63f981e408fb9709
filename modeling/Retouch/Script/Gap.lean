import Retouch.Script.Cursor

/-!
# Gaps

The blanks and comments that may stand between two tokens.
-/

namespace Retouch.Script

open Text

/-- A character that ends a line. -/
def isLineEnd (c : Char) : Bool := c == '\n' || c == '\r' || c == '\u2028' || c == '\u2029'

/-- A blank within a line. -/
def isInlineBlank (c : Char) : Bool :=
  let n := c.toNat
  c == ' ' || c == '\t' || n == 0x0b || n == 0x0c || n == 0x85 || n == 0xa0 || n == 0x1680
    || (0x2000 ≤ n && n ≤ 0x200b) || n == 0x202f || n == 0x205f || n == 0x3000 || n == 0xfeff

/-- What a character of a gap belongs to. -/
inductive GapPart where
  | blank
  | lineComment
  /-- A comment that begins at an offset and ends with a mark. -/
  | blockComment (start : Nat)

/-- What is behind a gap: the cursor, whether a line has ended in the gap, and where a comment in it
begins that has no end. -/
structure Gap where
  cursor : Cursor
  lineEnded : Bool
  openComment : Option Nat

/-- Skip a gap in whose part `part` the text stands. -/
def skipGap : GapPart → Text → (offset : Nat) → (lineEnded : Bool) → Gap
  | .blank, '/' :: '/' :: rest, offset, lineEnded =>
    skipGap .lineComment rest (offset + 2) lineEnded
  | .blank, '/' :: '*' :: rest, offset, lineEnded =>
    skipGap (.blockComment offset) rest (offset + 2) lineEnded
  | .blank, c :: rest, offset, lineEnded =>
    if isLineEnd c then skipGap .blank rest (offset + c.utf8Size) true
    else if isInlineBlank c then skipGap .blank rest (offset + c.utf8Size) lineEnded
    else ⟨⟨c :: rest, offset⟩, lineEnded, none⟩
  | .lineComment, c :: rest, offset, lineEnded =>
    if isLineEnd c then skipGap .blank rest (offset + c.utf8Size) true
    else skipGap .lineComment rest (offset + c.utf8Size) lineEnded
  | .blockComment _, '*' :: '/' :: rest, offset, lineEnded =>
    skipGap .blank rest (offset + 2) lineEnded
  | .blockComment start, c :: rest, offset, lineEnded =>
    skipGap (.blockComment start) rest (offset + c.utf8Size) (lineEnded || isLineEnd c)
  | .blockComment start, [], offset, lineEnded => ⟨⟨[], offset⟩, lineEnded, some start⟩
  | _, [], offset, lineEnded => ⟨⟨[], offset⟩, lineEnded, none⟩

/-- The cursor behind a first line that begins with `#!`. -/
def skipInterpreterLine (t : Text) : Cursor :=
  match t with
  | '#' :: '!' :: rest => ((⟨rest, 2⟩ : Cursor).run fun c => !isLineEnd c).2
  | t => ⟨t, 0⟩

end Retouch.Script

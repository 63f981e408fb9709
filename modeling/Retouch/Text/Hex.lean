import Retouch.Text.Basic

/-!
# Hexadecimal digits and surrogates

Escapes name characters by the hexadecimal digits of a code point, or of the two surrogates that
stand for one above `0xffff`.
-/

namespace Retouch.Text

/-- The value of a hexadecimal digit. -/
def hexValue? (c : Char) : Option Nat :=
  if c.isDigit then some (c.toNat - 48)
  else if 'a' ≤ c && c ≤ 'f' then some (c.toNat - 87)
  else if 'A' ≤ c && c ≤ 'F' then some (c.toNat - 55)
  else none

/-- The number that hexadecimal digits make. -/
def hexNumber? (digits : Text) : Option Nat :=
  digits.foldlM (fun acc c => (hexValue? c).map (acc * 16 + ·)) 0

/-- Two hexadecimal digits at the beginning of a text, and the rest. -/
def readHex2 : Text → Option (Nat × Text)
  | a :: b :: rest => (hexNumber? [a, b]).map fun n => (n, rest)
  | _ => none

/-- Four hexadecimal digits at the beginning of a text, and the rest. -/
def readHex4 : Text → Option (Nat × Text)
  | a :: b :: c :: d :: rest => (hexNumber? [a, b, c, d]).map fun n => (n, rest)
  | _ => none

/-- Whether a code unit is the first half of a pair. -/
def isHighSurrogate (n : Nat) : Bool := 0xd800 ≤ n && n < 0xdc00

/-- Whether a code unit is the second half of a pair. -/
def isLowSurrogate (n : Nat) : Bool := 0xdc00 ≤ n && n < 0xe000

/-- The character that a pair of surrogates stands for. -/
def ofSurrogates (high low : Nat) : Char :=
  Char.ofNat (0x10000 + (high - 0xd800) * 0x400 + (low - 0xdc00))

example : readHex4 "00e9x".toList = some (0xe9, ['x']) := by decide
example : ofSurrogates 0xd83d 0xde00 = '😀' := by decide

end Retouch.Text

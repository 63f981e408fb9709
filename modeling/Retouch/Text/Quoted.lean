import Retouch.Text.Basic
import Retouch.Text.Printable

/-!
# Texts quoted in messages

A text shown in a message stands between double quotes. Quotes and backslashes in it get a
backslash, line breaks, tabs and NUL have short escapes, and a character that does not print is
shown by its code point.
-/

namespace Retouch.Text

/-- The lowercase hexadecimal digits of a number, without leading zeros. -/
def hex (n : Nat) : Text := Nat.toDigits 16 n

/-- How one character of a quoted text is shown. -/
def showChar (c : Char) : Text :=
  match c with
  | '"' => ['\\', '"']
  | '\\' => ['\\', '\\']
  | '\n' => ['\\', 'n']
  | '\r' => ['\\', 'r']
  | '\t' => ['\\', 't']
  | '\x00' => ['\\', '0']
  | c => if isPrintable c then [c] else ['\\', 'u', '\x7b'] ++ hex c.toNat ++ ['\x7d']

/-- The text as a message quotes it. -/
def quoted (t : Text) : Text := '"' :: t.flatMap showChar ++ ['"']

example : quoted "it's \"x\"\n".toList = "\"it's \\\"x\\\"\\n\"".toList := by decide
example : quoted ['a', '\x07'] = "\"a\\u\x7b7\x7d\"".toList := by decide

end Retouch.Text

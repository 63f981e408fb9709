import Retouch.Decimal.Layout

/-!
# JSON values

Values as they are written: numbers keep their literals and objects their fields in order, a
repeated name included. `Json.write` is the compact text of a value.
-/

namespace Retouch

open Decimal (Literal)

/-- A JSON value. -/
inductive Json where
  | null
  | bool (value : Bool)
  | number (literal : Literal)
  | string (text : Text)
  /-- A string with an escape that stands for no character, half of a surrogate pair, or an object
  that has such a name. -/
  | unreadable
  | array (items : List Json)
  | object (fields : List (Text × Json))

namespace Json

/-- The two spellings of truth. -/
def word (b : Bool) : Text := if b then ['t', 'r', 'u', 'e'] else ['f', 'a', 'l', 's', 'e']

/-- A hexadecimal digit. -/
def hexDigit (n : Nat) : Char := Nat.digitChar (n % 16)

/-- How one character of a string is written: a quote and a backslash get a backslash, controls an
escape, all others stand for themselves. -/
def writeChar (c : Char) : Text :=
  if c = '"' then ['\\', '"']
  else if c = '\\' then ['\\', '\\']
  else if c = '\x08' then ['\\', 'b']
  else if c = '\x0c' then ['\\', 'f']
  else if c = '\n' then ['\\', 'n']
  else if c = '\r' then ['\\', 'r']
  else if c = '\t' then ['\\', 't']
  else if c.toNat < 0x20 then ['\\', 'u', '0', '0', hexDigit (c.toNat / 16), hexDigit c.toNat]
  else [c]

/-- A string literal. -/
def writeString (t : Text) : Text := '"' :: t.flatMap writeChar ++ ['"']

mutual

/-- The compact text of a value. -/
def write : Json → Text
  | null => ['n', 'u', 'l', 'l']
  | bool b => word b
  | number literal => literal.write
  | string text => writeString text
  | unreadable => writeString []
  | array items => '[' :: writeItems items ++ [']']
  | object fields => '\x7b' :: writeFields fields ++ ['\x7d']

/-- Values with commas between them. -/
def writeItems : List Json → Text
  | [] => []
  | [v] => write v
  | v :: w :: rest => write v ++ ',' :: writeItems (w :: rest)

/-- Fields with commas between them. -/
def writeFields : List (Text × Json) → Text
  | [] => []
  | [(name, v)] => writeString name ++ ':' :: write v
  | (name, v) :: w :: rest => writeString name ++ ':' :: write v ++ ',' :: writeFields (w :: rest)

end

/-- A whole number. -/
def ofNat (n : Nat) : Json := number (.ofNat n)

/-- A float, with the fewest digits that read back; null if it is not finite. -/
def ofFloat (x : Float) : Json :=
  match Decimal.Layout.json.literal? x with
  | some literal => number literal
  | none => null

/-- A value or null. -/
def ofOption {α : Type} (encode : α → Json) : Option α → Json
  | none => null
  | some a => encode a

mutual

/-- How deep arrays and objects are nested in a value. -/
def depth : Json → Nat
  | array items => depthItems items + 1
  | object fields => depthFields fields + 1
  | _ => 0

/-- The greatest depth of some values. -/
def depthItems : List Json → Nat
  | [] => 0
  | v :: rest => max (depth v) (depthItems rest)

/-- The greatest depth of the values of some fields. -/
def depthFields : List (Text × Json) → Nat
  | [] => 0
  | (_, v) :: rest => max (depth v) (depthFields rest)

end

mutual

/-- Whether every number and string in a value can be read. -/
def readable : Json → Bool
  | number literal => literal.toInt?.isSome || literal.toFloat?.isSome
  | unreadable => false
  | array items => readableItems items
  | object fields => readableFields fields
  | _ => true

/-- Whether every one of some values can be read. -/
def readableItems : List Json → Bool
  | [] => true
  | v :: rest => readable v && readableItems rest

/-- Whether the value of every one of some fields can be read. -/
def readableFields : List (Text × Json) → Bool
  | [] => true
  | (_, v) :: rest => readable v && readableFields rest

end

mutual

/-- The value in which each object has every name once, with the value given last. -/
def lastWins : Json → Json
  | array items => array (lastWinsItems items)
  | object fields => object (lastWinsFields fields)
  | v => v

/-- The rule of `lastWins` for each of some values. -/
def lastWinsItems : List Json → List Json
  | [] => []
  | v :: rest => lastWins v :: lastWinsItems rest

/-- The rule of `lastWins` for the fields of an object. -/
def lastWinsFields : List (Text × Json) → List (Text × Json)
  | [] => []
  | (name, v) :: rest =>
    if rest.any fun field => field.1 == name then lastWinsFields rest
    else (name, lastWins v) :: lastWinsFields rest

end

end Json

end Retouch

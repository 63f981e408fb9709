import Retouch.Script.Gap
import Retouch.Script.Word

/-!
# Literals

The bodies of strings, templates and regular expressions, each from behind its first sign up to its
last.
-/

namespace Retouch.Script

open Text

/-! ## Units of strings -/

/-- A code unit of a string: a character, or half of a surrogate pair. -/
inductive Unit16 where
  | char (c : Char)
  | half (n : Nat)
deriving DecidableEq

/-- The text of a string. A half of a pair is shown as the replacement character and its four
digits; in a string with one, so is the replacement character itself. -/
def textOfUnits (units : List Unit16) : Text :=
  let shown := fun n => '\ufffd' :: Nat.toDigits 16 n
  if units.any fun u => match u with | .half _ => true | .char _ => false then
    units.flatMap fun u => match u with
      | .half n => shown n
      | .char c => if c == '\ufffd' then shown 0xfffd else [c]
  else units.filterMap fun u => match u with | .half _ => none | .char c => some c

/-- The unit of a code point. -/
def unitOf (n : Nat) : Unit16 :=
  if isHighSurrogate n || isLowSurrogate n then .half n else .char (Char.ofNat n)

/-! ## Escapes -/

/-- The unit of an escape behind `\u`, and how many characters spell it. Two escapes of four digits
each may make one character. -/
def readUnit (t : Text) : Option (Unit16 × Nat) :=
  match readCodePoint t with
  | none => none
  | some (n, length) =>
    match t.head?, t.drop length with
    | some c, '\\' :: 'u' :: after =>
      if c != '\x7b' && isHighSurrogate n then
        match readHex4 after with
        | some (m, _) =>
          if isLowSurrogate m then some (.char (ofSurrogates n m), length + 6)
          else some (unitOf n, length)
        | none => some (unitOf n, length)
      else some (unitOf n, length)
    | _, _ => some (unitOf n, length)

/-- Octal digits behind a backslash: up to three of them, if the value fits in a byte. -/
def readOctal (t : Text) : Nat × Nat :=
  let octal := fun c => '0' ≤ c && c ≤ '7'
  let value := fun digits : Text => digits.foldl (fun acc c => acc * 8 + (c.toNat - 48)) 0
  match t with
  | a :: b :: c :: _ =>
    if octal b && octal c && a ≤ '3' then (value [a, b, c], 3)
    else if octal b then (value [a, b], 2)
    else (value [a], 1)
  | [a, b] => if octal b then (value [a, b], 2) else (value [a], 1)
  | [a] => (value [a], 1)
  | [] => (0, 0)

/-- The character that a letter behind a backslash stands for. -/
def letterEscape (c : Char) : Char :=
  match c with
  | 'b' => '\x08'
  | 'f' => '\x0c'
  | 'n' => '\n'
  | 'r' => '\r'
  | 't' => '\t'
  | 'v' => '\x0b'
  | c => c

/-- What an escape stands for, and how many characters behind its backslash spell it; none if it is
malformed. -/
def readEscape (t : Text) : Option (List Unit16 × Nat) :=
  match t with
  | [] => none
  | '\r' :: '\n' :: _ => some ([], 2)
  | 'x' :: rest => (readHex2 rest).map fun (n, _) => ([unitOf n], 3)
  | 'u' :: rest => (readUnit rest).map fun (u, length) => ([u], length + 1)
  | c :: _ =>
    if isLineEnd c then some ([], 1)
    else if '0' ≤ c && c ≤ '7' then
      let (n, length) := readOctal t
      some ([unitOf n], length)
    else some ([.char (letterEscape c)], 1)

/-! ## Strings -/

/-- The body of a string: its units, whether all its escapes are sound, and the cursor behind its
last quote. -/
structure Quoted where
  units : List Unit16
  sound : Bool
  behind : Cursor

namespace Quoted

/-- A body with more units before it. -/
def cons (units : List Unit16) (q : Quoted) : Quoted := { q with units := units ++ q.units }

/-- A body with an unsound escape before it. -/
def unsound (q : Quoted) : Quoted := { q with sound := false }

end Quoted

/-- The body of a string up to its quote, of which `covered` characters belong to an escape that was
read already. None if the line or the text ends first. -/
def readQuoted (quote : Char) : (covered : Nat) → Text → (offset : Nat) → Option Quoted
  | _, [], _ => none
  | covered + 1, c :: rest, offset => readQuoted quote covered rest (offset + c.utf8Size)
  | 0, c :: rest, offset =>
    let next := offset + c.utf8Size
    if c == quote then some ⟨[], true, ⟨rest, next⟩⟩
    else if c == '\\' then
      match readEscape rest with
      | some (units, length) => (readQuoted quote length rest next).map (Quoted.cons units)
      | none => (readQuoted quote 0 rest next).map Quoted.unsound
    else if c == '\n' || c == '\r' then none
    else (readQuoted quote 0 rest next).map (Quoted.cons [.char c])

/-! ## Templates -/

/-- A part of a template: whether it ends the template, whether all its escapes are sound, and the
cursor behind it. -/
structure TemplatePart where
  toEnd : Bool
  sound : Bool
  behind : Cursor

/-- Whether an escape is not for templates: one by octal digits. -/
def isOctalEscape : Text → Bool
  | '0' :: d :: _ => d.isDigit
  | d :: _ => d.isDigit && d != '0'
  | [] => false

/-- A template up to its end or the next substitution, of which `covered` characters belong to an
escape that was read already. -/
def readTemplate : (covered : Nat) → Text → (offset : Nat) → Option TemplatePart
  | _, [], _ => none
  | covered + 1, c :: rest, offset => readTemplate covered rest (offset + c.utf8Size)
  | 0, '$' :: '\x7b' :: rest, offset => some ⟨false, true, ⟨rest, offset + 2⟩⟩
  | 0, c :: rest, offset =>
    let next := offset + c.utf8Size
    if c == '\x60' then some ⟨true, true, ⟨rest, next⟩⟩
    else if c == '\\' then
      match readEscape rest with
      | some (_, length) =>
        (readTemplate length rest next).map fun part =>
          { part with sound := part.sound && !isOctalEscape rest }
      | none => (readTemplate 0 rest next).map fun part => { part with sound := false }
    else readTemplate 0 rest next

/-! ## Regular expressions -/

/-- The cursor behind a regular expression up to its slash. A slash in brackets or behind a backslash
does not end it, and the end of the line does not belong to it. -/
def readRegex : (inClass escaped : Bool) → Text → (offset : Nat) → Option Cursor
  | _, _, [], _ => none
  | inClass, escaped, c :: rest, offset =>
    let next := offset + c.utf8Size
    if isLineEnd c then none
    else if escaped then readRegex inClass false rest next
    else if c == '\\' then readRegex inClass true rest next
    else if c == '/' && !inClass then some ⟨rest, next⟩
    else if c == '[' then readRegex true false rest next
    else if c == ']' then readRegex false false rest next
    else readRegex inClass false rest next

/-- Whether the letters behind a regular expression are flags, none of them twice. -/
def flagsSound (flags : Text) : Bool :=
  flags.all (fun c => "dgimsuvy".toList.contains c) && flags.Nodup

end Retouch.Script

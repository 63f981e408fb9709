import Retouch.Json.Value
import Retouch.Text.Hex

/-!
# Reading JSON

`Json.parse?` reads strict JSON: one value with blanks around it and nothing else. Strings hold no
raw control characters, numbers no superfluous zeros. Main statement: a string that was written is
read back, whatever follows it (`readString_flatMap_writeChar`).
-/

namespace Retouch.Json

open Decimal (Literal)
open Text (hexNumber? readHex4 isHighSurrogate isLowSurrogate ofSurrogates)

/-- The blanks that may stand between the tokens of JSON. -/
def isSpace (c : Char) : Bool := c == ' ' || c == '\t' || c == '\n' || c == '\r'

/-- A text without the blanks it begins with. -/
def skipSpace (t : Text) : Text := t.dropWhile isSpace

/-! ## Numbers -/

/-- The digits that a text begins with, and the rest. -/
def readDigits (t : Text) : List Nat × Text :=
  ((t.takeWhile Char.isDigit).map fun c => c.toNat - 48, t.dropWhile Char.isDigit)

/-- The digits before the point: a zero, or digits that do not begin with one. -/
def readWhole : Text → Option (List Nat × Text)
  | '0' :: rest => if (rest.head?.map Char.isDigit).getD false then none else some ([0], rest)
  | t => match readDigits t with
    | ([], _) => none
    | (digits, rest) => some (digits, rest)

/-- A point and the digits after it, if there is a point. -/
def readFraction : Text → Option (Option (List Nat) × Text)
  | '.' :: rest => match readDigits rest with
    | ([], _) => none
    | (digits, rest) => some (some digits, rest)
  | t => some (none, t)

/-- The number that digits make. -/
def numberOf (digits : List Nat) : Nat := digits.foldl (fun acc d => acc * 10 + d) 0

/-- An exponent, if there is one. -/
def readExponent : Text → Option (Option Int × Text)
  | c :: rest =>
    if c == 'e' || c == 'E' then
      let (negative, rest) := match rest with
        | '+' :: rest => (false, rest)
        | '-' :: rest => (true, rest)
        | rest => (false, rest)
      match readDigits rest with
      | ([], _) => none
      | (digits, rest) =>
        let n : Int := numberOf digits
        some (some (if negative then -n else n), rest)
    else some (none, c :: rest)
  | [] => some (none, [])

/-- A number literal at the beginning of a text, and the rest. -/
def readNumber (t : Text) : Option (Literal × Text) := do
  let (negative, t) := match t with
    | '-' :: rest => (true, rest)
    | t => (false, t)
  let (whole, t) ← readWhole t
  let (fraction, t) ← readFraction t
  let (exponent, t) ← readExponent t
  return (⟨negative, whole, fraction, exponent⟩, t)

/-! ## Strings -/

/-- The characters of escapes of one letter. -/
def simpleEscape? : Char → Option Char
  | '"' => some '"'
  | '\\' => some '\\'
  | '/' => some '/'
  | 'b' => some '\x08'
  | 'f' => some '\x0c'
  | 'n' => some '\n'
  | 'r' => some '\r'
  | 't' => some '\t'
  | _ => none

/-- What stands behind `\u`: a character, or none for half of a surrogate pair, and the rest. -/
def readUnicode (t : Text) : Option (Option Char × Text) := do
  let (n, rest) ← readHex4 t
  if isHighSurrogate n then
    match rest with
    | '\\' :: 'u' :: after =>
      let (m, behind) ← readHex4 after
      if isLowSurrogate m then return (some (ofSurrogates n m), behind)
      else return (none, rest)
    | _ => return (none, rest)
  else if isLowSurrogate n then return (none, rest)
  else return (some (Char.ofNat n), rest)

/-- The rest of a string literal behind its first quote: the text, none if an escape stands for no
character, and what follows the literal. -/
def readString : (fuel : Nat) → Text → Option (Option Text × Text)
  | 0, _ => none
  | _ + 1, [] => none
  | fuel + 1, c :: rest =>
    if c == '"' then some (some [], rest)
    else if c == '\\' then
      match rest with
      | 'u' :: rest => do
        let (d, rest) ← readUnicode rest
        let (text, rest) ← readString fuel rest
        return ((fun d text => d :: text) <$> d <*> text, rest)
      | e :: rest => do
        let d ← simpleEscape? e
        let (text, rest) ← readString fuel rest
        return (text.map (d :: ·), rest)
      | [] => none
    else if c.toNat < 0x20 then none
    else do
      let (text, rest) ← readString fuel rest
      return (text.map (c :: ·), rest)

/-! ### Written strings are read back -/

/-- The digits written for a control character are those of its code point. -/
theorem hexNumber?_hexDigit : ∀ n < 0x20,
    hexNumber? ['0', '0', hexDigit (n / 16), hexDigit n] = some n := by decide

/-- The escape written for a control character is read as that character. -/
theorem readUnicode_hexDigit {c : Char} (h : c.toNat < 0x20) (t : Text) :
    readUnicode ('0' :: '0' :: hexDigit (c.toNat / 16) :: hexDigit c.toNat :: t)
      = some (some c, t) := by
  have hhigh : isHighSurrogate c.toNat = false := by simp [isHighSurrogate]; omega
  have hlow : isLowSurrogate c.toNat = false := by simp [isLowSurrogate]; omega
  simp [readUnicode, readHex4, hexNumber?_hexDigit _ h, hhigh, hlow]

/-- An escape of one letter is read as the character that it stands for. -/
theorem readString_escape (fuel : Nat) {e c : Char} (h : simpleEscape? e = some c) (t : Text) :
    readString (fuel + 1) ('\\' :: e :: t)
      = (readString fuel t).map fun (text, rest) => (text.map (c :: ·), rest) := by
  have hu : e ≠ 'u' := by rintro rfl; simp [simpleEscape?] at h
  simp only [readString]
  split
  · contradiction
  · rcases readString fuel t with _ | ⟨text, rest⟩ <;> simp [h]

/-- How a character stands in a string literal: as an escape of one letter, by its number, or as it
is. -/
inductive StandsFor (c : Char) : Text → Prop where
  | letter {e : Char} (escape : simpleEscape? e = some c) : StandsFor c ['\\', e]
  | number (control : c.toNat < 0x20) :
      StandsFor c ['\\', 'u', '0', '0', hexDigit (c.toNat / 16), hexDigit c.toNat]
  | plain (quote : c ≠ '"') (backslash : c ≠ '\\') (printed : 0x20 ≤ c.toNat) : StandsFor c [c]

/-- What is written for a character stands for it. -/
theorem standsFor_writeChar (c : Char) : StandsFor c (writeChar c) := by
  unfold writeChar
  split
  · subst c; exact .letter rfl
  split
  · subst c; exact .letter rfl
  split
  · subst c; exact .letter rfl
  split
  · subst c; exact .letter rfl
  split
  · subst c; exact .letter rfl
  split
  · subst c; exact .letter rfl
  split
  · subst c; exact .letter rfl
  split
  · next h => exact .number h
  · next hquote hback _ _ _ _ _ h => exact .plain hquote hback (Nat.le_of_not_lt h)

section StandsFor

variable {c : Char} {shown : Text}

theorem StandsFor.length_pos (h : StandsFor c shown) : 1 ≤ shown.length := by
  cases h with
  | letter => exact Nat.succ_pos _
  | number => exact Nat.succ_pos _
  | plain => exact Nat.succ_pos _

/-- No control character stands in a string literal. -/
theorem StandsFor.le_of_mem (h : StandsFor c shown) {d : Char} (hd : d ∈ shown) : 0x20 ≤ d.toNat := by
  have hbackslash : 0x20 ≤ ('\\' : Char).toNat := by decide
  cases h with
  | @letter e escape =>
    have he : 0x20 ≤ e.toNat := by
      unfold simpleEscape? at escape
      split at escape
      all_goals first | decide | cases escape
    simp only [List.mem_cons, List.not_mem_nil, or_false] at hd
    rcases hd with rfl | rfl
    · exact hbackslash
    · exact he
  | number control =>
    have hhex : ∀ n : Nat, 0x20 ≤ (hexDigit n).toNat := by
      intro n
      have hall : ∀ m < 16, 0x20 ≤ (Nat.digitChar m).toNat := by decide
      exact hall (n % 16) (Nat.mod_lt n (by decide))
    simp only [List.mem_cons, List.not_mem_nil, or_false] at hd
    rcases hd with rfl | rfl | rfl | rfl | rfl | rfl
    · exact hbackslash
    · decide
    · decide
    · decide
    · exact hhex _
    · exact hhex _
  | plain quote backslash printed => exact List.mem_singleton.1 hd ▸ printed

end StandsFor

/-- What stands for a character is read as that character. -/
theorem readString_standsFor (fuel : Nat) {c : Char} {shown : Text} (h : StandsFor c shown) (t : Text) :
    readString (fuel + 1) (shown ++ t)
      = (readString fuel t).map fun (text, rest) => (text.map (c :: ·), rest) := by
  cases h with
  | letter escape => exact readString_escape fuel escape t
  | number control =>
    simp only [List.cons_append, List.nil_append, readString]
    rw [readUnicode_hexDigit control]
    rcases hr : readString fuel t with _ | ⟨_ | text, rest⟩ <;>
      simp only [Option.bind_eq_bind, Option.bind_some, hr] <;> rfl
  | plain quote backslash printed =>
    rcases hr : readString fuel t with _ | ⟨text, rest⟩ <;>
      simp [readString, quote, backslash, Nat.not_lt.2 printed, hr]

/-- A written string is read back. -/
theorem readString_flatMap_writeChar (t rest : Text) {fuel : Nat} (h : t.length < fuel) :
    readString fuel (t.flatMap writeChar ++ '"' :: rest) = some (some t, rest) := by
  induction t generalizing fuel with
  | nil =>
    obtain ⟨n, rfl⟩ : ∃ n, fuel = n + 1 := ⟨fuel - 1, by omega⟩
    simp [readString]
  | cons c t ih =>
    obtain ⟨n, rfl⟩ : ∃ n, fuel = n + 1 := ⟨fuel - 1, by simp at h; omega⟩
    rw [List.flatMap_cons, List.append_assoc, readString_standsFor n (standsFor_writeChar c),
      ih (by simpa using h)]
    rfl

/-! ## Values -/

/-- What follows `expected` in a text that begins with it. -/
def after? : (expected : Text) → Text → Option Text
  | [], t => some t
  | _ :: _, [] => none
  | c :: expected, d :: t => if c == d then after? expected t else none

mutual

/-- A value at the beginning of a text, blanks before it skipped, and the rest. -/
def readValue : (fuel : Nat) → Text → Option (Json × Text)
  | 0, _ => none
  | fuel + 1, t =>
    match skipSpace t with
    | [] => none
    | c :: rest =>
      if c == 'n' then (after? ['u', 'l', 'l'] rest).map fun rest => (null, rest)
      else if c == 't' then (after? ['r', 'u', 'e'] rest).map fun rest => (bool true, rest)
      else if c == 'f' then (after? ['a', 'l', 's', 'e'] rest).map fun rest => (bool false, rest)
      else if c == '"' then do
        let (text, rest) ← readString (rest.length + 1) rest
        return (match text with | some text => string text | none => unreadable, rest)
      else if c == '[' then
        match skipSpace rest with
        | ']' :: rest => some (array [], rest)
        | rest => do
          let (items, rest) ← readItems fuel rest
          return (array items, rest)
      else if c == '\x7b' then
        match skipSpace rest with
        | '\x7d' :: rest => some (object [], rest)
        | rest => do
          let (fields, rest) ← readFields fuel rest
          return (match fields with | some fields => object fields | none => unreadable, rest)
      else (readNumber (c :: rest)).map fun (literal, rest) => (number literal, rest)

/-- The items of an array behind its bracket, at least one, and what follows the array. -/
def readItems : (fuel : Nat) → Text → Option (List Json × Text)
  | 0, _ => none
  | fuel + 1, t => do
    let (v, rest) ← readValue fuel t
    match skipSpace rest with
    | ']' :: rest => return ([v], rest)
    | ',' :: rest => do
      let (items, rest) ← readItems fuel rest
      return (v :: items, rest)
    | _ => none

/-- The fields of an object behind its brace, at least one, none if an escape in a name stands for
no character, and what follows the object. -/
def readFields : (fuel : Nat) → Text → Option (Option (List (Text × Json)) × Text)
  | 0, _ => none
  | fuel + 1, t =>
    match skipSpace t with
    | '"' :: rest => do
      let (name, rest) ← readString (rest.length + 1) rest
      let rest ← after? [':'] (skipSpace rest)
      let (v, rest) ← readValue fuel rest
      match skipSpace rest with
      | '\x7d' :: rest => return (name.map fun name => [(name, v)], rest)
      | ',' :: rest => do
        let (fields, rest) ← readFields fuel rest
        return ((fun name fields => (name, v) :: fields) <$> name <*> fields, rest)
      | _ => none
    | _ => none

end

/-- The value that a text holds, blanks around it allowed. -/
def parse? (t : Text) : Option Json := do
  let (v, rest) ← readValue (t.length + 1) t
  if (skipSpace rest).isEmpty then return v else none

end Retouch.Json

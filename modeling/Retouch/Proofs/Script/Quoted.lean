import Retouch.Json.Reader
import Retouch.Script.Scanner

/-!
# String literals of data are string literals of scripts

A string literal of data holds for each character of its text what stands for it (`Json.BodyOf`), as
`Json.writeString` writes it or with other escapes. In a script the same characters are a string literal
with the same value: `scanToken_literal`.
-/

namespace Retouch

/-! ## What stands for a text -/

namespace Json

/-- Whether a text stands between the quotes of a literal: what stands for each character, one after
the other. -/
inductive BodyOf : Text → Text → Prop where
  | nil : BodyOf [] []
  | cons {c : Char} {shown t body : Text} (first : StandsFor c shown) (rest : BodyOf t body) :
      BodyOf (c :: t) (shown ++ body)

/-- What is written for a text stands between the quotes of its literal. -/
theorem bodyOf_flatMap_writeChar (t : Text) : BodyOf t (t.flatMap writeChar) := by
  induction t with
  | nil => exact .nil
  | cons c t ih => exact .cons (standsFor_writeChar c) ih

/-- No control character stands between the quotes. -/
theorem BodyOf.le_of_mem {t body : Text} (h : BodyOf t body) {d : Char} (hd : d ∈ body) :
    0x20 ≤ d.toNat := by
  induction h with
  | nil => cases hd
  | cons first rest ih => exact (List.mem_append.1 hd).elim first.le_of_mem ih

end Json

namespace Script

open Text

/-! ## Escapes -/

/-- The escapes of one letter in data are escapes of a script, with the same characters. -/
theorem readEscape_letter {e c : Char} (h : Json.simpleEscape? e = some c) (rest : Text) :
    readEscape (e :: rest) = some ([.char c], 1) := by
  unfold Json.simpleEscape? at h
  split at h
  all_goals cases h
  all_goals rfl

/-- The escape of a control character is read as that character. -/
theorem readEscape_control {c : Char} (h : c.toNat < 0x20) (rest : Text) :
    readEscape ('u' :: '0' :: '0' :: Json.hexDigit (c.toNat / 16) :: Json.hexDigit c.toNat :: rest)
      = some ([.char c], 5) := by
  have hhigh : isHighSurrogate c.toNat = false := by simp [isHighSurrogate]; omega
  have hlow : isLowSurrogate c.toNat = false := by simp [isLowSurrogate]; omega
  have hpoint : readCodePoint ('0' :: '0' :: Json.hexDigit (c.toNat / 16) :: Json.hexDigit c.toNat :: rest)
      = some (c.toNat, 4) := by
    simp [readCodePoint, readHex4, Json.hexNumber?_hexDigit _ h]
  have hunit : readUnit ('0' :: '0' :: Json.hexDigit (c.toNat / 16) :: Json.hexDigit c.toNat :: rest)
      = some (.char c, 4) := by
    rw [readUnit, hpoint]
    simp only [List.head?_cons, hhigh, Bool.and_false]
    split <;> simp [unitOf, hhigh, hlow]
  simp [readEscape, hunit]

/-- What stands for a character in data is read as that character in a script. -/
theorem readQuoted_standsFor {c : Char} {shown : Text} (h : Json.StandsFor c shown) (rest : Text)
    (offset : Nat) :
    readQuoted '"' 0 (shown ++ rest) offset
      = (readQuoted '"' 0 rest (offset + byteLength shown)).map (Quoted.cons [.char c]) := by
  cases h with
  | letter escape =>
    simp only [List.cons_append, List.nil_append]
    rw [readQuoted, if_neg (by decide), if_pos (by decide), readEscape_letter escape]
    simp only [readQuoted, byteLength_cons, byteLength_nil, Nat.add_zero, Nat.add_assoc]
  | number control =>
    simp only [List.cons_append, List.nil_append]
    rw [readQuoted, if_neg (by decide), if_pos (by decide), readEscape_control control]
    simp only [readQuoted, byteLength_cons, byteLength_nil, Nat.add_zero, Nat.add_assoc]
  | plain quote backslash printed =>
    have hline : (c == '\n' || c == '\r') = false := by
      rw [Bool.or_eq_false_iff, beq_eq_false_iff_ne, beq_eq_false_iff_ne]
      constructor
      · rintro rfl
        exact absurd printed (by decide)
      · rintro rfl
        exact absurd printed (by decide)
    rw [List.singleton_append, readQuoted, beq_eq_false_iff_ne.2 quote,
      beq_eq_false_iff_ne.2 backslash, hline]
    simp

/-! ## Strings -/

/-- What stands between the quotes of a literal is read up to its last quote. -/
theorem readQuoted_body {t body : Text} (h : Json.BodyOf t body) (rest : Text) (offset : Nat) :
    readQuoted '"' 0 (body ++ '"' :: rest) offset
      = some ⟨t.map .char, true, ⟨rest, offset + byteLength body + 1⟩⟩ := by
  induction h generalizing offset with
  | nil => rfl
  | cons first others ih =>
    rw [List.append_assoc, readQuoted_standsFor first, ih, byteLength_append]
    simp [Quoted.cons, Nat.add_assoc]

/-- The text of units that are characters. -/
theorem textOfUnits_map_char (t : Text) : textOfUnits (t.map .char) = t := by
  rw [textOfUnits, if_neg (by simp), List.filterMap_map]
  exact List.filterMap_some

/-- A double quote begins a string. -/
theorem scanToken_quote (body : Text) (offset : Nat) (lineEnded : Bool) :
    scanToken .code ⟨'"' :: body, offset⟩ lineEnded
      = match readQuoted '"' 0 body (offset + 1) with
        | some string => .of (.string (textOfUnits string.units))
            (if string.sound then [] else [⟨offset, .invalidEscape⟩]) lineEnded false
            ⟨'"' :: body, offset⟩ string.behind
        | none => .broken .unterminatedString [] lineEnded ⟨'"' :: body, offset⟩ := by
  have hword : (isIdentifierStart '"' || '"' == '\\') = false := by decide
  have hdigit : ∀ next : Option Char, ('"'.isDigit || ('"' == '.' && (next.map Char.isDigit).getD false))
      = false := fun _ => rfl
  rw [scanToken]
  simp only [hword, hdigit, Bool.false_eq_true, if_false]
  rw [if_pos (by decide), if_neg (by decide)]
  rfl

/-- **A string literal of data is one of a script**, and has the same value. -/
theorem scanToken_literal {t body : Text} (h : Json.BodyOf t body) (rest : Text) (offset : Nat)
    (lineEnded : Bool) :
    scanToken .code ⟨'"' :: body ++ ['"'] ++ rest, offset⟩ lineEnded
      = .of (.string t) [] lineEnded false ⟨'"' :: body ++ ['"'] ++ rest, offset⟩
          ⟨rest, offset + byteLength ('"' :: body ++ ['"'])⟩ := by
  have hlength : offset + 1 + byteLength body + 1 = offset + byteLength ('"' :: body ++ ['"']) := by
    simp only [byteLength_append, byteLength_cons, byteLength_nil]
    have : ('"' : Char).utf8Size = 1 := rfl
    omega
  have hspelt : '"' :: body ++ ['"'] ++ rest = '"' :: (body ++ '"' :: rest) := by simp
  rw [hspelt, scanToken_quote, readQuoted_body h]
  dsimp only
  rw [textOfUnits_map_char, if_pos rfl, hlength]

end Script

end Retouch

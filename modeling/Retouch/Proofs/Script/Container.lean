import Retouch.Proofs.Script.Quoted

/-!
# Objects of strings in braces

What the value of an attribute says if it is an object in braces whose properties are strings in double
quotes: `readContainer?` reads it token by token and gives the names and the values of the properties.

`readContainer?_writeContainer` says what is read of such an object when the values stand between
their quotes as they are. A value without quotes and backslashes is read as itself, unless a line ends
in it: then the literal has no end and there is no object.
-/

namespace Retouch.Script

open Text

/-! ## Reading -/

/-- The cursor behind a mark, if that is the next token. -/
def readMark? (mark : Punct) (c : Cursor) : Option Cursor :=
  let s := scan .code c
  if s.token.kind = .punct mark ∧ s.token.faults = [] then some s.after else none

/-- The next token as a name, and the cursor behind it. -/
def readName? (c : Cursor) : Option (Text × Cursor) :=
  let s := scan .code c
  match s.token.kind with
  | .name name => if s.token.faults = [] then some (name, s.after) else none
  | _ => none

/-- The value of the next token as a string in double quotes, and the cursor behind it. -/
def readString? (c : Cursor) : Option (Text × Cursor) :=
  let s := scan .code c
  match s.token.kind with
  | .string value =>
    if s.atToken.head? = some '"' ∧ s.token.faults = [] then some (value, s.after) else none
  | _ => none

/-- A property: its name and its value. -/
def readProperty? (c : Cursor) : Option ((Text × Text) × Cursor) := do
  let (name, c) ← readName? c
  let c ← readMark? .colon c
  let (value, c) ← readString? c
  return ((name, value), c)

/-- Properties with commas between them, at most `fuel`. -/
def readProperties? : (fuel : Nat) → Cursor → Option (List (Text × Text) × Cursor)
  | 0, _ => none
  | fuel + 1, c => do
    let (property, c) ← readProperty? c
    match readMark? .comma c with
    | none => return ([property], c)
    | some c =>
      let (others, c) ← readProperties? fuel c
      return (property :: others, c)

/-- An object of strings in braces: its properties in order, and the cursor behind it. -/
def readContainer? (c : Cursor) : Option (List (Text × Text) × Cursor) := do
  let c ← readMark? .braceOpen c
  let c ← readMark? .braceOpen c
  let (properties, c) ← readProperties? c.rest.length c
  let c ← readMark? .braceClose c
  let c ← readMark? .braceClose c
  return (properties, c)

/-! ## Writing -/

/-- A property with its value as it is between quotes. -/
def writeProperty (property : Text × Text) : Text :=
  property.1 ++ [':', ' ', '"'] ++ property.2 ++ ['"']

/-- Properties with a comma and a blank between them. -/
def writeProperties : List (Text × Text) → Text
  | [] => []
  | [property] => writeProperty property
  | property :: others => writeProperty property ++ [',', ' '] ++ writeProperties others

/-- Properties as an object in braces. -/
def writeContainer (properties : List (Text × Text)) : Text :=
  ['\x7b', '\x7b', ' '] ++ writeProperties properties ++ [' ', '\x7d', '\x7d']

/-- Whether a character ends the line that a string stands in. -/
def endsString (c : Char) : Bool := c == '\n' || c == '\r'

/-- A property that can be written as it is, but for line breaks: a name of letters, which is no
keyword, and a value without quotes and backslashes. -/
structure Plain (property : Text × Text) : Prop where
  nonempty : property.1 ≠ []
  letters : ∀ c ∈ property.1, c.isAlpha = true
  name : wordKind property.1 = .name property.1
  quote : '"' ∉ property.2
  backslash : '\\' ∉ property.2

/-! ## Tokens of an object -/

section Tokens

variable (rest : Text) (offset : Nat)

/-- A blank before a token does not change it. -/
theorem readMark?_blank (mark : Punct) :
    readMark? mark ⟨' ' :: rest, offset⟩ = readMark? mark ⟨rest, offset + 1⟩ := rfl

theorem readString?_blank :
    readString? ⟨' ' :: rest, offset⟩ = readString? ⟨rest, offset + 1⟩ := rfl

theorem readProperties?_blank (fuel : Nat) :
    readProperties? fuel ⟨' ' :: rest, offset⟩ = readProperties? fuel ⟨rest, offset + 1⟩ := by
  cases fuel <;> rfl

theorem readMark?_braceOpen :
    readMark? .braceOpen ⟨'\x7b' :: rest, offset⟩ = some ⟨rest, offset + 1⟩ := rfl

theorem readMark?_braceClose :
    readMark? .braceClose ⟨'\x7d' :: rest, offset⟩ = some ⟨rest, offset + 1⟩ := rfl

theorem readMark?_colon : readMark? .colon ⟨':' :: rest, offset⟩ = some ⟨rest, offset + 1⟩ := rfl

theorem readMark?_comma : readMark? .comma ⟨',' :: rest, offset⟩ = some ⟨rest, offset + 1⟩ := rfl

/-- Behind the last property there is no comma. -/
theorem readMark?_comma_braceClose : readMark? .comma ⟨' ' :: '\x7d' :: rest, offset⟩ = none := rfl

end Tokens

/-! ## Names -/

/-- A letter of ASCII begins no gap. -/
theorem skipGap_letter {c : Char} (h : c.isAlpha = true) (rest : Text) (offset : Nat) :
    skipGap .blank (c :: rest) offset false = ⟨⟨c :: rest, offset⟩, false, none⟩ := by
  have hne : ∀ d : Char, d.isAlpha = false → c ≠ d := by
    rintro d hd rfl
    rw [h] at hd
    cases hd
  have hrange : 65 ≤ c.toNat ∧ c.toNat ≤ 122 := by
    have hletter : (decide ('A'.val ≤ c.val ∧ c.val ≤ 'Z'.val)
        || (decide ('a'.val ≤ c.val) && decide (c.val ≤ 'z'.val))) = true := h
    simp only [Bool.or_eq_true, Bool.and_eq_true, decide_eq_true_eq, UInt32.le_iff_toNat_le]
      at hletter
    have hcodes : (65 ≤ c.toNat ∧ c.toNat ≤ 90) ∨ (97 ≤ c.toNat ∧ c.toNat ≤ 122) := hletter
    omega
  have hline : isLineEnd c = false := by simp [isLineEnd, hne]
  have hblank : isInlineBlank c = false := by
    simp [isInlineBlank, hne]
    omega
  rw [skipGap, hline, hblank]
  · rfl
  · rintro _ rfl
    exact absurd rfl (hne '/' rfl)
  · rintro _ rfl
    exact absurd rfl (hne '/' rfl)

/-- A word of letters ends before the first character that cannot belong to it. -/
theorem readWord_letters {letters : Text} (h : ∀ c ∈ letters, c.isAlpha = true) {stop : Char}
    (hstop : isIdentifierPart stop = false) (hbackslash : stop ≠ '\\') (first : Bool) (rest : Text)
    (offset : Nat) : readWord 0 first (letters ++ stop :: rest) offset
      = ⟨letters, false, ⟨stop :: rest, offset + byteLength letters⟩⟩ := by
  induction letters generalizing first offset with
  | nil =>
    have hstart : isIdentifierStart stop = false := by
      cases hstart : isIdentifierStart stop with
      | false => rfl
      | true => rw [isIdentifierPart_of_isIdentifierStart hstart] at hstop; cases hstop
    cases first <;> simp [readWord, hstop, hstart, hbackslash]
  | cons c letters ih =>
    obtain ⟨hc, hletters⟩ := List.forall_mem_cons.1 h
    have hstart : isIdentifierStart c = true := by simp [isIdentifierStart, hc]
    have hpart := isIdentifierPart_of_isIdentifierStart hstart
    rw [List.cons_append]
    unfold readWord
    cases first <;> simp [hstart, hpart, ih hletters, Nat.add_assoc]

/-- The name of a property. -/
theorem readName?_letters {property : Text × Text} (h : Plain property) (rest : Text) (offset : Nat) :
    readName? ⟨property.1 ++ ':' :: rest, offset⟩
      = some (property.1, ⟨':' :: rest, offset + byteLength property.1⟩) := by
  obtain ⟨c, letters, hcons⟩ := List.exists_cons_of_ne_nil h.nonempty
  have hc : c.isAlpha = true := h.letters c (by rw [hcons]; exact List.mem_cons_self)
  have hword := readWord_letters h.letters (show isIdentifierPart ':' = false by decide)
    (by decide) true rest offset
  have hkind := h.name
  rw [hcons] at hword hkind ⊢
  rw [List.cons_append] at hword ⊢
  have hscan : scan .code ⟨c :: (letters ++ ':' :: rest), offset⟩
      = scanToken .code ⟨c :: (letters ++ ':' :: rest), offset⟩ false := by
    unfold scan
    dsimp only
    rw [skipGap_letter hc]
    rfl
  rw [readName?, hscan, scanToken]
  simp [isIdentifierStart, hc, hword, hkind, Scanned.of, Scanned.after]

/-! ## Values -/

/-- What stands between two quotes is read as it is, unless a line ends in it. -/
theorem readQuoted_plain {value : Text} (hquote : '"' ∉ value) (hbackslash : '\\' ∉ value)
    (rest : Text) (offset : Nat) :
    readQuoted '"' 0 (value ++ '"' :: rest) offset
      = if value.any endsString then none
        else some ⟨value.map .char, true, ⟨rest, offset + byteLength value + 1⟩⟩ := by
  induction value generalizing offset with
  | nil => rfl
  | cons c value ih =>
    simp only [List.mem_cons, not_or] at hquote hbackslash
    have hc : (c == '"') = false ∧ (c == '\\') = false := by
      simp [Ne.symm hquote.1, Ne.symm hbackslash.1]
    rw [List.cons_append, readQuoted, hc.1, hc.2]
    cases hends : c == '\n' || c == '\r' with
    | true => simp [endsString, hends]
    | false =>
      rw [List.any_cons, endsString, hends, ih hquote.2 hbackslash.2]
      cases value.any endsString with
      | true => rfl
      | false => simp [Quoted.cons, Nat.add_assoc]

/-- The value of a property. -/
theorem readString?_quote {value : Text} (hquote : '"' ∉ value) (hbackslash : '\\' ∉ value)
    (rest : Text) (offset : Nat) :
    readString? ⟨'"' :: (value ++ '"' :: rest), offset⟩
      = if value.any endsString then none
        else some (value, ⟨rest, offset + byteLength value + 2⟩) := by
  have hscan : scan .code ⟨'"' :: (value ++ '"' :: rest), offset⟩
      = scanToken .code ⟨'"' :: (value ++ '"' :: rest), offset⟩ false := rfl
  rw [readString?, hscan, scanToken_quote, readQuoted_plain hquote hbackslash]
  cases hends : value.any endsString with
  | true => rfl
  | false => simp [Scanned.of, Scanned.after, textOfUnits_map_char]; omega

/-! ## Properties -/

/-- Whether a property cannot be read because a line ends in its value. -/
def isBroken (property : Text × Text) : Bool := property.2.any endsString

/-- A property is read up to its last quote. -/
theorem readProperty?_writeProperty {property : Text × Text} (h : Plain property) (rest : Text)
    (offset : Nat) : readProperty? ⟨writeProperty property ++ rest, offset⟩
      = if isBroken property then none
        else some (property, ⟨rest, offset + byteLength (writeProperty property)⟩) := by
  have hspelt : writeProperty property ++ rest
      = property.1 ++ ':' :: ' ' :: '"' :: (property.2 ++ '"' :: rest) := by
    simp [writeProperty]
  have hlength : byteLength (writeProperty property)
      = byteLength property.1 + byteLength property.2 + 4 := by
    simp only [writeProperty, byteLength_append, byteLength_cons, byteLength_nil]
    have hsigns : (':' : Char).utf8Size = 1 ∧ (' ' : Char).utf8Size = 1 ∧ ('"' : Char).utf8Size = 1 :=
      ⟨rfl, rfl, rfl⟩
    omega
  rw [hspelt, readProperty?, readName?_letters h]
  dsimp only [Option.bind_eq_bind, Option.bind_some]
  rw [readMark?_colon, Option.bind_some, readString?_blank, readString?_quote h.quote h.backslash]
  cases hbroken : property.2.any endsString with
  | true => simp [isBroken, hbroken]
  | false => simp [isBroken, hbroken, hlength]; omega

/-- Properties are read up to the brace behind them. -/
theorem readProperties?_writeProperties {properties : List (Text × Text)} (hne : properties ≠ [])
    (h : ∀ property ∈ properties, Plain property) {fuel : Nat} (hfuel : properties.length ≤ fuel)
    (rest : Text) (offset : Nat) :
    readProperties? fuel ⟨writeProperties properties ++ ' ' :: '\x7d' :: rest, offset⟩
      = if properties.any isBroken then none
        else some (properties,
          ⟨' ' :: '\x7d' :: rest, offset + byteLength (writeProperties properties)⟩) := by
  induction properties generalizing fuel offset with
  | nil => exact absurd rfl hne
  | cons property others ih =>
    obtain ⟨fuel, rfl⟩ : ∃ k, fuel = k + 1 := ⟨fuel - 1, by simp at hfuel; omega⟩
    obtain ⟨hproperty, hothers⟩ := List.forall_mem_cons.1 h
    rw [readProperties?]
    cases others with
    | nil =>
      rw [writeProperties, readProperty?_writeProperty hproperty]
      cases hbroken : isBroken property with
      | true => simp [hbroken]
      | false => simp [hbroken, readMark?_comma_braceClose]
    | cons next others =>
      have hspelt : writeProperties (property :: next :: others) ++ ' ' :: '\x7d' :: rest
          = writeProperty property ++ ',' :: ' ' :: (writeProperties (next :: others)
            ++ ' ' :: '\x7d' :: rest) := by
        simp [writeProperties]
      rw [hspelt, readProperty?_writeProperty hproperty]
      cases hbroken : isBroken property with
      | true => simp [hbroken]
      | false =>
        have hlength : byteLength (writeProperties (property :: next :: others))
            = byteLength (writeProperty property) + 2
              + byteLength (writeProperties (next :: others)) := by
          have hsigns : (',' : Char).utf8Size = 1 ∧ (' ' : Char).utf8Size = 1 := ⟨rfl, rfl⟩
          simp only [writeProperties, byteLength_append, byteLength_cons, byteLength_nil]
          omega
        have hread := ih (List.cons_ne_nil _ _) hothers
          (show (next :: others).length ≤ fuel by simpa using hfuel)
          (offset + byteLength (writeProperty property) + 1 + 1)
        simp only [Bool.false_eq_true, if_false, Option.bind_eq_bind, Option.bind_some,
          readMark?_comma, readProperties?_blank]
        have hany : (property :: next :: others).any isBroken = (next :: others).any isBroken := by
          rw [List.any_cons, hbroken, Bool.false_or]
        rw [hread, hany, hlength]
        cases (next :: others).any isBroken with
        | true => rfl
        | false => simp [Nat.add_assoc]

/-- Each property that is written takes a character at least. -/
theorem length_le_writeProperties (properties : List (Text × Text)) :
    properties.length ≤ (writeProperties properties).length := by
  induction properties with
  | nil => exact Nat.le_refl _
  | cons property others ih =>
    cases others with
    | nil =>
      simp only [writeProperties, writeProperty, List.length_append, List.length_cons]
      omega
    | cons next others =>
      simp only [writeProperties, List.length_append, List.length_cons] at ih ⊢
      omega

/-- **Properties are read from the braces that they were written in**, unless a line ends in one of
their values. -/
theorem readContainer?_writeContainer {properties : List (Text × Text)} (hne : properties ≠ [])
    (h : ∀ property ∈ properties, Plain property) (rest : Text) (offset : Nat) :
    readContainer? ⟨writeContainer properties ++ rest, offset⟩
      = if properties.any isBroken then none
        else some (properties, ⟨rest, offset + byteLength (writeContainer properties)⟩) := by
  have hspelt : writeContainer properties ++ rest
      = '\x7b' :: '\x7b' :: ' ' :: (writeProperties properties ++ ' ' :: '\x7d' :: '\x7d' :: rest) := by
    simp [writeContainer]
  have hlength : byteLength (writeContainer properties)
      = byteLength (writeProperties properties) + 6 := by
    have hsigns : (' ' : Char).utf8Size = 1 ∧ ('\x7b' : Char).utf8Size = 1 ∧
      ('\x7d' : Char).utf8Size = 1 := ⟨rfl, rfl, rfl⟩
    simp only [writeContainer, byteLength_append, byteLength_cons, byteLength_nil]
    omega
  have hfuel : properties.length
      ≤ (' ' :: (writeProperties properties ++ ' ' :: '\x7d' :: '\x7d' :: rest)).length := by
    have hle := length_le_writeProperties properties
    simp only [List.length_cons, List.length_append]
    omega
  rw [hspelt, readContainer?]
  simp only [readMark?_braceOpen, Option.bind_eq_bind, Option.bind_some]
  rw [readProperties?_blank, readProperties?_writeProperties hne h hfuel]
  cases properties.any isBroken with
  | true => rfl
  | false =>
    simp [readMark?_blank, readMark?_braceClose, hlength]
    omega

end Retouch.Script

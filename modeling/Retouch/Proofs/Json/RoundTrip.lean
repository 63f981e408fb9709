import Retouch.Proofs.Decimal.Digits

/-!
# Written values are read back

The main statement is `parse?_write`: the text of a JSON value holds that value, provided that a
text can spell the value at all (`Json.Spelt`).

The reader is told by `Ends` what may follow a value, since only the character behind a number shows
where the number ends. `ReadsBack` says what a reader with some fuel reads back, and one lemma for
values, items and fields each says what it needs of a reader with less.
-/

namespace Retouch

open Decimal (Literal digitChars_digitsOf lt_of_mem_digitsOf numberOf_digitsOf)

/-! ## Values that can be spelt -/

/-- Whether the digits of a literal are digits and as many as they must be. -/
structure Decimal.Literal.Spelt (l : Literal) : Prop where
  whole : l.whole = [0] ∨ ∃ d rest, l.whole = d :: rest ∧ d ≠ 0
  digits : ∀ d ∈ l.whole, d < 10
  fraction : ∀ digits, l.fraction = some digits → digits ≠ [] ∧ ∀ d ∈ digits, d < 10

/-- The literal of a whole number can be spelt. -/
theorem Decimal.Literal.spelt_ofNat (n : Nat) : (Literal.ofNat n).Spelt := by
  refine ⟨?_, fun d hd => lt_of_mem_digitsOf hd, fun digits h => by cases h⟩
  by_cases hn : n = 0
  · subst hn
    exact .inl rfl
  · exact .inr (Decimal.exists_digitsOf_eq_cons hn)

namespace Json

mutual

/-- Whether a value can be spelt by a text. -/
def Spelt : Json → Prop
  | number literal => literal.Spelt
  | unreadable => False
  | array items => SpeltItems items
  | object fields => SpeltFields fields
  | _ => True

/-- Whether each of some values can be spelt. -/
def SpeltItems : List Json → Prop
  | [] => True
  | v :: rest => Spelt v ∧ SpeltItems rest

/-- Whether the value of each of some fields can be spelt. -/
def SpeltFields : List (Text × Json) → Prop
  | [] => True
  | (_, v) :: rest => Spelt v ∧ SpeltFields rest

end

/-- Whether a text can follow a value: it is at its end, or at a sign that ends a value. -/
def Ends (t : Text) : Prop :=
  t = [] ∨ ∃ c rest, t = c :: rest ∧ (c = ',' ∨ c = ']' ∨ c = '\x7d')

theorem Ends.nil : Ends [] := .inl rfl

theorem Ends.comma (t : Text) : Ends (',' :: t) := .inr ⟨',', t, rfl, by simp⟩

theorem Ends.bracket (t : Text) : Ends (']' :: t) := .inr ⟨']', t, rfl, by simp⟩

theorem Ends.brace (t : Text) : Ends ('\x7d' :: t) := .inr ⟨'\x7d', t, rfl, by simp⟩

/-! ## Numbers -/

/-- Whether a text begins with a digit. -/
def beginsWithDigit (t : Text) : Bool := (t.head?.map Char.isDigit).getD false

theorem isDigit_digitChar {d : Nat} (h : d < 10) : (Nat.digitChar d).isDigit = true := by
  have hall : ∀ d < 10, (Nat.digitChar d).isDigit = true := by decide
  exact hall d h

/-- Digits are read up to the character behind them. -/
theorem readDigits_digitChars {digits : List Nat} (hdigits : ∀ d ∈ digits, d < 10) {t : Text}
    (ht : beginsWithDigit t = false) :
    readDigits (Literal.digitChars digits ++ t) = (digits, t) := by
  induction digits with
  | nil =>
    cases t with
    | nil => rfl
    | cons c t =>
      have hc : c.isDigit = false := ht
      simp [readDigits, Literal.digitChars, hc]
  | cons d digits ih =>
    have hd := hdigits d List.mem_cons_self
    have hrest := ih fun e he => hdigits e (List.mem_cons_of_mem _ he)
    unfold readDigits Literal.digitChars at hrest ⊢
    obtain ⟨htaken, hleft⟩ := Prod.mk.inj hrest
    rw [List.map_cons, List.cons_append, List.takeWhile_cons, List.dropWhile_cons,
      isDigit_digitChar hd, if_pos rfl, if_pos rfl, List.map_cons, htaken, hleft,
      Nat.toNat_digitChar_sub_48_of_lt_ten hd]

theorem readDigits_toDigits (n : Nat) {t : Text} (ht : beginsWithDigit t = false) :
    readDigits (Nat.toDigits 10 n ++ t) = (Decimal.Layout.digitsOf n, t) := by
  rw [← digitChars_digitsOf]
  exact readDigits_digitChars (fun d hd => lt_of_mem_digitsOf hd) ht

/-- The digits before the point are read back. -/
theorem readWhole_digitChars {digits : List Nat}
    (hwhole : digits = [0] ∨ ∃ d rest, digits = d :: rest ∧ d ≠ 0) (hdigits : ∀ d ∈ digits, d < 10)
    {t : Text} (ht : beginsWithDigit t = false) :
    readWhole (Literal.digitChars digits ++ t) = some (digits, t) := by
  rcases hwhole with rfl | ⟨d, rest, rfl, hd⟩
  · show (if beginsWithDigit t then none else some ([0], t)) = some ([0], t)
    rw [ht]
    rfl
  · have hread := readDigits_digitChars hdigits ht
    have hzero : Nat.digitChar d ≠ '0' := fun h => hd (Nat.digitChar_eq_zero.1 h)
    unfold readWhole
    split
    · rename_i heq
      exact absurd (List.cons.inj heq).1 hzero
    · rw [hread]

/-- The text of a fraction. -/
def writeFraction : Option (List Nat) → Text
  | none => []
  | some digits => '.' :: Literal.digitChars digits

/-- The text of an exponent. -/
def writeExponent : Option Int → Text
  | none => []
  | some e => 'e' :: (if 0 ≤ e then '+' else '-') :: Nat.toDigits 10 e.natAbs

theorem write_eq (l : Literal) :
    l.write = (if l.negative then ['-'] else []) ++ Literal.digitChars l.whole
      ++ writeFraction l.fraction ++ writeExponent l.exponent := by
  obtain ⟨negative, whole, fraction, exponent⟩ := l
  cases fraction <;> cases exponent <;> rfl

/-- What ends a value is no part of a number. -/
theorem Ends.beginsWithDigit {t : Text} (h : Ends t) : beginsWithDigit t = false := by
  rcases h with rfl | ⟨c, rest, rfl, rfl | rfl | rfl⟩ <;> rfl

/-- An exponent with its sign is read back. -/
theorem readExponent_sign (negative : Bool) {u t : Text} {d : Nat} {digits : List Nat}
    (h : readDigits u = (d :: digits, t)) :
    readExponent ('e' :: (if negative then '-' else '+') :: u)
      = some (some (if negative then -(numberOf (d :: digits) : Int) else numberOf (d :: digits)),
          t) := by
  cases negative with
  | false =>
    simp only [readExponent, beq_self_eq_true, Bool.true_or, if_true, Bool.false_eq_true, if_false, h]
  | true => simp only [readExponent, beq_self_eq_true, Bool.true_or, if_true, h]

theorem readExponent_writeExponent (exponent : Option Int) {t : Text} (ht : Ends t) :
    readExponent (writeExponent exponent ++ t) = some (exponent, t) := by
  cases exponent with
  | none => rcases ht with rfl | ⟨c, rest, rfl, rfl | rfl | rfl⟩ <;> rfl
  | some e =>
    obtain ⟨d, digits, hdigits⟩ := List.exists_cons_of_ne_nil (Decimal.digitsOf_ne_nil e.natAbs)
    have hread := readDigits_toDigits e.natAbs ht.beginsWithDigit
    have hnumber := numberOf_digitsOf e.natAbs
    rw [hdigits] at hread hnumber
    by_cases he : 0 ≤ e
    · have h := readExponent_sign false hread
      rw [hnumber] at h
      have habs : ((e.natAbs : Nat) : Int) = e := by omega
      rw [habs] at h
      simpa [writeExponent, he] using h
    · have h := readExponent_sign true hread
      rw [hnumber] at h
      have habs : -((e.natAbs : Nat) : Int) = e := by omega
      rw [if_pos rfl, habs] at h
      simpa [writeExponent, he] using h

/-- The text of an exponent goes on as no digit and no point. -/
theorem beginsWithDigit_writeExponent (exponent : Option Int) {t : Text} (ht : Ends t) :
    beginsWithDigit (writeExponent exponent ++ t) = false := by
  cases exponent with
  | none => exact ht.beginsWithDigit
  | some e => rfl

theorem readFraction_writeFraction {fraction : Option (List Nat)}
    (hfraction : ∀ digits, fraction = some digits → digits ≠ [] ∧ ∀ d ∈ digits, d < 10)
    (exponent : Option Int) {t : Text} (ht : Ends t) :
    readFraction (writeFraction fraction ++ (writeExponent exponent ++ t))
      = some (fraction, writeExponent exponent ++ t) := by
  cases fraction with
  | none =>
    cases exponent with
    | none => rcases ht with rfl | ⟨c, rest, rfl, rfl | rfl | rfl⟩ <;> rfl
    | some e => rfl
  | some digits =>
    obtain ⟨hne, hdigits⟩ := hfraction digits rfl
    obtain ⟨d, rest, rfl⟩ := List.exists_cons_of_ne_nil hne
    have hread := readDigits_digitChars hdigits (beginsWithDigit_writeExponent exponent ht)
    simp only [writeFraction, List.cons_append, readFraction, hread]

/-- The text of a fraction goes on as no digit. -/
theorem beginsWithDigit_writeFraction (fraction : Option (List Nat)) (exponent : Option Int)
    {t : Text} (ht : Ends t) :
    beginsWithDigit (writeFraction fraction ++ (writeExponent exponent ++ t)) = false := by
  cases fraction with
  | none => exact beginsWithDigit_writeExponent exponent ht
  | some digits => rfl

/-- The digits of a number begin with one. -/
theorem exists_digitChars_eq_cons {l : Literal} (hl : l.Spelt) :
    ∃ c rest, Literal.digitChars l.whole = c :: rest ∧ c.isDigit = true := by
  obtain ⟨d, rest, hwhole⟩ : ∃ d rest, l.whole = d :: rest := by
    rcases hl.whole with h | ⟨d, rest, h, -⟩
    · exact ⟨0, [], h⟩
    · exact ⟨d, rest, h⟩
  have hd : d < 10 := hl.digits d (by rw [hwhole]; exact List.mem_cons_self)
  exact ⟨_, _, by rw [hwhole]; rfl, isDigit_digitChar hd⟩

/-- **Numbers are read back.** -/
theorem readNumber_write {l : Literal} (hl : l.Spelt) {t : Text} (ht : Ends t) :
    readNumber (l.write ++ t) = some (l, t) := by
  obtain ⟨negative, whole, fraction, exponent⟩ := l
  have hwhole := readWhole_digitChars hl.whole hl.digits
    (beginsWithDigit_writeFraction fraction exponent ht)
  have hfraction := readFraction_writeFraction hl.fraction exponent ht
  have hexponent := readExponent_writeExponent exponent ht
  rw [write_eq, List.append_assoc, List.append_assoc, List.append_assoc]
  cases negative with
  | true =>
    simp only [readNumber, if_true, List.cons_append, List.nil_append, hwhole, hfraction, hexponent,
      Option.bind_eq_bind, Option.bind_some]
    rfl
  | false =>
    obtain ⟨c, chars, hchars, hc⟩ := exists_digitChars_eq_cons hl
    have hminus : c ≠ '-' := by
      rintro rfl
      cases hc
    rw [if_neg Bool.false_ne_true, List.nil_append]
    rw [hchars, List.cons_append] at hwhole ⊢
    unfold readNumber
    split
    rename_i negative left hsign
    have hpair : (negative, left)
        = (false, c :: (chars ++ (writeFraction fraction ++ (writeExponent exponent ++ t)))) := by
      rw [← hsign]
      split
      · rename_i heq
        exact absurd (List.cons.inj heq).1 hminus
      · rfl
    obtain ⟨rfl, rfl⟩ := Prod.mk.inj hpair
    simp only [hwhole, hfraction, hexponent, Option.bind_eq_bind, Option.bind_some]
    rfl

/-- A number begins with a sign or a digit. -/
theorem exists_write_eq_cons {l : Literal} (hl : l.Spelt) :
    ∃ c rest, l.write = c :: rest ∧ (c = '-' ∨ c.isDigit = true) := by
  obtain ⟨c, chars, hchars, hc⟩ := exists_digitChars_eq_cons hl
  rw [write_eq, hchars]
  cases l.negative with
  | true => exact ⟨_, _, rfl, .inl rfl⟩
  | false => exact ⟨_, _, rfl, .inr hc⟩

/-! ## Strings and words -/

theorem length_le_flatMap_writeChar (t : Text) : t.length ≤ (t.flatMap writeChar).length := by
  induction t with
  | nil => simp
  | cons c t ih =>
    have hc : 1 ≤ (writeChar c).length := (standsFor_writeChar c).length_pos
    rw [List.flatMap_cons, List.length_append, List.length_cons]
    omega

/-- A written string is read back with as many steps as the reader takes. -/
theorem readString_written (name t : Text) :
    readString ((name.flatMap writeChar ++ '"' :: t).length + 1) (name.flatMap writeChar ++ '"' :: t)
      = some (some name, t) := by
  refine readString_flatMap_writeChar name t ?_
  have hname := length_le_flatMap_writeChar name
  rw [List.length_append]
  omega

theorem skipSpace_cons {c : Char} (h : isSpace c = false) (t : Text) :
    skipSpace (c :: t) = c :: t := by
  rw [skipSpace, List.dropWhile_cons, h]
  rfl

theorem isSpace_of_isDigit {c : Char} (h : c.isDigit = true) : isSpace c = false := by
  rw [isSpace, Bool.or_eq_false_iff, Bool.or_eq_false_iff, Bool.or_eq_false_iff]
  refine ⟨⟨⟨?_, ?_⟩, ?_⟩, ?_⟩
  all_goals
    rw [beq_eq_false_iff_ne]
    rintro rfl
    cases h

/-! ## Values -/

/-- A value begins with a character that is neither a blank nor the end of an array. -/
theorem exists_writeValue_eq_cons {v : Json} (hv : v.Spelt) :
    ∃ c rest, write v = c :: rest ∧ isSpace c = false ∧ c ≠ ']' := by
  cases v with
  | null => exact ⟨_, _, rfl, rfl, by decide⟩
  | bool b => cases b <;> exact ⟨_, _, rfl, rfl, by decide⟩
  | string text => exact ⟨_, _, rfl, rfl, by decide⟩
  | unreadable => exact ⟨_, _, rfl, rfl, by decide⟩
  | array items => exact ⟨_, _, rfl, rfl, by decide⟩
  | object fields => exact ⟨_, _, rfl, rfl, by decide⟩
  | number literal =>
    obtain ⟨c, rest, hwrite, hc⟩ := exists_write_eq_cons (l := literal) hv
    refine ⟨c, rest, hwrite, ?_, ?_⟩
    · rcases hc with rfl | hc
      · rfl
      · exact isSpace_of_isDigit hc
    · rcases hc with rfl | hc
      · decide
      · rintro rfl
        cases hc

/-- A number is read as a value. -/
theorem readValue_number {l : Literal} (hl : l.Spelt) {t : Text} (ht : Ends t) (fuel : Nat) :
    readValue (fuel + 1) (l.write ++ t) = some (number l, t) := by
  obtain ⟨c, rest, hwrite, hspace, -⟩ := exists_writeValue_eq_cons (v := number l) hl
  have hread := readNumber_write hl ht
  have hchars : l.write = c :: rest := hwrite
  have hfirst : c = '-' ∨ c.isDigit = true := by
    obtain ⟨d, _, hd, hfirst⟩ := exists_write_eq_cons hl
    rw [hchars] at hd
    rw [(List.cons.inj hd).1]
    exact hfirst
  rw [hchars, List.cons_append] at hread ⊢
  rw [readValue, skipSpace_cons hspace]
  dsimp only
  have hother : ∀ d : Char, d ≠ '-' → d.isDigit = false → (c == d) = false := by
    intro d hd hdigit
    rcases hfirst with rfl | hc
    · exact beq_eq_false_iff_ne.2 hd.symm
    · rw [beq_eq_false_iff_ne]
      rintro rfl
      rw [hc] at hdigit
      cases hdigit
  rw [hother 'n' (by decide) rfl, hother 't' (by decide) rfl, hother 'f' (by decide) rfl,
    hother '"' (by decide) rfl, hother '[' (by decide) rfl, hother '\x7b' (by decide) rfl]
  simp only [Bool.false_eq_true, if_false, hread, Option.map_some]

/-- A string is read as a value. -/
theorem readValue_string (text t : Text) (fuel : Nat) :
    readValue (fuel + 1) (writeString text ++ t) = some (string text, t) := by
  have htext : writeString text ++ t = '"' :: (text.flatMap writeChar ++ '"' :: t) := by
    simp [writeString]
  rw [htext, readValue, skipSpace_cons rfl]
  simp only [show ('"' == 'n') = false from rfl, show ('"' == 't') = false from rfl,
    show ('"' == 'f') = false from rfl, beq_self_eq_true, Bool.false_eq_true, if_false, if_true,
    readString_written, Option.bind_eq_bind, Option.bind_some]
  rfl

/-- The items of an array begin as the first of them does. -/
theorem exists_writeItems_eq_cons {v : Json} (hv : v.Spelt) (items : List Json) :
    ∃ c rest, writeItems (v :: items) = c :: rest ∧ isSpace c = false ∧ c ≠ ']' := by
  obtain ⟨c, rest, hwrite, hspace, hbracket⟩ := exists_writeValue_eq_cons hv
  cases items with
  | nil => exact ⟨c, rest, hwrite, hspace, hbracket⟩
  | cons w items =>
    refine ⟨c, rest ++ ',' :: writeItems (w :: items), ?_, hspace, hbracket⟩
    rw [writeItems, hwrite, List.cons_append]

/-- Fields begin with the name of the first of them. -/
theorem exists_writeFields_eq_cons (name : Text) (v : Json) (fields : List (Text × Json)) :
    ∃ rest, writeFields ((name, v) :: fields) = '"' :: rest := by
  cases fields with
  | nil => exact ⟨_, rfl⟩
  | cons field fields => exact ⟨_, rfl⟩

/-- An array is read if its items are. -/
theorem readValue_array {v : Json} (hv : v.Spelt) {items : List Json} {t : Text} {fuel : Nat}
    (h : readItems fuel (writeItems (v :: items) ++ ']' :: t) = some (v :: items, t)) :
    readValue (fuel + 1) (write (array (v :: items)) ++ t) = some (array (v :: items), t) := by
  obtain ⟨c, rest, hwrite, hspace, hbracket⟩ := exists_writeItems_eq_cons hv items
  have htext : write (array (v :: items)) ++ t = '[' :: (writeItems (v :: items) ++ ']' :: t) := by
    simp [write]
  rw [htext, readValue, skipSpace_cons rfl]
  rw [hwrite, List.cons_append] at h ⊢
  simp only [show ('[' == 'n') = false from rfl, show ('[' == 't') = false from rfl,
    show ('[' == 'f') = false from rfl, show ('[' == '"') = false from rfl, beq_self_eq_true,
    Bool.false_eq_true, if_false, if_true, skipSpace_cons hspace]
  split
  · rename_i heq
    exact absurd (List.cons.inj heq).1 hbracket
  · rw [h]
    rfl

/-- An object is read if its fields are. -/
theorem readValue_object {name : Text} {v : Json} {fields : List (Text × Json)} {t : Text}
    {fuel : Nat}
    (h : readFields fuel (writeFields ((name, v) :: fields) ++ '\x7d' :: t)
      = some (some ((name, v) :: fields), t)) :
    readValue (fuel + 1) (write (object ((name, v) :: fields)) ++ t)
      = some (object ((name, v) :: fields), t) := by
  obtain ⟨rest, hwrite⟩ := exists_writeFields_eq_cons name v fields
  have htext : write (object ((name, v) :: fields)) ++ t
      = '\x7b' :: (writeFields ((name, v) :: fields) ++ '\x7d' :: t) := by
    simp [write]
  rw [htext, readValue, skipSpace_cons rfl]
  rw [hwrite, List.cons_append] at h ⊢
  simp only [show ('\x7b' == 'n') = false from rfl, show ('\x7b' == 't') = false from rfl,
    show ('\x7b' == 'f') = false from rfl, show ('\x7b' == '"') = false from rfl,
    show ('\x7b' == '[') = false from rfl, beq_self_eq_true, Bool.false_eq_true, if_false, if_true,
    skipSpace_cons (c := '"') rfl]
  split
  · rename_i heq
    exact absurd (List.cons.inj heq).1 (by decide)
  · rw [h]
    rfl

/-- What is read back with so much fuel: values, whatever ends them, the items of arrays and the
fields of objects. -/
structure ReadsBack (fuel : Nat) : Prop where
  value : ∀ (v : Json) (t : Text), v.Spelt → Ends t → (write v).length < fuel →
    readValue fuel (write v ++ t) = some (v, t)
  items : ∀ (v : Json) (items : List Json) (t : Text), v.Spelt → SpeltItems items →
    (writeItems (v :: items)).length + 1 < fuel →
      readItems fuel (writeItems (v :: items) ++ ']' :: t) = some (v :: items, t)
  fields : ∀ (name : Text) (v : Json) (fields : List (Text × Json)) (t : Text), v.Spelt →
    SpeltFields fields → (writeFields ((name, v) :: fields)).length + 1 < fuel →
      readFields fuel (writeFields ((name, v) :: fields) ++ '\x7d' :: t)
        = some (some ((name, v) :: fields), t)

/-- A value is read back if its items and fields are. -/
theorem ReadsBack.value_succ {n : Nat} (h : ReadsBack n) (v : Json) (t : Text) (hv : v.Spelt)
    (ht : Ends t) (hfuel : (write v).length < n + 1) :
    readValue (n + 1) (write v ++ t) = some (v, t) := by
  match v, hv, hfuel with
  | .null, _, _ => rfl
  | .bool true, _, _ => rfl
  | .bool false, _, _ => rfl
  | .string text, _, _ => exact readValue_string text t n
  | .number literal, hv, _ => exact readValue_number hv ht n
  | .array [], _, _ => rfl
  | .array (v :: items), hv, hfuel =>
    have hlength : (writeItems (v :: items)).length + 1 < n := by
      simp only [write, List.length_cons, List.length_append, List.length_nil] at hfuel
      omega
    exact readValue_array hv.1 (h.items v items t hv.1 hv.2 hlength)
  | .object [], _, _ => rfl
  | .object ((name, v) :: fields), hv, hfuel =>
    have hlength : (writeFields ((name, v) :: fields)).length + 1 < n := by
      simp only [write, List.length_cons, List.length_append, List.length_nil] at hfuel
      omega
    exact readValue_object (h.fields name v fields t hv.1 hv.2 hlength)

theorem ReadsBack.items_succ {n : Nat} (h : ReadsBack n) (v : Json) (items : List Json) (t : Text)
    (hv : v.Spelt) (hitems : SpeltItems items)
    (hfuel : (writeItems (v :: items)).length + 1 < n + 1) :
    readItems (n + 1) (writeItems (v :: items) ++ ']' :: t) = some (v :: items, t) := by
  cases items with
  | nil =>
    have hlength : (write v).length < n := by
      simp only [writeItems] at hfuel
      omega
    have hread := h.value v _ hv (.bracket t) hlength
    simp only [writeItems, readItems, hread, skipSpace_cons (c := ']') rfl, Option.bind_eq_bind,
      Option.bind_some]
    rfl
  | cons w items =>
    have htext : writeItems (v :: w :: items) ++ ']' :: t
        = write v ++ ',' :: (writeItems (w :: items) ++ ']' :: t) := by
      simp [writeItems]
    obtain ⟨c, rest, hwrite, -, -⟩ := exists_writeValue_eq_cons hv
    have hlengths : (writeItems (v :: w :: items)).length
        = rest.length + (writeItems (w :: items)).length + 2 := by
      rw [writeItems, hwrite]
      simp only [List.cons_append, List.length_cons, List.length_append]
      omega
    have hlength : (write v).length < n := by
      rw [hwrite, List.length_cons]
      omega
    have hread := h.value v _ hv (.comma (writeItems (w :: items) ++ ']' :: t)) hlength
    have hrest := h.items w items t hitems.1 hitems.2 (by omega)
    rw [htext]
    simp only [readItems, hread, skipSpace_cons (c := ',') rfl, hrest, Option.bind_eq_bind,
      Option.bind_some]
    rfl

theorem ReadsBack.fields_succ {n : Nat} (h : ReadsBack n) (name : Text) (v : Json)
    (fields : List (Text × Json)) (t : Text) (hv : v.Spelt) (hfields : SpeltFields fields)
    (hfuel : (writeFields ((name, v) :: fields)).length + 1 < n + 1) :
    readFields (n + 1) (writeFields ((name, v) :: fields) ++ '\x7d' :: t)
      = some (some ((name, v) :: fields), t) := by
  cases fields with
  | nil =>
    have htext : writeFields [(name, v)] ++ '\x7d' :: t
        = '"' :: (name.flatMap writeChar ++ '"' :: (':' :: (write v ++ '\x7d' :: t))) := by
      simp [writeFields, writeString]
    have hlength : (write v).length < n := by
      simp only [writeFields, List.length_append, List.length_cons] at hfuel
      omega
    have hread := h.value v _ hv (.brace t) hlength
    rw [htext, readFields, skipSpace_cons rfl]
    simp only [readString_written, skipSpace_cons (c := ':') rfl, after?, beq_self_eq_true, if_true,
      hread, skipSpace_cons (c := '\x7d') rfl, Option.bind_eq_bind, Option.bind_some]
    rfl
  | cons field fields =>
    obtain ⟨other, w⟩ := field
    have htext : writeFields ((name, v) :: (other, w) :: fields) ++ '\x7d' :: t
        = '"' :: (name.flatMap writeChar ++ '"' ::
            (':' :: (write v ++ ',' :: (writeFields ((other, w) :: fields) ++ '\x7d' :: t)))) := by
      simp [writeFields, writeString]
    have hlengths : (writeFields ((name, v) :: (other, w) :: fields)).length
        = (writeString name).length + (write v).length
          + (writeFields ((other, w) :: fields)).length + 2 := by
      simp only [writeFields, List.length_append, List.length_cons]
      omega
    have hread := h.value v _ hv (.comma (writeFields ((other, w) :: fields) ++ '\x7d' :: t))
      (by omega)
    have hname : 2 ≤ (writeString name).length := by
      simp only [writeString, List.length_append, List.length_cons]
      omega
    have hrest := h.fields other w fields t hfields.1 hfields.2 (by omega)
    rw [htext, readFields, skipSpace_cons rfl]
    simp only [readString_written, skipSpace_cons (c := ':') rfl, after?, beq_self_eq_true, if_true,
      hread, skipSpace_cons (c := ',') rfl, hrest, Option.bind_eq_bind, Option.bind_some]
    rfl

theorem readsBack (fuel : Nat) : ReadsBack fuel := by
  induction fuel with
  | zero =>
    refine ⟨fun v t _ _ h => ?_, fun v items t _ _ h => ?_, fun name v fields t _ _ h => ?_⟩
    · omega
    · omega
    · omega
  | succ n ih => exact ⟨ih.value_succ, ih.items_succ, ih.fields_succ⟩

/-- **Written values are read back.** -/
theorem parse?_write {v : Json} (hv : v.Spelt) : parse? (write v) = some v := by
  have hread := (readsBack ((write v).length + 1)).value v [] hv .nil (Nat.lt_succ_self _)
  rw [List.append_nil] at hread
  rw [parse?, hread]
  rfl

end Json

end Retouch

import Retouch.Text.Hex

/-!
# Character references

The signs that mean something in markup are written as references to them: `&amp;` for `&` and so on
(`writeSign`). A reader of markup decodes references in one pass, and what it puts in is not read again.
Readers know references of many names and by numbers; `References` is any rule for them that knows the
four of `markupSigns`. Main statement: a text in which every such sign was written as a reference is
decoded to itself by every such reader (`decode_flatMap_writeSign`).
-/

namespace Retouch.Text

/-- The signs that are written as references, with what stands behind the `&` of each reference. -/
def markupSigns : List (Char × Text) :=
  [('&', "amp;".toList), ('"', "quot;".toList), ('<', "lt;".toList), ('>', "gt;".toList)]

/-- How a character is written so that it means nothing in markup. -/
def writeSign (c : Char) : Text :=
  match markupSigns.lookup c with
  | some name => '&' :: name
  | none => [c]

/-- A character is written as the reference to it, or as it is if it means nothing. -/
theorem writeSign_cases (c : Char) :
    (∃ sign ∈ markupSigns, c = sign.1 ∧ writeSign c = '&' :: sign.2) ∨
      ((∀ sign ∈ markupSigns, c ≠ sign.1) ∧ writeSign c = [c]) := by
  unfold writeSign
  cases hname : markupSigns.lookup c with
  | some name =>
    obtain ⟨before, behind, hsigns, -⟩ := List.lookup_eq_some_iff.1 hname
    exact .inl ⟨(c, name), hsigns ▸ List.mem_append_right before List.mem_cons_self, rfl, rfl⟩
  | none => exact .inr ⟨by simpa using List.lookup_eq_none_iff.1 hname, rfl⟩

/-- A rule for what stands behind an `&`: the text that it refers to, and how many characters spell the
reference; none if it is no reference. -/
structure References where
  read? : Text → Option (Text × Nat)
  known : ∀ sign ∈ markupSigns, ∀ rest, read? (sign.2 ++ rest) = some ([sign.1], sign.2.length)

namespace References

/-- A text with its references decoded, the first `covered` characters left out. -/
def decodeFrom (references : References) : (covered : Nat) → Text → Text
  | _, [] => []
  | covered + 1, _ :: rest => references.decodeFrom covered rest
  | 0, c :: rest =>
    if c = '&' then
      match references.read? rest with
      | some (referred, length) => referred ++ references.decodeFrom length rest
      | none => c :: references.decodeFrom 0 rest
    else c :: references.decodeFrom 0 rest

/-- A text with its references decoded, in one pass. -/
def decode (references : References) (t : Text) : Text := references.decodeFrom 0 t

/-! ## What is decoded -/

variable (references : References)

/-- The characters of a reference are left out. -/
theorem decodeFrom_append (name rest : Text) :
    references.decodeFrom name.length (name ++ rest) = references.decode rest := by
  induction name with
  | nil => rfl
  | cons c name ih => exact ih

theorem decode_cons_of_ne {c : Char} (h : c ≠ '&') (rest : Text) :
    references.decode (c :: rest) = c :: references.decode rest := by
  rw [decode, decodeFrom, if_neg h]
  rfl

/-- A reference to a sign is decoded to the sign, and nothing behind it belongs to the reference. -/
theorem decode_reference {sign : Char × Text} (h : sign ∈ markupSigns) (rest : Text) :
    references.decode ('&' :: (sign.2 ++ rest)) = sign.1 :: references.decode rest := by
  rw [decode, decodeFrom, if_pos rfl, references.known sign h rest]
  dsimp only
  rw [decodeFrom_append]
  rfl

/-- What is written for a character is decoded to it, whatever stands behind it. -/
theorem decode_writeSign (c : Char) (rest : Text) :
    references.decode (writeSign c ++ rest) = c :: references.decode rest := by
  rcases writeSign_cases c with ⟨sign, hsign, rfl, hwrite⟩ | ⟨hplain, hwrite⟩
  · rw [hwrite]
    exact references.decode_reference hsign rest
  · rw [hwrite]
    exact references.decode_cons_of_ne (hplain ('&', "amp;".toList) List.mem_cons_self) rest

/-- **Signs that are written as references are decoded to themselves.** -/
theorem decode_flatMap_writeSign (t : Text) : references.decode (t.flatMap writeSign) = t := by
  induction t with
  | nil => rfl
  | cons c t ih => rw [List.flatMap_cons, decode_writeSign, ih]

end References

/-! ## A reader -/

/-- The number in a reference: decimal digits, or hexadecimal ones behind an `x`. -/
def referenceNumber? : Text → Option Nat
  | [] => none
  | ['x'] => none
  | 'x' :: digits => hexNumber? digits
  | digits =>
    if digits.all Char.isDigit then some (digits.foldl (fun n c => n * 10 + (c.toNat - 48)) 0) else none

/-- The reader that knows no other names than those of `markupSigns`, and characters by their numbers. -/
def References.plain : References where
  read? t :=
    match markupSigns.find? fun sign => sign.2.isPrefixOf t with
    | some sign => some ([sign.1], sign.2.length)
    | none =>
      match t with
      | '#' :: rest =>
        let digits := rest.takeWhile (· ≠ ';')
        if digits.length < rest.length then
          (referenceNumber? digits).map fun n => ([Char.ofNat n], digits.length + 2)
        else none
      | _ => none
  known := by
    intro sign h rest
    simp only [markupSigns, List.mem_cons, List.not_mem_nil, or_false] at h
    rcases h with rfl | rfl | rfl | rfl <;> rfl

end Retouch.Text

/-!
# Texts and byte offsets

A text is a list of characters. Positions in it are offsets counted in bytes of UTF-8, so an
offset may fall inside a character: `splitAt?` cuts a text at an offset that does not, and
`slice` reads the part between two of them.

The main facts are `splitAt?_append` (the length of a first part is where it can be cut off) and
`append_of_splitAt?` (the two parts are the text, the first as long as the offset says).
-/

namespace Retouch

/-- A text, as its characters. -/
abbrev Text := List Char

namespace Text

/-- The bytes of a text in UTF-8. -/
def byteLength : Text → Nat
  | [] => 0
  | c :: rest => c.utf8Size + byteLength rest

/-- The parts of `t` before and after the byte offset `n`, if a character ends or begins there. -/
def splitAt? : Text → Nat → Option (Text × Text)
  | t, 0 => some ([], t)
  | [], _ + 1 => none
  | c :: rest, n + 1 =>
    if c.utf8Size ≤ n + 1 then
      (splitAt? rest (n + 1 - c.utf8Size)).map fun parts => (c :: parts.1, parts.2)
    else none

/-- Whether the byte offset `n` is the end of `t` or the first byte of one of its characters. -/
def isBoundary (t : Text) (n : Nat) : Bool := (splitAt? t n).isSome

/-- The text from the byte offset `start` up to `stop`; empty where that is no part of `t`. -/
def slice (t : Text) (start stop : Nat) : Text :=
  match splitAt? t start with
  | none => []
  | some (_, rest) =>
    match splitAt? rest (stop - start) with
    | none => []
    | some (part, _) => part

@[simp] theorem byteLength_nil : byteLength [] = 0 := rfl

@[simp] theorem byteLength_cons (c : Char) (t : Text) :
    byteLength (c :: t) = c.utf8Size + byteLength t := rfl

@[simp] theorem byteLength_append (s t : Text) :
    byteLength (s ++ t) = byteLength s + byteLength t := by
  induction s with
  | nil => simp
  | cons c s ih => simp only [List.cons_append, byteLength_cons, ih]; omega

@[simp] theorem splitAt?_zero (t : Text) : splitAt? t 0 = some ([], t) := by
  cases t <;> rfl

/-- A text can be cut off where it ends, whatever follows it. -/
theorem splitAt?_append (s t : Text) : splitAt? (s ++ t) (byteLength s) = some (s, t) := by
  induction s with
  | nil => simp
  | cons c s ih =>
    obtain ⟨k, hk⟩ : ∃ k, c.utf8Size + byteLength s = k + 1 :=
      ⟨c.utf8Size + byteLength s - 1, by have := c.utf8Size_pos; omega⟩
    rw [byteLength_cons, List.cons_append, hk, splitAt?, if_pos (by omega), ← hk,
      Nat.add_sub_cancel_left, ih]
    rfl

/-- The parts of a cut are the text, and the first of them is as long as the offset says. -/
theorem append_of_splitAt? {t left right : Text} {n : Nat} (h : splitAt? t n = some (left, right)) :
    left ++ right = t ∧ byteLength left = n := by
  induction t generalizing n left with
  | nil =>
    cases n with
    | zero => simp only [splitAt?_zero, Option.some.injEq, Prod.mk.injEq] at h
              simp [← h.1, ← h.2]
    | succ n => simp [splitAt?] at h
  | cons c t ih =>
    cases n with
    | zero => simp only [splitAt?_zero, Option.some.injEq, Prod.mk.injEq] at h
              simp [← h.1, ← h.2]
    | succ n =>
      simp only [splitAt?] at h
      split at h
      · obtain ⟨parts, hparts, hout⟩ := Option.map_eq_some_iff.1 h
        obtain ⟨rfl, rfl⟩ := Prod.mk.inj hout
        obtain ⟨happ, hlen⟩ := ih hparts
        refine ⟨by simp [happ], ?_⟩
        simp only [byteLength_cons, hlen]
        omega
      · simp at h

/-- An offset is a boundary of a text exactly when some first part of it is that long. -/
theorem isBoundary_iff {t : Text} {n : Nat} :
    isBoundary t n = true ↔ ∃ left right, left ++ right = t ∧ byteLength left = n := by
  constructor
  · intro h
    obtain ⟨parts, hparts⟩ := Option.isSome_iff_exists.1 h
    exact ⟨parts.1, parts.2, append_of_splitAt? hparts⟩
  · rintro ⟨left, right, rfl, rfl⟩
    simp [isBoundary, splitAt?_append]

/-- A part of a text is what `slice` reads between the offsets where the part begins and ends. -/
theorem slice_append (before part after : Text) :
    slice (before ++ part ++ after) (byteLength before) (byteLength before + byteLength part)
      = part := by
  rw [slice, List.append_assoc, splitAt?_append]
  simp [splitAt?_append]

end Text

end Retouch

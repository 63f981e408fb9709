import Retouch.Text.Basic

/-!
# Blanks and trimming

`isBlank` is the Unicode property `White_Space`; `trim` takes blanks off both ends of a text.
Trimming twice changes nothing (`trim_trim`), and a change of characters that keeps the blanks
commutes with it (`trim_map`).
-/

namespace Retouch.Text

/-- The Unicode property `White_Space`. -/
def isBlank (c : Char) : Bool :=
  let n := c.toNat
  (9 ≤ n && n ≤ 13) || n == 0x20 || n == 0x85 || n == 0xa0 || n == 0x1680
    || (0x2000 ≤ n && n ≤ 0x200a) || n == 0x2028 || n == 0x2029 || n == 0x202f || n == 0x205f
    || n == 0x3000

/-- A text without the blanks it begins with. -/
def trimStart (t : Text) : Text := t.dropWhile isBlank

/-- A text without the blanks it ends with. -/
def trimEnd : Text → Text
  | [] => []
  | c :: rest =>
    let kept := trimEnd rest
    if kept.isEmpty && isBlank c then [] else c :: kept

/-- A text without the blanks at its ends. -/
def trim (t : Text) : Text := trimEnd (trimStart t)

theorem trimStart_cons (c : Char) (t : Text) :
    trimStart (c :: t) = if isBlank c then trimStart t else c :: t := by
  simp only [trimStart, List.dropWhile_cons]

theorem trimEnd_cons (c : Char) (t : Text) :
    trimEnd (c :: t) = if (trimEnd t).isEmpty && isBlank c then [] else c :: trimEnd t := rfl

theorem trimStart_trimEnd (t : Text) : trimStart (trimEnd t) = trimEnd (trimStart t) := by
  induction t with
  | nil => rfl
  | cons c t ih =>
    rw [trimStart_cons, trimEnd_cons]
    by_cases hc : isBlank c = true
    · by_cases ht : trimEnd t = []
      · rw [ht] at ih
        simpa [hc, ht] using ih
      · simp [hc, ht, trimStart_cons, ih]
    · simp [hc, trimStart_cons, trimEnd_cons]

theorem trimStart_trimStart (t : Text) : trimStart (trimStart t) = trimStart t := by
  induction t with
  | nil => rfl
  | cons c t ih =>
    rw [trimStart_cons]
    by_cases hc : isBlank c = true
    · simp [hc, ih]
    · simp [hc, trimStart_cons]

theorem trimEnd_trimEnd (t : Text) : trimEnd (trimEnd t) = trimEnd t := by
  induction t with
  | nil => rfl
  | cons c t ih =>
    rw [trimEnd_cons]
    by_cases hc : ((trimEnd t).isEmpty && isBlank c) = true
    · simp [hc, trimEnd]
    · simp [hc, trimEnd_cons, ih]

/-- Trimming a trimmed text changes nothing. -/
theorem trim_trim (t : Text) : trim (trim t) = trim t := by
  rw [trim, trim, trimStart_trimEnd, trimEnd_trimEnd, trimStart_trimStart]

theorem trimStart_map {f : Char → Char} (hf : ∀ c, isBlank (f c) = isBlank c) (t : Text) :
    trimStart (t.map f) = (trimStart t).map f := by
  induction t with
  | nil => rfl
  | cons c t ih =>
    rw [List.map_cons, trimStart_cons, trimStart_cons, hf]
    split
    · exact ih
    · rfl

theorem trimEnd_map {f : Char → Char} (hf : ∀ c, isBlank (f c) = isBlank c) (t : Text) :
    trimEnd (t.map f) = (trimEnd t).map f := by
  induction t with
  | nil => rfl
  | cons c t ih =>
    rw [List.map_cons, trimEnd_cons, trimEnd_cons, hf, ih]
    by_cases h : trimEnd t = [] <;> by_cases hb : isBlank c = true <;> simp [h, hb]

/-- A change of characters that turns blanks into blanks and others into others commutes with
trimming. -/
theorem trim_map {f : Char → Char} (hf : ∀ c, isBlank (f c) = isBlank c) (t : Text) :
    trim (t.map f) = (trim t).map f := by
  rw [trim, trimStart_map hf, trimEnd_map hf, trim]

end Retouch.Text

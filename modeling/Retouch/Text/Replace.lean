import Retouch.Text.Basic

/-!
# Replacing parts of a text

`replaceAll` replaces each occurrence of a pattern, from left to right. Occurrences do not overlap,
and what is put in is not searched again.
-/

namespace Retouch.Text

/-- A text with each occurrence of `pattern` replaced, the first `covered` characters left out. -/
def replaceFrom (pattern replacement : Text) : (covered : Nat) → Text → Text
  | _, [] => []
  | covered + 1, _ :: rest => replaceFrom pattern replacement covered rest
  | 0, c :: rest =>
    if pattern.isPrefixOf (c :: rest) then
      replacement ++ replaceFrom pattern replacement (pattern.length - 1) rest
    else c :: replaceFrom pattern replacement 0 rest

/-- A text with each occurrence of `pattern` replaced. -/
def replaceAll (pattern replacement t : Text) : Text := replaceFrom pattern replacement 0 t

/-- A pattern of one character is replaced character by character. -/
theorem replaceAll_singleton (c : Char) (replacement t : Text) :
    replaceAll [c] replacement t = t.flatMap fun d => if d = c then replacement else [d] := by
  unfold replaceAll
  induction t with
  | nil => rfl
  | cons d rest ih =>
    by_cases h : d = c
    · subst h; simp [replaceFrom, List.isPrefixOf, ih]
    · have h' : (c == d) = false := by simpa using fun e => h e.symm
      simp [replaceFrom, List.isPrefixOf, h, h', ih]

end Retouch.Text

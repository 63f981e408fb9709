import Retouch.Text.Blank

/-!
# Letter case of ASCII

`lower` writes the capital letters of ASCII small and leaves every other character alone.
-/

namespace Retouch.Text

/-- A text with its ASCII capitals written small. -/
def lower (t : Text) : Text := t.map Char.toLower

/-- Whether two texts differ at most in the case of ASCII letters. -/
def equalIgnoringCase (s t : Text) : Bool := lower s == lower t

/-- Whether a character is an ASCII capital. -/
def isCapital (c : Char) : Bool := 'A' ≤ c && c ≤ 'Z'

/-- Whether a character is a small ASCII letter. -/
def isSmall (c : Char) : Bool := 'a' ≤ c && c ≤ 'z'

/-- The code point of a lowered character. -/
theorem toNat_toLower (c : Char) :
    c.toLower.toNat = if 65 ≤ c.toNat ∧ c.toNat ≤ 90 then c.toNat + 32 else c.toNat := by
  by_cases h : c.val ≥ 'A'.val ∧ c.val ≤ 'Z'.val
  · have h1 : (65 : UInt32).toNat ≤ c.val.toNat := UInt32.le_iff_toNat_le.1 h.1
    have h2 : c.val.toNat ≤ (90 : UInt32).toNat := UInt32.le_iff_toNat_le.1 h.2
    have h1' : 65 ≤ c.toNat := h1
    have h2' : c.toNat ≤ 90 := h2
    rw [if_pos ⟨h1', h2'⟩]
    delta Char.toLower
    rw [dif_pos h]
    show (c.val + 32).toNat = c.val.toNat + 32
    rw [UInt32.toNat_add]
    have : (32 : UInt32).toNat = 32 := rfl
    have : c.val.toNat ≤ 90 := h2
    omega
  · have h' : ¬ (65 ≤ c.toNat ∧ c.toNat ≤ 90) := fun hn =>
      h ⟨UInt32.le_iff_toNat_le.2 hn.1, UInt32.le_iff_toNat_le.2 hn.2⟩
    rw [if_neg h']
    delta Char.toLower
    rw [dif_neg h]

theorem toLower_toLower (c : Char) : c.toLower.toLower = c.toLower := by
  apply Char.ext
  apply UInt32.toNat_inj.1
  show c.toLower.toLower.toNat = c.toLower.toNat
  have h := toNat_toLower c
  rw [toNat_toLower c.toLower]
  split at h <;> split <;> omega

theorem isBlank_toLower (c : Char) : isBlank c.toLower = isBlank c := by
  simp only [isBlank, toNat_toLower]
  rw [Bool.eq_iff_iff]
  simp only [Bool.or_eq_true, Bool.and_eq_true, decide_eq_true_eq, beq_iff_eq]
  split <;> omega

@[simp] theorem lower_lower (t : Text) : lower (lower t) = lower t := by
  rw [lower, lower, List.map_map]
  exact List.map_congr_left fun c _ => toLower_toLower c

theorem trim_lower (t : Text) : trim (lower t) = lower (trim t) :=
  trim_map isBlank_toLower t

end Retouch.Text

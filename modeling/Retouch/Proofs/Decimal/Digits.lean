import Retouch.Decimal.Layout
import Retouch.Json.Reader

/-!
# Digits of numbers

The digits that a whole number is written with are digits, begin with a zero only for zero itself,
and make the number again (`numberOf_digitsOf`). A number is shown as digits with a point and a sign
(`of_mem_displayFloat`).
-/

namespace Retouch.Decimal

open Layout (digitsOf)

/-- The digits of a number are the last one behind those of the number without it. -/
theorem digitsOf_eq (n : Nat) :
    digitsOf n = if n < 10 then [n] else digitsOf (n / 10) ++ [n % 10] := by
  have hlast : ∀ {d : Nat}, d < 10 → [Nat.digitChar d].map (fun c => c.toNat - 48) = [d] := by
    intro d hd
    rw [List.map_singleton, Nat.toNat_digitChar_sub_48_of_lt_ten hd]
  rw [digitsOf, Nat.toDigits_eq_if (by omega)]
  split
  · next h => exact hlast h
  · rw [List.map_append, hlast (Nat.mod_lt _ (by omega))]
    rfl

theorem digitsOf_lt {n : Nat} (h : n < 10) : digitsOf n = [n] := by
  rw [digitsOf_eq, if_pos h]

theorem digitsOf_ge {n : Nat} (h : ¬ n < 10) : digitsOf n = digitsOf (n / 10) ++ [n % 10] := by
  rw [digitsOf_eq, if_neg h]

theorem lt_of_mem_digitsOf {n d : Nat} (h : d ∈ digitsOf n) : d < 10 := by
  induction n using Nat.strongRecOn with
  | ind n ih =>
    by_cases hn : n < 10
    · rw [digitsOf_lt hn, List.mem_singleton] at h
      omega
    · rw [digitsOf_ge hn, List.mem_append, List.mem_singleton] at h
      rcases h with h | h
      · exact ih (n / 10) (by omega) h
      · omega

theorem digitsOf_ne_nil (n : Nat) : digitsOf n ≠ [] := by
  rw [digitsOf_eq]
  split
  · simp
  · simp

/-- Only zero begins with a zero. -/
theorem exists_digitsOf_eq_cons {n : Nat} (h : n ≠ 0) :
    ∃ d rest, digitsOf n = d :: rest ∧ d ≠ 0 := by
  induction n using Nat.strongRecOn with
  | ind n ih =>
    by_cases hn : n < 10
    · exact ⟨n, [], digitsOf_lt hn, h⟩
    · obtain ⟨d, rest, hdigits, hd⟩ := ih (n / 10) (by omega) (by omega)
      refine ⟨d, rest ++ [n % 10], ?_, hd⟩
      rw [digitsOf_ge hn, hdigits, List.cons_append]

/-- The digits of a number as characters. -/
theorem digitChars_digitsOf (n : Nat) : Literal.digitChars (digitsOf n) = Nat.toDigits 10 n := by
  induction n using Nat.strongRecOn with
  | ind n ih =>
    by_cases hn : n < 10
    · rw [digitsOf_lt hn, Nat.toDigits_of_lt_base hn]
      rfl
    · rw [digitsOf_ge hn, Nat.toDigits_of_base_le (by omega) (by omega), ← ih (n / 10) (by omega)]
      simp [Literal.digitChars]

/-- **Digits make their number.** -/
theorem numberOf_digitsOf (n : Nat) : Json.numberOf (digitsOf n) = n := by
  induction n using Nat.strongRecOn with
  | ind n ih =>
    by_cases hn : n < 10
    · rw [digitsOf_lt hn]
      simp [Json.numberOf]
    · have hrest := ih (n / 10) (by omega)
      rw [digitsOf_ge hn]
      unfold Json.numberOf at hrest ⊢
      rw [List.foldl_append, hrest]
      simp only [List.foldl_cons, List.foldl_nil]
      omega

/-- The literal of a whole number is that number. -/
theorem toInt?_ofNat (n : Nat) : (Literal.ofNat n).toInt? = some (n : Int) := by
  show some ((Json.numberOf (digitsOf n) : Nat) : Int) = some (n : Int)
  rw [numberOf_digitsOf]

/-- It is read as that number if it is small enough. -/
theorem toNat?_ofNat (n limit : Nat) :
    (Literal.ofNat n).toNat? limit = if n ≤ limit then some n else none := by
  rw [Literal.toNat?, toInt?_ofNat]

/-! ## Numbers as shown -/

/-- A decimal that is written out in full has decimal digits only. -/
theorem lt_of_mem_positionalLiteral {layout : Layout} {negative : Bool} {d : Decimal} {digit : Nat}
    (h : digit ∈ (layout.positionalLiteral negative d).whole ∨
      digit ∈ (layout.positionalLiteral negative d).fraction.getD []) : digit < 10 := by
  have hzero : ∀ {n : Nat}, digit ∈ List.replicate n 0 → digit < 10 := by
    intro n hmem
    rw [(List.mem_replicate.1 hmem).2]
    decide
  unfold Layout.positionalLiteral at h
  dsimp only at h
  split at h
  · rcases h with h | h
    · rcases List.mem_append.1 h with h | h
      · exact lt_of_mem_digitsOf h
      · exact hzero h
    · split at h
      · exact hzero (n := 1) h
      · cases h
  · split at h
    · rcases h with h | h
      · exact lt_of_mem_digitsOf (List.mem_of_mem_take h)
      · exact lt_of_mem_digitsOf (List.mem_of_mem_drop h)
    · rcases h with h | h
      · exact hzero (n := 1) h
      · rcases List.mem_append.1 h with h | h
        · exact hzero h
        · exact lt_of_mem_digitsOf h

/-- Digits are written as digits. -/
theorem isDigit_of_mem_digitChars {digits : List Nat} (h : ∀ digit ∈ digits, digit < 10) {c : Char}
    (hc : c ∈ Literal.digitChars digits) : c.isDigit = true := by
  obtain ⟨digit, hdigit, rfl⟩ := List.mem_map.1 hc
  have hall : ∀ digit < 10, (Nat.digitChar digit).isDigit = true := by decide
  exact hall digit (h digit hdigit)

/-- A decimal that is written out in full has no exponent. -/
theorem exponent_positionalLiteral (layout : Layout) (negative : Bool) (d : Decimal) :
    (layout.positionalLiteral negative d).exponent = none := by
  unfold Layout.positionalLiteral
  dsimp only
  split
  · rfl
  · split <;> rfl

/-- What a float is shown as: digits with a point and a sign, or a word for what is no number. -/
theorem of_mem_displayFloat {x : Float} {c : Char} (h : c ∈ displayFloat x) :
    c.isDigit = true ∨ c ∈ "-.NaNinf".toList := by
  unfold displayFloat at h
  split at h
  · next l hl =>
    obtain ⟨negative, d, rfl⟩ : ∃ negative d, l = Layout.display.positionalLiteral negative d := by
      unfold Layout.literal? at hl
      dsimp only at hl
      split at hl
      · cases hl
      · exact ⟨_, _, (Option.some.inj hl).symm⟩
    have hdigit : ∀ digit, (digit ∈ (Layout.display.positionalLiteral negative d).whole ∨
        digit ∈ (Layout.display.positionalLiteral negative d).fraction.getD []) → digit < 10 :=
      fun digit => lt_of_mem_positionalLiteral
    unfold Literal.write at h
    rw [exponent_positionalLiteral, List.append_nil] at h
    rcases List.mem_append.1 h with h | h
    · rcases List.mem_append.1 h with h | h
      · right
        split at h
        · rw [List.mem_singleton.1 h]
          decide
        · cases h
      · exact .inl (isDigit_of_mem_digitChars (fun digit hd => hdigit digit (.inl hd)) h)
    · split at h
      · cases h
      · next digits hfraction =>
        rcases List.mem_cons.1 h with rfl | h
        · exact .inr (by decide)
        · refine .inl (isDigit_of_mem_digitChars (fun digit hd => hdigit digit (.inr ?_)) h)
          rw [hfraction]
          exact hd
  · right
    have hwords : ∀ word ∈ ["NaN", "-inf", "inf"], word.toList ⊆ "-.NaNinf".toList := by decide
    refine hwords _ ?_ h
    split
    · decide
    · split <;> decide

end Retouch.Decimal
